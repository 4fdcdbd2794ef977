import BleGatt.Lib.FairLock
import BleGatt.Lib.Machine

namespace BleGatt

/-! Who has the platform connection of a dialled channel: from `connect_driver`
finished its senders, `close` and `Drop` to the call that disconnects it. -/

/-- What a task is for. -/
inductive SinkTask.Kind
  /-- `DatagramSender::send`, cut into so many fragments. -/
  | send (fragments : Nat)
  | priority
  /-- `close`, or `disconnect`, of the channel. -/
  | close
  /-- What `Drop` leaves to be done once the sink is free. -/
  | release
  /-- It was given the connection to disconnect. -/
  | teardown

inductive SinkTask.Stage
  /-- It was spawned, and asks for the sink once it is polled. -/
  | unpolled
  /-- It has asked for the sink; a `teardown` was not run yet. -/
  | waiting
  | writing (left : Nat)
  | requesting
  | disconnecting
  | returned
  | abandoned
  deriving DecidableEq

structure SinkTask where
  kind : SinkTask.Kind
  stage : SinkTask.Stage := .waiting
  /-- It was started through the channel itself, which it borrows. -/
  borrows : Bool := false
  /-- The channel was gone when it asked, and what `Drop` left had asked before. -/
  late : Bool := false

namespace SinkTask

def finished (task : SinkTask) : Bool :=
  match task.stage with
  | .returned | .abandoned => true
  | _ => false

/-- It is in the queue for the sink's lock. The task of `Drop` is polled before it
asks, and leaves the lock before it disconnects; one that was given the connection
needs none. -/
def asks (task : SinkTask) : Bool :=
  match task.kind, task.stage with
  | .teardown, _ => false
  | .release, .unpolled | .release, .disconnecting => false
  | _, .returned | _, .abandoned => false
  | _, _ => true

/-- It has the lock, and runs. -/
def holds (task : SinkTask) : Bool := task.asks && task.stage != .waiting

end SinkTask

/-- Where the platform connection is. -/
inductive ConnectionPlace
  | nowhere
  /-- `PendingConnection` -/
  | guarded
  | sink
  | task (number : Nat)
  | disconnected
  /-- Dropped while it was being disconnected. -/
  | abandoned
  deriving DecidableEq

/-- How far `connect_driver` is. -/
inductive ConnectSetup
  | dialling
  | subscribing
  | ready
  | ended
  deriving DecidableEq

structure DialledChannel where
  setup : ConnectSetup := .dialling
  place : ConnectionPlace := .nowhere
  /-- How often its disconnect was begun. -/
  begun : Nat := 0
  queue : List Nat := []
  tasks : List SinkTask := []
  dropped : Bool := false

inductive DialledInput
  /-- The driver connected; or did not, or the caller is gone. -/
  | connected
  | refused
  /-- The setup succeeded; or did not, or the caller is gone. -/
  | subscribed
  | failed
  /-- `sender().send` -/
  | send (fragments : Nat)
  | channelSend (fragments : Nat)
  | requestPriority
  | close
  /-- The task that `Drop` left runs for the first time. -/
  | poll (task : Nat)
  /-- A task has what it asked for. -/
  | run (task : Nat)
  | wrote (task : Nat) (ok : Bool)
  | answered (task : Nat)
  /-- Its caller does not wait for it. -/
  | cancel (task : Nat)
  | drop

namespace DialledChannel

def setTask (number : Nat) (task : SinkTask) (s : DialledChannel) : DialledChannel :=
  { s with tasks := s.tasks.set number task }

/-- A task asks for the sink. -/
def ask (task : SinkTask) (s : DialledChannel) : DialledChannel :=
  { s with tasks := s.tasks ++ [task], queue := s.queue ++ [s.tasks.length] }

/-- A task that leaves the lock, if it had it or waited for it. -/
def leave (number : Nat) (task : SinkTask) (s : DialledChannel) : DialledChannel :=
  { s.setTask number task with queue := s.queue.erase number }

/-- `tokio::spawn` of the disconnect. -/
def tearDown (s : DialledChannel) : DialledChannel :=
  { s with tasks := s.tasks ++ [{ kind := .teardown }], place := .task s.tasks.length }

/-- `&mut` of the channel is free. -/
def canBorrow (s : DialledChannel) : Bool :=
  s.setup == .ready && !s.dropped && s.tasks.all fun task => task.finished || !task.borrows

/-- What `Drop` left, if anything, has asked for the sink. -/
def polled (tasks : List SinkTask) : Bool := tasks.all fun task => task.stage != .unpolled

/-- It begins to disconnect the connection in the sink. -/
def take (number : Nat) (s : DialledChannel) : DialledChannel := { s with place := .task number, begun := s.begun + 1 }

def run (number : Nat) (task : SinkTask) (s : DialledChannel) : Option DialledChannel :=
  let returned := { task with stage := .returned }
  match task.kind with
  | .teardown => some ({ s with begun := s.begun + 1 }.setTask number { task with stage := .disconnecting })
  | .send fragments =>
    if s.queue.head? ≠ some number then none
    else if s.place = .sink ∧ fragments ≠ 0 then some (s.setTask number { task with stage := .writing fragments })
    else some (s.leave number returned)
  | .priority =>
    if s.queue.head? ≠ some number then none
    else if s.place = .sink then some (s.setTask number { task with stage := .requesting })
    else some (s.leave number returned)
  | .close =>
    if s.queue.head? ≠ some number then none
    else if s.place = .sink then some ((s.take number).setTask number { task with stage := .disconnecting })
    else some (s.leave number returned)
  | .release =>
    if s.queue.head? ≠ some number then none
    else if s.place = .sink then some ((s.take number).leave number { task with stage := .disconnecting })
    else some (s.leave number returned)

/-- The platform answers to the task's call. -/
def answered (number : Nat) (task : SinkTask) (s : DialledChannel) : Option DialledChannel :=
  match task.stage with
  | .requesting => some (s.leave number { task with stage := .returned })
  | .disconnecting => some { s.leave number { task with stage := .returned } with place := .disconnected }
  | _ => none

/-- A spawned task has no caller. -/
def cancel (number : Nat) (task : SinkTask) (s : DialledChannel) : Option DialledChannel :=
  match task.kind, task.stage with
  | .release, _ | .teardown, _ => none
  | _, .returned | _, .abandoned => none
  | _, .disconnecting => some { s.leave number { task with stage := .abandoned } with place := .abandoned }
  | _, _ => some (s.leave number { task with stage := .abandoned })

def step (s : DialledChannel) : DialledInput → Option DialledChannel
  | .connected => if s.setup = .dialling then some { s with setup := .subscribing, place := .guarded } else none
  | .refused => if s.setup = .dialling then some { s with setup := .ended } else none
  | .subscribed => if s.setup = .subscribing then some { s with setup := .ready, place := .sink } else none
  | .failed => if s.setup = .subscribing then some { s.tearDown with setup := .ended } else none
  | .send fragments =>
    if s.setup = .ready then some (s.ask { kind := .send fragments, late := s.dropped && polled s.tasks }) else none
  | .channelSend fragments => if s.canBorrow then some (s.ask { kind := .send fragments, borrows := true }) else none
  | .requestPriority => if s.canBorrow then some (s.ask { kind := .priority, borrows := true }) else none
  | .close => if s.canBorrow then some (s.ask { kind := .close, borrows := true }) else none
  | .poll number => do
    let task ← s.tasks[number]?
    if task.stage = .unpolled then
      some { s.setTask number { task with stage := .waiting } with queue := s.queue ++ [number] }
    else none
  | .run number => do
    let task ← s.tasks[number]?
    if task.stage = .waiting then s.run number task else none
  | .wrote number ok => do
    let task ← s.tasks[number]?
    match task.stage with
    | .writing left =>
      if ok && 1 < left then some (s.setTask number { task with stage := .writing (left - 1) })
      else some (s.leave number { task with stage := .returned })
    | _ => none
  | .answered number => do
    let task ← s.tasks[number]?
    s.answered number task
  | .cancel number => do
    let task ← s.tasks[number]?
    s.cancel number task
  | .drop =>
    if s.canBorrow then
      let s := { s with dropped := true }
      if s.queue.isEmpty then some (if s.place = .sink then s.tearDown else s)
      else some { s with tasks := s.tasks ++ [{ kind := .release, stage := .unpolled }] }
    else none

def machine : Machine DialledChannel DialledInput where
  Init s := s = {}
  step := step

end DialledChannel

namespace SinkTask

/-- It waits for the platform to answer, the connection in the sink. -/
def calls (task : SinkTask) : Bool :=
  match task.stage with
  | .writing _ | .requesting => true
  | _ => false

/-- The connection is with it. -/
def owns (task : SinkTask) : Bool :=
  match task.kind, task.stage with
  | _, .disconnecting | .teardown, .waiting => true
  | _, _ => false

/-- It is a task of its own, that nobody awaits. -/
def spawned (task : SinkTask) : Bool :=
  match task.kind with
  | .release | .teardown => true
  | _ => false

/-- It is where its kind comes. -/
def suits (task : SinkTask) : Bool :=
  match task.kind, task.stage with
  | .send _, .writing _ | .priority, .requesting | .release, .unpolled => true
  | _, .unpolled => false
  | _, .writing _ | _, .requesting => false
  | .send _, .disconnecting | .priority, .disconnecting => false
  | .release, .abandoned | .teardown, .abandoned => false
  | _, _ => true

variable {task : SinkTask}

/-- Only a send or a request of the priority calls, and it has the lock. -/
theorem of_calls (calling : task.calls = true) (suits : task.suits = true) :
    task.holds = true ∧ task.asks = true ∧ task.owns = false ∧ task.finished = false ∧ task.kind ≠ .close ∧ task.spawned = false := by
  obtain ⟨kind, stage, _, _⟩ := task
  cases kind <;> cases stage <;> simp_all [calls, SinkTask.suits, holds, asks, owns, finished, spawned]

theorem polled_of_finished (finished : task.finished = true) : task.stage ≠ .unpolled := by
  intro unpolled
  rw [SinkTask.finished, unpolled] at finished
  cases finished

theorem quiet_of_finished (finished : task.finished = true) :
    task.asks = false ∧ task.holds = false ∧ task.calls = false ∧ task.owns = false := by
  obtain ⟨kind, stage, _, _⟩ := task
  cases kind <;> cases stage <;> first | exact ⟨rfl, rfl, rfl, rfl⟩ | cases finished

end SinkTask

/-- It is still to be disconnected. -/
def ConnectionPlace.unbegun : ConnectionPlace → Bool
  | nowhere | guarded | sink => true
  | _ => false

namespace DialledChannel

variable {s t : DialledChannel} {n m : Nat} {task old new : SinkTask}

/-- The task of `Drop` is ahead of every send that asked after it. -/
def Left (tasks : List SinkTask) (queue : List Nat) : Prop :=
  ∃ (n : Nat) (task : SinkTask), tasks[n]? = some task ∧ task.kind = .release ∧ (task.stage = .unpolled ∨ task.stage = .waiting) ∧
    ∀ (m : Nat) (other : SinkTask), tasks[m]? = some other → other.late = true → other.asks = true →
      FairLock.Ahead queue n m

structure Sound (s : DialledChannel) : Prop where
  lock : FairLock.Sound SinkTask.asks SinkTask.holds s.tasks s.queue
  calling : ∀ (n : Nat) (task : SinkTask), s.tasks[n]? = some task → task.calls = true → s.place = .sink
  owner : ∀ n, s.place = .task n ↔ ∃ task, s.tasks[n]? = some task ∧ task.owns = true
  before : s.place.unbegun = true → s.begun = 0
  during : ∀ (n : Nat) (task : SinkTask), s.place = .task n → s.tasks[n]? = some task →
    s.begun = if task.stage = .disconnecting then 1 else 0
  after : s.place = .disconnected ∨ s.place = .abandoned → s.begun = 1
  guarded : s.place = .guarded ↔ s.setup = .subscribing
  ready : s.place = .sink → s.setup = .ready
  dialling : s.setup = .dialling → s.place = .nowhere
  nowhere : s.place = .nowhere → s.setup ≠ .ready
  early : s.setup ≠ .ready → s.queue = [] ∧ s.dropped = false
  fresh : s.setup = .dialling ∨ s.setup = .subscribing → s.tasks = []
  left : s.dropped = true → s.place = .sink → Left s.tasks s.queue
  late : ∀ (n : Nat) (task : SinkTask), s.tasks[n]? = some task → task.late = true →
    s.dropped = true ∧ polled s.tasks = true ∧ (task.stage = .waiting ∨ task.finished = true)
  closed : ∀ (n : Nat) (task : SinkTask), s.tasks[n]? = some task → task.kind = .close → task.stage = .returned → s.place ≠ .sink
  released : s.dropped = true → ∀ (n : Nat) (task : SinkTask), s.tasks[n]? = some task → task.borrows = true → task.finished = true
  suits : ∀ (n : Nat) (task : SinkTask), s.tasks[n]? = some task → task.suits = true
  spawned : ∀ (n : Nat) (task : SinkTask), s.tasks[n]? = some task → task.spawned = true →
    task.late = false ∧ task.borrows = false
  dropping : ∀ (n : Nat) (task : SinkTask), s.tasks[n]? = some task → task.kind = .release → s.dropped = true
  lost : s.place = .abandoned → ∃ (n : Nat) (task : SinkTask), s.tasks[n]? = some task ∧ task.kind = .close ∧ task.stage = .abandoned

theorem polled_set (before : polled s.tasks = true) (stage : new.stage ≠ .unpolled) : polled (s.tasks.set n new) = true := by
  rw [polled, List.all_eq_true] at before ⊢
  intro task member
  rcases List.mem_or_eq_of_mem_set member with old | rfl
  · exact before task old
  · simpa using stage

theorem polled_append (before : polled s.tasks = true) (stage : new.stage ≠ .unpolled) :
    polled (s.tasks ++ [new]) = true := by
  rw [polled, List.all_append, ← polled, before]
  simpa using stage

namespace Sound

/-- Nobody has the connection while it is in the sink, or not there. -/
theorem idle (sound : Sound s) (place : ∀ n, s.place ≠ .task n) (here : s.tasks[n]? = some task) : task.owns = false := by
  by_contra own
  exact place n ((sound.owner n).mpr ⟨task, here, by simpa using own⟩)

/-- Whoever calls has the lock. -/
theorem holds (sound : Sound s) (here : s.tasks[n]? = some task) (calling : task.calls = true) : task.holds = true :=
  (SinkTask.of_calls calling (sound.suits n task here)).1

/-- Where another task is in front, nobody calls. -/
theorem uncalled (sound : Sound s) (front : s.queue.head? = some n) (here : s.tasks[n]? = some task)
    (waiting : task.stage = .waiting) {other : SinkTask} (there : s.tasks[m]? = some other) : other.calls = false := by
  by_contra calling
  have calling : other.calls = true := by simpa using calling
  have same : n = m := Option.some.inj (front.symm.trans (sound.lock.front m other there (sound.holds there calling)))
  subst same
  cases Option.some.inj (here.symm.trans there)
  rw [SinkTask.calls, waiting] at calling
  cases calling

/-- A send that asks after the drop never has the lock with the connection there. -/
theorem punctual (sound : Sound s) (front : s.queue.head? = some n) (here : s.tasks[n]? = some task) (sink : s.place = .sink)
    (asks : task.asks = true) : task.late = false := by
  by_contra late
  have late : task.late = true := by simpa using late
  obtain ⟨_, _, _, _, _, ahead⟩ := sound.left (sound.late n task here late).1 sink
  exact (ahead n task here late asks).not_front sound.lock.nodup front

/-- Who borrows the channel is over when it is dropped. -/
theorem unlent (sound : Sound s) (dropped : s.dropped = true) (here : s.tasks[n]? = some task) (active : task.finished = false) :
    task.borrows = false := by
  by_contra borrows
  rw [sound.released dropped n task here (by simpa using borrows)] at active
  cases active

/-- A task of its own is one when it goes on. -/
theorem spawned_of (sound : Sound s) (here : s.tasks[n]? = some old) (kind : new.kind = old.kind) (late : new.late = old.late)
    (borrows : new.borrows = old.borrows) (is : new.spawned = true) : new.late = false ∧ new.borrows = false := by
  have was : old.spawned = true := by
    rw [SinkTask.spawned, ← kind]
    exact is
  rw [late, borrows]
  exact sound.spawned n old here was

/-- Where a task goes on, and is not back to be polled. -/
theorem late_set (sound : Sound s) (stage : new.stage ≠ .unpolled) : TaskList.Each (fun _ task => task.late = true →
    s.dropped = true ∧ polled (s.tasks.set n new) = true ∧ (task.stage = .waiting ∨ task.finished = true)) s.tasks := by
  intro k found there is
  obtain ⟨dropped, before, after⟩ := sound.late k found there is
  exact ⟨dropped, polled_set before stage, after⟩

/-- One task goes on, and the connection stays where it is. -/
theorem replace {queue : List Nat} (sound : Sound s) (here : s.tasks[n]? = some old) (kind : new.kind = old.kind)
    (late : new.late = old.late) (borrows : new.borrows = old.borrows) (active : old.finished = false)
    (lock : FairLock.Sound SinkTask.asks SinkTask.holds (s.tasks.set n new) queue)
    (free : old.owns = false ∧ new.owns = false) (sink : new.calls = true → s.place = .sink)
    (early : s.setup ≠ .ready → queue = []) (left : s.dropped = true → s.place = .sink → Left (s.tasks.set n new) queue)
    (punctual : new.late = true → new.stage = .waiting ∨ new.finished = true) (polled : new.stage ≠ .unpolled)
    (closed : new.kind = .close → new.stage = .returned → s.place ≠ .sink)
    (suits : new.suits = true) : Sound { s with tasks := s.tasks.set n new, queue := queue } := by
  refine { sound with
    lock := lock, calling := TaskList.Each.set sound.calling sink, owner := ?_, during := ?_
    early := fun other => ⟨early other, (sound.early other).2⟩, fresh := fun setup => by simp [sound.fresh setup], left := left
    late := TaskList.Each.set (sound.late_set polled) ?_, closed := TaskList.Each.set sound.closed closed, released := ?_
    suits := TaskList.Each.set sound.suits suits
    spawned := TaskList.Each.set sound.spawned (sound.spawned_of here kind late borrows)
    dropping := TaskList.Each.set sound.dropping fun is => sound.dropping n old here (kind ▸ is), lost := ?_ }
  · intro k
    rw [sound.owner, TaskList.getElem?_set here]
    split
    · rename_i mine
      subst mine
      simp [here, free.1, free.2]
    · rfl
  · intro k found place there
    obtain ⟨rfl, rfl⟩ | ⟨_, there⟩ := TaskList.of_set there
    · obtain ⟨owner, there, owns⟩ := (sound.owner k).mp place
      cases Option.some.inj (here.symm.trans there)
      rw [free.1] at owns
      cases owns
    · exact sound.during k found place there
  · intro is
    obtain ⟨dropped, before, _⟩ := sound.late n old here (late ▸ is)
    exact ⟨dropped, polled_set before polled, punctual is⟩
  · intro dropped
    refine TaskList.Each.set (sound.released dropped) ?_
    intro is
    rw [borrows, sound.unlent dropped here active] at is
    cases is
  · intro place
    obtain ⟨k, found, there, is, abandoned⟩ := sound.lost place
    refine ⟨k, found, ?_, is, abandoned⟩
    rw [TaskList.getElem?_set here, if_neg]
    · exact there
    · rintro rfl
      cases Option.some.inj (here.symm.trans there)
      rw [SinkTask.finished, abandoned] at active
      cases active

/-- The task of `Drop` still waits where another task goes on. -/
theorem left_set {queue : List Nat} (sound : Sound s) (dropped : s.dropped = true) (sink : s.place = .sink)
    (here : s.tasks[n]? = some old) (apart : old.kind ≠ .release) (prompt : new.late = true → new.asks = false)
    (kept : ∀ r m : Nat, r ≠ n → m ≠ n → FairLock.Ahead s.queue r m → FairLock.Ahead queue r m) :
    Left (s.tasks.set n new) queue := by
  obtain ⟨r, release, there, is, waiting, ahead⟩ := sound.left dropped sink
  have other : r ≠ n := by
    rintro rfl
    cases Option.some.inj (here.symm.trans there)
    exact apart is
  refine ⟨r, release, ?_, is, waiting, ?_⟩
  · rw [TaskList.getElem?_set here, if_neg other]
    exact there
  · intro m found there late asks
    obtain ⟨_, rfl⟩ | ⟨different, there⟩ := TaskList.of_set there
    · rw [prompt late] at asks
      cases asks
    · exact kept r m other different (ahead m found there late asks)

/-- A task in front calls the connection in the sink. -/
theorem stay (sound : Sound s) (here : s.tasks[n]? = some old) (kind : new.kind = old.kind) (late : new.late = old.late)
    (borrows : new.borrows = old.borrows) (active : old.finished = false ∧ old.asks = true ∧ old.owns = false)
    (calls : new.calls = true) (suits : new.suits = true) (sink : s.place = .sink) (front : s.queue.head? = some n) :
    Sound (s.setTask n new) := by
  obtain ⟨active, asks, unowned⟩ := active
  obtain ⟨_, asks', unowned', _, _, awaited⟩ := SinkTask.of_calls calls suits
  have punctual : new.late = false := late.trans (sound.punctual front here sink asks)
  refine sound.replace here kind late borrows active (sound.lock.set here (asks'.trans asks.symm) fun _ => front)
    ⟨unowned, unowned'⟩ (fun _ => sink) (fun other => (sound.early other).1) ?_ ?_ ?_ ?_ suits
  · intro dropped _
    refine sound.left_set dropped sink here ?_ (by simp [punctual]) fun _ _ _ _ ahead => ahead
    intro release
    rw [SinkTask.spawned, kind, release] at awaited
    cases awaited
  · intro is
    rw [punctual] at is
    cases is
  · intro unpolled
    rw [SinkTask.calls, unpolled] at calls
    cases calls
  · intro _ returned
    rw [SinkTask.calls, returned] at calls
    cases calls

/-- A task is done with the sink, and did not take the connection. -/
theorem leave (sound : Sound s) (here : s.tasks[n]? = some old) (kind : new.kind = old.kind) (late : new.late = old.late)
    (borrows : new.borrows = old.borrows) (active : old.finished = false) (finished : new.finished = true) (free : old.owns = false)
    (closed : new.kind = .close → new.stage = .returned → s.place ≠ .sink) (release : old.kind = .release → s.place ≠ .sink)
    (suits : new.suits = true) : Sound (s.leave n new) := by
  obtain ⟨asks, holds, calls, owns⟩ := SinkTask.quiet_of_finished finished
  refine sound.replace here kind late borrows active (sound.lock.leave here asks holds) ⟨free, owns⟩ ?_ ?_ ?_ (fun _ => .inr finished)
    (SinkTask.polled_of_finished finished) closed suits
  · intro calling
    rw [calls] at calling
    cases calling
  · intro other
    rw [(sound.early other).1]
    rfl
  · intro dropped sink
    refine sound.left_set dropped sink here (fun is => release is sink) (by simp [asks]) ?_
    intro r m other apart ahead
    exact ahead.leave (Ne.symm other) (Ne.symm apart)

/-- A task is started, and the channel may be gone with it. -/
theorem join {dropped : Bool} {queue : List Nat} (sound : Sound s) (suits : task.suits = true)
    (stage : task.stage = .waiting ∨ task.stage = .unpolled) (owns : task.owns = false) (ready : s.setup = .ready)
    (lock : FairLock.Sound SinkTask.asks SinkTask.holds (s.tasks ++ [task]) queue) (later : s.dropped = true → dropped = true)
    (before : s.dropped = true → task.stage ≠ .unpolled)
    (late : task.late = true → dropped = true ∧ polled (s.tasks ++ [task]) = true ∧ task.stage = .waiting)
    (released : dropped = true → TaskList.Each (fun _ other => other.borrows = true → other.finished = true) (s.tasks ++ [task]))
    (spawned : task.spawned = true → task.late = false ∧ task.borrows = false) (dropping : task.kind = .release → dropped = true)
    (left : dropped = true → s.place = .sink → Left (s.tasks ++ [task]) queue) :
    Sound { s with dropped := dropped, tasks := s.tasks ++ [task], queue := queue } := by
  have calls : task.calls = false := by
    obtain is | is := stage <;> rw [SinkTask.calls, is]
  have unfinished : task.stage ≠ .returned := by
    obtain is | is := stage <;> simp [is]
  refine { sound with
    lock := lock, calling := TaskList.Each.start sound.calling (by simp [calls]), owner := ?_, during := ?_
    early := fun other => absurd ready other, fresh := by simp [ready], left := left
    late := TaskList.Each.start ?_ ?_, closed := TaskList.Each.start sound.closed (by simp [unfinished]), released := released
    suits := TaskList.Each.start sound.suits suits, spawned := TaskList.Each.start sound.spawned spawned
    dropping := TaskList.Each.start ?_ dropping, lost := ?_ }
  · intro k
    refine (sound.owner k).trans ?_
    constructor
    · rintro ⟨found, there, own⟩
      exact ⟨found, TaskList.getElem?_append_of there _, own⟩
    · rintro ⟨found, there, own⟩
      obtain there | ⟨_, rfl⟩ := TaskList.of_append there
      · exact ⟨found, there, own⟩
      · rw [owns] at own
        cases own
  · intro k found place there
    obtain ⟨owner, there', own⟩ := (sound.owner k).mp place
    obtain there | ⟨rfl, _⟩ := TaskList.of_append there
    · exact sound.during k found place there
    · exact absurd (TaskList.lt_length there') (Nat.lt_irrefl _)
  · intro k found there is
    obtain ⟨gone, all, stage⟩ := sound.late k found there is
    exact ⟨later gone, polled_append all (before gone), stage⟩
  · intro is
    obtain ⟨gone, all, waiting⟩ := late is
    exact ⟨gone, all, .inl waiting⟩
  · intro k found there is
    exact later (sound.dropping k found there is)
  · intro place
    obtain ⟨k, found, there, is⟩ := sound.lost place
    exact ⟨k, found, TaskList.getElem?_append_of there _, is⟩

/-- A call of the channel or of a sender asks for the sink. -/
theorem ask (sound : Sound s) (awaited : task.spawned = false) (waiting : task.stage = .waiting) (ready : s.setup = .ready)
    (late : task.late = true ↔ s.dropped = true ∧ polled s.tasks = true) (lends : s.dropped = true → task.borrows = false) :
    Sound (s.ask task) := by
  have part : task.asks = true ∧ task.holds = false ∧ task.owns = false ∧ task.suits = true ∧ task.kind ≠ .release := by
    obtain ⟨kind, stage, _, _⟩ := task
    cases waiting
    cases kind with
    | release | teardown => cases awaited
    | send | priority | close => exact ⟨rfl, rfl, rfl, rfl, by simp⟩
  obtain ⟨asks, holds, owns, suits, apart⟩ := part
  have other : task.stage ≠ .unpolled := by simp [waiting]
  refine sound.join suits (.inl waiting) owns ready (sound.lock.join asks holds) id (fun _ => other) ?_ ?_ (by simp [awaited])
    (fun is => absurd is apart) ?_
  · intro is
    obtain ⟨dropped, all⟩ := late.mp is
    exact ⟨dropped, polled_append all other, waiting⟩
  · intro dropped
    exact TaskList.Each.start (sound.released dropped) (by simp [lends dropped])
  · intro dropped sink
    obtain ⟨r, release, there, is, stage, ahead⟩ := sound.left dropped sink
    refine ⟨r, release, TaskList.getElem?_append_of there _, is, stage, ?_⟩
    intro m found there' late_ asking
    obtain there' | ⟨rfl, rfl⟩ := TaskList.of_append there'
    · exact (ahead m found there' late_ asking).more _
    · -- it is late only where that task was polled, and so is in the queue
      have member := List.mem_of_getElem? there
      have all := (late.mp late_).2
      rw [polled, List.all_eq_true] at all
      have was := stage.resolve_left (by simpa using all release member)
      have asked : release.asks = true := by
        rw [SinkTask.asks, is, was]
      exact FairLock.Ahead.join ((sound.lock.queued r).mpr ⟨release, there, asked⟩) _

/-- The task of `Drop` asks for the sink. -/
theorem poll (sound : Sound s) (here : s.tasks[n]? = some task) (unpolled : task.stage = .unpolled) :
    Sound { s.setTask n { task with stage := .waiting } with queue := s.queue ++ [n] } := by
  have suits := sound.suits n task here
  obtain ⟨kind, stage, borrows, late⟩ := task
  cases unpolled
  cases kind with
  | send | priority | close | teardown => cases suits
  | release =>
    have gone := sound.dropping n _ here rfl
    have prompt : ∀ (m : Nat) (other : SinkTask), s.tasks[m]? = some other → other.late = false := by
      intro m other there
      by_contra is
      have all := (sound.late m other there (by simpa using is)).2.1
      rw [polled, List.all_eq_true] at all
      have polled := all _ (List.mem_of_getElem? here)
      simp at polled
    refine sound.replace here rfl rfl rfl rfl (sound.lock.enter here rfl rfl rfl) ⟨rfl, rfl⟩ (by simp [SinkTask.calls]) ?_ ?_
      (fun _ => .inl rfl) (by simp) (by simp) rfl
    · intro other
      rw [(sound.early other).2] at gone
      cases gone
    · intro _ _
      refine ⟨n, _, TaskList.getElem?_set_self here, rfl, .inr rfl, ?_⟩
      intro m other there is
      obtain ⟨_, rfl⟩ | ⟨_, there⟩ := TaskList.of_set there
      · cases (show late = true from is).symm.trans (prompt n _ here)
      · rw [prompt m other there] at is
        cases is

/-- The task in front takes the connection out of the sink, to disconnect it. -/
theorem take {queue : List Nat} (sound : Sound s) (here : s.tasks[n]? = some old) (kind : new.kind = old.kind)
    (late : new.late = old.late) (borrows : new.borrows = old.borrows) (waiting : old.stage = .waiting)
    (asks : old.asks = true) (disconnecting : new.stage = .disconnecting) (sink : s.place = .sink)
    (front : s.queue.head? = some n) (lock : FairLock.Sound SinkTask.asks SinkTask.holds (s.tasks.set n new) queue)
    (suits : new.suits = true) :
    Sound { s with tasks := s.tasks.set n new, queue := queue, place := .task n, begun := s.begun + 1 } := by
  have ready := sound.ready sink
  have punctual : new.late = false := late.trans (sound.punctual front here sink asks)
  have owns : new.owns = true := by
    rw [SinkTask.owns, disconnecting]
  have nobody : ∀ (m : Nat) (other : SinkTask), s.tasks[m]? = some other → other.owns = false :=
    fun m other there => sound.idle (fun k is => by rw [sink] at is; cases is) there
  refine {
    lock := lock, calling := ?_, owner := ?_, before := by simp [ConnectionPlace.unbegun], during := ?_, after := by simp
    guarded := by simp [ready], ready := by simp, dialling := by simp [ready], nowhere := by simp
    early := fun other => absurd ready other, fresh := by simp [ready], left := by simp
    late := TaskList.Each.set (sound.late_set (by simp [disconnecting])) (by simp [punctual]), closed := by simp, released := ?_
    suits := TaskList.Each.set sound.suits suits
    spawned := TaskList.Each.set sound.spawned (sound.spawned_of here kind late borrows)
    dropping := TaskList.Each.set sound.dropping fun is => sound.dropping n old here (kind ▸ is), lost := by simp }
  · refine TaskList.Each.replace sound.calling ?_ (by simp [SinkTask.calls, disconnecting])
    intro k found _ there _ calling
    rw [sound.uncalled front here waiting there] at calling
    cases calling
  · intro k
    rw [TaskList.getElem?_set here]
    constructor
    · intro is
      cases is
      exact ⟨new, if_pos rfl, owns⟩
    · rintro ⟨found, there, own⟩
      split at there
      · rename_i mine
        rw [mine]
      · rw [nobody k found there] at own
        cases own
  · intro k found is there
    cases is
    obtain ⟨_, rfl⟩ | ⟨other, _⟩ := TaskList.of_set there
    · rw [if_pos disconnecting, sound.before (by rw [sink]; rfl)]
    · exact absurd rfl other
  · intro dropped
    refine TaskList.Each.set (sound.released dropped) ?_
    intro is
    rw [borrows, sound.unlent dropped here (by rw [SinkTask.finished, waiting])] at is
    cases is

/-- The task that disconnects the connection is over, and so is the connection. -/
theorem settle {place : ConnectionPlace} (sound : Sound s) (here : s.tasks[n]? = some old) (kind : new.kind = old.kind)
    (late : new.late = old.late) (borrows : new.borrows = old.borrows) (disconnecting : old.stage = .disconnecting)
    (finished : new.finished = true) (suits : new.suits = true) (ended : place = .disconnected ∧ new.stage = .returned ∨
      place = .abandoned ∧ new.kind = .close ∧ new.stage = .abandoned) : Sound { s.leave n new with place := place } := by
  obtain ⟨asks, holds, calls, owns⟩ := SinkTask.quiet_of_finished finished
  have mine : s.place = .task n := by
    refine (sound.owner n).mpr ⟨old, here, ?_⟩
    rw [SinkTask.owns, disconnecting]
  have begun : s.begun = 1 := by
    rw [sound.during n old mine here, if_pos disconnecting]
  have polled := SinkTask.polled_of_finished finished
  have away : place ≠ .sink ∧ place ≠ .guarded ∧ place ≠ .nowhere ∧ place.unbegun = false ∧ ∀ k, place ≠ .task k := by
    obtain ⟨rfl, _⟩ | ⟨rfl, _⟩ := ended <;> simp [ConnectionPlace.unbegun]
  obtain ⟨unsunk, unguarded, somewhere, unbegun, untaken⟩ := away
  refine {
    lock := sound.lock.leave here asks holds, calling := ?_, owner := ?_, before := ?_, during := ?_, after := fun _ => begun
    guarded := ?_, ready := fun is => absurd is unsunk, dialling := ?_, nowhere := fun is => absurd is somewhere
    early := ?_, fresh := fun setup => by simp [DialledChannel.leave, setTask, sound.fresh setup]
    left := fun _ is => absurd is unsunk, late := TaskList.Each.set (sound.late_set polled) ?_, closed := fun _ _ _ _ _ => unsunk
    released := fun dropped => TaskList.Each.set (sound.released dropped) fun _ => finished
    suits := TaskList.Each.set sound.suits suits
    spawned := TaskList.Each.set sound.spawned (sound.spawned_of here kind late borrows)
    dropping := TaskList.Each.set sound.dropping fun is => sound.dropping n old here (kind ▸ is), lost := ?_ }
  · refine TaskList.Each.replace sound.calling ?_ (by simp [calls])
    intro k found _ _ sink calling
    rw [mine] at sink
    cases sink calling
  · intro k
    constructor
    · intro is
      exact absurd is (untaken k)
    · rintro ⟨found, there, own⟩
      obtain ⟨_, rfl⟩ | ⟨other, there⟩ := TaskList.of_set there
      · rw [owns] at own
        cases own
      · have theirs := (sound.owner k).mpr ⟨found, there, own⟩
        rw [mine, ConnectionPlace.task.injEq] at theirs
        exact absurd theirs.symm other
  · intro is
    rw [unbegun] at is
    cases is
  · intro k _ is
    exact absurd is (untaken k)
  · constructor
    · intro is
      exact absurd is unguarded
    · intro is
      have guarded := sound.guarded.mpr is
      rw [mine] at guarded
      cases guarded
  · intro is
    have nowhere := sound.dialling is
    rw [mine] at nowhere
    cases nowhere
  · intro other
    obtain ⟨empty, kept⟩ := sound.early other
    refine ⟨?_, kept⟩
    change s.queue.erase n = []
    rw [empty]
    rfl
  · intro is
    obtain ⟨dropped, before, _⟩ := sound.late n old here (late ▸ is)
    exact ⟨dropped, polled_set before polled, .inr finished⟩
  · intro is
    obtain ⟨other, _⟩ | ⟨_, close, abandoned⟩ := ended
    · rw [other] at is
      cases is
    · exact ⟨n, new, TaskList.getElem?_set_self here, close, abandoned⟩

/-- Where nobody is at the sink, nobody calls or waits. -/
theorem unasked (sound : Sound s) (empty : s.queue = []) (here : s.tasks[n]? = some task) :
    task.asks = false ∧ task.calls = false := by
  have asks : task.asks = false := by
    by_contra asking
    have member := (sound.lock.queued n).mpr ⟨task, here, by simpa using asking⟩
    rw [empty] at member
    cases member
  refine ⟨asks, ?_⟩
  by_contra calling
  have holding := sound.holds here (by simpa using calling)
  rw [SinkTask.holds, asks] at holding
  cases holding

/-- The connection is handed to a task of its own, out of the guard or a sink that
nobody is at. -/
theorem tearDown {setup : ConnectSetup} {dropped : Bool} (sound : Sound s) (unbegun : s.place.unbegun = true)
    (empty : s.queue = []) (placed : setup ≠ .dialling ∧ setup ≠ .subscribing) (early : setup ≠ .ready → dropped = false)
    (later : s.dropped = true → dropped = true)
    (released : dropped = true → ∀ (n : Nat) (task : SinkTask), s.tasks[n]? = some task → task.borrows = true → task.finished = true) :
    Sound { s.tearDown with setup := setup, dropped := dropped } := by
  have away : ∀ k, s.place ≠ .task k := by
    intro k is
    rw [is] at unbegun
    cases unbegun
  have began := sound.before unbegun
  refine {
    lock := sound.lock.start rfl rfl, calling := ?_, owner := ?_, before := fun is => absurd is (by simp [DialledChannel.tearDown, ConnectionPlace.unbegun])
    during := ?_, after := by simp [DialledChannel.tearDown], guarded := ?_, ready := by simp [DialledChannel.tearDown]
    dialling := fun is => absurd is placed.1, nowhere := by simp [DialledChannel.tearDown]
    early := fun other => ⟨empty, early other⟩, fresh := fun is => absurd is (by simp [placed]), left := by simp [DialledChannel.tearDown]
    late := TaskList.Each.start ?_ (by simp), closed := by simp [DialledChannel.tearDown]
    released := fun gone => TaskList.Each.start (released gone) (by simp)
    suits := TaskList.Each.start sound.suits rfl, spawned := TaskList.Each.start sound.spawned fun _ => ⟨rfl, rfl⟩
    dropping := TaskList.Each.start (fun k found there is => later (sound.dropping k found there is)) (by simp)
    lost := by simp [DialledChannel.tearDown] }
  · refine TaskList.Each.start ?_ (by simp [SinkTask.calls])
    intro k found there calling
    rw [(sound.unasked empty there).2] at calling
    cases calling
  · intro k
    constructor
    · intro is
      cases is
      exact ⟨_, List.getElem?_concat_length, rfl⟩
    · rintro ⟨found, there, own⟩
      obtain there | ⟨rfl, _⟩ := TaskList.of_append there
      · rw [sound.idle away there] at own
        cases own
      · rfl
  · intro k found is there
    cases is
    obtain there | ⟨_, rfl⟩ := TaskList.of_append there
    · exact absurd (TaskList.lt_length there) (Nat.lt_irrefl _)
    · exact began
  · constructor
    · intro is
      cases is
    · intro is
      exact absurd is placed.2
  · intro k found there is
    obtain ⟨gone, all, stage⟩ := sound.late k found there is
    exact ⟨later gone, polled_append all (by simp), stage⟩

/-- That task is run for the first time. -/
theorem begin_ (sound : Sound s) (here : s.tasks[n]? = some old) (kind : old.kind = .teardown) (waiting : old.stage = .waiting) :
    Sound ({ s with begun := s.begun + 1 }.setTask n { old with stage := .disconnecting }) := by
  have owns : old.owns = true := by
    rw [SinkTask.owns, kind, waiting]
  have mine : s.place = .task n := (sound.owner n).mpr ⟨old, here, owns⟩
  have began : s.begun = 0 := by
    rw [sound.during n old mine here, if_neg (by simp [waiting])]
  have asks : old.asks = false := by
    rw [SinkTask.asks, kind]
  have asks' : { old with stage := SinkTask.Stage.disconnecting }.asks = false := by
    simp only [SinkTask.asks, kind]
  have spawned : old.spawned = true := by
    rw [SinkTask.spawned, kind]
  obtain ⟨punctual, lends⟩ := sound.spawned n old here spawned
  refine { sound with
    lock := ?_, calling := TaskList.Each.set sound.calling (by simp [SinkTask.calls]), owner := ?_, before := ?_, during := ?_
    after := ?_, fresh := fun setup => by simp [setTask, sound.fresh setup], left := ?_
    late := TaskList.Each.set (sound.late_set (by simp)) (by simp [punctual]), closed := TaskList.Each.set sound.closed (by simp)
    released := fun dropped => TaskList.Each.set (sound.released dropped) (by simp [lends])
    suits := TaskList.Each.set sound.suits (by simp only [SinkTask.suits, kind])
    spawned := TaskList.Each.set sound.spawned fun _ => ⟨punctual, lends⟩
    dropping := TaskList.Each.set sound.dropping (by simp [kind]), lost := ?_ }
  · refine sound.lock.set here (asks'.trans asks.symm) ?_
    intro holding
    rw [SinkTask.holds, asks'] at holding
    cases holding
  · intro k
    by_cases same : k = n
    · subst same
      exact iff_of_true mine ⟨_, TaskList.getElem?_set_self here, rfl⟩
    · refine (sound.owner k).trans (exists_congr fun found => and_congr_left' ?_)
      change _ ↔ (s.tasks.set n _)[k]? = some found
      rw [TaskList.getElem?_set here, if_neg same]
  · intro is
    rw [DialledChannel.setTask, mine] at is
    cases is
  · intro k found is there
    obtain ⟨_, rfl⟩ | ⟨other, _⟩ := TaskList.of_set there
    · rw [if_pos rfl]
      exact congrArg Nat.succ began
    · have theirs : ConnectionPlace.task n = .task k := mine.symm.trans is
      rw [ConnectionPlace.task.injEq] at theirs
      exact absurd theirs.symm other
  · rintro (is | is)
    · rw [DialledChannel.setTask, mine] at is
      cases is
    · rw [DialledChannel.setTask, mine] at is
      cases is
  · intro _ is
    rw [DialledChannel.setTask, mine] at is
    cases is
  · intro is
    rw [DialledChannel.setTask, mine] at is
    cases is

/-- The channel's own calls are over when it is dropped. -/
theorem borrowable (can : s.canBorrow = true) : s.setup = .ready ∧ s.dropped = false ∧
    ∀ (n : Nat) (task : SinkTask), s.tasks[n]? = some task → task.borrows = true → task.finished = true := by
  simp only [canBorrow, Bool.and_eq_true, beq_iff_eq, Bool.not_eq_true', List.all_eq_true, Bool.or_eq_true] at can
  obtain ⟨⟨ready, held⟩, all⟩ := can
  refine ⟨ready, held, ?_⟩
  intro n task there borrows
  obtain finished | free := all task (List.mem_of_getElem? there)
  · exact finished
  · rw [borrows] at free
    cases free

/-- `Drop`, as far as it does not come to the sink. -/
theorem dropped (sound : Sound s) (can : s.canBorrow = true) (away : s.place ≠ .sink) : Sound { s with dropped := true } := by
  obtain ⟨ready, _, lent⟩ := borrowable can
  refine { sound with
    early := fun other => absurd ready other, left := fun _ sink => absurd sink away, late := ?_, released := fun _ => lent
    dropping := fun _ _ _ _ => rfl }
  intro n task there is
  exact ⟨rfl, (sound.late n task there is).2⟩

theorem release (sound : Sound s) (can : s.canBorrow = true) :
    Sound { s with dropped := true, tasks := s.tasks ++ [{ kind := .release, stage := .unpolled }] } := by
  obtain ⟨ready, held, lent⟩ := borrowable can
  refine sound.join rfl (.inr rfl) rfl ready (sound.lock.start rfl rfl) (fun _ => rfl) (by simp [held]) (by simp) ?_
    (fun _ => ⟨rfl, rfl⟩) (fun _ => rfl) ?_
  · intro _
    exact TaskList.Each.start lent (by simp)
  · intro _ _
    refine ⟨s.tasks.length, _, List.getElem?_concat_length, rfl, .inl rfl, ?_⟩
    intro m other there late _
    obtain there | ⟨_, rfl⟩ := TaskList.of_append there
    · -- nobody was late before the drop
      have gone := (sound.late m other there late).1
      rw [held] at gone
      cases gone
    · cases late

theorem run (sound : Sound s) (here : s.tasks[n]? = some task) (waiting : task.stage = .waiting)
    (went : s.run n task = some t) : Sound t := by
  obtain ⟨kind, stage, borrows, late⟩ := task
  cases waiting
  cases kind with
  | teardown =>
    cases Option.some.inj went
    exact sound.begin_ here rfl rfl
  | send fragments =>
    simp only [DialledChannel.run] at went
    split at went
    · cases went
    · rename_i front
      split at went
      · rename_i can
        cases Option.some.inj went
        exact sound.stay here rfl rfl rfl ⟨rfl, rfl, rfl⟩ rfl rfl can.1 (not_not.mp front)
      · cases Option.some.inj went
        exact sound.leave here rfl rfl rfl rfl rfl rfl (by simp) (by simp) rfl
  | priority =>
    simp only [DialledChannel.run] at went
    split at went
    · cases went
    · rename_i front
      split at went
      · rename_i sink
        cases Option.some.inj went
        exact sound.stay here rfl rfl rfl ⟨rfl, rfl, rfl⟩ rfl rfl sink (not_not.mp front)
      · cases Option.some.inj went
        exact sound.leave here rfl rfl rfl rfl rfl rfl (by simp) (by simp) rfl
  | close =>
    simp only [DialledChannel.run] at went
    split at went
    · cases went
    · rename_i front
      split at went
      · rename_i sink
        cases Option.some.inj went
        have front := not_not.mp front
        exact sound.take here rfl rfl rfl rfl rfl rfl sink front (sound.lock.set here rfl fun _ => front) rfl
      · rename_i away
        cases Option.some.inj went
        exact sound.leave here rfl rfl rfl rfl rfl rfl (fun _ _ => away) (by simp) rfl
  | release =>
    simp only [DialledChannel.run] at went
    split at went
    · cases went
    · rename_i front
      split at went
      · rename_i sink
        cases Option.some.inj went
        exact sound.take here rfl rfl rfl rfl rfl rfl sink (not_not.mp front) (sound.lock.leave here rfl rfl) rfl
      · rename_i away
        cases Option.some.inj went
        exact sound.leave here rfl rfl rfl rfl rfl rfl (by simp) (fun _ => away) rfl

/-- A call of the platform comes back. -/
theorem wrote {left : Nat} {ok : Bool} (sound : Sound s) (here : s.tasks[n]? = some task) (writing : task.stage = .writing left)
    (went : (if ok && 1 < left then some (s.setTask n { task with stage := .writing (left - 1) })
      else some (s.leave n { task with stage := .returned })) = some t) : Sound t := by
  have calls : task.calls = true := by
    rw [SinkTask.calls, writing]
  have sink := sound.calling n task here calls
  have front := sound.lock.front n task here (sound.holds here calls)
  have suits := sound.suits n task here
  obtain ⟨kind, stage, borrows, late⟩ := task
  cases writing
  cases kind with
  | send fragments =>
    split at went
    · cases Option.some.inj went
      exact sound.stay here rfl rfl rfl ⟨rfl, rfl, rfl⟩ rfl rfl sink front
    · cases Option.some.inj went
      exact sound.leave here rfl rfl rfl rfl rfl rfl (by simp) (by simp) rfl
  | priority | close | release | teardown => cases suits

theorem answered (sound : Sound s) (here : s.tasks[n]? = some task) (went : s.answered n task = some t) : Sound t := by
  have suits := sound.suits n task here
  obtain ⟨kind, stage, borrows, late⟩ := task
  cases stage with
  | requesting =>
    cases Option.some.inj went
    cases kind with
    | priority => exact sound.leave here rfl rfl rfl rfl rfl rfl (by simp) (by simp) rfl
    | send | close | release | teardown => cases suits
  | disconnecting =>
    cases Option.some.inj went
    exact sound.settle here rfl rfl rfl rfl rfl (by cases kind <;> rfl) (.inl ⟨rfl, rfl⟩)
  | unpolled | waiting | writing | returned | abandoned => cases went

theorem cancel (sound : Sound s) (here : s.tasks[n]? = some task) (went : s.cancel n task = some t) : Sound t := by
  have suits := sound.suits n task here
  obtain ⟨kind, stage, borrows, late⟩ := task
  cases kind with
  | release | teardown => cases went
  | send fragments =>
    cases stage with
    | returned | abandoned => cases went
    | unpolled | disconnecting | requesting => cases suits
    | waiting | writing =>
      cases Option.some.inj went
      exact sound.leave here rfl rfl rfl rfl rfl rfl (by simp) (by simp) rfl
  | priority =>
    cases stage with
    | returned | abandoned => cases went
    | unpolled | disconnecting | writing => cases suits
    | waiting | requesting =>
      cases Option.some.inj went
      exact sound.leave here rfl rfl rfl rfl rfl rfl (by simp) (by simp) rfl
  | close =>
    cases stage with
    | returned | abandoned => cases went
    | unpolled | writing | requesting => cases suits
    | waiting =>
      cases Option.some.inj went
      exact sound.leave here rfl rfl rfl rfl rfl rfl (by simp) (by simp) rfl
    | disconnecting =>
      cases Option.some.inj went
      exact sound.settle here rfl rfl rfl rfl rfl rfl (.inr ⟨rfl, rfl, rfl⟩)

/-- `connect_driver` goes on, before there is a channel. -/
theorem setUp {setup : ConnectSetup} {place : ConnectionPlace} (sound : Sound s)
    (early : s.setup = .dialling ∨ s.setup = .subscribing) (unbegun : s.place.unbegun = true ∧ place.unbegun = true)
    (guarded : place = .guarded ↔ setup = .subscribing) (ready : place = .sink ↔ setup = .ready)
    (dialling : setup ≠ .dialling) : Sound { s with setup := setup, place := place } := by
  have empty := sound.fresh early
  have unready : s.setup ≠ .ready := by
    obtain is | is := early <;> simp [is]
  obtain ⟨queue, held⟩ := sound.early unready
  have nothing : ∀ (n : Nat) (task : SinkTask), s.tasks[n]? ≠ some task := by
    intro n task
    simp [empty]
  have untaken : ∀ k, place ≠ .task k := by
    intro k is
    rw [is] at unbegun
    cases unbegun.2
  refine {
    lock := sound.lock, calling := fun n task there => absurd there (nothing n task), owner := ?_
    before := fun _ => sound.before unbegun.1, during := fun n _ is => absurd is (untaken n), after := ?_
    guarded := guarded, ready := ready.mp, dialling := fun is => absurd is dialling, nowhere := ?_
    early := fun _ => ⟨queue, held⟩, fresh := fun _ => empty, left := ?_
    late := fun n task there => absurd there (nothing n task), closed := fun n task there => absurd there (nothing n task)
    released := fun _ n task there => absurd there (nothing n task)
    suits := fun n task there => absurd there (nothing n task)
    spawned := fun n task there => absurd there (nothing n task)
    dropping := fun n task there => absurd there (nothing n task), lost := ?_ }
  · intro n
    refine iff_of_false (untaken n) ?_
    rintro ⟨task, there, _⟩
    exact nothing n task there
  · rintro (is | is) <;> exact absurd unbegun.2 (by rw [show place = _ from is]; decide)
  · intro is set_
    have sink := ready.mpr set_
    rw [show place = .nowhere from is] at sink
    cases sink
  · intro dropped
    rw [show s.dropped = true from dropped] at held
    cases held
  · intro is
    exact absurd unbegun.2 (by rw [show place = .abandoned from is]; decide)

theorem step {input : DialledInput} (sound : Sound s) (went : s.step input = some t) : Sound t := by
  cases input with
  | connected =>
    simp only [DialledChannel.step] at went
    split at went
    · rename_i dialling
      cases Option.some.inj went
      have nowhere := sound.dialling dialling
      exact sound.setUp (.inl dialling) (by rw [nowhere]; decide) (by decide) (by decide) (by decide)
    · cases went
  | refused =>
    simp only [DialledChannel.step] at went
    split at went
    · rename_i dialling
      cases Option.some.inj went
      have nowhere := sound.dialling dialling
      exact sound.setUp (.inl dialling) (by rw [nowhere]; decide) (by rw [nowhere]; decide) (by rw [nowhere]; decide) (by decide)
    · cases went
  | subscribed =>
    simp only [DialledChannel.step] at went
    split at went
    · rename_i subscribing
      cases Option.some.inj went
      have guarded := sound.guarded.mpr subscribing
      exact sound.setUp (.inr subscribing) (by rw [guarded]; decide) (by decide) (by decide) (by decide)
    · cases went
  | failed =>
    simp only [DialledChannel.step] at went
    split at went
    · rename_i subscribing
      cases Option.some.inj went
      have guarded := sound.guarded.mpr subscribing
      have early := sound.early (by simp [subscribing])
      refine sound.tearDown (by rw [guarded]; rfl) early.1 (by simp) (fun _ => early.2) id ?_
      intro gone
      have held : s.dropped = true := gone
      rw [early.2] at held
      cases held
    · cases went
  | send fragments =>
    simp only [DialledChannel.step] at went
    split at went
    · rename_i ready
      cases Option.some.inj went
      exact sound.ask rfl rfl ready (Bool.and_eq_true_iff) fun _ => rfl
    · cases went
  | channelSend fragments =>
    simp only [DialledChannel.step] at went
    split at went
    · rename_i can
      cases Option.some.inj went
      obtain ⟨ready, held, _⟩ := borrowable can
      exact sound.ask rfl rfl ready (by simp [held]) (by simp [held])
    · cases went
  | requestPriority =>
    simp only [DialledChannel.step] at went
    split at went
    · rename_i can
      cases Option.some.inj went
      obtain ⟨ready, held, _⟩ := borrowable can
      exact sound.ask rfl rfl ready (by simp [held]) (by simp [held])
    · cases went
  | close =>
    simp only [DialledChannel.step] at went
    split at went
    · rename_i can
      cases Option.some.inj went
      obtain ⟨ready, held, _⟩ := borrowable can
      exact sound.ask rfl rfl ready (by simp [held]) (by simp [held])
    · cases went
  | poll number =>
    obtain ⟨task, here, went⟩ := Option.bind_eq_some_iff.mp went
    split at went
    · rename_i unpolled
      cases Option.some.inj went
      exact sound.poll here unpolled
    · cases went
  | run number =>
    obtain ⟨task, here, went⟩ := Option.bind_eq_some_iff.mp went
    split at went
    · rename_i waiting
      exact sound.run here waiting went
    · cases went
  | wrote number ok =>
    obtain ⟨task, here, went⟩ := Option.bind_eq_some_iff.mp went
    split at went
    · rename_i left writing
      exact sound.wrote here writing went
    · cases went
  | answered number =>
    obtain ⟨task, here, went⟩ := Option.bind_eq_some_iff.mp went
    exact sound.answered here went
  | cancel number =>
    obtain ⟨task, here, went⟩ := Option.bind_eq_some_iff.mp went
    exact sound.cancel here went
  | drop =>
    simp only [DialledChannel.step] at went
    split at went
    · rename_i can
      obtain ⟨ready, held, lent⟩ := borrowable can
      split at went
      · rename_i empty
        cases Option.some.inj went
        split
        · rename_i sink
          have torn : Sound { s.tearDown with setup := s.setup, dropped := true } :=
            sound.tearDown (by rw [sink]; rfl) (List.isEmpty_iff.mp empty) (by simp [ready])
              (fun other => absurd ready other) (fun _ => rfl) fun _ => lent
          exact torn
        · rename_i away
          exact sound.dropped can away
      · cases Option.some.inj went
        exact sound.release can
    · cases went

end Sound

theorem sound (reach : machine.Reach s) : Sound s := by
  induction reach with
  | start init =>
    cases init
    refine {
      lock := ⟨by simp, by simp, List.nodup_nil⟩, calling := by simp, owner := by simp, before := fun _ => rfl
      during := by simp, after := by simp, guarded := by simp, ready := by simp, dialling := fun _ => rfl
      nowhere := by simp, early := by simp, fresh := fun _ => rfl, left := by simp, late := by simp, closed := by simp
      released := by simp, suits := by simp, spawned := by simp, dropping := by simp, lost := by simp }
  | next _ stepped ih => exact ih.step stepped

/-- What becomes of a platform connection. -/
structure Owned (s : DialledChannel) : Prop where
  /-- It is disconnected at most once. -/
  once : s.begun ≤ 1
  /-- While a task calls it, no other does, and nobody has begun to disconnect it. -/
  apart : ∀ (n : Nat) (task : SinkTask), s.tasks[n]? = some task → task.calls = true → s.begun = 0 ∧
    ∀ (m : Nat) (other : SinkTask), s.tasks[m]? = some other → other.calls = true ∨ other.owns = true → m = n
  /-- A send that asks once the channel is gone, and what `Drop` left has asked, writes
  nothing. -/
  late : ∀ (n : Nat) (task : SinkTask), s.tasks[n]? = some task → task.late = true → task.calls = false
  /-- After a `close`, nobody calls it. -/
  closed : ∀ (n m : Nat) (task other : SinkTask), s.tasks[n]? = some task → task.kind = .close → task.stage = .returned →
    s.tasks[m]? = some other → other.calls = false
  /-- Where nothing is under way any more, no connection is left: it was never there,
  or it was disconnected, but for a `close` whose caller did not wait. -/
  settled : s.setup = .ended ∨ s.dropped = true → (∀ task ∈ s.tasks, task.finished = true) →
    s.place = .nowhere ∧ s.begun = 0 ∨ s.begun = 1 ∧ (s.place = .disconnected ∨ s.place = .abandoned ∧
      ∃ task ∈ s.tasks, task.kind = .close ∧ task.stage = .abandoned)

/-- The channel is dropped while one send writes; another asks before the task of
`Drop` does, and a third after it. -/
def droppedMidSend : List DialledInput :=
  [.connected, .subscribed, .send 2, .run 0, .drop, .send 1, .poll 1, .send 1, .wrote 0 true, .wrote 0 true, .run 2,
    .wrote 2 true, .run 1, .run 3, .answered 1]

end DialledChannel

end BleGatt
