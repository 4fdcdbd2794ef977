import BleGatt.Entities.Models
import BleGatt.Lib.Broadcast
import BleGatt.Lib.Machine
import BleGatt.Lib.TaskList
import BleGatt.Lib.Watch

namespace BleGatt

/-! A dialled connection that publishes its own state, from `Central::connect`
to its drop, beside the task that listens for its end. -/

/-- `Driver::events`: one item of the subscription. -/
def GattEvent.received : Received GattEvent → GattEvent
  | .item event => event
  | .lagged lost => .lagged (UInt64.ofNat lost)

/-- Whether `event` ends the connection to `peer` this device dialled. -/
def endsConnection (event : GattEvent) (peer : PeerAddress) (session : Option UInt64) : Bool :=
  match event with
  | .disconnected eventPeer .central eventSession =>
    eventPeer == peer &&
      match session, eventSession with
      | some ours, some theirs => ours == theirs
      | _, _ => true
  | .radioChanged status => status != .on
  | _ => false

namespace Connection

inductive State
  | connected
  | disconnected
  deriving DecidableEq

/-- What `end` has yet to do. -/
inductive EndStep
  | store
  | cancel

/-- Where `watch_for_end` is. -/
inductive Watching
  | parked
  | polled
  | ending (step : EndStep)
  | returned
  /-- The driver is gone, and its events with it. -/
  | exhausted

/-- Where the party that holds the connection is. -/
inductive Holding
  | idle
  /-- `disconnect` awaits the platform. -/
  | disconnecting
  | ending (step : EndStep) (dropping : Bool)
  /-- `Drop` has published the end. -/
  | dropped
  /-- `Drop` is done, in a runtime or outside one. -/
  | gone (runtime : Bool)

/-- What `Drop` left to a task. -/
inductive Leftover
  | nothing
  | running
  | done
  deriving DecidableEq

end Connection

open Connection

structure Connection where
  peer : PeerAddress
  session : Option UInt64
  /-- Its subscription, and how many events had been sent when the driver was
  asked to connect. -/
  events : Receiver GattEvent
  began : Nat
  isOpen : Bool := true
  state : Watch State := ⟨.connected, 0⟩
  cancelled : Bool := false
  watcher : Watching := .parked
  aborted : Bool := false
  holder : Holding := .idle
  leftover : Leftover := .nothing
  /-- How many calls of `disconnect` the platform has answered. -/
  answered : Nat := 0
  /-- Everyone who follows `state`. -/
  receivers : List (WatchReceiver State) := []

inductive ConnectionInput
  /-- The watcher is polled, and goes on. -/
  | poll
  | watch
  /-- `state`, and a look at what it returned. -/
  | state
  | look (receiver : Nat)
  | disconnect
  /-- The platform answers; or the caller does not wait for it. -/
  | answer
  | abandon
  | drop
  | proceed (runtime : Bool)
  /-- The task `Drop` left is done. -/
  | release

namespace Connection

/-- `end`, one write at a time. -/
def end_ (c : Connection) : EndStep → Connection
  | .store => { c with state := c.state.sendIfModified fun state => (.disconnected, state == .connected) }
  | .cancel => { c with cancelled := true }

/-- What goes on in a poll of `watch_for_end`. -/
def watch (capacity : Nat) (sent : List GattEvent) (closed : Bool) (c : Connection) : Option Connection :=
  match c.watcher with
  | .polled =>
    match c.events.read capacity sent with
    | some events => do
      let received ← events.got.getLast?
      let ends := endsConnection (.received received) c.peer c.session
      some { c with events := events, watcher := if ends then .ending .store else .polled }
    | none => some { c with watcher := if closed then .exhausted else .parked }
  | .ending .store => some { c.end_ .store with watcher := .ending .cancel }
  | .ending .cancel => some { c.end_ .cancel with watcher := .returned }
  | _ => none

/-- The holder's next step in `end`, and in `Drop` after it. -/
def proceed (runtime : Bool) (c : Connection) : Option Connection :=
  match c.holder with
  | .ending .store dropping => some { c.end_ .store with holder := .ending .cancel dropping }
  | .ending .cancel dropping => some { c.end_ .cancel with holder := if dropping then .dropped else .idle }
  | .dropped =>
    let leftover := if c.isOpen && runtime then Leftover.running else .nothing
    some { c with holder := .gone runtime, leftover := leftover }
  | _ => none

def step (capacity : Nat) (sent : List GattEvent) (closed : Bool) (c : Connection) : ConnectionInput → Option Connection
  | .poll =>
    match c.watcher with
    | .parked => if c.aborted then none else some { c with watcher := .polled }
    | _ => none
  | .watch => c.watch capacity sent closed
  | .state => some { c with receivers := c.receivers ++ [c.state.look] }
  | .look receiver => some { c with receivers := c.receivers.modify receiver fun _ => c.state.look }
  | .disconnect =>
    match c.holder with
    | .idle => some { c with holder := .disconnecting }
    | _ => none
  | .answer =>
    match c.holder with
    | .disconnecting => some { c with isOpen := false, answered := c.answered + 1, holder := .ending .store false }
    | _ => none
  | .abandon =>
    match c.holder with
    | .disconnecting => some { c with holder := .idle }
    | _ => none
  | .drop =>
    match c.holder with
    | .idle => some { c with aborted := true, holder := .ending .store true }
    | _ => none
  | .proceed runtime => c.proceed runtime
  | .release => if c.leftover = .running then some { c with leftover := .done } else none

def Watching.found : Watching → Bool
  | ending _ | returned => true
  | _ => false

/-- It has set the state, and is not about to again. -/
def Watching.stored : Watching → Bool
  | ending .cancel | returned => true
  | _ => false

def Holding.stored (isOpen : Bool) : Holding → Bool
  | idle | disconnecting => !isOpen
  | ending .store _ => false
  | ending .cancel _ | dropped | gone _ => true

def Holding.fired (isOpen : Bool) : Holding → Bool
  | idle | disconnecting => !isOpen
  | ending _ _ => false
  | dropped | gone _ => true

def Holding.dropping : Holding → Bool
  | ending _ dropping => dropping
  | dropped | gone _ => true
  | _ => false

/-- What holds of a connection between any two steps, of its own or another's. -/
structure Sound (sent : List GattEvent) (c : Connection) : Prop where
  told : c.events.Told sent
  since : c.events.start ≤ c.began
  found : c.watcher.found = true ↔ ∃ e, .item e ∈ c.events.got ∧ endsConnection e c.peer c.session = true
  shape : c.state = ⟨.connected, 0⟩ ∨ c.state = ⟨.disconnected, 1⟩
  stored : c.watcher.stored = true ∨ c.holder.stored c.isOpen = true → c.state = ⟨.disconnected, 1⟩
  fired : c.watcher = .returned ∨ c.holder.fired c.isOpen = true → c.cancelled = true
  first : c.cancelled = true → c.state = ⟨.disconnected, 1⟩
  cause : c.state = ⟨.disconnected, 1⟩ → c.watcher.found = true ∨ c.isOpen = false ∨ c.aborted = true
  answered : c.isOpen = false ↔ 0 < c.answered
  aborted : c.aborted = c.holder.dropping
  ending : ∀ step, c.holder = .ending step false → c.isOpen = false
  held : (∀ runtime, c.holder ≠ .gone runtime) → c.leftover = .nothing
  leftover : ∀ runtime, c.holder = .gone runtime → (c.leftover = .nothing ↔ c.isOpen = false ∨ runtime = false)
  follows : ∀ receiver ∈ c.receivers, receiver.Follows c.state

namespace Sound

variable {sent : List GattEvent} {c after : Connection} {capacity : Nat} {closed : Bool}

theorem store (sound : Sound sent c) : (c.end_ .store).state = ⟨.disconnected, 1⟩ := by
  unfold end_ Watch.sendIfModified
  obtain shape | shape := sound.shape <;> simp [shape]

/-- `send_if_modified` keeps no change quiet. -/
theorem follows_store (sound : Sound sent c) : ∀ receiver ∈ c.receivers, receiver.Follows (c.end_ .store).state := by
  intro receiver member
  refine (sound.follows receiver member).send ?_
  intro same
  obtain shape | shape := sound.shape
  · simp [shape] at same
  · simp [shape]

theorem more (sound : Sound sent c) (event : GattEvent) : Sound (sent ++ [event]) c :=
  { sound with told := Tells.more sound.told [event] }

/-- An entry read by the watcher. -/
theorem found_append {got : List (Received GattEvent)} {received : Received GattEvent} {peer : PeerAddress}
    {session : Option UInt64} :
    (∃ e, .item e ∈ got ++ [received] ∧ endsConnection e peer session = true) ↔
      (∃ e, .item e ∈ got ∧ endsConnection e peer session = true) ∨ endsConnection (.received received) peer session = true := by
  constructor
  · rintro ⟨e, member, ends⟩
    rcases List.mem_append.mp member with old | new
    · exact .inl ⟨e, old, ends⟩
    · cases List.mem_singleton.mp new
      exact .inr ends
  · rintro (⟨e, member, ends⟩ | ends)
    · exact ⟨e, List.mem_append_left _ member, ends⟩
    · cases received with
      | item e => exact ⟨e, List.mem_append_right _ List.mem_cons_self, ends⟩
      | lagged lost => cases ends

theorem watch (sound : Sound sent c) (went : c.watch capacity sent closed = some after) : Sound sent after := by
  have found := sound.found
  have stored := sound.stored
  have fired := sound.fired
  have cause := sound.cause
  unfold Connection.watch at went
  split at went
  · rename_i polled
    rw [polled] at found cause
    split at went
    · rename_i events read
      obtain ⟨start, received, got⟩ := Receiver.read_got read
      rw [got, List.getLast?_concat] at went
      cases Option.some.inj went
      have none_ : ¬∃ e, .item e ∈ c.events.got ∧ endsConnection e c.peer c.session = true :=
        fun some_ => Bool.noConfusion (found.mpr some_)
      refine { sound with told := sound.told.read read, since := start ▸ sound.since, found := ?_, stored := ?_, fired := ?_, cause := ?_ }
      · dsimp only
        rw [got, found_append]
        split
        · rename_i ends
          simp [Watching.found, ends]
        · rename_i on
          simp [Watching.found, none_, on]
      · rintro (mine | held)
        · dsimp only at mine
          split at mine <;> cases mine
        · exact stored (.inr held)
      · rintro (mine | held)
        · dsimp only at mine
          split at mine <;> cases mine
        · exact fired (.inr held)
      · intro is
        exact .inr ((cause is).resolve_left Bool.noConfusion)
    · cases Option.some.inj went
      have quiet : (if closed then Watching.exhausted else .parked).found = false ∧
          (if closed then Watching.exhausted else .parked).stored = false ∧
          (if closed then Watching.exhausted else .parked) ≠ .returned := by
        cases closed <;> simp [Watching.found, Watching.stored]
      refine { sound with found := ?_, stored := ?_, fired := ?_, cause := ?_ }
      · rw [← found, quiet.1]
        exact Iff.rfl
      · rintro (mine | held)
        · exact absurd mine (by simp [quiet.2.1])
        · exact stored (.inr held)
      · rintro (mine | held)
        · exact absurd mine quiet.2.2
        · exact fired (.inr held)
      · intro is
        exact .inr ((cause is).resolve_left Bool.noConfusion)
  · rename_i ending
    cases Option.some.inj went
    rw [ending] at found
    refine { sound with found := found, shape := .inr sound.store, stored := ?_, fired := ?_, first := ?_, cause := ?_, follows := sound.follows_store }
    · exact fun _ => sound.store
    · rintro (mine | held)
      · cases mine
      · exact fired (.inr held)
    · exact fun _ => sound.store
    · exact fun _ => .inl rfl
  · rename_i ending
    cases Option.some.inj went
    rw [ending] at found stored
    have now : c.state = ⟨.disconnected, 1⟩ := stored (.inl rfl)
    exact { sound with
      found := found, stored := fun _ => now, fired := fun _ => rfl, first := fun _ => now, cause := fun _ => .inl rfl }
  · cases went

theorem proceed {runtime : Bool} (sound : Sound sent c) (went : c.proceed runtime = some after) : Sound sent after := by
  have aborted := sound.aborted
  have held := sound.held
  have stored := sound.stored
  have fired := sound.fired
  have cause := sound.cause
  unfold Connection.proceed at went
  split at went
  · rename_i dropping ending
    cases Option.some.inj went
    have own := sound.ending .store
    rw [ending] at aborted held own
    refine { sound with
      shape := .inr sound.store, stored := fun _ => sound.store, fired := ?_, first := fun _ => sound.store, cause := ?_
      aborted := aborted, ending := ?_, held := fun _ => held (by simp), leftover := by simp, follows := sound.follows_store }
    · rintro (mine | held)
      · exact fired (.inl mine)
      · cases held
    · intro _
      cases dropping with
      | false => exact .inr (.inl (own rfl))
      | true => exact .inr (.inr aborted)
    · intro step is
      cases is
      exact own rfl
  · rename_i dropping ending
    cases Option.some.inj went
    rw [ending] at aborted held stored
    have now : c.state = ⟨.disconnected, 1⟩ := stored (.inr rfl)
    cases dropping with
    | false =>
      exact { sound with
        stored := fun _ => now, fired := fun _ => rfl, first := fun _ => now, aborted := aborted, ending := by simp
        held := fun _ => held (by simp), leftover := by simp }
    | true =>
      exact { sound with
        stored := fun _ => now, fired := fun _ => rfl, first := fun _ => now, aborted := aborted, ending := by simp
        held := fun _ => held (by simp), leftover := by simp }
  · rename_i dropped
    cases Option.some.inj went
    rw [dropped] at aborted stored fired
    refine { sound with
      stored := fun _ => stored (.inr rfl), fired := fun _ => fired (.inr rfl), aborted := aborted, ending := by simp
      held := fun still => absurd rfl (still runtime), leftover := ?_ }
    intro _ is
    cases is
    cases c.isOpen <;> cases runtime <;> simp
  · cases went

theorem step {input : ConnectionInput} (sound : Sound sent c) (went : c.step capacity sent closed input = some after) :
    Sound sent after := by
  have found := sound.found
  have stored := sound.stored
  have fired := sound.fired
  have cause := sound.cause
  have aborted := sound.aborted
  have held := sound.held
  cases input with
  | watch => exact sound.watch went
  | proceed runtime => exact sound.proceed went
  | poll =>
    simp only [Connection.step] at went
    split at went
    · rename_i parked
      split at went
      · cases went
      · cases Option.some.inj went
        rw [parked] at found stored fired cause
        exact { sound with found := found, stored := stored, fired := by simpa using fired, cause := cause }
    · cases went
  | state =>
    cases Option.some.inj went
    refine { sound with follows := ?_ }
    intro receiver member
    rcases List.mem_append.mp member with old | new
    · exact sound.follows receiver old
    · cases List.mem_singleton.mp new
      exact WatchReceiver.follows_look
  | look number =>
    cases Option.some.inj went
    refine { sound with follows := ?_ }
    intro receiver member
    obtain ⟨k, here⟩ := List.mem_iff_getElem?.mp member
    obtain ⟨before, _, _, rfl⟩ | ⟨_, old⟩ := TaskList.of_modify here
    · exact WatchReceiver.follows_look
    · exact sound.follows receiver (List.mem_of_getElem? old)
  | disconnect =>
    simp only [Connection.step] at went
    split at went
    · rename_i idle
      cases Option.some.inj went
      rw [idle] at stored fired aborted held
      exact { sound with
        stored := stored, fired := fired, aborted := aborted, ending := by simp, held := fun _ => held (by simp), leftover := by simp }
    · cases went
  | answer =>
    simp only [Connection.step] at went
    split at went
    · rename_i disconnecting
      cases Option.some.inj went
      rw [disconnecting] at aborted held
      refine { sound with
        stored := ?_, fired := ?_, cause := fun _ => .inr (.inl rfl), answered := by simp, aborted := aborted
        ending := fun _ _ => rfl, held := fun _ => held (by simp), leftover := by simp }
      · rintro (mine | held)
        · exact stored (.inl mine)
        · cases held
      · rintro (mine | held)
        · exact fired (.inl mine)
        · cases held
    · cases went
  | abandon =>
    simp only [Connection.step] at went
    split at went
    · rename_i disconnecting
      cases Option.some.inj went
      rw [disconnecting] at stored fired aborted held
      exact { sound with
        stored := stored, fired := fired, aborted := aborted, ending := by simp, held := fun _ => held (by simp), leftover := by simp }
    · cases went
  | drop =>
    simp only [Connection.step] at went
    split at went
    · rename_i idle
      cases Option.some.inj went
      rw [idle] at held
      refine { sound with
        stored := ?_, fired := ?_, cause := fun _ => .inr (.inr rfl), aborted := rfl
        ending := by simp, held := fun _ => held (by simp), leftover := by simp }
      · rintro (mine | held)
        · exact stored (.inl mine)
        · cases held
      · rintro (mine | held)
        · exact fired (.inl mine)
        · cases held
    · cases went
  | release =>
    simp only [Connection.step] at went
    split at went
    · rename_i running
      cases Option.some.inj went
      have gone : ∃ runtime, c.holder = .gone runtime := by
        by_contra other
        rw [held (not_exists.mp other)] at running
        cases running
      obtain ⟨runtime, gone⟩ := gone
      refine { sound with held := fun other => absurd gone (other runtime), leftover := ?_ }
      intro there is
      have left := sound.leftover there is
      rw [running] at left
      rw [← left]
      simp
    · cases went

end Sound

/-- Nothing is under way in the watcher. -/
def Watching.resting : Watching → Bool
  | parked | returned | exhausted => true
  | polled | ending _ => false

/-- Both halves of `end` are done. -/
def Ended (c : Connection) : Prop := c.state.value = .disconnected ∧ c.cancelled = true

/-- What a connection tells those who follow it, and what becomes of the
platform's. -/
structure Publishes (capacity : Nat) (sent : List GattEvent) (c : Connection) : Prop where
  /-- The state is replaced at most once. -/
  once : c.state = ⟨.connected, 0⟩ ∨ c.state = ⟨.disconnected, 1⟩
  follows : ∀ receiver ∈ c.receivers, receiver.Follows c.state
  /-- Whom the token wakes finds the state changed. -/
  first : c.cancelled = true → c.state.value = .disconnected
  cause : c.state.value = .disconnected → 0 < c.answered ∨ c.aborted = true ∨
    ∃ k e, c.events.start ≤ k ∧ sent[k]? = some e ∧ endsConnection e c.peer c.session = true
  /-- Every end reported since the driver was asked to connect is noticed by a
  watcher that has caught up, or was among the events it lost. -/
  noticed : c.watcher.resting = true → c.events.read capacity sent = none → c.aborted = false →
    ∀ k e, c.began ≤ k → sent[k]? = some e → endsConnection e c.peer c.session = true →
      c.Ended ∨ Missed sent c.events.start c.events.got k
  ended : 0 < c.answered ∧ c.holder = .idle ∨ (∃ runtime, c.holder = .gone runtime) → c.Ended
  /-- `Drop` in a runtime disconnects in the background what no `disconnect` did, and
  only that; outside one it disconnects nothing. -/
  released : ∀ runtime, c.holder = .gone runtime → (c.leftover ≠ .nothing ↔ c.answered = 0 ∧ runtime = true)
  spared : c.leftover ≠ .nothing → ∃ runtime, c.holder = .gone runtime

theorem Sound.publishes {sent : List GattEvent} {c : Connection} (capacity : Nat) (sound : Sound sent c) :
    c.Publishes capacity sent := by
  have value : c.state.value = .disconnected → c.state = ⟨.disconnected, 1⟩ := by
    intro is
    obtain shape | shape := sound.shape
    · rw [shape] at is
      cases is
    · exact shape
  have ended : ∀ {p : Prop}, (p → c.watcher = .returned ∨ c.holder.fired c.isOpen = true) → p → c.Ended := by
    intro p fired held
    have cancelled := sound.fired (fired held)
    exact ⟨congrArg Watch.value (sound.first cancelled), cancelled⟩
  refine ⟨sound.shape, sound.follows, fun cancelled => congrArg Watch.value (sound.first cancelled), ?_, ?_, ?_, ?_, ?_⟩
  · intro is
    obtain found | closed | aborted := sound.cause (value is)
    · obtain ⟨e, member, ends⟩ := sound.found.mp found
      obtain ⟨k, after, _, there⟩ := Tells.sent_of_mem sound.told member
      exact .inr (.inr ⟨k, e, after, there, ends⟩)
    · exact .inl (sound.answered.mp closed)
    · exact .inr (.inl aborted)
  · intro resting caught _ k e since there ends
    have bound : k < sent.length := (List.getElem?_eq_some_iff.mp there).1
    have passed : sent.length ≤ c.events.next := Receiver.next_of_read_none caught
    have from_ : c.events.start ≤ k := Nat.le_trans sound.since since
    obtain read | missed := Tells.read_or_missed sound.told from_ (by omega) there
    · have found := sound.found.mpr ⟨e, read.mem, ends⟩
      have returned : c.watcher = .returned := by
        cases at_ : c.watcher with
        | returned => rfl
        | ending step =>
          rw [at_] at resting
          cases resting
        | parked | polled | exhausted =>
          rw [at_] at found
          cases found
      exact .inl (ended .inl returned)
    · exact .inr missed
  · refine ended fun past => .inr ?_
    rcases past with ⟨answered, idle⟩ | ⟨runtime, gone⟩
    · simp [idle, Holding.fired, sound.answered.mpr answered]
    · simp [gone, Holding.fired]
  · intro runtime gone
    have unanswered : ¬0 < c.answered ↔ c.answered = 0 := by omega
    rw [Ne, sound.leftover runtime gone, sound.answered, not_or, Bool.not_eq_false, unanswered]
  · intro some_
    by_contra other
    exact some_ (sound.held (not_exists.mp other))

/-- No step takes an end back. -/
theorem step_final {capacity : Nat} {sent : List GattEvent} {closed : Bool} {input : ConnectionInput} {c after : Connection}
    (went : c.step capacity sent closed input = some after) (past : c.state.value = .disconnected) :
    after.state.value = .disconnected := by
  have stored : (c.end_ .store).state.value = .disconnected := rfl
  cases input with
  | watch =>
    simp only [Connection.step, Connection.watch] at went
    split at went
    · split at went
      · obtain ⟨_, _, went⟩ := Option.bind_eq_some_iff.mp went
        cases Option.some.inj went
        exact past
      · cases Option.some.inj went
        exact past
    · cases Option.some.inj went
      exact stored
    · cases Option.some.inj went
      exact past
    · cases went
  | proceed runtime =>
    simp only [Connection.step, Connection.proceed] at went
    split at went
    · cases Option.some.inj went
      exact stored
    · cases Option.some.inj went
      exact past
    · cases Option.some.inj went
      exact past
    · cases went
  | _ =>
    simp only [Connection.step] at went
    (repeat' split at went) <;> cases went <;> exact past

end Connection

/-- Where a call of `Central::connect` is. -/
inductive DialStage
  | subscribed
  /-- The driver was asked to connect after so many events. -/
  | dialling (began : Nat)
  | ended

structure CentralDial where
  events : Receiver GattEvent
  stage : DialStage := .subscribed

/-- A driver's central role: what was reported so far, and everyone who dials. -/
structure Central where
  sent : List GattEvent := []
  /-- Its events have ended. -/
  closed : Bool := false
  dials : List CentralDial := []
  connections : List Connection := []

inductive CentralInput
  | report (event : GattEvent)
  | close
  | connect
  | dial (number : Nat)
  | connected (number : Nat) (peer : PeerAddress) (session : Option UInt64)
  /-- The driver fails, or the caller is gone. -/
  | fail (number : Nat)
  | connection (number : Nat) (input : ConnectionInput)

namespace Central

def setStage (number : Nat) (stage : DialStage) (s : Central) : Central :=
  { s with dials := s.dials.modify number fun dial => { dial with stage := stage } }

def step (capacity : Nat) (s : Central) : CentralInput → Option Central
  | .report event => if s.closed then none else some { s with sent := s.sent ++ [event] }
  | .close => some { s with closed := true }
  | .connect => some { s with dials := s.dials ++ [{ events := { start := s.sent.length, next := s.sent.length } }] }
  | .dial number =>
    match s.dials[number]? with
    | some { stage := .subscribed, .. } => some (s.setStage number (.dialling s.sent.length))
    | _ => none
  | .connected number peer session =>
    match s.dials[number]? with
    | some { events, stage := .dialling began } =>
      let c : Connection := { peer := peer, session := session, events := events, began := began }
      some { s.setStage number .ended with connections := s.connections ++ [c] }
    | _ => none
  | .fail number =>
    match s.dials[number]? with
    | some { stage := .dialling _, .. } => some (s.setStage number .ended)
    | _ => none
  | .connection number input => do
    let c ← s.connections[number]?
    let c ← c.step capacity s.sent s.closed input
    some { s with connections := s.connections.set number c }

def machine (capacity : Nat) : Machine Central CentralInput where
  Init s := s = {}
  step := step capacity

variable {capacity : Nat} {s t : Central}

/-- A dial's subscription, not read yet, and older than the call of the driver. -/
structure Subscribed (sent : List GattEvent) (dial : CentralDial) : Prop where
  told : dial.events.Told sent
  unread : dial.events.got = []
  from_ : dial.events.start ≤ sent.length
  before : ∀ began, dial.stage = .dialling began → dial.events.start ≤ began

structure Sound (s : Central) : Prop where
  dials : TaskList.Each (fun _ => Subscribed s.sent) s.dials
  connections : TaskList.Each (fun _ => Connection.Sound s.sent) s.connections

theorem Subscribed.setStage {number : Nat} {stage : DialStage} (dials : TaskList.Each (fun _ => Subscribed s.sent) s.dials)
    (later : ∀ began, stage = .dialling began → began = s.sent.length) :
    TaskList.Each (fun _ => Subscribed s.sent) (s.setStage number stage).dials := by
  intro n dial there
  obtain ⟨before, here, _, rfl⟩ | ⟨_, here⟩ := TaskList.of_modify there
  · have known := dials n before here
    exact { known with before := fun began is => later began is ▸ known.from_ }
  · exact dials n dial here

theorem Sound.step {input : CentralInput} (sound : Sound s) (went : s.step capacity input = some t) : Sound t := by
  cases input with
  | report event =>
    simp only [Central.step] at went
    split at went
    · cases went
    · cases Option.some.inj went
      refine ⟨sound.dials.imp ?_, sound.connections.imp fun _ _ known => known.more event⟩
      intro _ dial known
      have from_ : dial.events.start ≤ (s.sent ++ [event]).length := by
        have before := known.from_
        simp only [List.length_append]
        omega
      exact { known with told := Tells.more known.told [event], from_ := from_ }
  | close =>
    cases Option.some.inj went
    exact ⟨sound.dials, sound.connections⟩
  | connect =>
    cases Option.some.inj went
    exact ⟨sound.dials.start ⟨.nothing, rfl, Nat.le_refl _, by simp⟩, sound.connections⟩
  | dial number =>
    simp only [Central.step] at went
    split at went
    · cases Option.some.inj went
      exact ⟨Subscribed.setStage sound.dials fun _ is => (DialStage.dialling.inj is).symm, sound.connections⟩
    · cases went
  | connected number peer session =>
    simp only [Central.step] at went
    split at went
    · rename_i events began here
      cases Option.some.inj went
      have dialled := sound.dials number _ here
      have unread : events.got = [] := dialled.unread
      refine ⟨Subscribed.setStage sound.dials (by simp), sound.connections.start ?_⟩
      exact {
        told := dialled.told
        since := dialled.before began rfl
        found := by simp [unread, Watching.found]
        shape := .inl rfl
        stored := by simp [Watching.stored, Holding.stored]
        fired := by simp [Holding.fired]
        first := by simp
        cause := by simp
        answered := by simp
        aborted := rfl
        ending := by simp
        held := fun _ => rfl
        leftover := by simp
        follows := by simp }
    · cases went
  | fail number =>
    simp only [Central.step] at went
    split at went
    · cases Option.some.inj went
      exact ⟨Subscribed.setStage sound.dials (by simp), sound.connections⟩
    · cases went
  | connection number input =>
    obtain ⟨c, here, went⟩ := Option.bind_eq_some_iff.mp went
    obtain ⟨after, stepped, went⟩ := Option.bind_eq_some_iff.mp went
    cases Option.some.inj went
    exact ⟨sound.dials, sound.connections.set ((sound.connections number c here).step stepped)⟩

theorem sound (reach : (machine capacity).Reach s) : Sound s := by
  induction reach with
  | start init =>
    cases init
    exact ⟨by simp [TaskList.Each], by simp [TaskList.Each]⟩
  | next _ stepped ih => exact ih.step stepped

theorem step_final {n : Nat} {input : CentralInput}
    (past : ∃ c, s.connections[n]? = some c ∧ c.state.value = .disconnected) (went : s.step capacity input = some t) :
    ∃ c, t.connections[n]? = some c ∧ c.state.value = .disconnected := by
  obtain ⟨c, here, past⟩ := past
  cases input with
  | connection number input =>
    obtain ⟨changing, there, went⟩ := Option.bind_eq_some_iff.mp went
    obtain ⟨after, stepped, went⟩ := Option.bind_eq_some_iff.mp went
    cases Option.some.inj went
    by_cases same : n = number
    · subst same
      cases Option.some.inj (here.symm.trans there)
      exact ⟨after, TaskList.getElem?_set_self here, Connection.step_final stepped past⟩
    · refine ⟨c, ?_, past⟩
      rw [TaskList.getElem?_set there, if_neg same]
      exact here
  | connected number peer session =>
    simp only [Central.step] at went
    split at went
    · cases Option.some.inj went
      exact ⟨c, TaskList.getElem?_append_of here _, past⟩
    · cases went
  | _ =>
    simp only [Central.step] at went
    (repeat' split at went) <;> cases went <;> exact ⟨c, here, past⟩

/-- Every connection publishes its end, once and for good. -/
theorem reach_publishes (reach : (machine capacity).Reach s) (n : Nat) (c : Connection) (here : s.connections[n]? = some c) :
    c.Publishes capacity s.sent ∧ (c.state.value = .disconnected →
      ∀ t, (machine capacity).Later s t → ∃ c, t.connections[n]? = some c ∧ c.state.value = .disconnected) := by
  refine ⟨((sound reach).connections n c here).publishes capacity, ?_⟩
  intro past t later
  exact later.invariant ⟨c, here, past⟩ fun _ _ _ held went => step_final held went

/-- The peer is gone before `connect` returns. -/
def endedEarly : List CentralInput :=
  [.connect, .dial 0, .report (.disconnected ⟨"p"⟩ .central (some 1)), .connected 0 ⟨"p"⟩ (some 1), .connection 0 .state,
    .connection 0 .poll, .connection 0 .watch, .connection 0 .watch, .connection 0 .watch, .connection 0 (.look 0)]

theorem reach_publishes_ended_early : ∃ (s : Central) (c : Connection), s.connections[0]? = some c ∧ c.Publishes 64 s.sent ∧
    c.Ended := by
  obtain ⟨s, reach, ended⟩ := Machine.Reach.exists_of_follow (machine 64)
    (fun s => s.connections[0]?.any fun c => c.state.value == .disconnected && c.cancelled) rfl endedEarly (by decide +kernel)
  obtain ⟨c, here, past⟩ := (Option.any_eq_true _ _).mp ended
  simp only [Bool.and_eq_true, beq_iff_eq] at past
  exact ⟨s, c, here, (reach_publishes reach 0 c here).1, past⟩

end Central

end BleGatt
