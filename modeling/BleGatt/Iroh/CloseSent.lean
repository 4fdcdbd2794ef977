import BleGatt.Iroh.Learned
import BleGatt.Iroh.Pipeline

namespace BleGatt.Iroh
open Std

/-! What a closed connection leaves in the queues of the links it used, when
`close_sent` says that its CONNECTION_CLOSE went out. -/

/-- It has ended, or nothing of its queues was queued before that packet. -/
def LinkTask.clear (mark : Nat) (task : LinkTask) : Bool :=
  task.ended || task.queue.all fun
    | .packet p => decide (mark ≤ p)
    | .barrier _ => true

namespace Transport

structure CloseSent (s : Transport) : Prop where
  settled : ∀ (c : Nat) (connection : IrohConnection), s.connections[c]? = some connection →
    connection.sent = some true → ∃ mark, connection.built = some mark ∧
      ∀ (p : Nat) (packet : QueuedPacket) (task : LinkTask), p < mark → s.packets[p]? = some packet →
        s.tasks[packet.link]? = some task → task.address ∈ connection.used →
          packet.fate = .sent ∨ (∃ at_, packet.fate = .dropped at_ ∧ at_ < connection.closed) ∨ task.ended = true
  /-- A link that goes on has nothing of that time in its queues. -/
  waiting : ∀ (c : Nat) (connection : IrohConnection) (mark : Nat), s.connections[c]? = some connection →
    connection.sent = some true → connection.built = some mark → ∀ (n : Nat) (task : LinkTask),
      s.tasks[n]? = some task → task.address ∈ connection.used → task.ended = false →
        ∀ p, .packet p ∈ task.queue → mark ≤ p
  /-- The links that `forget_connection` releases are at such addresses. -/
  released : ∀ (c : Nat) (connection : IrohConnection) (released : List PeerAddress),
    s.connections[c]? = some connection → connection.phase = .releasing released →
      ∀ address ∈ released, address ∈ connection.used

/-- Of the links at the addresses it used, those that `close_sent` has no
barrier for have nothing left that was queued before. -/
def barsEvery (connection : IrohConnection) (s : Transport) : Bool :=
  let links := connection.addresses.filterMap fun address => s.links[address]?
  (List.range s.tasks.length).all fun n => s.tasks[n]?.all fun task =>
    decide (task.address ∉ connection.used ∨ n ∈ links) || connection.built.all fun mark => task.clear mark

/-- What was dropped at an address it used since its close started, the check
sees. -/
def seesDrops (connection : IrohConnection) (s : Transport) : Bool :=
  connection.used.all fun address => s.dropped[address]?.all fun at_ =>
    decide (at_ < connection.closed ∨ address ∈ connection.addresses ∧ connection.since ≤ at_)

def seesAll (s : Transport) : TransportStep → Bool
  | .hook c => s.connections[c]?.all fun connection => match connection.phase with
    | .found => s.barsEvery connection
    | .barred => s.seesDrops connection
    | _ => true
  | _ => true

end Transport

/-! What a step leaves as it was. -/

/-- A link stays at its address, and ended. -/
def LinksLater (tasks tasks' : List LinkTask) : Prop :=
  ∀ (n : Nat) (task : LinkTask), tasks[n]? = some task → ∃ task', tasks'[n]? = some task' ∧
    task'.address = task.address ∧ (task.ended = true → task'.ended = true)

/-- A packet stays with its link, and its fate. -/
def PacketsLater (packets packets' : List QueuedPacket) : Prop :=
  ∀ (p : Nat) (packet : QueuedPacket), packets[p]? = some packet → ∃ packet', packets'[p]? = some packet' ∧
    packet'.link = packet.link ∧ (packet.fate ≠ .queued → packet'.fate = packet.fate)

def BarriersLater (barriers barriers' : List Barrier) : Prop :=
  ∀ (b : Nat) (barrier : Barrier), barriers[b]? = some barrier → ∃ barrier', barriers'[b]? = some barrier' ∧
    barrier'.link = barrier.link ∧ barrier'.mark = barrier.mark

structure Later (s s' : Transport) : Prop where
  tasks : LinksLater s.tasks s'.tasks
  packets : PacketsLater s.packets s'.packets
  barriers : BarriersLater s.barriers s'.barriers

namespace LinksLater

variable {tasks : List LinkTask} {link : Nat} {task new : LinkTask}

theorem refl (tasks : List LinkTask) : LinksLater tasks tasks := fun _ task there => ⟨task, there, rfl, id⟩

theorem start (tasks more : List LinkTask) : LinksLater tasks (tasks ++ more) :=
  fun _ task there => ⟨task, TaskList.getElem?_append_of there more, rfl, id⟩

theorem set (here : tasks[link]? = some task) (address : new.address = task.address)
    (ended : task.ended = true → new.ended = true) : LinksLater tasks (tasks.set link new) := by
  intro n found there
  by_cases same : n = link
  · subst same
    cases here.symm.trans there
    exact ⟨new, TaskList.getElem?_set_self here, address, ended⟩
  · exact ⟨found, by rw [TaskList.getElem?_set here, if_neg same, there], rfl, id⟩

/-- The point a link comes to, its send task apart. -/
theorem goOn (here : tasks[link]? = some task) (address : new.address = task.address)
    (sendEnded : new.sendEnded = task.sendEnded) (ended : task.phase.ended = true → new.phase.ended = true) :
    LinksLater tasks (tasks.set link new) := by
  refine .set here address ?_
  rw [LinkTask.ended_iff, LinkTask.ended_iff, sendEnded]
  exact Or.imp_right ended

theorem map {f : LinkTask → LinkTask} (same : ∀ task, (f task).address = task.address ∧ (f task).ended = task.ended) :
    LinksLater tasks (tasks.map f) := by
  intro n task there
  refine ⟨f task, by rw [List.getElem?_map, there]; rfl, (same task).1, fun ended => ?_⟩
  rw [(same task).2]
  exact ended

end LinksLater

namespace PacketsLater

variable {packets : List QueuedPacket}

theorem refl (packets : List QueuedPacket) : PacketsLater packets packets :=
  fun _ packet there => ⟨packet, there, rfl, fun _ => rfl⟩

theorem add (packets more : List QueuedPacket) : PacketsLater packets (packets ++ more) :=
  fun _ packet there => ⟨packet, TaskList.getElem?_append_of there more, rfl, fun _ => rfl⟩

/-- A packet that was still queued meets its fate. -/
theorem modify {p : Nat} {packet : QueuedPacket} (fate : PacketFate) (here : packets[p]? = some packet)
    (queued : packet.fate = .queued) :
    PacketsLater packets (packets.modify p fun packet => { packet with fate := fate }) := by
  intro q found there
  rw [TaskList.getElem?_modify, there]
  split
  · rename_i same
    subst same
    cases here.symm.trans there
    exact ⟨_, rfl, rfl, absurd queued⟩
  · exact ⟨found, rfl, rfl, fun _ => rfl⟩

theorem length_le {packets' : List QueuedPacket} (later : PacketsLater packets packets') :
    packets.length ≤ packets'.length := by
  by_contra shorter
  rw [Nat.not_le] at shorter
  obtain ⟨_, there, _⟩ := later packets'.length _ (List.getElem?_eq_getElem shorter)
  exact absurd (TaskList.lt_length there) (Nat.lt_irrefl _)

end PacketsLater

namespace BarriersLater

theorem refl (barriers : List Barrier) : BarriersLater barriers barriers :=
  fun _ barrier there => ⟨barrier, there, rfl, rfl⟩

theorem add (barriers more : List Barrier) : BarriersLater barriers (barriers ++ more) :=
  fun _ barrier there => ⟨barrier, TaskList.getElem?_append_of there more, rfl, rfl⟩

theorem modify (barriers : List Barrier) (b : Nat) :
    BarriersLater barriers (barriers.modify b fun barrier => { barrier with reached := true }) := by
  intro other barrier there
  rw [TaskList.getElem?_modify, there]
  split
  · exact ⟨_, rfl, rfl, rfl⟩
  · exact ⟨barrier, rfl, rfl, rfl⟩

end BarriersLater

theorem Later.of_stepped {s s' : Transport} {label : TransportStep}
    (pipes : Pipes s.now s.dropped s.tasks s.packets s.barriers) (registered : Registered s.links s.tasks)
    (stepped : Transport.Stepped s label s') : Later s s' := by
  cases stepped with
  | closeLink address => exact ⟨.map fun task => by split <;> exact ⟨rfl, rfl⟩, .refl _, .refl _⟩
  | forgot | released => exact ⟨.map fun task => by split <;> exact ⟨rfl, rfl⟩, .refl _, .refl _⟩
  | attach address role => exact ⟨.start _ _, .refl _, .refl _⟩
  | dialStarted free => exact ⟨.start _ _, .add _ _, .refl _⟩
  | stale after listed here phase => exact absurd phase (registered.not_over listed here)
  | queued listed here => exact ⟨.set here rfl id, .add _ _, .refl _⟩
  | refused listed here => exact ⟨.refl _, .add _ _, .refl _⟩
  | moved phase here dials runs ended =>
    exact ⟨.goOn here rfl rfl fun over_ => by rw [← over_]; exact ended, .refl _, .refl _⟩
  | inserted here phase | cameUp here phase | registered here phase | checked here phase | noticed here phase
  | fired here phase | disarmed here phase =>
    exact ⟨.goOn here rfl rfl (by rw [phase]; simp [LinkPhase.ended]), .refl _, .refl _⟩
  | dialFailed permit here phase => exact ⟨.goOn here rfl rfl fun _ => rfl, .refl _, .refl _⟩
  | ended after here phase address ending sendEnded =>
    exact ⟨.goOn here address sendEnded fun _ => by rw [ending]; rfl, .refl _, .refl _⟩
  | finished answered here | removed here | outlived here =>
    exact ⟨.goOn here rfl rfl fun _ => rfl, .refl _, .refl _⟩
  | forwarded here | parked here | unparked here => exact ⟨.set here rfl id, .refl _, .refl _⟩
  | @shed link packet task rest room here phase head =>
    obtain ⟨packet, there, _, queued⟩ := (pipes.pipes _ _ here).queued packet (by simp [LinkTask.queue, head])
    exact ⟨.set here rfl id, .modify _ there queued, .refl _⟩
  | @sentOut link packet task rest here sends open_ head =>
    obtain ⟨packet, there, _, queued⟩ := (pipes.pipes _ _ here).queued packet (by simp [LinkTask.queue, head])
    exact ⟨.set here rfl id, .modify _ there queued, .refl _⟩
  | reached here => exact ⟨.set here rfl id, .refl _, .modify _ _⟩
  | sendReturned ok here sends busy =>
    refine ⟨.set here rfl ?_, .refl _, .refl _⟩
    rw [LinkTask.ended_iff, LinkTask.ended_iff, (pipes.pipes _ _ here).sending busy]
    exact fun ended => .inr (ended.resolve_left (by simp))
  | aborted here ended => exact ⟨.set here rfl fun _ => rfl, .refl _, .refl _⟩
  | barrierQueued here phase none_ next there => exact ⟨.set there rfl id, .refl _, .add _ _⟩
  | _ => exact ⟨.refl _, .refl _, .refl _⟩

/-! What became of the packets that were queued before a mark. -/

/-- Of a link's packets before the mark none is under way, and what was
dropped was so at such a time. -/
def Gone (drops : Instant → Prop) (tasks : List LinkTask) (packets : List QueuedPacket) (mark link : Nat) : Prop :=
  ∀ (p : Nat) (packet : QueuedPacket), p < mark → packets[p]? = some packet → packet.link = link →
    packet.fate = .sent ∨ (∃ at_, packet.fate = .dropped at_ ∧ drops at_) ∨
      ∃ task, tasks[link]? = some task ∧ task.ended = true

/-- So it is of every link at the addresses, some links apart. -/
def Settled (drops : Instant → Prop) (tasks : List LinkTask) (packets : List QueuedPacket) (mark : Nat)
    (addresses : List PeerAddress) (apart : List Nat) : Prop :=
  ∀ (n : Nat) (task : LinkTask), tasks[n]? = some task → task.address ∈ addresses → n ∈ apart ∨
    Gone drops tasks packets mark n

section Settled

variable {drops : Instant → Prop} {tasks tasks' : List LinkTask} {packets packets' : List QueuedPacket}
  {barriers : List Barrier} {mark link : Nat} {addresses : List PeerAddress} {apart : List Nat} {task : LinkTask}

theorem Gone.later (held : Gone drops tasks packets mark link) (links : LinksLater tasks tasks')
    (later : PacketsLater packets packets') (within : mark ≤ packets.length) :
    Gone drops tasks' packets' mark link := by
  intro p packet' before there own
  have was : packets[p]? = some packets[p] := List.getElem?_eq_getElem (before.trans_le within)
  obtain ⟨found, here, same, fate⟩ := later p packets[p] was
  cases there.symm.trans here
  rcases held p packets[p] before was (same ▸ own) with sent | ⟨at_, dropped, when_⟩ | ⟨task, here, ended⟩
  · exact .inl ((fate (by rw [sent]; decide)).trans sent)
  · exact .inr (.inl ⟨at_, (fate (by rw [dropped]; simp)).trans dropped, when_⟩)
  · obtain ⟨task', there', _, still⟩ := links link task here
    exact .inr (.inr ⟨task', there', still ended⟩)

theorem Settled.later (held : Settled drops tasks packets mark addresses apart) (links : LinksLater tasks tasks')
    (later : PacketsLater packets packets') (within : mark ≤ packets.length)
    (known : ∀ (p : Nat) (packet : QueuedPacket), packets[p]? = some packet → packet.link < tasks.length) :
    Settled drops tasks' packets' mark addresses apart := by
  intro n task' there' member
  by_cases old : n < tasks.length
  · have was : tasks[n]? = some tasks[n] := List.getElem?_eq_getElem old
    obtain ⟨found, here, address, _⟩ := links n tasks[n] was
    cases there'.symm.trans here
    exact (held n tasks[n] was (address ▸ member)).imp_right fun gone => gone.later links later within
  · -- a link that was started since has none of these packets
    refine .inr fun p packet' before there own => ?_
    have was : packets[p]? = some packets[p] := List.getElem?_eq_getElem (before.trans_le within)
    obtain ⟨found, here, same, _⟩ := later p packets[p] was
    cases there.symm.trans here
    have bound := known p packets[p] was
    rw [← same, own] at bound
    exact absurd bound old

/-- A link that has ended takes its packets with it. -/
theorem Gone.of_ended (here : tasks[link]? = some task) (ended : task.ended = true) :
    Gone drops tasks packets mark link := fun _ _ _ _ _ => .inr (.inr ⟨task, here, ended⟩)

theorem Gone.of_clear (pipe : Pipe packets barriers link task) (here : tasks[link]? = some task)
    (clear : task.clear mark = true) : Gone (fun _ => True) tasks packets mark link := by
  intro p packet before there own
  unfold LinkTask.clear at clear
  rw [Bool.or_eq_true] at clear
  cases ended : task.ended with
  | true => exact .inr (.inr ⟨task, here, ended⟩)
  | false =>
    cases fate : packet.fate with
    | sent => exact .inl rfl
    | dropped at_ => exact .inr (.inl ⟨at_, rfl, trivial⟩)
    | queued =>
      have waiting := pipe.waits ended p packet there own fate
      rw [ended] at clear
      have after := List.all_eq_true.mp (clear.resolve_left (by decide)) _ waiting
      exact absurd (of_decide_eq_true after) (Nat.not_le_of_lt before)

/-- What the barrier was queued behind has come out before it. -/
theorem Gone.of_reached (pipe : Pipe packets barriers link task) (here : tasks[link]? = some task) {b : Nat}
    {barrier : Barrier} (there : barriers[b]? = some barrier) (own : barrier.link = link)
    (reached : barrier.reached = true) (behind : mark ≤ barrier.mark) :
    Gone (fun _ => True) tasks packets mark link := by
  refine .of_clear pipe here ?_
  unfold LinkTask.clear
  rw [Bool.or_eq_true, List.all_eq_true]
  refine .inr fun item member => ?_
  cases item with
  | barrier other => rfl
  | packet p =>
    have after := Outgoing.mark_le there (pipe.reached b barrier there own reached _ member)
    exact decide_eq_true (behind.trans after)

end Settled

theorem Transport.ended_of_barrierLost {s : Transport} {b : Nat} {barrier : Barrier} {task : LinkTask}
    (here : s.tasks[barrier.link]? = some task) (lost : s.barrierLost b barrier = true) : task.ended = true := by
  unfold barrierLost at lost
  rw [here, Option.all_some] at lost
  rw [LinkTask.ended_iff]
  split at lost
  · rw [of_decide_eq_true lost]
    exact .inr rfl
  · exact .inl lost

/-! What `close_sent` has found out. -/

/-- Its CONNECTION_CLOSE was counted. -/
def ConnectionPhase.counted : ConnectionPhase → Bool
  | .built | .found | .barring | .barred => true
  | _ => false

structure Awaits (tasks : List LinkTask) (packets : List QueuedPacket) (barriers : List Barrier)
    (connection : IrohConnection) : Prop where
  unsent : connection.phase.early = true → connection.sent = none
  within : ∀ mark, connection.built = some mark → mark ≤ packets.length
  counted : connection.phase.counted = true → connection.built.isSome = true
  /-- Every link at its addresses is still to come, or done. -/
  bars : connection.phase = .barring ∨ connection.phase = .barred → ∀ mark, connection.built = some mark →
    Settled (fun _ => True) tasks packets mark connection.used connection.links
  barrier : connection.phase = .barring → ∀ mark b, connection.built = some mark → connection.barrier = some b →
    ∃ barrier rest, barriers[b]? = some barrier ∧ connection.links = barrier.link :: rest ∧ mark ≤ barrier.mark
  all : connection.phase = .barred → connection.links = []
  sent : connection.sent = some true → ∃ mark, connection.built = some mark ∧
    Settled (· < connection.closed) tasks packets mark connection.used []

namespace Awaits

variable {s s' : Transport} {tasks : List LinkTask} {packets : List QueuedPacket} {barriers : List Barrier}
  {connection new : IrohConnection}

theorem later (held : Awaits s.tasks s.packets s.barriers connection) (later : Later s s')
    (known : ∀ (p : Nat) (packet : QueuedPacket), s.packets[p]? = some packet → packet.link < s.tasks.length) :
    Awaits s'.tasks s'.packets s'.barriers connection := by
  refine ⟨held.unsent, ?_, held.counted, ?_, ?_, held.all, ?_⟩
  · intro mark built
    exact (held.within mark built).trans later.packets.length_le
  · intro phase mark built
    exact (held.bars phase mark built).later later.tasks later.packets (held.within mark built) known
  · intro phase mark b built waiting
    obtain ⟨barrier, rest, there, next, behind⟩ := held.barrier phase mark b built waiting
    obtain ⟨barrier', there', link, same⟩ := later.barriers b barrier there
    exact ⟨barrier', rest, there', by rw [link, next], by rw [same]; exact behind⟩
  · intro sent
    obtain ⟨mark, built, settled⟩ := held.sent sent
    exact ⟨mark, built, settled.later later.tasks later.packets (held.within mark built) known⟩

/-- A connection that waits for no barrier, and did not send its close. -/
theorem idle (held : Awaits tasks packets barriers connection) (built : new.built = connection.built)
    (early : connection.phase.early = true) (sent : new.sent = connection.sent ∨ new.sent = some false ∧ new.phase = .forgetting)
    (counted : new.phase.counted = true → new.built.isSome = true)
    (phase : new.phase ≠ .barring ∧ new.phase ≠ .barred) : Awaits tasks packets barriers new := by
  have none_ := held.unsent early
  refine ⟨?_, ?_, counted, ?_, fun there => absurd there phase.1, fun there => absurd there phase.2, ?_⟩
  · intro still
    rcases sent with same | ⟨_, over_⟩
    · rw [same, none_]
    · rw [over_] at still
      simp [ConnectionPhase.early] at still
  · rw [built]
    exact held.within
  · rintro (there | there)
    · exact absurd there phase.1
    · exact absurd there phase.2
  · intro true_
    rcases sent with same | ⟨same, _⟩
    · rw [same, none_] at true_
      simp at true_
    · rw [same] at true_
      simp at true_

/-- A connection whose `close_sent` has returned goes on. -/
theorem finish (held : Awaits tasks packets barriers connection) (phase : ConnectionPhase)
    (done : phase.early = false) (uncounted : phase.counted = false) :
    Awaits tasks packets barriers { connection with phase := phase } := by
  have apart : phase ≠ .barring ∧ phase ≠ .barred := by
    constructor
    · rintro rfl
      simp [ConnectionPhase.early] at done
    · rintro rfl
      simp [ConnectionPhase.early] at done
  refine ⟨?_, held.within, ?_, ?_, fun there => absurd there apart.1, fun there => absurd there apart.2, held.sent⟩
  · intro early
    exact absurd early (by simp [done])
  · intro counted
    exact absurd counted (by simp [uncounted])
  · rintro (there | there)
    · exact absurd there apart.1
    · exact absurd there apart.2

/-- Its CONNECTION_CLOSE is counted. -/
theorem build (held : Awaits tasks packets barriers connection) (unbuilt : connection.built = none) :
    Awaits tasks packets barriers { connection with built := some packets.length } := by
  have uncounted : connection.phase.counted = false := by
    by_contra counted
    rw [Bool.not_eq_false] at counted
    have built := held.counted counted
    rw [unbuilt] at built
    simp at built
  refine ⟨held.unsent, ?_, fun _ => rfl, ?_, ?_, held.all, ?_⟩
  · intro mark built
    cases Option.some.inj built
    exact Nat.le.refl
  · rintro (phase | phase)
    · exact absurd uncounted (by rw [show connection.phase = .barring from phase]; decide)
    · exact absurd uncounted (by rw [show connection.phase = .barred from phase]; decide)
  · intro phase
    exact absurd uncounted (by rw [show connection.phase = .barring from phase]; decide)
  · intro sent
    obtain ⟨mark, built, _⟩ := held.sent sent
    rw [unbuilt] at built
    simp at built

/-- `close_sent` looks its links up. -/
theorem lookUp (held : Awaits s.tasks s.packets s.barriers connection)
    (pipes : TaskList.Each (Pipe s.packets s.barriers) s.tasks) (phase : connection.phase = .found)
    (every : s.barsEvery connection = true) : Awaits s.tasks s.packets s.barriers { connection with
      phase := .barring
      links := connection.addresses.filterMap fun address => s.links[address]?
      barrier := none } := by
  have counted := held.counted (by rw [phase]; rfl)
  refine ⟨fun _ => held.unsent (by rw [phase]; rfl), held.within, fun _ => counted, ?_, by simp, by simp, held.sent⟩
  intro _ mark built n task there member
  unfold Transport.barsEvery at every
  have barred := List.all_eq_true.mp every n (List.mem_range.mpr (TaskList.lt_length there))
  change connection.built = some mark at built
  rw [there, Option.all_some, built, Option.all_some, Bool.or_eq_true, decide_eq_true_eq] at barred
  rcases barred with (unused | listed) | clear
  · exact absurd member unused
  · exact .inl listed
  · exact .inr (.of_clear (pipes n task there) there clear)

/-- It has queued a barrier on the next link. -/
theorem bar (held : Awaits tasks packets barriers connection) {b link mark : Nat} {rest : List Nat}
    (there : barriers[b]? = some { link := link, mark := mark }) (next : connection.links = link :: rest)
    (within : packets.length ≤ mark) :
    Awaits tasks packets barriers { connection with barrier := some b } := by
  refine ⟨held.unsent, held.within, held.counted, held.bars, ?_, held.all, held.sent⟩
  intro _ built_ b' built same
  cases Option.some.inj same
  exact ⟨_, rest, there, next, (held.within built_ built).trans within⟩

/-- It is done with a link. -/
theorem pass (held : Awaits tasks packets barriers connection) (phase : connection.phase = .barring) {link : Nat}
    {rest : List Nat} (next : connection.links = link :: rest)
    (gone : ∀ mark, connection.built = some mark → Gone (fun _ => True) tasks packets mark link) :
    Awaits tasks packets barriers { connection with barrier := none, links := rest } := by
  refine ⟨held.unsent, held.within, held.counted, ?_, by simp, ?_, held.sent⟩
  · intro _ mark built n task there member
    rcases held.bars (.inl phase) mark built n task there member with listed | done
    · rw [next, List.mem_cons] at listed
      rcases listed with rfl | listed
      · exact .inr (gone mark built)
      · exact .inl listed
    · exact .inr done
  · intro barred
    exact absurd (phase.symm.trans barred) (by decide)

/-- A barrier was answered: it came out, or its link is gone. -/
theorem answer (held : Awaits s.tasks s.packets s.barriers connection)
    (pipes : Pipes s.now s.dropped s.tasks s.packets s.barriers) (phase : connection.phase = .barring) {b : Nat}
    {barrier : Barrier} (waiting : connection.barrier = some b) (there : s.barriers[b]? = some barrier)
    (done : barrier.reached = true ∨ s.barrierLost b barrier = true) :
    Awaits s.tasks s.packets s.barriers { connection with barrier := none, links := connection.links.tail } := by
  obtain ⟨mark, built⟩ := Option.isSome_iff_exists.mp (held.counted (by rw [phase]; rfl))
  obtain ⟨found, rest, here, next, behind⟩ := held.barrier phase mark b built waiting
  cases there.symm.trans here
  have passed : Awaits s.tasks s.packets s.barriers { connection with barrier := none, links := rest } := by
    refine held.pass phase next fun mark' built' => ?_
    cases built.symm.trans built'
    cases known : s.tasks[barrier.link]? with
    | none =>
      intro p packet _ there' own
      have bound := pipes.links p packet there'
      rw [own] at bound
      exact absurd bound (Nat.not_lt_of_le (List.getElem?_eq_none_iff.mp known))
    | some task =>
      rcases done with reached | lost
      · exact .of_reached (pipes.pipes _ task known) known there rfl reached behind
      · exact .of_ended known (Transport.ended_of_barrierLost known lost)
  rw [next]
  exact passed

/-- It returns true. -/
theorem close (held : Awaits s.tasks s.packets s.barriers connection)
    (pipes : Pipes s.now s.dropped s.tasks s.packets s.barriers) (phase : connection.phase = .barred)
    (sees : s.seesDrops connection = true)
    (kept : ∀ address ∈ connection.addresses, ∀ at_, s.dropped[address]? = some at_ → at_ < connection.since) :
    Awaits s.tasks s.packets s.barriers { connection with phase := .forgetting, sent := some true } := by
  refine ⟨by simp [ConnectionPhase.early], held.within, by simp [ConnectionPhase.counted], by simp, by simp, by simp, ?_⟩
  intro _
  obtain ⟨mark, built⟩ := Option.isSome_iff_exists.mp (held.counted (by rw [phase]; rfl))
  refine ⟨mark, built, fun n task there member => .inr fun p packet before here own => ?_⟩
  have gone := held.bars (.inr phase) mark built n task there member
  rw [held.all phase] at gone
  rcases gone.resolve_left List.not_mem_nil p packet before here own with sent | ⟨at_, dropped, _⟩ | ended
  · exact .inl sent
  · refine .inr (.inl ⟨at_, dropped, ?_⟩)
    obtain ⟨last, noted, after⟩ := (pipes.drops p packet at_ here dropped).2 task (own ▸ there)
    have seen := List.all_eq_true.mp sees task.address member
    rw [noted, Option.all_some, decide_eq_true_eq] at seen
    rcases seen with earlier | ⟨listed, since⟩
    · exact after.trans_lt earlier
    · exact absurd (kept _ listed last noted) (Nat.not_lt_of_le since)
  · exact .inr (.inr ended)

theorem step {label : TransportStep}
    (held : TaskList.Each (fun _ => Awaits s.tasks s.packets s.barriers) s.connections)
    (pipes : Pipes s.now s.dropped s.tasks s.packets s.barriers) (registered : Registered s.links s.tasks)
    (sees : s.seesAll label = true) (stepped : Transport.Stepped s label s') :
    TaskList.Each (fun _ => Awaits s'.tasks s'.packets s'.barriers) s'.connections := by
  have all : TaskList.Each (fun _ => Awaits s'.tasks s'.packets s'.barriers) s.connections :=
    held.imp fun _ _ was => was.later (.of_stepped pipes registered stepped) pipes.links
  cases stepped with
  | stale after listed here phase => exact absurd phase (registered.not_over listed here)
  | handshaken endpoint =>
    refine all.start ⟨fun _ => rfl, by simp, by simp [ConnectionPhase.counted], ?_, by simp, by simp, by simp⟩
    rintro (phase | phase)
    · simp at phase
    · simp at phase
  | learnt here phase =>
    exact all.set ((all _ _ here).idle rfl (by rw [phase]; rfl) (.inl rfl)
      (by rw [phase]; simp [ConnectionPhase.counted]) (by simp [phase]))
  | marked here phase =>
    exact all.set ((all _ _ here).idle rfl (by rw [phase]; rfl) (.inl rfl) (by simp [ConnectionPhase.counted]) (by simp))
  | went phase sent closed closing here early live counted unbarred answer =>
    refine all.set ((all _ _ here).idle rfl early answer ?_ ⟨unbarred.2.1, unbarred.2.2⟩)
    intro there
    refine counted ?_
    cases phase <;> simp_all [ConnectionPhase.counted]
  | counted here unbuilt => exact all.set ((all _ _ here).build unbuilt)
  | drained here =>
    have was := all _ _ here
    exact all.set ⟨was.unsent, was.within, was.counted, was.bars, was.barrier, was.all, was.sent⟩
  | found here phase =>
    have was := all _ _ here
    exact all.set (was.idle rfl (by rw [phase]; rfl) (.inl rfl) (fun _ => was.counted (by rw [phase]; rfl)) (by simp))
  | lookedUp here phase =>
    refine all.set ((all _ _ here).lookUp pipes.pipes phase ?_)
    unfold Transport.seesAll at sees
    dsimp only at sees
    rw [here, Option.all_some, phase] at sees
    exact sees
  | barrierQueued here phase none_ next there =>
    exact all.set ((all _ _ here).bar List.getElem?_concat_length next Nat.le.refl)
  | linkGone here phase none_ next there over_ =>
    have passed := (all _ _ here).pass phase next fun mark built => .of_ended there (by
      rw [LinkTask.ended_iff, over_]
      exact .inr rfl)
    rw [← none_] at passed
    exact all.set passed
  | answered here phase some_ there done => exact all.set ((all _ _ here).answer pipes phase some_ there done)
  | barred here phase none_ all_ =>
    have was := all _ _ here
    exact all.set ⟨fun _ => was.unsent (by rw [phase]; rfl), was.within, fun _ => was.counted (by rw [phase]; rfl),
      fun _ => was.bars (.inl phase), by simp, fun _ => all_, was.sent⟩
  | closeSent here phase kept =>
    refine all.set ((all _ _ here).close pipes phase ?_ kept)
    unfold Transport.seesAll at sees
    dsimp only at sees
    rw [here, Option.all_some, phase] at sees
    exact sees
  | forgot here phase => exact all.set ((all _ _ here).finish _ rfl rfl)
  | released here phase => exact all.set ((all _ _ here).finish _ rfl rfl)
  | forgotten here phase => exact all.set ((all _ _ here).finish _ rfl rfl)
  | _ => exact all

end Awaits

/-- The addresses `forget_connection` releases were used. -/
def Releases (connection : IrohConnection) : Prop :=
  ∀ released, connection.phase = .releasing released → ∀ address ∈ released, address ∈ connection.used

namespace Releases

variable {s s' : Transport}

theorem step {label : TransportStep} (held : TaskList.Each (fun _ => Releases) s.connections)
    (knows : Knows s.learned s.connections) (registered : Registered s.links s.tasks)
    (stepped : Transport.Stepped s label s') : TaskList.Each (fun _ => Releases) s'.connections := by
  have none_ : ∀ {connection : IrohConnection}, (∀ released, connection.phase ≠ .releasing released) →
      Releases connection := fun apart released phase => absurd phase (apart released)
  have kept : ∀ {number : Nat} {connection new : IrohConnection}, s.connections[number]? = some connection →
      new.phase = connection.phase → new.used = connection.used → Releases new := by
    intro number connection new here phase used released there
    rw [used]
    exact held number connection here released (phase.symm.trans there)
  cases stepped with
  | stale after listed here phase => exact absurd phase (registered.not_over listed here)
  | handshaken endpoint => exact held.start (none_ (by simp))
  | learnt here phase => exact held.set (none_ (by simp [phase]))
  | went phase sent closed closing here early live =>
    refine held.set (none_ fun released same => ?_)
    change phase = .releasing released at same
    rw [same] at live
    simp [ConnectionPhase.live] at live
  | counted here | drained here | barrierQueued here | linkGone here | answered here => exact held.set (kept here rfl rfl)
  | marked here | found here | lookedUp here | barred here | closeSent here | released here | forgotten here =>
    exact held.set (none_ (by simp))
  | @forgot number connection here phase =>
    refine held.set fun released same address member => ?_
    cases ConnectionPhase.releasing.inj same
    unfold Transport.releasedBy at member
    rw [ExtTreeMap.mem_keys, ExtTreeMap.mem_iff_isSome_getElem?, ExtTreeMap.getElem?_filter'] at member
    obtain ⟨entry, there⟩ := Option.isSome_iff_exists.mp member
    obtain ⟨there, last⟩ := Option.filter_eq_some_iff.mp there
    obtain ⟨found, was, _, used, _⟩ := (knows address entry there).live number (of_decide_eq_true last).1
    cases here.symm.trans was
    exact used
  | _ => exact held

theorem of_reach (reach : Transport.machine.Reach s) : TaskList.Each (fun _ => Releases) s.connections := by
  refine Machine.Reach.invariant (P := fun s => TaskList.Each (fun _ => Releases) s.connections) ?_ ?_ reach
  · rintro s ⟨dialer, rfl⟩ n connection there
    simp at there
  · intro s label s' previous held step
    exact Releases.step held (Knows.of_reach previous) (Registered.of_reach previous) (Transport.step_cases step)

end Releases

namespace Transport

section Run

variable {h : Unit} {s : Transport}

theorem run_awaits (run : machine.Run (fun _ s label => s.seesAll label = true) (fun _ _ _ _ => ()) () h s) :
    TaskList.Each (fun _ => Awaits s.tasks s.packets s.barriers) s.connections := by
  refine Machine.Run.invariant
    (P := fun _ s => TaskList.Each (fun _ => Awaits s.tasks s.packets s.barriers) s.connections) ?_ ?_ run
  · rintro s ⟨dialer, rfl⟩ n connection there
    simp at there
  · intro _ s label s' previous held sees step
    exact Awaits.step held (Pipes.of_reach previous.reach) (Registered.of_reach previous.reach) sees (step_cases step)

theorem run_closeSent (run : machine.Run (fun _ s label => s.seesAll label = true) (fun _ _ _ _ => ()) () h s) :
    CloseSent s := by
  have held := run_awaits run
  have pipes := Pipes.of_reach run.reach
  refine ⟨?_, ?_, ?_⟩
  · intro c connection here sent
    obtain ⟨mark, built, settled⟩ := (held c connection here).sent sent
    refine ⟨mark, built, fun p packet task before there known member => ?_⟩
    rcases (settled _ task known member).resolve_left List.not_mem_nil p packet before there rfl with
      sent | dropped | ⟨found, known', ended⟩
    · exact .inl sent
    · exact .inr (.inl dropped)
    · cases known.symm.trans known'
      exact .inr (.inr ended)
  · intro c connection mark here sent built n task known member open_ p waiting
    obtain ⟨mark', built', settled⟩ := (held c connection here).sent sent
    cases built.symm.trans built'
    obtain ⟨packet, there, own, queued⟩ := (pipes.pipes n task known).queued p waiting
    by_contra before
    rcases (settled n task known member).resolve_left List.not_mem_nil p packet (Nat.lt_of_not_le before) there own with
      sent | ⟨_, dropped, _⟩ | ⟨found, known', ended⟩
    · rw [queued] at sent
      simp at sent
    · rw [queued] at dropped
      simp at dropped
    · cases known.symm.trans known'
      rw [open_] at ended
      simp at ended
  · intro c connection released here phase
    exact Releases.of_reach run.reach c connection here released phase

end Run

/-- A connection uses a link and is closed here, and its CONNECTION_CLOSE is in
the link's queue. -/
def closesOver (address : PeerAddress) : List TransportStep :=
  [.handshake 7, .learn 0 address, .close 0, .hook 0, .reason 0 false, .send address [0x40] true, .build 0, .hook 0]

def passesOn (link : Nat) : List TransportStep := [.forward link true, .takeOut link, .sent link true]

/-- `close_sent` queues its barrier on the link, and has it back. -/
def barsOn (link : Nat) : List TransportStep :=
  [.hook 0, .hook 0, .hook 0, .forward link true, .takeOut link, .hook 0, .hook 0, .hook 0]

theorem run_closeSent_alone : ∃ s, CloseSent s ∧
    s.connections[0]?.map (fun connection => connection.sent) = some (some true) ∧
      s.packets[0]?.map (fun packet => packet.fate) = some PacketFate.sent := by
  obtain ⟨_, s, run, ended⟩ := Machine.Run.exists_of_follow machine
    (fun _ s label => s.seesAll label = true) (fun _ _ _ _ => ()) ()
    (fun _ s => decide (s.connections[0]?.map (fun connection => connection.sent) = some (some true) ∧
      s.packets[0]?.map (fun packet => packet.fate) = some PacketFate.sent))
    ⟨true, rfl⟩
    (linkUp ⟨"AA"⟩ .peripheral 0 ++ closesOver ⟨"AA"⟩ ++ passesOn 0 ++ barsOn 0)
    (by decide +kernel)
  exact ⟨s, run_closeSent run, of_decide_eq_true ended⟩

/-- The peer dials again, and the barrier is queued on the newer link. -/
theorem not_closeSent : ¬ ∀ s : Transport, machine.Reach s → CloseSent s := by
  intro claim
  obtain ⟨s, reach, ended⟩ := Machine.Reach.exists_of_follow machine
    (fun s => (s.connections[0]?.any fun connection : IrohConnection =>
        decide (connection.sent = some true ∧ connection.built = some 1 ∧ (⟨"AA"⟩ : PeerAddress) ∈ connection.used)) &&
      s.tasks[0]?.any fun task : LinkTask =>
        decide (task.address = ⟨"AA"⟩ ∧ task.ended = false ∧ Outgoing.packet 0 ∈ task.queue))
    ⟨true, rfl⟩
    (linkUp ⟨"AA"⟩ .peripheral 0 ++ closesOver ⟨"AA"⟩ ++ linkUp ⟨"AA"⟩ .peripheral 1 ++ barsOn 1) (by decide +kernel)
  rw [Bool.and_eq_true, Option.any_eq_true, Option.any_eq_true] at ended
  obtain ⟨⟨connection, here, closed⟩, task, there, waits⟩ := ended
  obtain ⟨sent, built, used⟩ := of_decide_eq_true closed
  obtain ⟨address, open_, member⟩ := of_decide_eq_true waits
  have after := (claim s reach).waiting 0 connection 1 here sent built 0 task there (address ▸ used) open_ 0 member
  exact absurd after (by decide)

end Transport

end BleGatt.Iroh
