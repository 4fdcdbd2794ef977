import BleGatt.Iroh.CloseSent

namespace BleGatt.Iroh
open Std

/-! A barrier stays behind what was queued on its link before it, though it
may wait for room in `to_send` apart from both queues. -/

namespace Transport

structure BarrierFifo (s : Transport) : Prop where
  /-- What was queued on the link before a barrier that was signalled went to
  the channel's `send`, or `dropped` knows of it. -/
  passed : ∀ (b : Nat) (barrier : Barrier), s.barriers[b]? = some barrier → barrier.reached = true →
    ∀ (p : Nat) (packet : QueuedPacket), p < barrier.mark → s.packets[p]? = some packet →
      packet.link = barrier.link → packet.fate = .sent ∨
        ∃ (at_ last : Instant) (task : LinkTask), packet.fate = .dropped at_ ∧ s.tasks[barrier.link]? = some task ∧
          s.dropped[task.address]? = some last ∧ at_ ≤ last
  /-- A link that goes on has every other barrier still. -/
  kept : ∀ (b : Nat) (barrier : Barrier) (task : LinkTask), s.barriers[b]? = some barrier → barrier.reached = false →
    s.tasks[barrier.link]? = some task → task.ended = false → .barrier b ∈ task.queue ∨ b ∈ task.parked
  /-- Who waits for a barrier goes on once it was signalled, or its link has
  ended. -/
  released : ∀ (label : TransportStep) (s' : Transport), s.step label = some s' →
    ∀ (c b : Nat) (connection connection' : IrohConnection), s.connections[c]? = some connection →
      connection.phase = .barring → connection.barrier = some b → s'.connections[c]? = some connection' →
        connection'.barrier ≠ some b → ∃ barrier, s.barriers[b]? = some barrier ∧ (barrier.reached = true ∨
          ∃ task, s.tasks[barrier.link]? = some task ∧ task.ended = true)

end Transport

/-- Where the barriers of a link are, and the packets in front of them. -/
structure Line (packets : List QueuedPacket) (barriers : List Barrier) (link : Nat) (task : LinkTask) : Prop where
  /-- What was queued before a barrier that came out of the first queue did so
  too. -/
  ahead : ∀ (b : Nat) (barrier : Barrier), .barrier b ∈ task.toSend ∨ b ∈ task.parked → barriers[b]? = some barrier →
    ∀ (p : Nat) (packet : QueuedPacket), p < barrier.mark → packets[p]? = some packet → packet.link = link →
      packet.fate = .queued → .packet p ∈ task.toSend
  kept : task.sendEnded = false → ∀ (b : Nat) (barrier : Barrier), barriers[b]? = some barrier → barrier.link = link →
    barrier.reached = false → .barrier b ∈ task.queue ∨ b ∈ task.parked

theorem PacketsLater.of_queued {packets packets' : List QueuedPacket} (later : PacketsLater packets packets')
    {p : Nat} {packet : QueuedPacket} (before : p < packets.length) (there : packets'[p]? = some packet)
    (queued : packet.fate = .queued) :
    ∃ was, packets[p]? = some was ∧ was.link = packet.link ∧ was.fate = .queued := by
  have was : packets[p]? = some packets[p] := List.getElem?_eq_getElem before
  obtain ⟨found, here, link, fate⟩ := later p packets[p] was
  cases there.symm.trans here
  refine ⟨packets[p], was, link.symm, ?_⟩
  by_contra settled
  exact settled ((fate settled).symm.trans queued)

namespace Line

variable {packets packets' : List QueuedPacket} {barriers : List Barrier} {link : Nat} {task new : LinkTask}

/-- What the packets come to. -/
theorem later (held : Line packets barriers link task) (later : PacketsLater packets packets')
    (marks : ∀ (b : Nat) (barrier : Barrier), barriers[b]? = some barrier → barrier.mark ≤ packets.length) :
    Line packets' barriers link task := by
  refine ⟨fun b barrier out there p packet before here own queued => ?_, held.kept⟩
  obtain ⟨was, here, same, queued⟩ := later.of_queued (before.trans_le (marks b barrier there)) here queued
  exact held.ahead b barrier out there p was before here (same.trans own) queued

/-- `to_send` and what waits for it stay, and no barrier is lost. -/
theorem same (held : Line packets barriers link task) (toSend : new.toSend = task.toSend)
    (parked : new.parked = task.parked) (open_ : new.sendEnded = false → task.sendEnded = false)
    (outbound : new.sendEnded = false → ∀ b, .barrier b ∈ task.outbound → .barrier b ∈ new.outbound) :
    Line packets barriers link new := by
  refine ⟨?_, ?_⟩
  · rw [toSend, parked]
    exact held.ahead
  · intro still b barrier there own unreached
    unfold LinkTask.queue
    rw [toSend, parked, List.mem_append]
    refine (held.kept (open_ still) b barrier there own unreached).imp_left fun member => ?_
    exact (List.mem_append.mp member).imp_right (outbound still b)

/-- Of what is queued before a barrier at the front of `outbound` nothing is
behind it. -/
theorem front (pipe : Pipe packets barriers link task) (open_ : task.ended = false) {b : Nat} {rest : List Outgoing}
    (head : task.outbound = .barrier b :: rest) {barrier : Barrier} (there : barriers[b]? = some barrier) {p : Nat}
    {packet : QueuedPacket} (before : p < barrier.mark) (here : packets[p]? = some packet) (own : packet.link = link)
    (queued : packet.fate = .queued) : .packet p ∈ task.toSend := by
  have waiting := pipe.waits open_ p packet here own queued
  have ordered := pipe.ordered
  unfold LinkTask.queue at waiting ordered
  rw [head] at waiting ordered
  rw [List.mem_append, List.mem_cons] at waiting
  rcases waiting with first | same | behind
  · exact first
  · simp at same
  · rw [List.pairwise_append, List.pairwise_cons] at ordered
    exact absurd before (Nat.not_lt_of_le (Outgoing.mark_le there (ordered.2.1.1 _ behind)))

/-- The loop passes on what is next. -/
theorem forward (held : Line packets barriers link task) (pipe : Pipe packets barriers link task)
    (open_ : task.ended = false) {next : Outgoing} {rest : List Outgoing} (head : task.outbound = next :: rest) :
    Line packets barriers link { task with outbound := rest, toSend := task.toSend ++ [next] } := by
  have queue : ({ task with outbound := rest, toSend := task.toSend ++ [next] } : LinkTask).queue = task.queue := by
    unfold LinkTask.queue
    rw [head, List.append_assoc, List.singleton_append]
  refine ⟨?_, ?_⟩
  · intro b barrier out there p packet before here own queued
    refine List.mem_append_left _ ?_
    rcases out with out | out
    · obtain old | last := List.mem_append.mp out
      · exact held.ahead b barrier (.inl old) there p packet before here own queued
      · rw [List.mem_singleton] at last
        subst last
        exact front pipe open_ head there before here own queued
    · exact held.ahead b barrier (.inr out) there p packet before here own queued
  · rw [queue]
    exact held.kept

/-- A barrier finds no room in `to_send`. -/
theorem park (held : Line packets barriers link task) (pipe : Pipe packets barriers link task)
    (open_ : task.ended = false) {b : Nat} {rest : List Outgoing} (head : task.outbound = .barrier b :: rest) :
    Line packets barriers link { task with outbound := rest, parked := task.parked ++ [b] } := by
  refine ⟨?_, ?_⟩
  · intro other barrier out there p packet before here own queued
    rcases out with out | out
    · exact held.ahead other barrier (.inl out) there p packet before here own queued
    · obtain old | last := List.mem_append.mp out
      · exact held.ahead other barrier (.inr old) there p packet before here own queued
      · rw [List.mem_singleton] at last
        subst last
        exact front pipe open_ head there before here own queued
  · intro still other barrier there own unreached
    rcases held.kept still other barrier there own unreached with member | waits
    · unfold LinkTask.queue at member
      rw [head, List.mem_append, List.mem_cons] at member
      rcases member with first | same | last
      · exact .inl (List.mem_append_left _ first)
      · cases Outgoing.barrier.inj same
        exact .inr (List.mem_append_right _ List.mem_cons_self)
      · exact .inl (List.mem_append_right _ last)
    · exact .inr (List.mem_append_left _ waits)

/-- It finds room later. -/
theorem unpark (held : Line packets barriers link task) {b : Nat} (member : b ∈ task.parked) :
    Line packets barriers link
      { task with parked := task.parked.erase b, toSend := task.toSend ++ [.barrier b] } := by
  refine ⟨?_, ?_⟩
  · intro other barrier out there p packet before here own queued
    have was : .barrier other ∈ task.toSend ∨ other ∈ task.parked := by
      rcases out with out | out
      · obtain old | last := List.mem_append.mp out
        · exact .inl old
        · cases Outgoing.barrier.inj (List.mem_singleton.mp last)
          exact .inr member
      · exact .inr (List.mem_of_mem_erase out)
    exact List.mem_append_left _ (held.ahead other barrier was there p packet before here own queued)
  · intro still other barrier there own unreached
    unfold LinkTask.queue
    rw [List.mem_append, List.mem_append, List.mem_singleton]
    rcases held.kept still other barrier there own unreached with queued | waits
    · obtain first | last := List.mem_append.mp queued
      · exact .inl (.inl (.inl first))
      · exact .inl (.inr last)
    · by_cases same : other = b
      · exact .inl (.inl (.inr (by rw [same])))
      · exact .inr ((List.mem_erase_of_ne same).mpr waits)

/-- The send task takes a packet. -/
theorem sent (held : Line packets barriers link task) {p : Nat} {rest : List Outgoing}
    (head : task.toSend = .packet p :: rest) (later : PacketsLater packets packets')
    (marks : ∀ (b : Nat) (barrier : Barrier), barriers[b]? = some barrier → barrier.mark ≤ packets.length)
    (gone : ∀ packet, packets'[p]? = some packet → packet.fate ≠ .queued) :
    Line packets' barriers link { task with toSend := rest, sending := true } := by
  have after := held.later later marks
  refine ⟨?_, ?_⟩
  · intro b barrier out there q packet before here own queued
    have was : .barrier b ∈ task.toSend ∨ b ∈ task.parked := by
      rw [head]
      exact out.imp_left (List.mem_cons_of_mem _)
    have member := after.ahead b barrier was there q packet before here own queued
    rw [head, List.mem_cons] at member
    rcases member with same | member
    · cases Outgoing.packet.inj same
      exact absurd queued (gone packet here)
    · exact member
  · intro open_ b barrier there own unreached
    refine (held.kept open_ b barrier there own unreached).imp_left fun member => ?_
    unfold LinkTask.queue at member ⊢
    rw [head, List.cons_append, List.mem_cons] at member
    exact member.resolve_left (by simp)

/-- The send task takes a barrier. -/
theorem reach (held : Line packets barriers link task) {b : Nat} {rest : List Outgoing}
    (head : task.toSend = .barrier b :: rest) :
    Line packets (barriers.modify b fun barrier => { barrier with reached := true }) link
      { task with toSend := rest } := by
  refine ⟨?_, ?_⟩
  · intro other barrier out there p packet before here own queued
    have was : .barrier other ∈ task.toSend ∨ other ∈ task.parked := by
      rw [head]
      exact out.imp_left (List.mem_cons_of_mem _)
    have member : .packet p ∈ task.toSend := by
      obtain ⟨old, known, rfl, rfl⟩ | ⟨_, known⟩ := TaskList.of_modify there
      · exact held.ahead other old was known p packet before here own queued
      · exact held.ahead other barrier was known p packet before here own queued
    rw [head, List.mem_cons] at member
    exact member.resolve_left (by simp)
  · intro open_ other barrier there own unreached
    obtain ⟨old, known, rfl, rfl⟩ | ⟨apart, known⟩ := TaskList.of_modify there
    · simp at unreached
    · refine (held.kept open_ other barrier known own unreached).imp_left fun member => ?_
      unfold LinkTask.queue at member ⊢
      rw [head, List.cons_append, List.mem_cons] at member
      exact member.resolve_left fun same => apart (Outgoing.barrier.inj same)

/-- A barrier of another link comes out. -/
theorem reach_other (held : Line packets barriers link task) {b : Nat}
    (other : ∀ barrier, barriers[b]? = some barrier → barrier.link ≠ link) :
    Line packets (barriers.modify b fun barrier => { barrier with reached := true }) link task := by
  refine ⟨?_, ?_⟩
  · intro number barrier out there p packet before here own queued
    obtain ⟨old, known, rfl, rfl⟩ | ⟨_, known⟩ := TaskList.of_modify there
    · exact held.ahead number old out known p packet before here own queued
    · exact held.ahead number barrier out known p packet before here own queued
  · intro open_ number barrier there own unreached
    obtain ⟨old, known, rfl, rfl⟩ | ⟨_, known⟩ := TaskList.of_modify there
    · exact absurd own (other old known)
    · exact held.kept open_ number barrier known own unreached

/-- A barrier is queued somewhere. -/
theorem addBarrier (held : Line packets barriers link task) (pipe : Pipe packets barriers link task)
    {barrier : Barrier}
    (queue : task.sendEnded = false → barrier.link = link → .barrier barriers.length ∈ new.queue)
    (toSend : new.toSend = task.toSend) (parked : new.parked = task.parked)
    (sendEnded : new.sendEnded = task.sendEnded) (outbound : task.outbound ⊆ new.outbound) :
    Line packets (barriers ++ [barrier]) link new := by
  refine ⟨?_, ?_⟩
  · rw [toSend, parked]
    intro b found out there
    obtain ⟨old, was, _⟩ := pipe.owned b (out.imp_left fun member => List.mem_append_left _ member)
    cases (TaskList.getElem?_append_of was [barrier]).symm.trans there
    exact held.ahead b found out was
  · rw [sendEnded, parked]
    intro open_ b found there own unreached
    obtain was | ⟨rfl, rfl⟩ := TaskList.of_append there
    · refine (held.kept open_ b found was own unreached).imp_left fun member => ?_
      unfold LinkTask.queue at member ⊢
      rw [toSend, List.mem_append]
      exact (List.mem_append.mp member).imp_right fun there => outbound there
    · exact .inl (queue open_ own)

end Line

/-- Where the barriers of every link are, and what those that came out left
behind. -/
structure Fifo (tasks : List LinkTask) (packets : List QueuedPacket) (barriers : List Barrier) : Prop where
  lines : TaskList.Each (Line packets barriers) tasks
  links : ∀ (b : Nat) (barrier : Barrier), barriers[b]? = some barrier → barrier.link < tasks.length
  passed : ∀ (b : Nat) (barrier : Barrier), barriers[b]? = some barrier → barrier.reached = true →
    ∀ (p : Nat) (packet : QueuedPacket), p < barrier.mark → packets[p]? = some packet →
      packet.link = barrier.link → packet.fate ≠ .queued

namespace Fifo

variable {s s' : Transport} {tasks : List LinkTask} {packets packets' : List QueuedPacket} {barriers : List Barrier}
  {link : Nat} {task new : LinkTask}

/-- A link goes on. -/
theorem setTask (held : Fifo tasks packets barriers) (line : Line packets barriers link new) :
    Fifo (tasks.set link new) packets barriers := by
  refine ⟨held.lines.set line, ?_, held.passed⟩
  rw [List.length_set]
  exact held.links

theorem map (held : Fifo tasks packets barriers) {f : LinkTask → LinkTask}
    (line : ∀ n task, Line packets barriers n task → Line packets barriers n (f task)) :
    Fifo (tasks.map f) packets barriers := by
  refine ⟨held.lines.map line, ?_, held.passed⟩
  rw [List.length_map]
  exact held.links

/-- A link is started. -/
theorem start (held : Fifo tasks packets barriers) (toSend : new.toSend = []) (parked : new.parked = []) :
    Fifo (tasks ++ [new]) packets barriers := by
  refine ⟨held.lines.start ⟨?_, ?_⟩, ?_, held.passed⟩
  · rw [toSend, parked]
    simp
  · intro _ b barrier there own
    exact absurd own (held.links b barrier there).ne
  · intro b barrier there
    rw [List.length_append]
    exact Nat.lt_add_right _ (held.links b barrier there)

/-- What the packets come to. -/
theorem later (held : Fifo tasks packets barriers) (later : PacketsLater packets packets')
    (marks : ∀ (b : Nat) (barrier : Barrier), barriers[b]? = some barrier → barrier.mark ≤ packets.length) :
    Fifo tasks packets' barriers := by
  refine ⟨held.lines.imp fun n task line => line.later later marks, held.links, ?_⟩
  intro b barrier there reached p packet before here own queued
  obtain ⟨was, here, same, queued⟩ := later.of_queued (before.trans_le (marks b barrier there)) here queued
  exact held.passed b barrier there reached p was before here (same.trans own) queued

/-- `close_sent` queues a barrier on a link. -/
theorem bar (held : Fifo tasks packets barriers) (pipes : TaskList.Each (Pipe packets barriers) tasks)
    (here : tasks[link]? = some task) :
    Fifo (tasks.set link { task with outbound := task.outbound ++ [.barrier barriers.length] }) packets
      (barriers ++ [{ link := link, mark := packets.length }]) := by
  refine ⟨?_, ?_, ?_⟩
  · intro n found there
    obtain ⟨rfl, rfl⟩ | ⟨other, was⟩ := TaskList.of_set there
    · refine (held.lines n task here).addBarrier (pipes n task here) (fun _ _ => ?_) rfl rfl rfl ?_
      · exact List.mem_append_right _ (List.mem_append_right _ List.mem_cons_self)
      · exact List.subset_append_left _ _
    · exact (held.lines n found was).addBarrier (pipes n found was) (fun _ own => absurd own.symm other) rfl rfl rfl
        (List.Subset.refl _)
  · intro b barrier there
    rw [List.length_set]
    obtain was | ⟨_, rfl⟩ := TaskList.of_append there
    · exact held.links b barrier was
    · exact TaskList.lt_length here
  · intro b barrier there reached
    obtain was | ⟨_, rfl⟩ := TaskList.of_append there
    · exact held.passed b barrier was reached
    · simp at reached

/-- The send task takes a barrier. -/
theorem reach (held : Fifo tasks packets barriers) (pipes : TaskList.Each (Pipe packets barriers) tasks)
    (here : tasks[link]? = some task) {b : Nat} {rest : List Outgoing} (head : task.toSend = .barrier b :: rest) :
    Fifo (tasks.set link { task with toSend := rest }) packets
      (barriers.modify b fun barrier => { barrier with reached := true }) := by
  have pipe := pipes link task here
  obtain ⟨barrier, there, own⟩ := pipe.owned b (.inl (by simp [LinkTask.queue, head]))
  refine ⟨?_, ?_, ?_⟩
  · intro n found known
    obtain ⟨rfl, rfl⟩ | ⟨other, was⟩ := TaskList.of_set known
    · exact (held.lines n task here).reach head
    · refine (held.lines n found was).reach_other fun found there' => ?_
      cases there.symm.trans there'
      exact fun same => other (same.symm.trans own)
  · intro number found known
    rw [List.length_set]
    obtain ⟨old, was, rfl, rfl⟩ | ⟨_, was⟩ := TaskList.of_modify known
    · exact held.links number old was
    · exact held.links number found was
  · intro number found known reached p packet before at_p same queued
    obtain ⟨old, was, rfl, rfl⟩ | ⟨_, was⟩ := TaskList.of_modify known
    · -- what was queued before it is in `to_send` still, but all there is behind it
      cases there.symm.trans was
      have member := (held.lines link task here).ahead number barrier (.inl (by simp [head])) there p packet before at_p
        (same.trans own) queued
      have ordered := pipe.ordered
      unfold LinkTask.queue at ordered
      rw [head, List.cons_append, List.pairwise_cons] at ordered
      rw [head, List.mem_cons] at member
      have behind := ordered.1 _ (List.mem_append_left _ (member.resolve_left (by simp)))
      have after := Outgoing.mark_le there behind
      exact absurd before (Nat.not_lt_of_le after)
    · exact held.passed number found was reached p packet before at_p same queued

theorem step {label : TransportStep} (held : Fifo s.tasks s.packets s.barriers)
    (pipes : Pipes s.now s.dropped s.tasks s.packets s.barriers) (registered : Registered s.links s.tasks)
    (stepped : Transport.Stepped s label s') : Fifo s'.tasks s'.packets s'.barriers := by
  have packets := (Later.of_stepped pipes registered stepped).packets
  -- a link that keeps what is in its queues
  have goes : ∀ {link : Nat} {task new : LinkTask}, s.tasks[link]? = some task → new.toSend = task.toSend →
      new.parked = task.parked → (new.sendEnded = false → task.sendEnded = false) →
        (new.sendEnded = false → new.outbound = task.outbound) →
          Fifo (s.tasks.set link new) s.packets s.barriers := by
    intro link task new here toSend parked open_ outbound
    refine held.setTask ((held.lines link task here).same toSend parked open_ fun still b member => ?_)
    rw [outbound still]
    exact member
  have marks := pipes.marks
  cases stepped with
  | closeLink address =>
    refine held.map fun n task line => ?_
    split
    · exact line.same rfl rfl id fun _ _ member => member
    · exact line
  | forgot | released =>
    refine held.map fun n task line => ?_
    split
    · exact line.same rfl rfl id fun _ _ member => member
    · exact line
  | attach address role => exact held.start rfl rfl
  | dialStarted free => exact (held.later packets marks).start rfl rfl
  | stale after listed here phase => exact absurd phase (registered.not_over listed here)
  | queued listed here =>
    have later := held.later packets marks
    refine later.setTask ((later.lines _ _ here).same rfl rfl id fun _ b member => ?_)
    exact List.mem_append_left _ member
  | refused listed here => exact held.later packets marks
  | moved _ here | inserted here | cameUp here | registered here | checked here | noticed here | fired here
  | disarmed here | dialFailed _ here | finished _ here | removed here | outlived here =>
    exact goes here rfl rfl id fun _ => rfl
  | ended after here phase address ending sendEnded queue released untaken =>
    refine goes here queue.1 queue.2.1 (fun open_ => ?_) fun open_ => ?_
    · exact sendEnded.symm.trans open_
    · exact untaken (sendEnded.symm.trans open_)
  | @forwarded link task next rest room here phase head open_ =>
    have going : task.ended = false := LinkTask.ended_eq_false_iff.mpr ⟨open_, by rw [phase]; rfl⟩
    exact held.setTask ((held.lines _ _ here).forward (pipes.pipes _ _ here) going head)
  | @shed link packet task rest room here phase head =>
    have later := held.later packets marks
    refine later.setTask ((later.lines _ _ here).same rfl rfl id fun _ b member => ?_)
    rw [head, List.mem_cons] at member
    exact member.resolve_left (by simp)
  | @parked link barrier task rest room here phase head open_ =>
    have going : task.ended = false := LinkTask.ended_eq_false_iff.mpr ⟨open_, by rw [phase]; rfl⟩
    exact held.setTask ((held.lines _ _ here).park (pipes.pipes _ _ here) going head)
  | unparked here sends waits => exact held.setTask ((held.lines _ _ here).unpark waits)
  | @sentOut link packet task rest here sends open_ head =>
    refine (held.later packets marks).setTask ((held.lines _ _ here).sent head packets marks ?_)
    intro found there
    obtain ⟨before, _, _, rfl⟩ | ⟨other, _⟩ := TaskList.of_modify there
    · simp
    · exact absurd rfl other
  | reached here sends head => exact held.reach pipes.pipes here head
  | sendReturned ok here sends busy =>
    exact goes here rfl rfl (fun _ => (pipes.pipes _ _ here).sending busy) fun _ => rfl
  | aborted here ended => exact goes here rfl rfl (by simp) (by simp)
  | barrierQueued here phase none_ next there => exact held.bar pipes.pipes there
  | _ => exact held

theorem of_reach (reach : Transport.machine.Reach s) : Fifo s.tasks s.packets s.barriers := by
  refine Machine.Reach.invariant (P := fun s => Fifo s.tasks s.packets s.barriers) ?_ ?_ reach
  · rintro s ⟨dialer, rfl⟩
    exact ⟨fun n task there => by simp at there, by simp, by simp⟩
  · intro s label s' previous held step
    exact held.step (Pipes.of_reach previous) (Registered.of_reach previous) (Transport.step_cases step)

end Fifo

namespace Transport

section Reach

variable {s s' : Transport}

/-- What lets go of who waits for a barrier. -/
theorem released_of_stepped {label : TransportStep} (fifo : Fifo s.tasks s.packets s.barriers)
    (registered : Registered s.links s.tasks) (stepped : Stepped s label s') {c b : Nat}
    {connection connection' : IrohConnection} (here : s.connections[c]? = some connection)
    (phase : connection.phase = .barring) (waiting : connection.barrier = some b)
    (after : s'.connections[c]? = some connection') (gone : connection'.barrier ≠ some b) :
    ∃ barrier, s.barriers[b]? = some barrier ∧ (barrier.reached = true ∨
      ∃ task, s.tasks[barrier.link]? = some task ∧ task.ended = true) := by
  have keeps : ∀ {number : Nat} {old new : IrohConnection}, s.connections[number]? = some old →
      (old.phase = .barring → old.barrier = some b → new.barrier = some b) →
        (s.connections.set number new)[c]? ≠ some connection' := by
    intro number old new there still changed
    obtain ⟨rfl, rfl⟩ | ⟨_, was⟩ := TaskList.of_set changed
    · cases here.symm.trans there
      exact gone (still phase waiting)
    · cases here.symm.trans was
      exact gone waiting
  cases stepped with
  | stale after' listed there over_ => exact absurd over_ (registered.not_over listed there)
  | handshaken endpoint =>
    cases (TaskList.getElem?_append_of here _).symm.trans after
    exact absurd waiting gone
  | answered there _ some_ known done =>
    obtain ⟨rfl, rfl⟩ | ⟨_, was⟩ := TaskList.of_set after
    · cases here.symm.trans there
      cases waiting.symm.trans some_
      have running := List.getElem?_eq_getElem (fifo.links _ _ known)
      exact ⟨_, known, done.imp_right fun lost => ⟨_, running, ended_of_barrierLost running lost⟩⟩
    · cases here.symm.trans was
      exact absurd waiting gone
  | learnt there earlier | marked there earlier | found there earlier | lookedUp there earlier | closeSent there earlier
  | forgot there earlier | released there earlier | forgotten there earlier =>
    exact absurd after (keeps there fun barring => absurd (earlier.symm.trans barring) (by simp))
  | went _ _ _ _ there | counted there | drained there => exact absurd after (keeps there fun _ same => same)
  | barrierQueued there _ none_ | linkGone there _ none_ | barred there _ none_ =>
    exact absurd after (keeps there fun _ some_ => absurd (none_.symm.trans some_) (by simp))
  | _ =>
    cases here.symm.trans after
    exact absurd waiting gone

theorem reach_barrierFifo (reach : machine.Reach s) : BarrierFifo s := by
  have fifo := Fifo.of_reach reach
  have pipes := Pipes.of_reach reach
  refine ⟨?_, ?_, ?_⟩
  · intro b barrier there reached p packet before here own
    have settled := fifo.passed b barrier there reached p packet before here own
    cases fate : packet.fate with
    | queued => exact absurd fate settled
    | sent => exact .inl rfl
    | dropped at_ =>
      have bound := fifo.links b barrier there
      have known : s.tasks[barrier.link]? = some s.tasks[barrier.link] := List.getElem?_eq_getElem bound
      obtain ⟨last, noted, since⟩ := (pipes.drops p packet at_ here fate).2 _ (by rw [own, known])
      exact .inr ⟨at_, last, _, rfl, known, noted, since⟩
  · intro b barrier task there unreached known open_
    have still := (LinkTask.ended_eq_false_iff.mp open_).1
    exact (fifo.lines _ task known).kept still b barrier there rfl unreached
  · intro label s' step c b connection connection' here phase waiting after gone
    exact released_of_stepped fifo (Registered.of_reach reach) (step_cases step) here phase waiting after gone

end Reach

/-- A full `to_send`, a barrier that waits for room, a packet behind it that
is dropped, and the send task that takes what was in front of the barrier. -/
def parksBarrier (address : PeerAddress) : List TransportStep :=
  let packet : List TransportStep := [.send address [0x40] true, .forward 0 true]
  let taken : List TransportStep := [.takeOut 0, .sent 0 true]
  let parked : List TransportStep :=
    [.hook 0, .hook 0, .hook 0, .forward 0 false, .send address [0x40] true, .forward 0 false]
  linkUp address .peripheral 0 ++ closesOver address ++ .forward 0 true :: (List.replicate 63 packet).flatten ++
    parked ++ taken ++ .unpark 0 0 :: (List.replicate 63 taken).flatten ++ [.takeOut 0]

theorem reach_barrierFifo_parked : ∃ s, BarrierFifo s ∧
    s.barriers[0]?.map (fun barrier => barrier.reached) = some true ∧
      s.packets.map (fun packet => packet.fate) =
        List.replicate linkQueueDepth PacketFate.sent ++ [PacketFate.dropped 0] := by
  obtain ⟨s, reach, ended⟩ := Machine.Reach.exists_of_follow machine
    (fun s => decide (s.barriers[0]?.map (fun barrier => barrier.reached) = some true ∧
      s.packets.map (fun packet => packet.fate) =
        List.replicate linkQueueDepth PacketFate.sent ++ [PacketFate.dropped 0]))
    ⟨true, rfl⟩ (parksBarrier ⟨"AA"⟩) (by decide +kernel)
  exact ⟨s, reach_barrierFifo reach, of_decide_eq_true ended⟩

end Transport

end BleGatt.Iroh
