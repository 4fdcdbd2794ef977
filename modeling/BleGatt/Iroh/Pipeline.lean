import BleGatt.Iroh.LinkTable

namespace BleGatt.Iroh
open Std

/-! The two queues of a link: packets come out in the order they went in, and
a barrier behind the packets that were queued before it. -/

theorem LinkTask.ended_iff {task : LinkTask} :
    task.ended = true ↔ task.sendEnded = true ∨ task.phase.ended = true := Bool.or_eq_true_iff

theorem LinkTask.ended_eq_false_iff {task : LinkTask} :
    task.ended = false ↔ task.sendEnded = false ∧ task.phase.ended = false := Bool.or_eq_false_iff

/-- What has not come out yet, first in front. -/
def LinkTask.queue (task : LinkTask) : List Outgoing := task.toSend ++ task.outbound

/-- No packet behind it has a smaller number. -/
def Outgoing.floor (barriers : List Barrier) : Outgoing → Nat
  | .packet number => number + 1
  | .barrier number => barriers[number]?.elim 0 Barrier.mark

/-- `next` may stand behind `first`. -/
def Outgoing.Behind (barriers : List Barrier) (first next : Outgoing) : Prop :=
  ∀ packet, next = .packet packet → first.floor barriers ≤ packet

theorem Outgoing.behind_barrier (barriers : List Barrier) (first : Outgoing) (number : Nat) :
    Outgoing.Behind barriers first (.barrier number) := by
  intro packet same
  simp at same

theorem Outgoing.mark_le {barriers : List Barrier} {b p : Nat} {barrier : Barrier} (there : barriers[b]? = some barrier)
    (behind : Outgoing.Behind barriers (.barrier b) (.packet p)) : barrier.mark ≤ p := by
  have floor := behind p rfl
  unfold Outgoing.floor at floor
  dsimp only at floor
  rwa [there] at floor

/-- What a link's queues have of the packets and the barriers. -/
structure Pipe (packets : List QueuedPacket) (barriers : List Barrier) (link : Nat) (task : LinkTask) : Prop where
  ordered : task.queue.Pairwise (Outgoing.Behind barriers)
  parked : ∀ barrier ∈ task.parked, ∀ next ∈ task.outbound, Outgoing.Behind barriers (.barrier barrier) next
  queued : ∀ p, .packet p ∈ task.queue → ∃ packet, packets[p]? = some packet ∧ packet.link = link ∧
    packet.fate = .queued
  waits : task.ended = false → ∀ (p : Nat) (packet : QueuedPacket), packets[p]? = some packet → packet.link = link →
    packet.fate = .queued → .packet p ∈ task.queue
  owned : ∀ b, .barrier b ∈ task.queue ∨ b ∈ task.parked → ∃ barrier, barriers[b]? = some barrier ∧
    barrier.link = link
  reached : ∀ (b : Nat) (barrier : Barrier), barriers[b]? = some barrier → barrier.link = link →
    barrier.reached = true → ∀ next ∈ task.queue, Outgoing.Behind barriers (.barrier b) next
  sending : task.sending = true → task.sendEnded = false

section Floor

variable {barriers : List Barrier} {new : Barrier}

/-- Marks do not change. -/
theorem Outgoing.floor_modify (number : Nat) (item : Outgoing) :
    item.floor (barriers.modify number fun barrier => { barrier with reached := true }) = item.floor barriers := by
  cases item with
  | packet => rfl
  | barrier b =>
    unfold Outgoing.floor
    dsimp only
    rw [TaskList.getElem?_modify]
    split
    · cases barriers[b]? <;> rfl
    · rfl

theorem Outgoing.floor_append {barrier : Barrier} {b : Nat} (there : barriers[b]? = some barrier) :
    (Outgoing.barrier b).floor (barriers ++ [new]) = (Outgoing.barrier b).floor barriers := by
  unfold Outgoing.floor
  dsimp only
  rw [TaskList.getElem?_append_of there, there]

end Floor

namespace Pipe

variable {packets : List QueuedPacket} {barriers : List Barrier} {link : Nat} {task new : LinkTask}

/-- A step that leaves what waits. -/
theorem same (held : Pipe packets barriers link task) (toSend : new.toSend = task.toSend)
    (outbound : new.outbound = task.outbound) (parked : new.parked = task.parked)
    (ended : new.ended = false → task.ended = false) (sending : new.sending = true → new.sendEnded = false) :
    Pipe packets barriers link new := by
  have queue : new.queue = task.queue := by
    unfold LinkTask.queue
    rw [toSend, outbound]
  refine ⟨?_, ?_, ?_, ?_, ?_, ?_, sending⟩
  · rw [queue]
    exact held.ordered
  · rw [parked, outbound]
    exact held.parked
  · rw [queue]
    exact held.queued
  · rw [queue]
    exact fun open_ => held.waits (ended open_)
  · rw [queue, parked]
    exact held.owned
  · rw [queue]
    exact held.reached

/-- A packet of another link, or one that was dropped at once. -/
theorem packet (held : Pipe packets barriers link task) {packet : QueuedPacket}
    (other : packet.link = link → packet.fate ≠ .queued) : Pipe (packets ++ [packet]) barriers link task := by
  refine ⟨held.ordered, held.parked, ?_, ?_, held.owned, held.reached, held.sending⟩
  · intro p member
    obtain ⟨found, there, rest⟩ := held.queued p member
    exact ⟨found, TaskList.getElem?_append_of there _, rest⟩
  · intro open_ p found there own fate
    obtain there | ⟨_, rfl⟩ := TaskList.of_append there
    · exact held.waits open_ p found there own fate
    · exact absurd fate (other own)

/-- Every number a barrier or a packet can hold back is below the next. -/
theorem floor_le (held : Pipe packets barriers link task)
    (marks : ∀ (b : Nat) (barrier : Barrier), barriers[b]? = some barrier → barrier.mark ≤ packets.length) :
    ∀ item : Outgoing, item ∈ task.queue ∨ (∃ b, item = .barrier b) → item.floor barriers ≤ packets.length := by
  intro item member
  cases item with
  | packet p =>
    rcases member with member | ⟨b, same⟩
    · obtain ⟨_, there, _⟩ := held.queued p member
      exact TaskList.lt_length there
    · simp at same
  | barrier b =>
    unfold Outgoing.floor
    dsimp only
    cases there : barriers[b]? with
    | none => exact Nat.zero_le _
    | some barrier => exact marks b barrier there

/-- `send` queues a packet. -/
theorem send (held : Pipe packets barriers link task) (bytes : Bytes)
    (marks : ∀ (b : Nat) (barrier : Barrier), barriers[b]? = some barrier → barrier.mark ≤ packets.length) :
    Pipe (packets ++ [{ link := link, bytes := bytes }]) barriers link
      { task with outbound := task.outbound ++ [.packet packets.length] } := by
  have queue : ({ task with outbound := task.outbound ++ [.packet packets.length] } : LinkTask).queue =
      task.queue ++ [.packet packets.length] := (List.append_assoc _ _ _).symm
  have behind : ∀ item : Outgoing, item ∈ task.queue ∨ (∃ b, item = .barrier b) →
      Outgoing.Behind barriers item (.packet packets.length) := by
    intro item member p same
    cases same
    exact held.floor_le marks item member
  refine ⟨?_, ?_, ?_, ?_, ?_, ?_, held.sending⟩
  · rw [queue, List.pairwise_append]
    refine ⟨held.ordered, List.pairwise_singleton _ _, fun item member next last => ?_⟩
    rw [List.mem_singleton] at last
    exact last ▸ behind item (.inl member)
  · intro barrier member next there
    obtain there | last := List.mem_append.mp there
    · exact held.parked barrier member next there
    · rw [List.mem_singleton] at last
      exact last ▸ behind _ (.inr ⟨barrier, rfl⟩)
  · intro p member
    rw [queue] at member
    obtain member | last := List.mem_append.mp member
    · obtain ⟨found, there, rest⟩ := held.queued p member
      exact ⟨found, TaskList.getElem?_append_of there _, rest⟩
    · obtain rfl := Outgoing.packet.inj (List.mem_singleton.mp last)
      exact ⟨_, List.getElem?_concat_length, rfl, rfl⟩
  · intro open_ p found there own fate
    rw [queue]
    obtain there | ⟨rfl, _⟩ := TaskList.of_append there
    · exact List.mem_append_left _ (held.waits open_ p found there own fate)
    · exact List.mem_append_right _ List.mem_cons_self
  · intro b there
    rw [queue] at there
    refine held.owned b (there.imp_left fun member => ?_)
    obtain member | last := List.mem_append.mp member
    · exact member
    · simp at last
  · intro b barrier there own passed next member
    rw [queue] at member
    obtain member | last := List.mem_append.mp member
    · exact held.reached b barrier there own passed next member
    · rw [List.mem_singleton] at last
      exact last ▸ behind _ (.inr ⟨b, rfl⟩)

/-- Items leave the queues that are no packets, or go with an ended link. -/
theorem shrink (held : Pipe packets barriers link task) (queue : new.queue.Sublist task.queue)
    (outbound : new.outbound.Sublist task.outbound)
    (parked : ∀ b ∈ new.parked, b ∈ task.parked ∨ .barrier b ∈ task.queue ∧
      ∀ next ∈ new.outbound, Outgoing.Behind barriers (.barrier b) next)
    (kept : new.ended = false → task.ended = false ∧ ∀ p, .packet p ∈ task.queue → .packet p ∈ new.queue)
    (sending : new.sending = true → new.sendEnded = false) : Pipe packets barriers link new := by
  refine ⟨held.ordered.sublist queue, ?_, ?_, ?_, ?_, ?_, sending⟩
  · intro b member next there
    rcases parked b member with old | ⟨_, behind⟩
    · exact held.parked b old next (outbound.subset there)
    · exact behind next there
  · intro p member
    exact held.queued p (queue.subset member)
  · intro open_ p found there own fate
    obtain ⟨was, kept⟩ := kept open_
    exact kept p (held.waits was p found there own fate)
  · intro b there
    rcases there with member | member
    · exact held.owned b (.inl (queue.subset member))
    · rcases parked b member with old | ⟨old, _⟩
      · exact held.owned b (.inr old)
      · exact held.owned b (.inl old)
  · intro b barrier there own passed next member
    exact held.reached b barrier there own passed next (queue.subset member)

/-- Another link's packet meets its fate. -/
theorem setFate_other (held : Pipe packets barriers link task) {p : Nat} {packet : QueuedPacket} (fate : PacketFate)
    (there : packets[p]? = some packet) (other : packet.link ≠ link) :
    Pipe (packets.modify p fun packet => { packet with fate := fate }) barriers link task := by
  refine ⟨held.ordered, held.parked, ?_, ?_, held.owned, held.reached, held.sending⟩
  · intro q member
    obtain ⟨found, here, own, waiting⟩ := held.queued q member
    refine ⟨found, ?_, own, waiting⟩
    rw [TaskList.getElem?_modify, if_neg]
    · exact here
    · rintro rfl
      cases there.symm.trans here
      exact other own
  · intro open_ q found here own waiting
    obtain ⟨before, was, rfl, rfl⟩ | ⟨_, was⟩ := TaskList.of_modify here
    · cases there.symm.trans was
      exact absurd own other
    · exact held.waits open_ q found was own waiting

/-- A packet leaves the queues, and meets its fate. -/
theorem takeOut (held : Pipe packets barriers link task) {p : Nat} {fate : PacketFate} (settled : fate ≠ .queued)
    (queue : new.queue.Sublist task.queue) (outbound : new.outbound.Sublist task.outbound)
    (parked : new.parked = task.parked) (ended : new.ended = false → task.ended = false)
    (sending : new.sending = true → new.sendEnded = false) (gone : .packet p ∉ new.queue)
    (kept : ∀ q, .packet q ∈ task.queue → q = p ∨ .packet q ∈ new.queue) :
    Pipe (packets.modify p fun packet => { packet with fate := fate }) barriers link new := by
  refine ⟨held.ordered.sublist queue, ?_, ?_, ?_, ?_, ?_, sending⟩
  · intro b member next there
    exact held.parked b (parked ▸ member) next (outbound.subset there)
  · intro q member
    obtain ⟨found, here, own, waiting⟩ := held.queued q (queue.subset member)
    refine ⟨found, ?_, own, waiting⟩
    rw [TaskList.getElem?_modify, if_neg]
    · exact here
    · rintro rfl
      exact gone member
  · intro open_ q found here own waiting
    obtain ⟨before, was, rfl, rfl⟩ | ⟨other, was⟩ := TaskList.of_modify here
    · exact absurd waiting settled
    · rcases kept q (held.waits (ended open_) q found was own waiting) with same | member
      · exact absurd same other
      · exact member
  · intro b there
    rw [parked] at there
    exact held.owned b (there.imp_left fun member => queue.subset member)
  · intro b barrier there own passed next member
    exact held.reached b barrier there own passed next (queue.subset member)

/-- A barrier is created that has not come out. -/
theorem addBarrier (held : Pipe packets barriers link task) {barrier : Barrier} (fresh : barrier.reached = false) :
    Pipe packets (barriers ++ [barrier]) link task := by
  have floor : ∀ b, .barrier b ∈ task.queue ∨ b ∈ task.parked →
      (Outgoing.barrier b).floor (barriers ++ [barrier]) = (Outgoing.barrier b).floor barriers := by
    intro b there
    obtain ⟨found, here, _⟩ := held.owned b there
    exact Outgoing.floor_append here
  refine ⟨?_, ?_, held.queued, held.waits, ?_, ?_, held.sending⟩
  · refine held.ordered.imp_of_mem fun {first next} member _ behind p same => ?_
    cases first with
    | packet q => exact behind p same
    | barrier b =>
      rw [floor b (.inl member)]
      exact behind p same
  · intro b member next there p same
    rw [floor b (.inr member)]
    exact held.parked b member next there p same
  · intro b there
    obtain ⟨found, here, own⟩ := held.owned b there
    exact ⟨found, TaskList.getElem?_append_of here _, own⟩
  · intro b found there own passed next member p same
    obtain here | ⟨_, rfl⟩ := TaskList.of_append there
    · rw [Outgoing.floor_append here]
      exact held.reached b found here own passed next member p same
    · rw [fresh] at passed
      simp at passed

/-- `close_sent` queues a barrier. -/
theorem bar (held : Pipe packets barriers link task) {b : Nat} {barrier : Barrier} (there : barriers[b]? = some barrier)
    (own : barrier.link = link) :
    Pipe packets barriers link { task with outbound := task.outbound ++ [.barrier b] } := by
  have queue : ({ task with outbound := task.outbound ++ [.barrier b] } : LinkTask).queue =
      task.queue ++ [.barrier b] := (List.append_assoc _ _ _).symm
  have packet : ∀ p, .packet p ∈ task.queue ++ [.barrier b] → .packet p ∈ task.queue := by
    intro p member
    obtain member | last := List.mem_append.mp member
    · exact member
    · simp at last
  refine ⟨?_, ?_, ?_, ?_, ?_, ?_, held.sending⟩
  · rw [queue, List.pairwise_append]
    refine ⟨held.ordered, List.pairwise_singleton _ _, fun item _ next last => ?_⟩
    rw [List.mem_singleton] at last
    exact last ▸ Outgoing.behind_barrier barriers item b
  · intro other member next there
    obtain there | last := List.mem_append.mp there
    · exact held.parked other member next there
    · rw [List.mem_singleton] at last
      exact last ▸ Outgoing.behind_barrier barriers _ b
  · rw [queue]
    exact fun p member => held.queued p (packet p member)
  · rw [queue]
    intro open_ p found here own fate
    exact List.mem_append_left _ (held.waits open_ p found here own fate)
  · intro other there'
    rw [queue] at there'
    rcases there' with member | member
    · obtain member | last := List.mem_append.mp member
      · exact held.owned other (.inl member)
      · obtain rfl := Outgoing.barrier.inj (List.mem_singleton.mp last)
        exact ⟨barrier, there, own⟩
    · exact held.owned other (.inr member)
  · intro other found here own passed next member
    rw [queue] at member
    obtain member | last := List.mem_append.mp member
    · exact held.reached other found here own passed next member
    · rw [List.mem_singleton] at last
      exact last ▸ Outgoing.behind_barrier barriers _ b

/-- A barrier finds room in `to_send`, behind all that is there. -/
theorem unpark (held : Pipe packets barriers link task) {b : Nat} (member : b ∈ task.parked) :
    Pipe packets barriers link
      { task with parked := task.parked.erase b, toSend := task.toSend ++ [.barrier b] } := by
  have queue : ({ task with parked := task.parked.erase b, toSend := task.toSend ++ [.barrier b] } : LinkTask).queue =
      task.toSend ++ .barrier b :: task.outbound := by
    unfold LinkTask.queue
    rw [List.append_assoc, List.singleton_append]
  have old : ∀ item, item ∈ task.toSend ++ .barrier b :: task.outbound → item = .barrier b ∨ item ∈ task.queue := by
    intro item there
    rw [List.mem_append, List.mem_cons] at there
    rcases there with first | same | last
    · exact .inr (List.mem_append_left _ first)
    · exact .inl same
    · exact .inr (List.mem_append_right _ last)
  have ordered := List.pairwise_append.mp held.ordered
  refine ⟨?_, ?_, ?_, ?_, ?_, ?_, held.sending⟩
  · rw [queue, List.pairwise_append, List.pairwise_cons]
    refine ⟨ordered.1, ⟨held.parked b member, ordered.2.1⟩, fun first there next next_ => ?_⟩
    obtain rfl | next_ := List.mem_cons.mp next_
    · exact Outgoing.behind_barrier barriers first b
    · exact ordered.2.2 first there next next_
  · intro other still
    exact held.parked other (List.mem_of_mem_erase still)
  · rw [queue]
    intro p there
    obtain same | there := old _ there
    · simp at same
    · exact held.queued p there
  · rw [queue]
    intro open_ p found here own fate
    have there := held.waits open_ p found here own fate
    rw [LinkTask.queue, List.mem_append] at there
    rw [List.mem_append, List.mem_cons]
    exact there.imp_right .inr
  · rw [queue]
    intro other there
    rcases there with there | there
    · obtain same | there := old _ there
      · exact held.owned other (.inr (Outgoing.barrier.inj same ▸ member))
      · exact held.owned other (.inl there)
    · exact held.owned other (.inr (List.mem_of_mem_erase there))
  · rw [queue]
    intro other found here own passed next there
    obtain rfl | there := old _ there
    · exact Outgoing.behind_barrier barriers _ b
    · exact held.reached other found here own passed next there

/-- The loop passes on what is next. -/
theorem forward (held : Pipe packets barriers link task) {next : Outgoing} {rest : List Outgoing}
    (head : task.outbound = next :: rest) :
    Pipe packets barriers link { task with outbound := rest, toSend := task.toSend ++ [next] } := by
  have queue : ({ task with outbound := rest, toSend := task.toSend ++ [next] } : LinkTask).queue = task.queue := by
    unfold LinkTask.queue
    rw [head, List.append_assoc, List.singleton_append]
  refine held.shrink ?_ ?_ (fun b member => .inl member) (fun open_ => ⟨open_, fun p there => ?_⟩) held.sending
  · rw [queue]
  · rw [head]
    exact List.sublist_cons_self _ _
  · rw [queue]
    exact there

/-- A barrier finds no room in `to_send`, and what comes later may pass it. -/
theorem park (held : Pipe packets barriers link task) {b : Nat} {rest : List Outgoing}
    (head : task.outbound = .barrier b :: rest) :
    Pipe packets barriers link { task with outbound := rest, parked := task.parked ++ [b] } := by
  have queue : task.queue = task.toSend ++ .barrier b :: rest := by
    unfold LinkTask.queue
    rw [head]
  have ordered := held.ordered
  rw [queue, List.pairwise_append, List.pairwise_cons] at ordered
  refine held.shrink ?_ ?_ ?_ (fun open_ => ⟨open_, fun p there => ?_⟩) held.sending
  · rw [queue]
    exact (List.sublist_cons_self _ _).append_left _
  · rw [head]
    exact List.sublist_cons_self _ _
  · intro other member
    obtain old | last := List.mem_append.mp member
    · exact .inl old
    · rw [List.mem_singleton] at last
      subst last
      exact .inr ⟨by simp [queue], ordered.2.1.1⟩
  · rw [queue, List.mem_append, List.mem_cons] at there
    rcases there with first | same | last
    · exact List.mem_append_left _ first
    · simp at same
    · exact List.mem_append_right _ last

/-- A barrier comes out. -/
theorem reach (held : Pipe packets barriers link task) {b : Nat}
    (passed : ∀ barrier, barriers[b]? = some barrier → barrier.link = link →
      ∀ next ∈ task.queue, Outgoing.Behind barriers (.barrier b) next) :
    Pipe packets (barriers.modify b fun barrier => { barrier with reached := true }) link task := by
  refine ⟨?_, ?_, held.queued, held.waits, ?_, ?_, held.sending⟩
  · refine held.ordered.imp fun {first next} behind p same => ?_
    rw [Outgoing.floor_modify]
    exact behind p same
  · intro other member next there p same
    rw [Outgoing.floor_modify]
    exact held.parked other member next there p same
  · intro other there
    obtain ⟨found, here, own⟩ := held.owned other there
    rw [TaskList.getElem?_modify, here]
    split
    · exact ⟨_, rfl, own⟩
    · exact ⟨found, rfl, own⟩
  · intro other found here own out next member p same
    rw [Outgoing.floor_modify]
    obtain ⟨before, was, rfl, rfl⟩ | ⟨_, was⟩ := TaskList.of_modify here
    · exact passed before was own next member p same
    · exact held.reached other found was own out next member p same

end Pipe

/-- What the queues of all links have, and what `dropped` has of the packets
that found no room. -/
structure Pipes (now : Instant) (dropped : PeerMap Instant) (tasks : List LinkTask) (packets : List QueuedPacket)
    (barriers : List Barrier) : Prop where
  pipes : TaskList.Each (Pipe packets barriers) tasks
  links : ∀ (p : Nat) (packet : QueuedPacket), packets[p]? = some packet → packet.link < tasks.length
  marks : ∀ (b : Nat) (barrier : Barrier), barriers[b]? = some barrier → barrier.mark ≤ packets.length
  drops : ∀ (p : Nat) (packet : QueuedPacket) (at_ : Instant), packets[p]? = some packet →
    packet.fate = .dropped at_ → at_ ≤ now ∧ ∀ task, tasks[packet.link]? = some task →
      ∃ last, dropped[task.address]? = some last ∧ at_ ≤ last

namespace Pipes

variable {now : Instant} {dropped : PeerMap Instant} {tasks : List LinkTask} {packets : List QueuedPacket}
  {barriers : List Barrier} {link : Nat} {task new : LinkTask}

/-- A link goes on. -/
theorem setTask (held : Pipes now dropped tasks packets barriers) (here : tasks[link]? = some task)
    (address : new.address = task.address) (pipe : Pipe packets barriers link new) :
    Pipes now dropped (tasks.set link new) packets barriers := by
  refine ⟨held.pipes.set pipe, ?_, held.marks, ?_⟩
  · intro p packet there
    rw [List.length_set]
    exact held.links p packet there
  · intro p packet at_ there fate
    obtain ⟨before, last⟩ := held.drops p packet at_ there fate
    refine ⟨before, fun found there => ?_⟩
    obtain ⟨same, rfl⟩ | ⟨_, was⟩ := TaskList.of_set there
    · rw [address]
      exact last task (by rw [same, here])
    · exact last found was

/-- A link is started with empty queues. -/
theorem start (held : Pipes now dropped tasks packets barriers) (empty : new.queue = []) (unparked : new.parked = [])
    (sending : new.sending = false) : Pipes now dropped (tasks ++ [new]) packets barriers := by
  refine ⟨held.pipes.start ?_, ?_, held.marks, ?_⟩
  · refine ⟨?_, ?_, ?_, ?_, ?_, ?_, ?_⟩
    · rw [empty]
      exact .nil
    · rw [unparked]
      simp
    · rw [empty]
      simp
    · intro _ p packet there own
      exact absurd own (held.links p packet there).ne
    · rw [empty, unparked]
      simp
    · rw [empty]
      simp
    · rw [sending]
      simp
  · intro p packet there
    rw [List.length_append]
    exact Nat.lt_add_right _ (held.links p packet there)
  · intro p packet at_ there fate
    obtain ⟨before, last⟩ := held.drops p packet at_ there fate
    refine ⟨before, fun found there' => ?_⟩
    obtain was | ⟨same, _⟩ := TaskList.of_append there'
    · exact last found was
    · exact absurd same (held.links p packet there).ne

theorem later (held : Pipes now dropped tasks packets barriers) {after : Instant} (later : now ≤ after) :
    Pipes after dropped tasks packets barriers := by
  refine ⟨held.pipes, held.links, held.marks, fun p packet at_ there fate => ?_⟩
  obtain ⟨before, last⟩ := held.drops p packet at_ there fate
  exact ⟨before.trans later, last⟩

theorem map (held : Pipes now dropped tasks packets barriers) {f : LinkTask → LinkTask}
    (address : ∀ task, (f task).address = task.address)
    (pipe : ∀ n task, Pipe packets barriers n task → Pipe packets barriers n (f task)) :
    Pipes now dropped (tasks.map f) packets barriers := by
  refine ⟨held.pipes.map pipe, ?_, held.marks, ?_⟩
  · intro p packet there
    rw [List.length_map]
    exact held.links p packet there
  · intro p packet at_ there fate
    obtain ⟨before, last⟩ := held.drops p packet at_ there fate
    refine ⟨before, fun found there => ?_⟩
    rw [List.getElem?_map] at there
    obtain ⟨old, was, rfl⟩ := Option.map_eq_some_iff.mp there
    rw [address]
    exact last old was

/-- A packet finds room in a link's queue. -/
theorem send (held : Pipes now dropped tasks packets barriers) (here : tasks[link]? = some task) (bytes : Bytes) :
    Pipes now dropped (tasks.set link { task with outbound := task.outbound ++ [.packet packets.length] })
      (packets ++ [{ link := link, bytes := bytes }]) barriers := by
  refine ⟨?_, ?_, ?_, ?_⟩
  · intro n found there
    obtain ⟨rfl, rfl⟩ | ⟨other, was⟩ := TaskList.of_set there
    · exact (held.pipes n task here).send bytes held.marks
    · exact (held.pipes n found was).packet fun own => absurd own.symm other
  · intro p packet there
    rw [List.length_set]
    obtain was | ⟨_, rfl⟩ := TaskList.of_append there
    · exact held.links p packet was
    · exact TaskList.lt_length here
  · intro b barrier there
    rw [List.length_append]
    exact Nat.le_add_right_of_le (held.marks b barrier there)
  · intro p packet at_ there fate
    obtain was | ⟨_, rfl⟩ := TaskList.of_append there
    · obtain ⟨before, last⟩ := held.drops p packet at_ was fate
      refine ⟨before, fun found there => ?_⟩
      obtain ⟨same, rfl⟩ | ⟨_, was⟩ := TaskList.of_set there
      · exact last task (by rw [same, here])
      · exact last found was
    · simp at fate

/-- A newer drop at an address keeps what is known of the older ones. -/
theorem drops_insert {at_ : Instant} {address other : PeerAddress} (before : at_ ≤ now)
    (known : ∃ last, dropped[other]? = some last ∧ at_ ≤ last) :
    ∃ last, (dropped.insert address now)[other]? = some last ∧ at_ ≤ last := by
  rw [FiniteMap.getElem?_insert]
  split
  · exact ⟨now, rfl, before⟩
  · exact known

/-- The address has a drop of now. -/
theorem insertDropped (held : Pipes now dropped tasks packets barriers) (address : PeerAddress) :
    Pipes now (dropped.insert address now) tasks packets barriers := by
  refine ⟨held.pipes, held.links, held.marks, fun p packet at_ there fate => ?_⟩
  obtain ⟨before, last⟩ := held.drops p packet at_ there fate
  exact ⟨before, fun found there => drops_insert before (last found there)⟩

/-- A packet finds no room in a link's queue. -/
theorem drop (held : Pipes now dropped tasks packets barriers) (here : tasks[link]? = some task) (bytes : Bytes) :
    Pipes now (dropped.insert task.address now) tasks
      (packets ++ [{ link := link, bytes := bytes, fate := .dropped now }]) barriers := by
  have noted := held.insertDropped task.address
  refine ⟨?_, ?_, ?_, ?_⟩
  · exact held.pipes.imp fun n found pipe => pipe.packet (by simp)
  · intro p packet there
    obtain was | ⟨_, rfl⟩ := TaskList.of_append there
    · exact held.links p packet was
    · exact TaskList.lt_length here
  · intro b barrier there
    rw [List.length_append]
    exact Nat.le_add_right_of_le (held.marks b barrier there)
  · intro p packet at_ there fate
    obtain was | ⟨_, rfl⟩ := TaskList.of_append there
    · exact noted.drops p packet at_ was fate
    · cases PacketFate.dropped.inj fate
      refine ⟨Nat.le.refl, fun found there => ⟨now, ?_, Nat.le.refl⟩⟩
      cases here.symm.trans there
      rw [FiniteMap.getElem?_insert, if_pos rfl]

/-- `send` starts a link, its packet in its queue. -/
theorem dial (held : Pipes now dropped tasks packets barriers) (address : PeerAddress) (bytes : Bytes) :
    Pipes now dropped
      (tasks ++ [{ address := address, role := .central, phase := .dialQueued, outbound := [.packet packets.length] }])
      (packets ++ [{ link := tasks.length, bytes := bytes }]) barriers := by
  have started : Pipes now dropped (tasks ++ [{ address := address, role := .central, phase := .dialQueued }])
      packets barriers := held.start rfl rfl rfl
  have queued := started.send List.getElem?_concat_length bytes
  rwa [List.set_append_right _ _ Nat.le.refl, Nat.sub_self] at queued

/-- A packet leaves a link's queues. -/
theorem takeOut {p : Nat} {fate : PacketFate} (held : Pipes now dropped tasks packets barriers)
    (here : tasks[link]? = some task) (address : new.address = task.address) (member : .packet p ∈ task.queue)
    (pipe : Pipe (packets.modify p fun packet => { packet with fate := fate }) barriers link new)
    (known : ∀ at_, fate = .dropped at_ → at_ ≤ now ∧ ∃ last, dropped[task.address]? = some last ∧ at_ ≤ last) :
    Pipes now dropped (tasks.set link new) (packets.modify p fun packet => { packet with fate := fate }) barriers := by
  obtain ⟨packet, there, own, _⟩ := (held.pipes link task here).queued p member
  refine ⟨?_, ?_, ?_, ?_⟩
  · intro n found there'
    obtain ⟨rfl, rfl⟩ | ⟨other, was⟩ := TaskList.of_set there'
    · exact pipe
    · exact (held.pipes n found was).setFate_other fate there fun same => other (same.symm.trans own)
  · intro q found there'
    rw [List.length_set]
    obtain ⟨before, was, rfl, rfl⟩ | ⟨_, was⟩ := TaskList.of_modify there'
    · exact held.links q before was
    · exact held.links q found was
  · intro b barrier there'
    rw [List.length_modify]
    exact held.marks b barrier there'
  · have addressed : ∀ (n : Nat) (found : LinkTask), (tasks.set link new)[n]? = some found →
        ∃ old, tasks[n]? = some old ∧ found.address = old.address := by
      intro n found there'
      obtain ⟨rfl, rfl⟩ | ⟨_, was⟩ := TaskList.of_set there'
      · exact ⟨task, here, address⟩
      · exact ⟨found, was, rfl⟩
    intro q found at_ there' dropped_
    obtain ⟨before, was, rfl, rfl⟩ | ⟨_, was⟩ := TaskList.of_modify there'
    · cases there.symm.trans was
      obtain ⟨earlier, last⟩ := known at_ dropped_
      refine ⟨earlier, fun now_ there' => ?_⟩
      obtain ⟨old, was', same⟩ := addressed _ now_ there'
      change tasks[packet.link]? = some old at was'
      rw [own, here] at was'
      cases was'
      rw [same]
      exact last
    · obtain ⟨earlier, last⟩ := held.drops q found at_ was dropped_
      refine ⟨earlier, fun now_ there' => ?_⟩
      obtain ⟨old, was', same⟩ := addressed _ now_ there'
      rw [same]
      exact last old was'

/-- The send task takes a packet. -/
theorem sent {p : Nat} {rest : List Outgoing} (held : Pipes now dropped tasks packets barriers)
    (here : tasks[link]? = some task) (open_ : task.sendEnded = false) (head : task.toSend = .packet p :: rest) :
    Pipes now dropped (tasks.set link { task with toSend := rest, sending := true })
      (packets.modify p fun packet => { packet with fate := .sent }) barriers := by
  have pipe := held.pipes link task here
  have queue : task.queue = .packet p :: (rest ++ task.outbound) := by
    unfold LinkTask.queue
    rw [head, List.cons_append]
  have ordered := pipe.ordered
  rw [queue, List.pairwise_cons] at ordered
  refine held.takeOut here rfl (by simp [queue]) ?_ (by simp)
  refine pipe.takeOut (by simp) ?_ (List.Sublist.refl _) rfl id (fun _ => open_) ?_ ?_
  · rw [queue]
    exact List.sublist_cons_self _ _
  · intro member
    have above := ordered.1 _ member p rfl
    exact absurd above (Nat.not_succ_le_self p)
  · intro q there
    rw [queue, List.mem_cons] at there
    exact there.imp_left Outgoing.packet.inj

/-- `to_send` has no room for a packet. -/
theorem shed {p : Nat} {rest : List Outgoing} (held : Pipes now dropped tasks packets barriers)
    (here : tasks[link]? = some task) (head : task.outbound = .packet p :: rest) :
    Pipes now (dropped.insert task.address now) (tasks.set link { task with outbound := rest })
      (packets.modify p fun packet => { packet with fate := .dropped now }) barriers := by
  have pipe := held.pipes link task here
  have queue : task.queue = task.toSend ++ .packet p :: rest := by
    unfold LinkTask.queue
    rw [head]
  have ordered := pipe.ordered
  rw [queue, List.pairwise_append, List.pairwise_cons] at ordered
  refine (held.insertDropped task.address).takeOut here rfl (by simp [queue]) ?_ ?_
  · refine pipe.takeOut (by simp) ?_ ?_ rfl id pipe.sending ?_ ?_
    · rw [queue]
      exact (List.sublist_cons_self _ _).append_left _
    · rw [head]
      exact List.sublist_cons_self _ _
    · intro member
      obtain first | last := List.mem_append.mp member
      · exact absurd (ordered.2.2 _ first _ List.mem_cons_self p rfl) (Nat.not_succ_le_self p)
      · exact absurd (ordered.2.1.1 _ last p rfl) (Nat.not_succ_le_self p)
    · intro q there
      rw [queue, List.mem_append, List.mem_cons] at there
      rcases there with first | same | last
      · exact .inr (List.mem_append_left _ first)
      · exact .inl (Outgoing.packet.inj same)
      · exact .inr (List.mem_append_right _ last)
  · intro at_ same
    cases PacketFate.dropped.inj same
    refine ⟨Nat.le.refl, now, ?_, Nat.le.refl⟩
    rw [FiniteMap.getElem?_insert, if_pos rfl]

/-- `close_sent` queues a barrier on a link. -/
theorem bar (held : Pipes now dropped tasks packets barriers) (here : tasks[link]? = some task) :
    Pipes now dropped (tasks.set link { task with outbound := task.outbound ++ [.barrier barriers.length] }) packets
      (barriers ++ [{ link := link, mark := packets.length }]) := by
  have wider : Pipes now dropped tasks packets (barriers ++ [{ link := link, mark := packets.length }]) := by
    refine ⟨held.pipes.imp fun n found pipe => pipe.addBarrier rfl, held.links, ?_, held.drops⟩
    intro b barrier there
    obtain was | ⟨_, rfl⟩ := TaskList.of_append there
    · exact held.marks b barrier was
    · exact Nat.le.refl
  exact wider.setTask here rfl ((wider.pipes link task here).bar List.getElem?_concat_length rfl)

/-- A barrier comes out of `to_send`. -/
theorem reach {b : Nat} {rest : List Outgoing} (held : Pipes now dropped tasks packets barriers)
    (here : tasks[link]? = some task) (head : task.toSend = .barrier b :: rest) :
    Pipes now dropped (tasks.set link { task with toSend := rest }) packets
      (barriers.modify b fun barrier => { barrier with reached := true }) := by
  have pipe := held.pipes link task here
  have queue : task.queue = .barrier b :: (rest ++ task.outbound) := by
    unfold LinkTask.queue
    rw [head, List.cons_append]
  have ordered := pipe.ordered
  rw [queue, List.pairwise_cons] at ordered
  obtain ⟨found, there, own⟩ := pipe.owned b (.inl (by simp [queue]))
  have taken : Pipe packets barriers link { task with toSend := rest } := by
    refine pipe.shrink ?_ (List.Sublist.refl _) (fun other member => .inl member) (fun open_ => ⟨open_, ?_⟩)
      pipe.sending
    · rw [queue]
      exact List.sublist_cons_self _ _
    · intro p there
      rw [queue, List.mem_cons] at there
      rcases there with same | member
      · simp at same
      · exact member
  have rest_ : Pipes now dropped (tasks.set link { task with toSend := rest }) packets barriers :=
    held.setTask here rfl taken
  refine ⟨?_, rest_.links, ?_, rest_.drops⟩
  · intro n found' there'
    refine (rest_.pipes n found' there').reach fun barrier at_b own' => ?_
    cases there.symm.trans at_b
    obtain ⟨rfl, rfl⟩ | ⟨other, _⟩ := TaskList.of_set there'
    · exact ordered.1
    · exact absurd (own'.symm.trans own) other
  · intro other barrier there'
    obtain ⟨before, was, rfl, rfl⟩ | ⟨_, was⟩ := TaskList.of_modify there'
    · exact held.marks other before was
    · exact held.marks other barrier was

theorem step {s s' : Transport} {label : TransportStep}
    (held : Pipes s.now s.dropped s.tasks s.packets s.barriers) (registered : Registered s.links s.tasks)
    (stepped : Transport.Stepped s label s') : Pipes s'.now s'.dropped s'.tasks s'.packets s'.barriers := by
  -- a link whose queues a step leaves alone
  have goes : ∀ {link : Nat} {task new : LinkTask}, s.tasks[link]? = some task → new.address = task.address →
      new.toSend = task.toSend ∧ new.outbound = task.outbound ∧ new.parked = task.parked →
        new.sending = task.sending ∧ new.sendEnded = task.sendEnded →
          (new.phase.ended = false → task.phase.ended = false) →
            Pipes s.now s.dropped (s.tasks.set link new) s.packets s.barriers := by
    rintro link task new here address ⟨toSend, outbound, parked⟩ ⟨sending, sendEnded⟩ ended
    refine held.setTask here address ((held.pipes link task here).same toSend outbound parked ?_ ?_)
    · rw [LinkTask.ended_eq_false_iff, LinkTask.ended_eq_false_iff, sendEnded]
      exact And.imp_right ended
    · rw [sending, sendEnded]
      exact (held.pipes link task here).sending
  cases stepped with
  | ticked elapsed => exact held.later (Nat.le_add_right _ _)
  | closeLink address =>
    refine held.map (fun task => by split <;> rfl) fun n task pipe => ?_
    split
    · exact pipe.same rfl rfl rfl id pipe.sending
    · exact pipe
  | forgot | released =>
    refine held.map (fun task => by split <;> rfl) fun n task pipe => ?_
    split
    · exact pipe.same rfl rfl rfl id pipe.sending
    · exact pipe
  | attach address role => exact held.start rfl rfl rfl
  | dialStarted free => exact held.dial _ _
  | stale after listed here phase => exact absurd phase (registered.not_over listed here)
  | queued listed here => exact held.send here _
  | refused listed here => exact held.drop here _
  | moved phase here dials runs ended =>
    exact goes here rfl ⟨rfl, rfl, rfl⟩ ⟨rfl, rfl⟩ fun open_ => ended ▸ open_
  | inserted here phase | cameUp here phase | registered here phase | checked here phase | noticed here phase
  | fired here phase | disarmed here phase =>
    exact goes here rfl ⟨rfl, rfl, rfl⟩ ⟨rfl, rfl⟩ fun _ => by rw [phase]; rfl
  | dialFailed permit here phase =>
    exact goes here rfl ⟨rfl, rfl, rfl⟩ ⟨rfl, rfl⟩ fun _ => by rw [phase]; rfl
  | ended after here phase address ending sendEnded queue =>
    obtain ⟨toSend, parked, sending, outbound⟩ := queue
    have pipe := held.pipes _ _ here
    refine held.setTask here address (pipe.shrink ?_ outbound.sublist ?_ ?_ ?_)
    · unfold LinkTask.queue
      rw [toSend]
      exact outbound.sublist.append_left _
    · intro b member
      exact .inl (parked ▸ member)
    · rw [LinkTask.ended_eq_false_iff, ending]
      simp [LinkPhase.ended]
    · rw [sending, sendEnded]
      exact pipe.sending
  | finished answered here phase owner | removed here phase owner | outlived here phase owner =>
    exact goes here rfl ⟨rfl, rfl, rfl⟩ ⟨rfl, rfl⟩ (by simp [LinkPhase.ended])
  | forwarded here phase head => exact held.setTask here rfl ((held.pipes _ _ here).forward head)
  | shed here phase head => exact held.shed here head
  | parked here phase head => exact held.setTask here rfl ((held.pipes _ _ here).park head)
  | unparked here sends waits => exact held.setTask here rfl ((held.pipes _ _ here).unpark waits)
  | sentOut here sends open_ head => exact held.sent here open_ head
  | reached here sends head => exact held.reach here head
  | sendReturned ok here sends busy =>
    have pipe := held.pipes _ _ here
    refine held.setTask here rfl (pipe.same rfl rfl rfl ?_ (by simp))
    rw [LinkTask.ended_eq_false_iff, LinkTask.ended_eq_false_iff]
    exact fun open_ => ⟨pipe.sending busy, open_.2⟩
  | aborted here ended =>
    exact held.setTask here rfl ((held.pipes _ _ here).same rfl rfl rfl (by simp [LinkTask.ended]) (by simp))
  | barrierQueued here phase none_ next there => exact held.bar there
  | _ => exact held

theorem of_reach {s : Transport} (reach : Transport.machine.Reach s) :
    Pipes s.now s.dropped s.tasks s.packets s.barriers := by
  refine Machine.Reach.invariant (P := fun s => Pipes s.now s.dropped s.tasks s.packets s.barriers) ?_ ?_ reach
  · rintro s ⟨dialer, rfl⟩
    exact ⟨fun n task there => by simp at there, by simp, by simp, by simp⟩
  · intro s label s' previous held step
    exact held.step (Registered.of_reach previous) (Transport.step_cases step)

end Pipes

end BleGatt.Iroh
