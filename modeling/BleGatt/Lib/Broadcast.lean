import BleGatt.Lib.TaskList
import Mathlib.Data.List.Induction

/-! A broadcast channel of bounded capacity: every receiver reads what was
sent since it subscribed, in order, and one that falls behind by more than the
capacity is told how many it lost. -/

variable {α : Type*}

/-- What one read gives a receiver. -/
inductive Received (α : Type*)
  | item (a : α)
  | lagged (lost : Nat)

structure Receiver (α : Type*) where
  /-- How many items had been sent when it subscribed. -/
  start : Nat
  next : Nat
  /-- All it has read. -/
  got : List (Received α) := []

structure Broadcast (α : Type*) where
  sent : List α := []
  receivers : List (Receiver α) := []

/-- From `start` on, what was read tells of every item sent, each itself or in
a count, up to the returned position. -/
inductive Tells (sent : List α) (start : Nat) : List (Received α) → Nat → Prop
  | nothing : Tells sent start [] start
  | item {got : List (Received α)} {next : Nat} {a : α} :
      Tells sent start got next → sent[next]? = some a → Tells sent start (got ++ [.item a]) (next + 1)
  | lagged {got : List (Received α)} {next lost : Nat} :
      Tells sent start got next → 0 < lost → next + lost ≤ sent.length → Tells sent start (got ++ [.lagged lost]) (next + lost)

theorem Tells.more {sent : List α} {start next : Nat} {got : List (Received α)} (told : Tells sent start got next)
    (more : List α) : Tells (sent ++ more) start got next := by
  induction told with
  | nothing => exact .nothing
  | item _ there ih => exact ih.item (TaskList.getElem?_append_of there more)
  | lagged _ some_ bound ih =>
    refine ih.lagged some_ ?_
    rw [List.length_append]
    exact Nat.le_trans bound (Nat.le_add_right _ _)

theorem Tells.le {sent : List α} {start next : Nat} {got : List (Received α)} (told : Tells sent start got next) :
    start ≤ next := by
  induction told with
  | nothing => exact Nat.le_refl _
  | item _ _ ih => omega
  | lagged _ _ _ ih => omega

/-- The item at position `k` was not read, but counted as lost. -/
def Missed (sent : List α) (start : Nat) (got : List (Received α)) (k : Nat) : Prop :=
  ∃ before lost next, before ++ [.lagged lost] <+: got ∧ Tells sent start before next ∧ next ≤ k ∧ k < next + lost

/-- The item at position `k` was read, after all before it. -/
def Read (sent : List α) (start : Nat) (got : List (Received α)) (k : Nat) (a : α) : Prop :=
  ∃ before, before ++ [.item a] <+: got ∧ Tells sent start before k

theorem Missed.more {sent : List α} {start k : Nat} {got : List (Received α)} (missed : Missed sent start got k)
    (more : List (Received α)) : Missed sent start (got ++ more) k := by
  obtain ⟨before, lost, next, there, told, within⟩ := missed
  exact ⟨before, lost, next, there.trans (List.prefix_append _ _), told, within⟩

theorem Read.more {sent : List α} {start k : Nat} {got : List (Received α)} {a : α} (read : Read sent start got k a)
    (more : List (Received α)) : Read sent start (got ++ more) k a := by
  obtain ⟨before, there, told⟩ := read
  exact ⟨before, there.trans (List.prefix_append _ _), told⟩

theorem Read.mem {sent : List α} {start k : Nat} {got : List (Received α)} {a : α} (read : Read sent start got k a) :
    Received.item a ∈ got := by
  obtain ⟨before, there, _⟩ := read
  exact there.subset (List.mem_append_right before List.mem_cons_self)

/-- Every position a receiver passed was read or lost. -/
theorem Tells.read_or_missed {sent : List α} {start next k : Nat} {got : List (Received α)} {a : α}
    (told : Tells sent start got next) (after : start ≤ k) (passed : k < next) (there : sent[k]? = some a) :
    Read sent start got k a ∨ Missed sent start got k := by
  induction told with
  | nothing => omega
  | @item got next b told here ih =>
    by_cases last : k = next
    · subst last
      have same : a = b := Option.some.inj (there.symm.trans here)
      subst same
      exact .inl ⟨got, List.prefix_rfl, told⟩
    · have before : k < next := by omega
      exact (ih before).imp (·.more _) (·.more _)
  | @lagged got next lost told some_ bound ih =>
    by_cases before : k < next
    · exact (ih before).imp (·.more _) (·.more _)
    · have counted : next ≤ k := by omega
      exact .inr ⟨got, lost, next, List.prefix_rfl, told, counted, passed⟩

/-- What was read was sent, since the subscription. -/
theorem Tells.sent_of_mem {sent : List α} {start next : Nat} {got : List (Received α)} {a : α}
    (told : Tells sent start got next) (member : Received.item a ∈ got) : ∃ k, start ≤ k ∧ k < next ∧ sent[k]? = some a := by
  induction told with
  | nothing => simp at member
  | @item got next b told here ih =>
    have later : start ≤ next := told.le
    rcases List.mem_append.mp member with old | new
    · obtain ⟨k, after, before, there⟩ := ih old
      exact ⟨k, after, by omega, there⟩
    · cases List.mem_singleton.mp new
      exact ⟨next, later, by omega, here⟩
  | @lagged got next lost told some_ bound ih =>
    rcases List.mem_append.mp member with old | new
    · obtain ⟨k, after, before, there⟩ := ih old
      exact ⟨k, after, by omega, there⟩
    · cases List.mem_singleton.mp new

/-- How far an entry takes its receiver. -/
def Received.width : Received α → Nat
  | .item _ => 1
  | .lagged lost => lost

/-- The last entry, and where it was read: any other reading that came there may go on with it. -/
theorem Tells.snoc {sent : List α} {start next : Nat} {got : List (Received α)} {received : Received α}
    (told : Tells sent start (got ++ [received]) next) :
    ∃ mid, Tells sent start got mid ∧ next = mid + received.width ∧
      ∀ from_ more, Tells sent from_ more mid → Tells sent from_ (more ++ [received]) next := by
  generalize same : got ++ [received] = whole at told
  cases told with
  | nothing => simp at same
  | item told here =>
    obtain ⟨rfl, entry⟩ := List.append_inj' same rfl
    cases entry
    exact ⟨_, told, rfl, fun _ _ more => more.item here⟩
  | lagged told some_ bound =>
    obtain ⟨rfl, entry⟩ := List.append_inj' same rfl
    cases entry
    exact ⟨_, told, rfl, fun _ _ more => more.lagged some_ bound⟩

theorem Tells.of_nil {sent : List α} {start next : Nat} (told : Tells sent start [] next) : next = start := by
  generalize same : ([] : List (Received α)) = got at told
  cases told with
  | nothing => rfl
  | item | lagged => simp at same

/-- What was read tells where the receiver is. -/
theorem Tells.unique {sent : List α} {start next next' : Nat} {got : List (Received α)} (told : Tells sent start got next)
    (again : Tells sent start got next') : next = next' := by
  induction got using List.reverseRecOn generalizing next next' with
  | nil => rw [told.of_nil, again.of_nil]
  | append_singleton got received ih =>
    obtain ⟨mid, front, is, _⟩ := told.snoc
    obtain ⟨mid', front', is', _⟩ := again.snoc
    rw [is, is', ih front front']

/-- A receiver's reading, cut anywhere. -/
theorem Tells.split {sent : List α} {start next : Nat} {before after : List (Received α)}
    (told : Tells sent start (before ++ after) next) : ∃ mid, Tells sent start before mid ∧ Tells sent mid after next := by
  induction after using List.reverseRecOn generalizing next with
  | nil => exact ⟨next, by simpa using told, .nothing⟩
  | append_singleton after received ih =>
    rw [← List.append_assoc] at told
    obtain ⟨_, front, _, goes⟩ := told.snoc
    obtain ⟨mid, front, back⟩ := ih front
    exact ⟨mid, front, goes _ _ back⟩

/-- What the entries that were read come to, the lost ones apart. -/
def Received.item? {β : Type*} (f : α → Option β) : Received α → Option β
  | .item a => f a
  | .lagged _ => none

/-- The last of the items that count. -/
def LastOf {β : Type*} (f : α → Option β) (sent : List α) (k : Nat) (b : β) : Prop :=
  sent[k]?.bind f = some b ∧ ∀ j, k < j → sent[j]?.bind f = none

theorem LastOf.getLast {β : Type*} {f : α → Option β} {sent : List α} {k : Nat} {b : β} (last : LastOf f sent k b) :
    (sent.filterMap f).getLast? = some b := by
  induction sent using List.reverseRecOn with
  | nil => simp [LastOf] at last
  | append_singleton sent a ih =>
    obtain ⟨counts, later⟩ := last
    rcases Nat.lt_trichotomy k sent.length with before | here | after
    · rw [List.getElem?_append_left before] at counts
      have quiet : f a = none := by simpa using later sent.length before
      have last : LastOf f sent k b := by
        refine ⟨counts, fun j after => ?_⟩
        by_cases bound : j < sent.length
        · simpa [List.getElem?_append_left bound] using later j after
        · simp [List.getElem?_eq_none (Nat.le_of_not_lt bound)]
      simpa [quiet] using ih last
    · subst here
      have here : f a = some b := by simpa using counts
      simp [here]
    · have none_ : (sent ++ [a])[k]? = none := List.getElem?_eq_none (by simp; omega)
      simp [none_] at counts

/-- From a position on, no item counts, or one is the last. -/
theorem exists_lastOf {β : Type*} (f : α → Option β) (sent : List α) (start : Nat) :
    (∀ k, start ≤ k → sent[k]?.bind f = none) ∨ ∃ k b, start ≤ k ∧ LastOf f sent k b := by
  by_cases some_ : ∃ k b, start ≤ k ∧ sent[k]?.bind f = some b
  · obtain ⟨k, b, after, counts⟩ := some_
    have bounded : ∀ {k b}, sent[k]?.bind f = some b → k < sent.length := by
      intro k b counts
      obtain ⟨a, there, _⟩ := Option.bind_eq_some_iff.mp counts
      exact TaskList.lt_length there
    induction left : sent.length - k using Nat.strongRecOn generalizing k b with
    | ind left ih =>
      by_cases more : ∃ j c, k < j ∧ sent[j]?.bind f = some c
      · obtain ⟨j, c, later, counts'⟩ := more
        have bound : j < sent.length := bounded counts'
        exact ih (sent.length - j) (by omega) j c (by omega) counts' rfl
      · refine .inr ⟨k, b, after, counts, fun j later => ?_⟩
        by_contra some_
        obtain ⟨c, counts'⟩ := Option.ne_none_iff_exists'.mp some_
        exact more ⟨j, c, later, counts'⟩
  · refine .inl fun k after => ?_
    by_contra counts
    obtain ⟨b, counts⟩ := Option.ne_none_iff_exists'.mp counts
    exact some_ ⟨k, b, after, counts⟩

/-- If it was read at all, it was read last among those that count. -/
theorem Read.last {β : Type*} {f : α → Option β} {sent : List α} {start next k : Nat} {got : List (Received α)} {a : α} {b : β}
    (read : Read sent start got k a) (told : Tells sent start got next) (last : LastOf f sent k b) (counts : f a = some b) :
    (got.filterMap (Received.item? f)).getLast? = some b := by
  obtain ⟨before, ⟨rest, rfl⟩, here⟩ := read
  obtain ⟨mid, front, back⟩ := told.split
  obtain ⟨from_, front, is, _⟩ := front.snoc
  have later : mid = k + 1 := by
    rw [is, here.unique front]
    rfl
  have quiet : rest.filterMap (Received.item? f) = [] := by
    refine List.filterMap_eq_nil_iff.mpr ?_
    intro received member
    cases received with
    | lagged lost => rfl
    | item c =>
      obtain ⟨j, after, _, there⟩ := back.sent_of_mem member
      have none_ := last.2 j (by omega)
      rw [there] at none_
      exact none_
  rw [List.filterMap_append, quiet, List.append_nil, List.filterMap_append]
  simp [Received.item?, counts]

namespace Receiver

/-- The next read: the oldest item still kept, or how many are not any more.
`none` where nothing is there to read. -/
def read (capacity : Nat) (sent : List α) (receiver : Receiver α) : Option (Receiver α) :=
  if receiver.next + capacity < sent.length then
    let lost := sent.length - capacity - receiver.next
    some { receiver with next := receiver.next + lost, got := receiver.got ++ [.lagged lost] }
  else
    sent[receiver.next]?.map fun a => { receiver with next := receiver.next + 1, got := receiver.got ++ [.item a] }

def Told (sent : List α) (receiver : Receiver α) : Prop := Tells sent receiver.start receiver.got receiver.next

theorem Told.read {capacity : Nat} {sent : List α} {receiver after : Receiver α} (told : receiver.Told sent)
    (reads : receiver.read capacity sent = some after) : after.Told sent := by
  unfold Receiver.read at reads
  split at reads
  · cases Option.some.inj reads
    exact Tells.lagged told (by omega) (by omega)
  · obtain ⟨a, there, rfl⟩ := Option.map_eq_some_iff.mp reads
    exact Tells.item told there

/-- A read adds one entry. -/
theorem read_got {capacity : Nat} {sent : List α} {receiver after : Receiver α}
    (reads : receiver.read capacity sent = some after) :
    after.start = receiver.start ∧ ∃ received, after.got = receiver.got ++ [received] := by
  unfold Receiver.read at reads
  split at reads
  · cases Option.some.inj reads
    exact ⟨rfl, _, rfl⟩
  · obtain ⟨a, _, rfl⟩ := Option.map_eq_some_iff.mp reads
    exact ⟨rfl, _, rfl⟩

/-- Where there is nothing to read, it has been told of all that was sent. -/
theorem next_of_read_none {capacity : Nat} {sent : List α} {receiver : Receiver α}
    (nothing : receiver.read capacity sent = none) : sent.length ≤ receiver.next := by
  unfold Receiver.read at nothing
  split at nothing
  · simp at nothing
  · exact List.getElem?_eq_none_iff.mp (Option.map_eq_none_iff.mp nothing)

end Receiver

namespace Broadcast

def send (a : α) (channel : Broadcast α) : Broadcast α := { channel with sent := channel.sent ++ [a] }

def subscribe (channel : Broadcast α) : Broadcast α :=
  { channel with receivers := channel.receivers ++ [{ start := channel.sent.length, next := channel.sent.length }] }

def recv (capacity n : Nat) (channel : Broadcast α) : Option (Broadcast α) := do
  let receiver ← channel.receivers[n]?
  let receiver ← receiver.read capacity channel.sent
  some { channel with receivers := channel.receivers.set n receiver }

/-- Every receiver has been told of all it passed. -/
def Told (channel : Broadcast α) : Prop :=
  TaskList.Each (fun _ receiver => Receiver.Told channel.sent receiver) channel.receivers

variable {channel : Broadcast α}

theorem Told.send (told : channel.Told) (a : α) : (channel.send a).Told :=
  TaskList.Each.imp told fun _ _ known => Tells.more known [a]

theorem Told.subscribe (told : channel.Told) : channel.subscribe.Told := TaskList.Each.start told .nothing

theorem Told.recv {after : Broadcast α} {capacity n : Nat} (told : channel.Told)
    (reads : channel.recv capacity n = some after) : after.Told := by
  obtain ⟨receiver, here, reads⟩ := Option.bind_eq_some_iff.mp reads
  obtain ⟨new, read, reads⟩ := Option.bind_eq_some_iff.mp reads
  cases Option.some.inj reads
  exact TaskList.Each.set told (Receiver.Told.read (told n receiver here) read)

end Broadcast
