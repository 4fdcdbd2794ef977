import BleGatt.Profile.Datagram.ReassemblyBound
import BleGatt.Profile.Datagram.RoundTrip

namespace BleGatt
open Std Reassembler

/-! A message sent under an id that still has fragments of another. -/

/-- The fragments of a message in order, each at its time. -/
def fragmentCall (x : UInt32) (bodies : List Bytes) (times : Nat → Instant) (index : Nat) : Call :=
  ⟨⟨x, .ofNat index, .ofNat bodies.length⟩, bodies.getD index [], times index⟩

def fragmentCalls (x : UInt32) (bodies : List Bytes) (times : Nat → Instant) : List Call :=
  (List.range bodies.length).map (fragmentCall x bodies times)

/-- Nothing is complete but the message itself, and it is on its last
fragment. -/
def Unspliced (bodies : List Bytes) (answers : List Accept) : Prop :=
  (∀ message, .complete message ∈ answers → message = bodies.flatten) ∧
    answers.getLast? = some (.complete bodies.flatten)

theorem not_unspliced {bodies : List Bytes} {answers : List Accept} (none_ : ∀ message, .complete message ∉ answers) :
    ¬ Unspliced bodies answers := by
  rintro ⟨_, last⟩
  exact none_ _ (List.mem_of_getLast? last)

theorem unspliced_cons {bodies : List Bytes} {answer : Accept} {answers : List Accept} (some_ : answers ≠ [])
    (silent : ∀ message, answer ≠ .complete message) : Unspliced bodies (answer :: answers) ↔ Unspliced bodies answers := by
  unfold Unspliced
  obtain ⟨last, rest, rfl⟩ : ∃ last rest, answers = last :: rest := List.exists_cons_of_ne_nil some_
  rw [List.getLast?_cons_cons]
  refine and_congr_left' ⟨fun all message member => all message (List.mem_cons_of_mem _ member), ?_⟩
  intro all message member
  rcases List.mem_cons.mp member with same | later
  · exact absurd same.symm (silent message)
  · exact all message later

namespace PartialMessage

variable {message : PartialMessage} {bodies : List Bytes}

/-- The fragments it has, as indices. -/
theorem keys_subset (indices : ∀ (index : UInt16) (payload : Bytes), message.fragments[index]? = some payload →
    index < message.total) :
    (message.fragments.keys.map UInt16.toNat).Nodup ∧
      (message.fragments.keys.map UInt16.toNat).toFinset ⊆ Finset.range message.total.toNat := by
  refine ⟨(ExtTreeMap.nodup_keys).map fun _ _ => UInt16.toNat_inj.mp, ?_⟩
  intro i member
  obtain ⟨index, held, rfl⟩ := List.mem_map.mp (List.mem_toFinset.mp member)
  rw [ExtTreeMap.mem_keys, ExtTreeMap.mem_iff_isSome_getElem?, Option.isSome_iff_exists] at held
  obtain ⟨payload, held⟩ := held
  exact Finset.mem_range.mpr (UInt16.lt_iff_toNat_lt.mp (indices index payload held))

/-- The code's count, cut to 16 bits, is that of a whole message exactly where
no fragment is missing. -/
theorem full_iff (indices : ∀ (index : UInt16) (payload : Bytes), message.fragments[index]? = some payload →
    index < message.total) :
    UInt16.ofNat message.fragments.size = message.total ↔
      ∀ index : UInt16, index < message.total → message.fragments[index]? ≠ none := by
  obtain ⟨nodup, subset⟩ := keys_subset indices
  have card : (message.fragments.keys.map UInt16.toNat).toFinset.card = message.fragments.size := by
    rw [List.toFinset_card_of_nodup nodup, List.length_map, ExtTreeMap.length_keys]
  have bound : message.fragments.size ≤ message.total.toNat := by
    rw [← card, ← Finset.card_range message.total.toNat]
    exact Finset.card_le_card subset
  have member : ∀ index : UInt16, index.toNat ∈ (message.fragments.keys.map UInt16.toNat).toFinset ↔
      message.fragments[index]? ≠ none := by
    intro index
    rw [List.mem_toFinset, List.mem_map_of_injective fun _ _ => UInt16.toNat_inj.mp, ExtTreeMap.mem_keys, ne_eq,
      ← FiniteMap.not_mem_iff, not_not]
  have small : message.fragments.size < 65536 := bound.trans_lt message.total.toNat_lt
  constructor
  · intro full index below
    have whole : message.fragments.size = message.total.toNat := by
      rw [← full, UInt16.toNat_ofNat_of_lt' small]
    have all := Finset.eq_of_subset_of_card_le subset (by rw [card, Finset.card_range, whole])
    rw [← member, all, Finset.mem_range]
    exact UInt16.lt_iff_toNat_lt.mp below
  · intro all
    have covered : Finset.range message.total.toNat ⊆ (message.fragments.keys.map UInt16.toNat).toFinset := by
      intro i below
      have fits : i < 65536 := (Finset.mem_range.mp below).trans message.total.toNat_lt
      have index : (UInt16.ofNat i).toNat = i := UInt16.toNat_ofNat_of_lt' fits
      have inside : UInt16.ofNat i < message.total := by
        rw [UInt16.lt_iff_toNat_lt, index]
        exact Finset.mem_range.mp below
      have held := (member (.ofNat i)).mpr (all _ inside)
      rwa [index] at held
    have whole : message.fragments.size = message.total.toNat := by
      refine Nat.le_antisymm bound ?_
      rw [← card, ← Finset.card_range message.total.toNat]
      exact Finset.card_le_card covered
    rw [whole, UInt16.ofNat_toNat]

/-- Fragments of a message measure no more than it does. -/
theorem bufferedLen_le (own : ∀ (index : UInt16) (payload : Bytes), message.fragments[index]? = some payload →
    bodies[index.toNat]? = some payload) : message.bufferedLen ≤ bodies.flatten.length := by
  let size : Nat → Nat := fun index => (bodies.getD index []).length
  have sizes : (message.fragments.toList.map fun entry => entry.2.length) =
      (message.fragments.keys.map UInt16.toNat).map size := by
    rw [← ExtTreeMap.map_fst_toList_eq_keys, List.map_map, List.map_map]
    refine List.map_congr_left fun entry member => ?_
    have held := own entry.1 entry.2 (ExtTreeMap.mem_toList_iff_getElem?_eq_some.mp member)
    simp [size, List.getD_eq_getElem?_getD, held]
  have covered : (message.fragments.keys.map UInt16.toNat).Subperm (List.range bodies.length) := by
    refine List.Nodup.subperm ((ExtTreeMap.nodup_keys).map fun _ _ => UInt16.toNat_inj.mp) ?_
    intro i member
    obtain ⟨index, held, rfl⟩ := List.mem_map.mp member
    rw [ExtTreeMap.mem_keys, ExtTreeMap.mem_iff_isSome_getElem?, Option.isSome_iff_exists] at held
    obtain ⟨payload, held⟩ := held
    exact List.mem_range.mpr (List.getElem?_eq_some_iff.mp (own index payload held)).1
  have whole : ((List.range bodies.length).map size).sum = bodies.flatten.length := by
    rw [List.length_flatten]
    congr 1
    refine List.ext_getElem (by simp) ?_
    intro i _ below
    have inside : i < bodies.length := by simpa using below
    simp [size, inside]
  obtain ⟨chosen, perm, sublist⟩ := covered
  calc message.bufferedLen
      = (chosen.map size).sum := by
        rw [bufferedLen, sizes]
        exact ((perm.map size).sum_eq).symm
    _ ≤ ((List.range bodies.length).map size).sum := (sublist.map size).sum_le_sum (by simp)
    _ = bodies.flatten.length := whole

/-- The fragments of a whole message, joined. -/
theorem joined_eq (few : bodies.length < 65536)
    (all : ∀ index : UInt16, message.fragments[index]? = bodies[index.toNat]?) : message.joined = bodies.flatten := by
  have entries : message.fragments.toList =
      (List.range bodies.length).map fun i => (UInt16.ofNat i, bodies.getD i []) := by
    refine FiniteMap.toList_eq ?_ ?_
    · rw [List.pairwise_map]
      refine (List.pairwise_lt_range).imp_of_mem fun {a b} _ before_b before => ?_
      have b_small := (List.mem_range.mp before_b).trans few
      refine Std.compare_eq_lt.mpr (UInt16.lt_iff_toNat_lt.mpr ?_)
      rw [UInt16.toNat_ofNat_of_lt' (before.trans b_small), UInt16.toNat_ofNat_of_lt' b_small]
      exact before
    · intro index payload
      rw [all, List.mem_map]
      constructor
      · rintro ⟨i, below, same⟩
        have inside := List.mem_range.mp below
        obtain ⟨rfl, rfl⟩ := Prod.mk.inj same
        rw [UInt16.toNat_ofNat_of_lt' (inside.trans few)]
        simp [inside]
      · intro held
        have inside := (List.getElem?_eq_some_iff.mp held).1
        refine ⟨index.toNat, List.mem_range.mpr inside, ?_⟩
        simp [List.getD_eq_getElem?_getD, held]
  rw [joined, entries, List.flatMap_map, List.flatMap_def]
  congr 1
  refine List.ext_getElem (by simp) ?_
  intro i below _
  have inside : i < bodies.length := by simpa using below
  simp [inside]

end PartialMessage

namespace Reassembler

variable {limits : ReassemblyLimits} {x : UInt32} {first bodies : List Bytes} {times : Nat → Instant}

/-- What the calls return, in order. -/
def answers (r : Reassembler) : List Call → List Accept
  | [] => []
  | call :: calls => r.answer call :: answers (r.feed (.accept call)) calls

/-- Nothing buffered under the id has a first fragment. -/
def Headless (x : UInt32) (r : Reassembler) : Prop :=
  r.Bounded ∧ ∀ message : PartialMessage, r.partials[x]? = some message → message.fragments[(0 : UInt16)]? = none

/-- The indices of a set with one fragment more. -/
theorem indices_add {r : Reassembler} {call : Call} {message : PartialMessage} (bounded : r.Bounded)
    (well_formed : call.wellFormed r.limits = true) (held : r.live call.header.msgId call.now = some message)
    (total : message.total = call.header.total) (index : UInt16) (payload : Bytes)
    (there : (message.add call.header.index call.payload).fragments[index]? = some payload) :
    index < (message.add call.header.index call.payload).total := by
  rw [PartialMessage.getElem?_add] at there
  split at there
  · rename_i same
    rw [same, PartialMessage.add_total, total]
    exact (of_decide_eq_true well_formed).2.1
  · exact (bounded.entries _ _ (of_live held).1).indices index payload there

/-- A fragment that is not the first completes nothing there, and leaves it
so. -/
theorem Headless.step {r : Reassembler} {call : Call} (headless : r.Headless x) (own : call.header.msgId = x)
    (several : call.header.total ≠ 1) (later : call.header.index ≠ 0) :
    (∀ message, r.answer call ≠ .complete message) ∧ (r.feed (.accept call)).Headless x := by
  obtain ⟨bounded, beheaded⟩ := headless
  have bounded_after := bounded.feed (.accept call)
  have exit := r.accept_exit call
  subst own
  have expired : ∀ message : PartialMessage, (r.expire call.now).partials[call.header.msgId]? = some message →
      message.fragments[(0 : UInt16)]? = none := by
    intro message held
    exact beheaded message (of_live held).1
  have removed : ∀ (r : Reassembler) (message : PartialMessage),
      (r.remove call.header.msgId).partials[call.header.msgId]? = some message →
        message.fragments[(0 : UInt16)]? = none := by
    intro r message held
    rw [getElem?_remove, if_pos rfl] at held
    simp at held
  have put : ∀ {r : Reassembler} {new : PartialMessage}, new.fragments[(0 : UInt16)]? = none →
      ∀ message : PartialMessage, (r.put call.header.msgId new).partials[call.header.msgId]? = some message →
        message.fragments[(0 : UInt16)]? = none := by
    intro r new none_ message held
    rw [getElem?_put, if_pos rfl] at held
    cases Option.some.inj held
    exact none_
  have first : call.first.fragments[(0 : UInt16)]? = none := by
    rw [Call.first, PartialMessage.getElem?_first, if_neg (Ne.symm later)]
  have add : ∀ {message : PartialMessage}, r.live call.header.msgId call.now = some message →
      (message.add call.header.index call.payload).fragments[(0 : UInt16)]? = none := by
    intro message held
    rw [PartialMessage.getElem?_add, if_neg (Ne.symm later)]
    exact expired message held
  unfold answer
  unfold feed at bounded_after ⊢
  dsimp only at bounded_after ⊢
  generalize (r.accept call.header call.payload call.now).1 = answer at exit ⊢
  generalize (r.accept call.header call.payload call.now).2 = after at exit bounded_after ⊢
  cases exit with
  | malformed => exact ⟨by simp, bounded, beheaded⟩
  | whole _ one => exact absurd one several
  | inconsistent => exact ⟨by simp, bounded_after, removed _⟩
  | declared => exact ⟨by simp, bounded_after, expired⟩
  | started => exact ⟨by simp, bounded_after, put first⟩
  | duplicate => exact ⟨by simp, bounded_after, expired⟩
  | restarted => exact ⟨by simp, bounded_after, put first⟩
  | tooLarge => exact ⟨by simp, bounded_after, removed _⟩
  | stored _ _ held => exact ⟨by simp, bounded_after, put (add held)⟩
  | @completed message well_formed _ held total absent fits full =>
    have all := (PartialMessage.full_iff (indices_add bounded well_formed held total)).mp (full.trans total.symm)
    refine absurd (add held) (all 0 ?_)
    rw [PartialMessage.add_total, total]
    exact lt_of_le_of_lt (UInt16.zero_le ..) (of_decide_eq_true well_formed).2.1

/-- Fragments other than the first complete nothing there. -/
theorem Headless.answers {r : Reassembler} {calls : List Call} (headless : r.Headless x)
    (own : ∀ call ∈ calls, call.header.msgId = x ∧ call.header.total ≠ 1 ∧ call.header.index ≠ 0) :
    ∀ message, .complete message ∉ r.answers calls := by
  induction calls generalizing r with
  | nil => simp [Reassembler.answers]
  | cons call calls ih =>
    obtain ⟨id, several, later⟩ := own call List.mem_cons_self
    obtain ⟨silent, after⟩ := headless.step id several later
    intro message member
    rcases List.mem_cons.mp member with same | rest
    · exact silent message same.symm
    · exact ih after (fun call member => own call (List.mem_cons_of_mem _ member)) message rest

/-- A message is sent under an id that still has some fragments of another of
the same length. -/
structure Resending (limits : ReassemblyLimits) (first bodies : List Bytes) (left : Finset Nat)
    (times : Nat → Instant) : Prop where
  several : 2 ≤ bodies.length
  few : bodies.length < 65536
  same : first.length = bodies.length
  subset : left ⊆ Finset.range bodies.length
  ordered : Monotone times
  fits : bodies.flatten.length ≤ limits.maxMessageLen

namespace Resending

variable {left : Finset Nat} {index : Nat}

theorem index_toNat (sent : Resending limits first bodies left times) (below : index < bodies.length) :
    (fragmentCall x bodies times index).header.index.toNat = index :=
  UInt16.toNat_ofNat_of_lt' (below.trans sent.few)

theorem total_toNat (sent : Resending limits first bodies left times) :
    (fragmentCall x bodies times index).header.total.toNat = bodies.length :=
  UInt16.toNat_ofNat_of_lt' sent.few

theorem total_ne_one (sent : Resending limits first bodies left times) :
    (fragmentCall x bodies times index).header.total ≠ 1 := by
  intro one
  have length : (fragmentCall x bodies times index).header.total.toNat = _ := sent.total_toNat
  rw [one] at length
  have several := sent.several
  rw [← length] at several
  exact absurd several (by decide)

theorem index_ne_zero (sent : Resending limits first bodies left times) (below : index < bodies.length)
    (later : index ≠ 0) : (fragmentCall x bodies times index).header.index ≠ 0 := by
  intro zero
  have number := sent.index_toNat (x := x) below
  rw [zero] at number
  exact later number.symm

theorem body (below : index < bodies.length) :
    bodies[index]? = some (fragmentCall x bodies times index).payload := by
  simp [fragmentCall, below]

theorem wellFormed (sent : Resending limits first bodies left times) (below : index < bodies.length) :
    (fragmentCall x bodies times index).wellFormed limits = true := by
  refine decide_eq_true ⟨?_, ?_, ?_⟩
  · intro zero
    have length : (fragmentCall x bodies times index).header.total.toNat = _ := sent.total_toNat
    rw [zero] at length
    exact absurd sent.several (by rw [← length]; decide)
  · rw [UInt16.lt_iff_toNat_lt, sent.index_toNat below, sent.total_toNat]
    exact below
  · refine Nat.le_trans ?_ sent.fits
    rw [List.length_flatten]
    have member : (fragmentCall x bodies times index).payload ∈ bodies := List.mem_of_getElem? (body below)
    exact List.single_le_sum (by simp) _ (List.mem_map_of_mem member)

end Resending

/-- Up to `next` the set has the fragments of the message sent, and beyond
those left of the other. -/
structure Mixed (limits : ReassemblyLimits) (x : UInt32) (first bodies : List Bytes) (left : Finset Nat)
    (times : Nat → Instant) (next : Nat) (r : Reassembler) (message : PartialMessage) : Prop where
  bounded : r.Bounded
  configured : r.limits = limits
  held : r.partials[x]? = some message
  total : message.total.toNat = bodies.length
  fragments : ∀ index : UInt16, message.fragments[index]? =
    if index.toNat < next then bodies[index.toNat]? else if index.toNat ∈ left then first[index.toNat]? else none
  after : message.startedAt ≤ times 0
  timely : ∀ i < bodies.length, times i < message.startedAt + limits.reassemblyTimeout

namespace Mixed

variable {left : Finset Nat} {next : Nat} {r : Reassembler} {message : PartialMessage}

theorem live (mixed : Mixed limits x first bodies left times next r message)
    (sent : Resending limits first bodies left times) (below : next < bodies.length) :
    r.live x (times next) = some message := by
  rw [Reassembler.live, getElem?_expire, mixed.held, Option.filter_some, if_pos]
  rw [mixed.configured]
  have started := mixed.after.trans (sent.ordered (Nat.zero_le next))
  exact decide_eq_true (Nat.sub_lt_left_of_lt_add started (mixed.timely next below))

/-- What the set has at the next index. -/
theorem at_next (mixed : Mixed limits x first bodies left times next r message)
    (sent : Resending limits first bodies left times) (below : next < bodies.length) :
    message.fragments[(fragmentCall x bodies times next).header.index]? =
      if next ∈ left then first[next]? else none := by
  rw [mixed.fragments, sent.index_toNat below, if_neg (Nat.lt_irrefl next)]

/-- The set with the next fragment in it. -/
theorem add (mixed : Mixed limits x first bodies left times next r message)
    (sent : Resending limits first bodies left times) (below : next < bodies.length) (index : UInt16) :
    (message.add (fragmentCall x bodies times next).header.index
        (fragmentCall x bodies times next).payload).fragments[index]? =
      if index.toNat < next + 1 then bodies[index.toNat]? else
        if index.toNat ∈ left then first[index.toNat]? else none := by
  rw [PartialMessage.getElem?_add]
  by_cases here : index = (fragmentCall x bodies times next).header.index
  · have number : index.toNat = next := by rw [here, sent.index_toNat below]
    rw [if_pos here, number, if_pos (Nat.lt_succ_self next), Resending.body below]
  · have number : index.toNat ≠ next := by
      intro same
      refine here (UInt16.toNat_inj.mp ?_)
      rw [same, sent.index_toNat below]
    rw [if_neg here, mixed.fragments]
    have bound : index.toNat < next + 1 ↔ index.toNat < next := by omega
    simp only [bound]

/-- Where the rest of the other message is as in this one, this one has room. -/
theorem room (mixed : Mixed limits x first bodies left times next r message)
    (sent : Resending limits first bodies left times) (below : next < bodies.length)
    (absent : message.fragments[(fragmentCall x bodies times next).header.index]? = none)
    (agree : ∀ i ∈ left, next ≤ i → first[i]? = bodies[i]?) :
    message.cumulativeLen + (fragmentCall x bodies times next).payload.length ≤ r.limits.maxMessageLen := by
  have counted := (mixed.bounded.entries _ _ mixed.held).counted
  rw [counted, ← PartialMessage.bufferedLen_add absent, mixed.configured]
  refine Nat.le_trans (PartialMessage.bufferedLen_le fun index payload there => ?_) sent.fits
  rw [mixed.add sent below] at there
  split at there
  · exact there
  · rename_i beyond
    split at there
    · rename_i member
      rw [← agree _ member (by omega)]
      exact there
    · simp at there

/-- What the next fragment of the message does. -/
inductive Next (limits : ReassemblyLimits) (x : UInt32) (first bodies : List Bytes) (left : Finset Nat)
    (times : Nat → Instant) (next : Nat) : Accept → Reassembler → Prop
  | kept {after message} : (next ∈ left → first[next]? = bodies[next]?) → (next + 1 = bodies.length → next ∈ left) →
      Mixed limits x first bodies left times (next + 1) after message →
      Next limits x first bodies left times next .pending after
  /-- It differs from the other's, which is given up. -/
  | restarted {after} : next ∈ left → first[next]? ≠ bodies[next]? →
      (next = 0 → ∃ message, Mixed limits x first bodies ∅ times 1 after message) →
      (next ≠ 0 → after.Headless x) → Next limits x first bodies left times next .pending after
  | refused {after reason} : next ∉ left → (∃ i ∈ left, next ≤ i ∧ first[i]? ≠ bodies[i]?) → after.Headless x →
      Next limits x first bodies left times next (.rejected reason) after
  | completed {after bytes} : next ∉ left → (∀ i, next < i → i < bodies.length → i ∈ left) →
      (next + 1 = bodies.length → bytes = bodies.flatten) → after.Headless x →
      Next limits x first bodies left times next (.complete bytes) after

theorem headless_remove {r : Reassembler} (bounded : (r.remove x).Bounded) : (r.remove x).Headless x := by
  refine ⟨bounded, fun message there => ?_⟩
  rw [getElem?_remove, if_pos rfl] at there
  simp at there

/-- The other message has no fragment left at the next index. -/
theorem not_left (mixed : Mixed limits x first bodies left times next r message)
    (sent : Resending limits first bodies left times) (below : next < bodies.length)
    (absent : message.fragments[(fragmentCall x bodies times next).header.index]? = none) : next ∉ left := by
  intro member
  rw [mixed.at_next sent below, if_pos member, List.getElem?_eq_none_iff, sent.same] at absent
  omega

/-- The other message's fragment at the next index. -/
theorem left_of_some (mixed : Mixed limits x first bodies left times next r message)
    (sent : Resending limits first bodies left times) (below : next < bodies.length) {existing : Bytes}
    (there : message.fragments[(fragmentCall x bodies times next).header.index]? = some existing) :
    next ∈ left ∧ first[next]? = some existing := by
  rw [mixed.at_next sent below] at there
  split at there
  · rename_i member
    exact ⟨member, there⟩
  · simp at there

/-- The set is whole with the next fragment exactly where the other message
left all the later ones. -/
theorem full_iff (mixed : Mixed limits x first bodies left times next r message)
    (sent : Resending limits first bodies left times) (below : next < bodies.length)
    (total : message.total = (fragmentCall x bodies times next).header.total) :
    UInt16.ofNat (message.add (fragmentCall x bodies times next).header.index
        (fragmentCall x bodies times next).payload).fragments.size =
      (fragmentCall x bodies times next).header.total ↔ ∀ i, next < i → i < bodies.length → i ∈ left := by
  have well_formed : (fragmentCall x bodies times next).wellFormed r.limits = true :=
    mixed.configured ▸ sent.wellFormed below
  have whole := PartialMessage.full_iff (indices_add mixed.bounded well_formed (mixed.live sent below) total)
  rw [PartialMessage.add_total, total] at whole
  rw [whole]
  constructor
  · intro all i lower upper
    have number : (UInt16.ofNat i).toNat = i := UInt16.toNat_ofNat_of_lt' (upper.trans sent.few)
    have there := all (.ofNat i) (by rw [UInt16.lt_iff_toNat_lt, number, sent.total_toNat]; exact upper)
    rw [mixed.add sent below, number, if_neg (by omega)] at there
    by_contra out
    exact there (if_neg out)
  · intro all index inside
    rw [UInt16.lt_iff_toNat_lt, sent.total_toNat] at inside
    rw [mixed.add sent below]
    split
    · simpa using inside
    · rename_i beyond
      rw [if_pos (all _ (by omega) inside), ne_eq, List.getElem?_eq_none_iff, sent.same]
      omega

/-- The other message's fragment is the same one. -/
theorem keep (mixed : Mixed limits x first bodies left times next r message)
    (agrees : next ∈ left ∧ first[next]? = bodies[next]?) {after : Reassembler} (bounded : after.Bounded)
    (configured : after.limits = limits) (held : after.partials[x]? = some message) :
    Mixed limits x first bodies left times (next + 1) after message := by
  refine { mixed with bounded := bounded, configured := configured, held := held, fragments := fun index => ?_ }
  rw [mixed.fragments]
  by_cases number : index.toNat = next
  · rw [number, if_neg (Nat.lt_irrefl next), if_pos agrees.1, agrees.2, if_pos (Nat.lt_succ_self next)]
  · have bound : index.toNat < next + 1 ↔ index.toNat < next := by omega
    simp only [bound]

/-- The other message is given up for the first fragment of this one. -/
theorem restart (mixed : Mixed limits x first bodies left times 0 r message)
    (sent : Resending limits first bodies left times) {after : Reassembler} (bounded : after.Bounded)
    (configured : after.limits = limits)
    (held : after.partials[x]? = some (fragmentCall x bodies times 0).first) :
    Mixed limits x first bodies ∅ times 1 after (fragmentCall x bodies times 0).first := by
  have positive : 0 < bodies.length := by
    have several := sent.several
    omega
  have length : (fragmentCall x bodies times 0).header.total.toNat = bodies.length := sent.total_toNat
  refine ⟨bounded, configured, held, length, fun index => ?_, Nat.le_refl _, fun i below => ?_⟩
  · rw [Call.first, PartialMessage.getElem?_first]
    by_cases zero : index = (fragmentCall x bodies times 0).header.index
    · have number : index.toNat = 0 := by rw [zero, sent.index_toNat positive]
      rw [if_pos zero, number, if_pos Nat.one_pos, Resending.body positive]
    · have number : index.toNat ≠ 0 := fun is => zero (UInt16.toNat_inj.mp (by rw [is, sent.index_toNat positive]))
      rw [if_neg zero, if_neg (by omega)]
      simp
  · exact (mixed.timely i below).trans_le (Nat.add_le_add_right mixed.after _)

theorem step (mixed : Mixed limits x first bodies left times next r message)
    (sent : Resending limits first bodies left times) (below : next < bodies.length) :
    Next limits x first bodies left times next (r.answer (fragmentCall x bodies times next))
      (r.feed (.accept (fragmentCall x bodies times next))) := by
  have bounded := mixed.bounded.feed (.accept (fragmentCall x bodies times next))
  have configured : (r.feed (.accept (fragmentCall x bodies times next))).limits = limits :=
    (limits_feed r _).trans mixed.configured
  have live := mixed.live sent below
  have here := mixed.at_next sent below
  have body : bodies[next]? = some (fragmentCall x bodies times next).payload := Resending.body below
  have exit := r.accept_exit (fragmentCall x bodies times next)
  have total : message.total = (fragmentCall x bodies times next).header.total := by
    rw [← UInt16.toNat_inj, mixed.total, sent.total_toNat]
  have well_formed := sent.wellFormed (x := x) below
  unfold answer
  unfold feed at bounded configured ⊢
  dsimp only at bounded configured ⊢
  generalize (r.accept (fragmentCall x bodies times next).header (fragmentCall x bodies times next).payload
    (fragmentCall x bodies times next).now).1 = answer at exit ⊢
  generalize (r.accept (fragmentCall x bodies times next).header (fragmentCall x bodies times next).payload
    (fragmentCall x bodies times next).now).2 = after at exit bounded configured ⊢
  cases exit with
  | malformed malformed =>
    rw [mixed.configured, well_formed] at malformed
    simp at malformed
  | whole _ one => exact absurd one sent.total_ne_one
  | inconsistent _ _ held differs =>
    cases live.symm.trans held
    exact absurd total differs
  | declared _ _ held | started _ _ held => cases live.symm.trans held
  | duplicate _ _ held _ copy =>
    cases live.symm.trans held
    obtain ⟨member, there⟩ := mixed.left_of_some sent below copy
    have agrees := there.trans body.symm
    exact .kept (fun _ => agrees) (fun _ => member) (mixed.keep ⟨member, agrees⟩ bounded configured live)
  | restarted _ _ held _ existing differs =>
    cases live.symm.trans held
    obtain ⟨member, there⟩ := mixed.left_of_some sent below existing
    refine .restarted member (fun same => differs ?_) (fun zero => ?_) fun later => ⟨bounded, fun other put => ?_⟩
    · exact Option.some.inj ((there.symm.trans same).trans body)
    · subst zero
      exact ⟨_, mixed.restart sent bounded configured (by rw [getElem?_put]; exact if_pos rfl)⟩
    · have new : (fragmentCall x bodies times next).first = other := by
        rw [getElem?_put] at put
        exact Option.some.inj ((if_pos rfl).symm.trans put)
      rw [← new, Call.first, PartialMessage.getElem?_first, if_neg (Ne.symm (sent.index_ne_zero below later))]
  | tooLarge _ _ held _ absent large =>
    cases live.symm.trans held
    refine .refused (mixed.not_left sent below absent) ?_ (headless_remove bounded)
    by_contra agree
    push Not at agree
    exact absurd (mixed.room sent below absent agree) (Nat.not_le.mpr large)
  | stored _ _ held _ absent fits missing =>
    cases live.symm.trans held
    have out := mixed.not_left sent below absent
    have grown : Mixed limits x first bodies left times (next + 1) _ (message.add
        (fragmentCall x bodies times next).header.index (fragmentCall x bodies times next).payload) :=
      ⟨bounded, configured, (by rw [getElem?_put]; exact if_pos rfl), mixed.total, mixed.add sent below, mixed.after,
        mixed.timely⟩
    refine .kept (fun member => absurd member out) (fun last => absurd ?_ missing) grown
    exact (mixed.full_iff sent below total).mpr fun i lower upper => by omega
  | completed _ _ held _ absent fits full =>
    cases live.symm.trans held
    have rest := (mixed.full_iff sent below total).mp full
    refine .completed (mixed.not_left sent below absent) rest (fun last => ?_) (headless_remove bounded)
    refine PartialMessage.joined_eq sent.few fun index => ?_
    rw [mixed.add sent below]
    split
    · rfl
    · rename_i beyond
      have out : index.toNat ∉ left := fun member => by
        have inside := Finset.mem_range.mp (sent.subset member)
        omega
      rw [if_neg out, eq_comm, List.getElem?_eq_none_iff]
      omega

end Mixed

/-- From the next fragment on: what decides whether the message comes out
whole. -/
def ComesOut (first bodies : List Bytes) (left : Finset Nat) (next : Nat) : Prop :=
  (next = 0 ∧ 0 ∈ left ∧ first[0]? ≠ bodies[0]?) ∨
    (∀ i ∈ left, next ≤ i → first[i]? = bodies[i]?) ∧ bodies.length - 1 ∉ left

/-- The calls from one index on. -/
def callsFrom (x : UInt32) (bodies : List Bytes) (times : Nat → Instant) (next count : Nat) : List Call :=
  (List.range' next count).map (fragmentCall x bodies times)

theorem callsFrom_succ {next count : Nat} : callsFrom x bodies times next (count + 1) =
    fragmentCall x bodies times next :: callsFrom x bodies times (next + 1) count := by
  rw [callsFrom, List.range'_succ]
  rfl

theorem Headless.answers_callsFrom {left : Finset Nat} {next count : Nat} {r : Reassembler}
    (headless : r.Headless x) (sent : Resending limits first bodies left times)
    (rest : next + 1 + count = bodies.length) :
    ∀ message, .complete message ∉ r.answers (callsFrom x bodies times (next + 1) count) := by
  refine headless.answers fun call member => ?_
  obtain ⟨index, inside, rfl⟩ := List.mem_map.mp member
  obtain ⟨lower, upper⟩ := List.mem_range'_1.mp inside
  exact ⟨rfl, sent.total_ne_one, sent.index_ne_zero (by omega) (by omega)⟩

theorem answers_ne_nil {r : Reassembler} {next count : Nat} (some_ : count ≠ 0) :
    r.answers (callsFrom x bodies times next count) ≠ [] := by
  obtain ⟨more, rfl⟩ := Nat.exists_eq_succ_of_ne_zero some_
  rw [Nat.succ_eq_add_one, callsFrom_succ]
  simp [answers]

/-- What one fragment makes of it, given what the later ones do. -/
theorem unspliced_step {left : Finset Nat} {next count : Nat} {r : Reassembler} {message : PartialMessage}
    (mixed : Mixed limits x first bodies left times next r message)
    (sent : Resending limits first bodies left times) (rest : next + 1 + count = bodies.length)
    (later : ∀ (left : Finset Nat) (r : Reassembler) (message : PartialMessage),
      Mixed limits x first bodies left times (next + 1) r message → Resending limits first bodies left times →
        count ≠ 0 → (Unspliced bodies (r.answers (callsFrom x bodies times (next + 1) count)) ↔
          ComesOut first bodies left (next + 1))) :
    Unspliced bodies (r.answers (callsFrom x bodies times next (count + 1))) ↔ ComesOut first bodies left next := by
  have several := sent.several
  have below : next < bodies.length := by omega
  have stepped := mixed.step sent below
  rw [callsFrom_succ, answers]
  generalize r.answer (fragmentCall x bodies times next) = answer at stepped ⊢
  generalize r.feed (.accept (fragmentCall x bodies times next)) = after at stepped ⊢
  cases stepped with
  | @kept after message' agrees last grown =>
    by_cases done : count = 0
    · subst done
      have out : ¬ ComesOut first bodies left next := by
        rintro (⟨zero, _⟩ | ⟨_, out⟩)
        · omega
        · have number : bodies.length - 1 = next := by omega
          exact out (number ▸ last (by omega))
      exact iff_of_false (not_unspliced (by simp [callsFrom, answers])) out
    · rw [unspliced_cons (answers_ne_nil done) (by simp), later left after message' grown sent done]
      constructor
      · rintro (⟨zero, _⟩ | ⟨agree, out⟩)
        · omega
        · refine .inr ⟨fun i member lower => ?_, out⟩
          by_cases here : i = next
          · exact here ▸ agrees (here ▸ member)
          · exact agree i member (by omega)
      · rintro (⟨zero, member, differs⟩ | ⟨agree, out⟩)
        · subst zero
          exact absurd (agrees member) differs
        · exact .inr ⟨fun i member lower => agree i member (by omega), out⟩
  | restarted member differs whole headless =>
    by_cases zero : next = 0
    · obtain ⟨restarted, mixed'⟩ := whole zero
      have fresh : Resending limits first bodies ∅ times := { sent with subset := Finset.empty_subset _ }
      have done : count ≠ 0 := by omega
      subst zero
      rw [unspliced_cons (answers_ne_nil done) (by simp), later ∅ after restarted mixed' fresh done]
      exact iff_of_true (.inr ⟨fun i member => by simp at member, by simp⟩) (.inl ⟨rfl, member, differs⟩)
    · refine iff_of_false (not_unspliced fun bytes inside => ?_) ?_
      · rcases List.mem_cons.mp inside with same | there
        · simp at same
        · exact (headless zero).answers_callsFrom sent rest bytes there
      · rintro (⟨is, _⟩ | ⟨agree, _⟩)
        · exact zero is
        · exact differs (agree next member (Nat.le_refl _))
  | refused out mismatch headless =>
    refine iff_of_false (not_unspliced fun bytes inside => ?_) ?_
    · rcases List.mem_cons.mp inside with same | there
      · simp at same
      · exact headless.answers_callsFrom sent rest bytes there
    · rintro (⟨zero, member, _⟩ | ⟨agree, _⟩)
      · exact out (zero ▸ member)
      · obtain ⟨i, member, lower, differs⟩ := mismatch
        exact differs (agree i member lower)
  | @completed after bytes out all joined headless =>
    by_cases done : count = 0
    · subst done
      have number : bodies.length - 1 = next := by omega
      rw [joined (by omega)]
      refine iff_of_true ⟨fun message inside => ?_, rfl⟩ (.inr ⟨fun i member lower => ?_, number ▸ out⟩)
      · rcases List.mem_cons.mp inside with same | there
        · cases same
          rfl
        · simp [callsFrom, answers] at there
      · have inside := Finset.mem_range.mp (sent.subset member)
        have here : i = next := by omega
        exact absurd (here ▸ member) out
    · refine iff_of_false ?_ ?_
      · rintro ⟨_, last⟩
        have more : after.answers (callsFrom x bodies times (next + 1) count) ≠ [] := answers_ne_nil done
        obtain ⟨answer, rest', known⟩ := List.exists_cons_of_ne_nil more
        rw [known, List.getLast?_cons_cons, ← known] at last
        exact headless.answers_callsFrom sent rest _ (List.mem_of_getLast? last)
      · rintro (⟨zero, member, _⟩ | ⟨_, last⟩)
        · exact out (zero ▸ member)
        · exact last (all _ (by omega) (by omega))

/-- The induction is on how many fragments are still to come; a restart at the
first one leaves nothing of the other message. -/
theorem unspliced_iff {left : Finset Nat} {next count : Nat} {r : Reassembler} {message : PartialMessage}
    (mixed : Mixed limits x first bodies left times next r message)
    (sent : Resending limits first bodies left times) (rest : next + 1 + count = bodies.length) :
    Unspliced bodies (r.answers (callsFrom x bodies times next (count + 1))) ↔ ComesOut first bodies left next := by
  induction count generalizing next left r message with
  | zero => exact unspliced_step mixed sent rest fun _ _ _ _ _ none_ => absurd rfl none_
  | succ count ih =>
    refine unspliced_step mixed sent rest fun left r message grown again _ => ?_
    exact ih grown again (by omega)

/-- The message comes out, whole and alone, exactly where its first fragment
ends the other message, or where the other message's fragments are its own and
the last one is not among them. -/
theorem resent_iff {feeds : List Feed} {left : Finset Nat} {message : PartialMessage}
    (held : (fed limits feeds).partials[x]? = some message) (total : message.total.toNat = bodies.length)
    (same : first.length = bodies.length) (proper : left ⊂ Finset.range bodies.length)
    (buffered : ∀ index : UInt16, message.fragments[index]? = if index.toNat ∈ left then first[index.toNat]? else none)
    (ordered : Monotone times) (after : message.startedAt ≤ times 0)
    (timely : ∀ i < bodies.length, times i < message.startedAt + limits.reassemblyTimeout)
    (fits : bodies.flatten.length ≤ limits.maxMessageLen) :
    Unspliced bodies ((fed limits feeds).answers (fragmentCalls x bodies times)) ↔
      0 ∈ left ∧ first[0]? ≠ bodies[0]? ∨
        (∀ i ∈ left, first[i]? = bodies[i]?) ∧ bodies.length - 1 ∉ left := by
  have within := (bounded_fed limits feeds).entries _ _ held
  have several : 2 ≤ bodies.length := total ▸ within.several
  have sent : Resending limits first bodies left times :=
    ⟨several, total ▸ message.total.toNat_lt, same, proper.subset, ordered, fits⟩
  have mixed : Mixed limits x first bodies left times 0 (fed limits feeds) message :=
    ⟨bounded_fed limits feeds, limits_fed limits feeds, held, total, by simpa using buffered, after, timely⟩
  have whole := unspliced_iff mixed sent (show 0 + 1 + (bodies.length - 1) = bodies.length by omega)
  have calls : callsFrom x bodies times 0 (bodies.length - 1 + 1) = fragmentCalls x bodies times := by
    rw [callsFrom, fragmentCalls, Nat.sub_add_cancel (by omega), List.range_eq_range']
  rw [calls] at whole
  rw [whole, ComesOut]
  simp

theorem buffered_first {header : FragmentHeader} {payload : Bytes} {now : Instant}
    (there : first[header.index.toNat]? = some payload) (index : UInt16) :
    (PartialMessage.first header payload now).fragments[index]? =
      if index.toNat ∈ ({header.index.toNat} : Finset Nat) then first[index.toNat]? else none := by
  rw [PartialMessage.getElem?_first]
  simp only [Finset.mem_singleton, UInt16.toNat_inj]
  split
  · rename_i same
    rw [same, there]
  · rfl

/-- The other message left its first fragment, which differs. -/
theorem resent_iff_first : Unspliced [[3], [4]]
    ((fed ⟨64, 10, 4⟩ [.accept ⟨⟨7, 0, 2⟩, [1], 0⟩]).answers (fragmentCalls 7 [[3], [4]] fun _ => 0)) := by
  have held : (fed ⟨64, 10, 4⟩ [.accept ⟨⟨7, 0, 2⟩, [1], 0⟩]).partials[(7 : UInt32)]? =
      some (.first ⟨7, 0, 2⟩ [1] 0) := rfl
  have buffered : ∀ index : UInt16, (PartialMessage.first ⟨7, 0, 2⟩ [1] 0).fragments[index]? =
      if index.toNat ∈ ({0} : Finset Nat) then ([[1], [2]] : List Bytes)[index.toNat]? else none :=
    buffered_first rfl
  have same : ([[1], [2]] : List Bytes).length = ([[3], [4]] : List Bytes).length := rfl
  refine (resent_iff held rfl same (by decide) buffered monotone_const (Nat.le_refl 0) ?_ (by decide)).mpr
    (.inl ⟨by decide, by decide⟩)
  intro i _
  decide

/-- The other message left its last fragment: it comes out with this one's
first. -/
theorem not_unspliced_reused : ¬ ∀ (limits : ReassemblyLimits) (feeds : List Feed) (x : UInt32)
    (first bodies : List Bytes) (left : Finset Nat) (times : Nat → Instant) (message : PartialMessage),
      (fed limits feeds).partials[x]? = some message → message.total.toNat = bodies.length →
      first.length = bodies.length → left ⊂ Finset.range bodies.length → left.Nonempty →
      (∀ index : UInt16, message.fragments[index]? = if index.toNat ∈ left then first[index.toNat]? else none) →
      Monotone times → message.startedAt ≤ times 0 →
      (∀ i < bodies.length, times i < message.startedAt + limits.reassemblyTimeout) →
      bodies.flatten.length ≤ limits.maxMessageLen →
        Unspliced bodies ((fed limits feeds).answers (fragmentCalls x bodies times)) := by
  intro claim
  have held : (fed ⟨64, 10, 4⟩ [.accept ⟨⟨7, 1, 2⟩, [2], 0⟩]).partials[(7 : UInt32)]? =
      some (.first ⟨7, 1, 2⟩ [2] 0) := rfl
  have buffered : ∀ index : UInt16, (PartialMessage.first ⟨7, 1, 2⟩ [2] 0).fragments[index]? =
      if index.toNat ∈ ({1} : Finset Nat) then ([[1], [2]] : List Bytes)[index.toNat]? else none :=
    buffered_first rfl
  have whole := claim ⟨64, 10, 4⟩ [.accept ⟨⟨7, 1, 2⟩, [2], 0⟩] 7 [[1], [2]] [[3], [4]] {1} (fun _ => 0) _ held rfl rfl
    (by decide) (by decide) buffered monotone_const (Nat.le_refl 0) (fun i _ => by decide) (by decide)
  have spliced : (fed ⟨64, 10, 4⟩ [.accept ⟨⟨7, 1, 2⟩, [2], 0⟩]).answers (fragmentCalls 7 [[3], [4]] fun _ => 0) =
      [.complete [3, 2], .pending] := by decide +kernel
  rw [spliced] at whole
  exact absurd (whole.1 [3, 2] (by simp)) (by decide)

end Reassembler

end BleGatt
