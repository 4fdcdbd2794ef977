import BleGatt.Profile.Datagram.Reassembly
import Mathlib.Data.List.Range
import Mathlib.Data.List.NodupEquivFin

namespace BleGatt
open Std

/-! What a reassembler answers as complete, whatever a peer sent it. -/

/-- One call a reassembler takes. -/
inductive Feed
  | accept (call : Call)
  | expire (now : Instant)

namespace Reassembler

def answer (call : Call) (r : Reassembler) : Accept := (r.accept call.header call.payload call.now).1

def feed (r : Reassembler) : Feed → Reassembler
  | .accept call => (r.accept call.header call.payload call.now).2
  | .expire now => r.expire now

/-- A fresh reassembler after the calls of a list. -/
def fed (limits : ReassemblyLimits) (feeds : List Feed) : Reassembler := feeds.foldl feed (new limits)

/-- The call is not rejected, and is not of a message of one fragment, which
is never buffered. -/
def admits (call : Call) (r : Reassembler) : Bool :=
  call.header.total != 1 &&
    match r.answer call with
    | .rejected _ => false
    | _ => true

/-- The call starts or restarts the buffered set of its id. -/
def starts (call : Call) (r : Reassembler) : Bool :=
  r.admits call &&
    match r.live call.header.msgId call.now with
    | none => true
    | some message => message.fragments[call.header.index]?.any (· != call.payload)

/-- The call adds its fragment to the buffered set of its id, started by it or
before it. A copy of a buffered fragment adds nothing. -/
def stores (call : Call) (r : Reassembler) : Bool :=
  r.admits call &&
    match r.live call.header.msgId call.now with
    | none => true
    | some message => message.fragments[call.header.index]? != some call.payload

/-- The set of id `x` was last started or restarted by `start`, it has been
there after every call from then on, and `calls` are those that added to it
since, `start` the first of them. -/
inductive Since (limits : ReassemblyLimits) (x : UInt32) : List Feed → Call → List Call → Prop
  | start {feeds call} : call.header.msgId = x → (fed limits feeds).starts call →
      Since limits x (feeds ++ [.accept call]) call [call]
  | store {feeds start calls call} : Since limits x feeds start calls → call.header.msgId = x →
      (fed limits feeds).stores call → (fed limits feeds).starts call = false →
      x ∈ (fed limits (feeds ++ [.accept call])).partials →
      Since limits x (feeds ++ [.accept call]) start (calls ++ [call])
  | pass {feeds start calls feed} : Since limits x feeds start calls →
      (∀ call, feed = .accept call → call.header.msgId = x → (fed limits feeds).stores call = false) →
      x ∈ (fed limits (feeds ++ [feed])).partials → Since limits x (feeds ++ [feed]) start calls

theorem fed_concat (limits : ReassemblyLimits) (feeds : List Feed) (last : Feed) :
    fed limits (feeds ++ [last]) = (fed limits feeds).feed last := by
  rw [fed, List.foldl_append]
  rfl

theorem Exit.limits {r r' : Reassembler} {call : Call} {answer : Accept} (exit : Exit r call answer r') :
    r'.limits = r.limits := by
  cases exit with
  | started _ _ _ _ => exact limits_evictIfAtCapacity
  | _ => rfl

theorem limits_feed (r : Reassembler) (call : Feed) : (r.feed call).limits = r.limits := by
  cases call with
  | expire now => rfl
  | accept call => exact (r.accept_exit call).limits

theorem limits_fed (limits : ReassemblyLimits) (feeds : List Feed) : (fed limits feeds).limits = limits := by
  induction feeds using List.reverseRecOn with
  | nil => rfl
  | append_singleton feeds last ih => rw [fed_concat, limits_feed, ih]

theorem of_live {r : Reassembler} {x : UInt32} {now : Instant} {message : PartialMessage}
    (held : r.live x now = some message) :
    r.partials[x]? = some message ∧ now - message.startedAt < r.limits.reassemblyTimeout := by
  rw [live, getElem?_expire, Option.filter_eq_some_iff] at held
  exact ⟨held.1, of_decide_eq_true held.2⟩

/-- Where a buffered set after a call comes from: it is the one before, or the
call started it, or added to it. -/
theorem accept_entry {r : Reassembler} {call : Call} {x : UInt32} {message' : PartialMessage}
    (after : (r.feed (.accept call)).partials[x]? = some message') :
    (r.partials[x]? = some message' ∧ (call.header.msgId = x → r.stores call = false)) ∨
    (call.header.msgId = x ∧ r.starts call = true ∧ call.wellFormed r.limits = true ∧ message' = call.first) ∨
    call.header.msgId = x ∧ r.stores call = true ∧ r.starts call = false ∧ call.wellFormed r.limits = true ∧
      ∃ message, r.live x call.now = some message ∧ message.total = call.header.total ∧
        message.fragments[call.header.index]? = none ∧
        message.cumulativeLen + call.payload.length ≤ r.limits.maxMessageLen ∧
        message' = message.add call.header.index call.payload := by
  have kept : ∀ {now}, (r.expire now).partials[x]? = some message' → r.partials[x]? = some message' :=
    fun held => (of_live held).1
  have exit := r.accept_exit call
  unfold starts stores admits answer
  change (r.accept call.header call.payload call.now).2.partials[x]? = _ at after
  generalize r.accept call.header call.payload call.now = result at exit after
  obtain ⟨answer, r'⟩ := result
  dsimp only at exit after ⊢
  have removed : r' = (r.expire call.now).remove call.header.msgId →
      r.partials[x]? = some message' ∧ call.header.msgId ≠ x := by
    rintro rfl
    rw [getElem?_remove] at after
    split at after
    · simp at after
    · rename_i other
      exact ⟨kept after, fun same => other same.symm⟩
  cases exit with
  | malformed _ => exact .inl ⟨after, fun _ => by simp⟩
  | whole _ _ => exact .inl ⟨(removed rfl).1, fun same => absurd same (removed rfl).2⟩
  | inconsistent _ _ _ _ => exact .inl ⟨(removed rfl).1, fun same => absurd same (removed rfl).2⟩
  | declared _ _ _ _ => exact .inl ⟨kept after, fun _ => by simp⟩
  | started well_formed several held _ =>
    rw [getElem?_put] at after
    split at after
    · rename_i same
      cases after
      exact .inr (.inl ⟨same.symm, by simp [several, held], well_formed, rfl⟩)
    · rename_i other
      obtain gone | left := evicted_or_kept (r := r.expire call.now) (x := x)
      · simp [gone] at after
      · exact .inl ⟨kept (left ▸ after), fun same => absurd same.symm other⟩
  | duplicate _ _ held _ copy => exact .inl ⟨kept after, fun _ => by simp [held, copy]⟩
  | restarted well_formed several held _ at_index differs =>
    rw [getElem?_put] at after
    split at after
    · rename_i same
      cases after
      exact .inr (.inl ⟨same.symm, by simp [several, held, at_index, differs], well_formed, rfl⟩)
    · rename_i other
      exact .inl ⟨kept after, fun same => absurd same.symm other⟩
  | tooLarge _ _ _ _ _ _ => exact .inl ⟨(removed rfl).1, fun same => absurd same (removed rfl).2⟩
  | stored well_formed several held total at_index fits _ =>
    rw [getElem?_put] at after
    split at after
    · rename_i same
      cases after
      refine .inr (.inr ⟨same.symm, by simp [several, held, at_index], by simp [held, at_index], well_formed, _, ?_,
        total, at_index, fits, rfl⟩)
      rw [same, held]
    · rename_i other
      exact .inl ⟨kept after, fun same => absurd same.symm other⟩
  | completed _ _ _ _ _ _ _ => exact .inl ⟨(removed rfl).1, fun same => absurd same (removed rfl).2⟩

/-- A buffered set is what the calls since its start put there. -/
structure Tally (limits : ReassemblyLimits) (x : UInt32) (start : Call) (calls : List Call)
    (message : PartialMessage) : Prop where
  startedAt : message.startedAt = start.now
  own : ∀ call ∈ calls, call.header.msgId = x ∧ call.header.total = message.total ∧
    call.header.index < message.total
  timely : 0 < limits.reassemblyTimeout → ∀ call ∈ calls, call.now < start.now + limits.reassemblyTimeout
  indices : (calls.map fun call => call.header.index).Nodup
  fragments : ∀ index payload, message.fragments[index]? = some payload ↔
    ∃ call ∈ calls, call.header.index = index ∧ call.payload = payload
  cumulative : message.cumulativeLen = (calls.map fun call => call.payload.length).sum
  bounded : message.cumulativeLen ≤ limits.maxMessageLen

namespace Tally

variable {limits : ReassemblyLimits} {x : UInt32} {start call : Call} {calls : List Call} {message : PartialMessage}

theorem first (own : call.header.msgId = x) (well_formed : call.wellFormed limits) :
    Tally limits x call [call] call.first := by
  have checks := of_decide_eq_true well_formed
  constructor
  case startedAt => rfl
  case own =>
    intro c member
    cases List.mem_singleton.mp member
    exact ⟨own, rfl, checks.2.1⟩
  case timely =>
    intro positive c member
    cases List.mem_singleton.mp member
    exact Nat.lt_add_of_pos_right positive
  case indices => exact List.nodup_singleton _
  case fragments =>
    intro index payload
    rw [Call.first, PartialMessage.getElem?_first]
    by_cases same : index = call.header.index
    · simp [same]
    · have other : call.header.index ≠ index := fun eq => same eq.symm
      simp [same, other]
  case cumulative => simp [Call.first]
  case bounded =>
    have fits : call.payload.length ≤ limits.maxMessageLen := checks.2.2
    simpa [Call.first] using fits

theorem add (tally : Tally limits x start calls message) (own : call.header.msgId = x)
    (well_formed : call.wellFormed limits) (total : message.total = call.header.total)
    (absent : message.fragments[call.header.index]? = none)
    (fits : message.cumulativeLen + call.payload.length ≤ limits.maxMessageLen)
    (recent : call.now - message.startedAt < limits.reassemblyTimeout) :
    Tally limits x start (calls ++ [call]) (message.add call.header.index call.payload) := by
  have checks := of_decide_eq_true well_formed
  have fresh : ∀ c ∈ calls, c.header.index ≠ call.header.index := by
    intro c member same
    have held := (tally.fragments call.header.index c.payload).mpr ⟨c, member, same, rfl⟩
    rw [absent] at held
    exact absurd held (by simp)
  constructor
  case startedAt => exact tally.startedAt
  case own =>
    intro c member
    rcases List.mem_append.mp member with old | new
    · exact tally.own c old
    · cases List.mem_singleton.mp new
      exact ⟨own, total.symm, total.symm ▸ checks.2.1⟩
  case timely =>
    intro positive c member
    rcases List.mem_append.mp member with old | new
    · exact tally.timely positive c old
    · cases List.mem_singleton.mp new
      rw [tally.startedAt] at recent
      exact lt_add_of_tsub_lt_left recent
  case indices =>
    rw [List.map_append]
    refine List.Nodup.append tally.indices (List.nodup_singleton _) ?_
    intro index old new
    obtain ⟨c, member, rfl⟩ := List.mem_map.mp old
    exact fresh c member (List.mem_singleton.mp new)
  case fragments =>
    intro index payload
    rw [PartialMessage.getElem?_add]
    by_cases same : index = call.header.index
    · rw [if_pos same, same]
      constructor
      · intro held
        exact ⟨call, List.mem_append_right _ List.mem_cons_self, rfl, Option.some.inj held⟩
      · rintro ⟨c, member, at_index, held⟩
        rcases List.mem_append.mp member with old | new
        · exact absurd at_index (fresh c old)
        · cases List.mem_singleton.mp new
          exact congrArg some held
    · rw [if_neg same, tally.fragments]
      constructor
      · rintro ⟨c, member, held⟩
        exact ⟨c, List.mem_append_left _ member, held⟩
      · rintro ⟨c, member, held⟩
        rcases List.mem_append.mp member with old | new
        · exact ⟨c, old, held⟩
        · cases List.mem_singleton.mp new
          exact absurd held.1.symm same
  case cumulative => simp [tally.cumulative]
  case bounded => exact fits

/-- Each call that added to the set added one fragment. -/
theorem size (tally : Tally limits x start calls message) : message.fragments.size = calls.length := by
  have perm : message.fragments.keys.Perm (calls.map fun call => call.header.index) := by
    refine (List.perm_ext_iff_of_nodup ExtTreeMap.nodup_keys tally.indices).mpr ?_
    intro index
    rw [ExtTreeMap.mem_keys, ExtTreeMap.mem_iff_isSome_getElem?, Option.isSome_iff_exists, List.mem_map]
    constructor
    · rintro ⟨payload, held⟩
      obtain ⟨call, member, at_index, _⟩ := (tally.fragments index payload).mp held
      exact ⟨call, member, at_index⟩
    · rintro ⟨call, member, at_index⟩
      exact ⟨call.payload, (tally.fragments index call.payload).mpr ⟨call, member, at_index, rfl⟩⟩
  rw [← ExtTreeMap.length_keys, perm.length_eq, List.length_map]

/-- There are no more of them than the total has indices. -/
theorem length_le (tally : Tally limits x start calls message) : calls.length ≤ message.total.toNat := by
  have covered : (calls.map fun call => call.header.index.toNat).Subperm (List.range message.total.toNat) := by
    refine List.Nodup.subperm ?_ ?_
    · have indices := tally.indices.map fun _ _ => UInt16.toNat_inj.mp
      rwa [List.map_map] at indices
    · intro i member
      obtain ⟨call, held, rfl⟩ := List.mem_map.mp member
      exact List.mem_range.mpr (UInt16.lt_iff_toNat_lt.mp (tally.own call held).2.2)
  simpa using covered.length_le

/-- The count of the code, cut to 16 bits, loses nothing. -/
theorem full_iff (tally : Tally limits x start calls message) :
    UInt16.ofNat message.fragments.size = message.total ↔ calls.length = message.total.toNat := by
  have small : calls.length < 65536 := tally.length_le.trans_lt message.total.toNat_lt
  rw [tally.size]
  constructor
  · intro full
    rw [← full, UInt16.toNat_ofNat_of_lt' small]
  · intro all
    rw [all, UInt16.ofNat_toNat]

end Tally

/-- Every buffered set is that of the calls since its start. -/
theorem fed_tally (limits : ReassemblyLimits) (feeds : List Feed) (x : UInt32) (message : PartialMessage)
    (held : (fed limits feeds).partials[x]? = some message) :
    ∃ start calls, Since limits x feeds start calls ∧ Tally limits x start calls message := by
  induction feeds using List.reverseRecOn generalizing message with
  | nil => simp [fed, new] at held
  | append_singleton feeds last ih =>
    have present : x ∈ (fed limits (feeds ++ [last])).partials := by
      rw [ExtTreeMap.mem_iff_isSome_getElem?, held]
      rfl
    rw [fed_concat] at held
    cases last with
    | expire now =>
      obtain ⟨start, calls, since, tally⟩ := ih message (of_live held).1
      exact ⟨start, calls, .pass since (fun _ => by simp) present, tally⟩
    | accept call =>
      rcases accept_entry held with ⟨before, silent⟩ | ⟨own, starts, well_formed, rfl⟩ |
        ⟨own, stores, goes_on, well_formed, old, live, total, absent, fits, rfl⟩
      · obtain ⟨start, calls, since, tally⟩ := ih message before
        refine ⟨start, calls, .pass since ?_ present, tally⟩
        rintro _ ⟨⟩ own
        exact silent own
      · exact ⟨call, [call], .start own starts, .first own (limits_fed limits feeds ▸ well_formed)⟩
      · obtain ⟨before, recent⟩ := of_live live
        obtain ⟨start, calls, since, tally⟩ := ih old before
        rw [limits_fed] at well_formed fits recent
        exact ⟨start, calls ++ [call], .store since own stores goes_on present,
          tally.add own well_formed total absent fits recent⟩

/-- As many numbers below `n` as there are, in increasing order. -/
theorem eq_range_of_sorted {n : Nat} {l : List Nat} (sorted : l.Pairwise (· < ·)) (below : ∀ i ∈ l, i < n)
    (length : l.length = n) : l = List.range n := by
  have nodup : l.Nodup := sorted.imp fun before => Nat.ne_of_lt before
  have perm : l.Perm (List.range n) := by
    refine (List.Nodup.subperm nodup ?_).perm_of_length_le ?_
    · intro i member
      exact List.mem_range.mpr (below i member)
    · rw [List.length_range, length]
  refine perm.eq_of_pairwise ?_ sorted List.pairwise_lt_range
  intro a b _ _ before after
  omega

/-- A set of as many fragments as its total holds each index once. -/
theorem Tally.ordered {limits : ReassemblyLimits} {x : UInt32} {start : Call} {calls : List Call}
    {message : PartialMessage} (tally : Tally limits x start calls message)
    (full : UInt16.ofNat message.fragments.size = message.total) :
    ∃ ordered : List Call, ordered.Perm calls ∧ message.joined = ordered.flatMap Call.payload ∧
      ordered.map Call.header = (List.range message.total.toNat).map fun i => ⟨x, UInt16.ofNat i, message.total⟩ := by
  let before : Call → Call → Bool := fun a b => decide (a.header.index ≤ b.header.index)
  have perm : (calls.mergeSort before).Perm calls := List.mergeSort_perm calls before
  have own : ∀ c ∈ calls.mergeSort before, c.header.msgId = x ∧ c.header.total = message.total ∧
      c.header.index < message.total := fun c member => tally.own c (perm.mem_iff.mp member)
  have weakly : (calls.mergeSort before).Pairwise fun a b => before a b = true := by
    refine List.pairwise_mergeSort ?_ ?_ calls
    · intro a b c ab bc
      exact decide_eq_true (UInt16.le_trans (of_decide_eq_true ab) (of_decide_eq_true bc))
    · intro a b
      simpa [before] using UInt16.le_total a.header.index b.header.index
  have indices : ((calls.mergeSort before).map fun c => c.header.index).Nodup :=
    (perm.map _).nodup_iff.mpr tally.indices
  have sorted : (calls.mergeSort before).Pairwise fun a b => a.header.index < b.header.index := by
    refine (weakly.and (List.pairwise_map.mp indices)).imp ?_
    intro a b both
    exact UInt16.lt_of_le_of_ne (of_decide_eq_true both.1) both.2
  have entries : message.fragments.toList = (calls.mergeSort before).map fun c => (c.header.index, c.payload) := by
    refine FiniteMap.toList_eq (List.pairwise_map.mpr (sorted.imp ?_)) ?_
    · intro a b lt
      exact Std.compare_eq_lt.mpr lt
    · intro index payload
      rw [tally.fragments, List.mem_map]
      constructor
      · rintro ⟨c, member, eq⟩
        cases eq
        exact ⟨c, perm.mem_iff.mp member, rfl, rfl⟩
      · rintro ⟨c, member, rfl, rfl⟩
        exact ⟨c, perm.mem_iff.mpr member, rfl⟩
  have numbers : ((calls.mergeSort before).map fun c => c.header.index.toNat).Pairwise (· < ·) :=
    List.pairwise_map.mpr (sorted.imp fun lt => UInt16.lt_iff_toNat_lt.mp lt)
  have below : ∀ i ∈ (calls.mergeSort before).map fun c => c.header.index.toNat, i < message.total.toNat := by
    intro i member
    obtain ⟨c, held, rfl⟩ := List.mem_map.mp member
    exact UInt16.lt_iff_toNat_lt.mp (own c held).2.2
  have count : (calls.mergeSort before).length = message.total.toNat := by
    rw [perm.length_eq, tally.full_iff.mp full]
  have all := eq_range_of_sorted numbers below (by rw [List.length_map, count])
  refine ⟨calls.mergeSort before, perm, ?_, ?_⟩
  · rw [PartialMessage.joined, entries, List.flatMap_map]
  · rw [← all, List.map_map]
    refine List.map_congr_left fun c member => ?_
    obtain ⟨msg_id, total, _⟩ := own c member
    obtain ⟨⟨_, _, _⟩, _, _⟩ := c
    cases msg_id
    cases total
    simp

theorem complete_of_several {r : Reassembler} {call : Call} {bytes : Bytes} (several : 2 ≤ call.header.total)
    (complete : r.answer call = .complete bytes) : call.wellFormed r.limits = true ∧
    ∃ message, r.live call.header.msgId call.now = some message ∧ message.total = call.header.total ∧
      message.fragments[call.header.index]? = none ∧
      message.cumulativeLen + call.payload.length ≤ r.limits.maxMessageLen ∧
      UInt16.ofNat (message.add call.header.index call.payload).fragments.size = call.header.total ∧
      bytes = (message.add call.header.index call.payload).joined := by
  have exit := r.accept_exit call
  unfold answer at complete
  rw [complete] at exit
  generalize (r.accept call.header call.payload call.now).2 = after at exit
  cases exit with
  | whole _ one =>
    rw [one] at several
    exact absurd several (by decide)
  | completed well_formed _ held total absent fits full =>
    exact ⟨well_formed, _, held, total, absent, fits, full, rfl⟩

/-- Whatever a reassembler was fed, a message of several fragments it answers
as complete is that of one set of them, started once and left alone since. -/
theorem complete_sound (limits : ReassemblyLimits) (feeds : List Feed) (call : Call) (bytes : Bytes)
    (several : 2 ≤ call.header.total) (complete : (fed limits feeds).answer call = .complete bytes) :
    ∃ (start : Call) (calls ordered : List Call), Since limits call.header.msgId feeds start calls ∧ ordered.Perm (calls ++ [call]) ∧
      bytes = ordered.flatMap Call.payload ∧
      ordered.map Call.header = (List.range call.header.total.toNat).map
        (fun i => ⟨call.header.msgId, UInt16.ofNat i, call.header.total⟩) ∧
      (∀ c ∈ ordered, c.now < start.now + limits.reassemblyTimeout) ∧ bytes.length ≤ limits.maxMessageLen := by
  obtain ⟨well_formed, message, live, total, absent, fits, full, rfl⟩ := complete_of_several several complete
  obtain ⟨held, recent⟩ := of_live live
  rw [limits_fed] at well_formed fits recent
  obtain ⟨start, calls, since, tally⟩ := fed_tally limits feeds _ message held
  have whole := tally.add rfl well_formed total absent fits recent
  obtain ⟨ordered, perm, joined, headers⟩ := whole.ordered (full.trans total.symm)
  refine ⟨start, calls, ordered, since, perm, joined, ?_, ?_, ?_⟩
  · rw [headers, PartialMessage.add_total, total]
  · intro c member
    exact whole.timely (Nat.zero_lt_of_lt recent) c (perm.mem_iff.mp member)
  · have length : (ordered.flatMap Call.payload).length = (message.add call.header.index call.payload).cumulativeLen := by
      rw [whole.cumulative, List.length_flatMap]
      exact (perm.map _).sum_eq
    rw [joined, length]
    exact whole.bounded

/-- Two messages of one peer interleaved, with a late copy, and the first one
done. -/
def interleaved : List Feed :=
  [.accept ⟨⟨1, 1, 2⟩, [20], 0⟩, .accept ⟨⟨2, 0, 2⟩, [30], 1⟩, .accept ⟨⟨1, 1, 2⟩, [20], 2⟩]

theorem complete_sound_interleaved : (fed ⟨64, 10, 4⟩ interleaved).answer ⟨⟨1, 0, 2⟩, [10], 3⟩ = .complete [10, 20] ∧
    ∃ (start : Call) (calls ordered : List Call), Since ⟨64, 10, 4⟩ 1 interleaved start calls ∧
      ordered.Perm (calls ++ [(⟨⟨1, 0, 2⟩, [10], 3⟩ : Call)]) ∧ [10, 20] = ordered.flatMap Call.payload ∧
      ordered.map Call.header = (List.range 2).map (fun i => ⟨1, UInt16.ofNat i, 2⟩) ∧
      (∀ c ∈ ordered, c.now < start.now + 10) ∧ [10, 20].length ≤ 64 := by
  have complete : (fed ⟨64, 10, 4⟩ interleaved).answer ⟨⟨1, 0, 2⟩, [10], 3⟩ = .complete [10, 20] := by
    decide +kernel
  exact ⟨complete, complete_sound ⟨64, 10, 4⟩ interleaved ⟨⟨1, 0, 2⟩, [10], 3⟩ [10, 20] (by decide) complete⟩

end Reassembler

end BleGatt
