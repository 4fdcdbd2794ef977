import BleGatt.Profile.Datagram.ReassemblySound

namespace BleGatt
open Std

namespace PartialMessage

/-- The bytes a partial message holds. -/
def bufferedLen (message : PartialMessage) : Nat := (message.fragments.toList.map fun entry => entry.2.length).sum

/-- A partial message within the limits: never empty and never whole. -/
structure Within (limits : ReassemblyLimits) (message : PartialMessage) : Prop where
  several : 2 ≤ message.total.toNat
  started : 1 ≤ message.fragments.size
  missing : message.fragments.size < message.total.toNat
  indices : ∀ (index : UInt16) (payload : Bytes), message.fragments[index]? = some payload → index < message.total
  counted : message.cumulativeLen = message.bufferedLen
  bounded : message.cumulativeLen ≤ limits.maxMessageLen

variable {limits : ReassemblyLimits} {message : PartialMessage} {index : UInt16} {payload : Bytes}

theorem bufferedLen_add (absent : message.fragments[index]? = none) :
    (message.add index payload).bufferedLen = message.bufferedLen + payload.length := by
  unfold bufferedLen
  have perm := FiniteMap.toList_insert_perm (v := payload) absent
  calc ((message.fragments.insert index payload).toList.map fun entry => entry.2.length).sum
      = (((index, payload) :: message.fragments.toList).map fun entry => entry.2.length).sum := (perm.map _).sum_eq
    _ = _ := by rw [List.map_cons, List.sum_cons, Nat.add_comm]

theorem size_add (absent : message.fragments[index]? = none) :
    (message.add index payload).fragments.size = message.fragments.size + 1 := by
  change (message.fragments.insert index payload).size = _
  rw [ExtTreeMap.size_insert, if_neg]
  rw [← ExtTreeMap.mem_iff_contains]
  exact FiniteMap.not_mem_iff.mpr absent

/-- What a fragment that is not alone starts. -/
theorem Within.first {call : Call} (well_formed : call.wellFormed limits) (alone : call.header.total ≠ 1) :
    call.first.Within limits := by
  obtain ⟨some, index, fits⟩ := of_decide_eq_true well_formed
  have several : 2 ≤ call.header.total.toNat := by
    have not_zero : call.header.total.toNat ≠ 0 := fun zero => some (UInt16.toNat_inj.mp zero)
    have not_one : call.header.total.toNat ≠ 1 := fun one => alone (UInt16.toNat_inj.mp one)
    omega
  have size : call.first.fragments.size = 1 := Reassembler.size_first
  have empty : (PartialMessage.empty call.header call.now).bufferedLen = 0 := by
    have none : (∅ : ExtTreeMap UInt16 Bytes).toList = [] := by
      rw [← List.isEmpty_iff, ExtTreeMap.isEmpty_toList]
      exact ExtTreeMap.isEmpty_empty
    simp [bufferedLen, PartialMessage.empty, none]
  refine ⟨several, by omega, by rw [size]; exact several, ?_, ?_, ?_⟩
  · intro i payload held
    rw [Call.first, getElem?_first] at held
    split at held
    · rename_i same
      rw [same]
      exact index
    · simp at held
  · have added : call.first.bufferedLen = _ :=
      bufferedLen_add (by simp [PartialMessage.empty])
    rw [added, empty, Nat.zero_add]
    exact first_cumulativeLen ..
  · exact (first_cumulativeLen ..).trans_le fits

/-- One more fragment that does not complete it. -/
theorem Within.add (within : message.Within limits) (absent : message.fragments[index]? = none)
    (inside : index < message.total) (fits : message.cumulativeLen + payload.length ≤ limits.maxMessageLen)
    (open_ : UInt16.ofNat (message.add index payload).fragments.size ≠ message.total) :
    (message.add index payload).Within limits := by
  have size : (message.add index payload).fragments.size = message.fragments.size + 1 := size_add absent
  have missing := within.missing
  have apart : (message.add index payload).fragments.size ≠ message.total.toNat := by
    intro full
    rw [full, UInt16.ofNat_toNat] at open_
    exact open_ rfl
  refine ⟨within.several, by omega, ?_, ?_, ?_, fits⟩
  · rw [add_total]
    omega
  · intro i held at_i
    rw [getElem?_add] at at_i
    split at at_i
    · rename_i same
      rw [same]
      exact inside
    · exact within.indices i held at_i
  · rw [bufferedLen_add absent, add_cumulativeLen, within.counted]

end PartialMessage

namespace Reassembler

/-- The bytes a reassembler holds. -/
def bufferedLen (r : Reassembler) : Nat := (r.partials.toList.map fun entry => entry.2.bufferedLen).sum

/-- What never runs over, whatever is fed. -/
structure Bounded (r : Reassembler) : Prop where
  entries : ∀ (x : UInt32) (message : PartialMessage), r.partials[x]? = some message → message.Within r.limits
  count : r.pendingCount ≤ max 1 r.limits.maxConcurrentReassemblies

variable {r : Reassembler} {x : UInt32} {now : Instant} {message : PartialMessage}

theorem bounded_new (limits : ReassemblyLimits) : (new limits).Bounded :=
  ⟨fun x message held => by simp [new] at held, Nat.zero_le _⟩

/-- A table with fewer entries of the same. -/
theorem Bounded.subset {r' : Reassembler} (bounded : r.Bounded) (limits : r'.limits = r.limits)
    (kept : ∀ (x : UInt32) (message : PartialMessage), r'.partials[x]? = some message → r.partials[x]? = some message)
    (size : r'.partials.size ≤ r.partials.size) : r'.Bounded := by
  refine ⟨fun x message held => ?_, ?_⟩
  · rw [limits]
    exact bounded.entries x message (kept x message held)
  · rw [limits]
    exact size.trans bounded.count

theorem Bounded.expire (bounded : r.Bounded) (now : Instant) : (r.expire now).Bounded := by
  refine bounded.subset rfl (fun x message held => ?_) ExtTreeMap.size_filter_le_size
  rw [getElem?_expire] at held
  exact (Option.filter_eq_some_iff.mp held).1

theorem Bounded.remove (bounded : r.Bounded) (msgId : UInt32) : (r.remove msgId).Bounded := by
  refine bounded.subset rfl (fun x message held => ?_) ExtTreeMap.size_erase_le
  rw [getElem?_remove] at held
  split at held
  · simp at held
  · exact held

theorem Bounded.put_of_size (bounded : r.Bounded) (within : message.Within r.limits)
    (room : (r.put x message).partials.size ≤ max 1 r.limits.maxConcurrentReassemblies) : (r.put x message).Bounded := by
  refine ⟨fun y held at_y => ?_, room⟩
  rw [getElem?_put] at at_y
  split at at_y
  · cases at_y
    exact within
  · exact bounded.entries y held at_y

/-- An entry replaced by another takes no more room. -/
theorem Bounded.put_held {before : PartialMessage} (bounded : r.Bounded) (held : r.partials[x]? = some before)
    (within : message.Within r.limits) : (r.put x message).Bounded := by
  have known : r.partials.contains x = true := by
    rw [ExtTreeMap.contains_eq_isSome_getElem?, held]
    rfl
  refine bounded.put_of_size within ?_
  change (r.partials.insert x message).size ≤ _
  rw [ExtTreeMap.size_insert, if_pos known]
  exact bounded.count

/-- An eviction leaves room for one more. -/
theorem size_evictIfAtCapacity (count : r.pendingCount ≤ max 1 r.limits.maxConcurrentReassemblies) :
    r.evictIfAtCapacity.partials.size + 1 ≤ max 1 r.limits.maxConcurrentReassemblies := by
  unfold pendingCount at count
  unfold evictIfAtCapacity
  split
  · omega
  · split
    · rename_i oldest chosen
      have listed := List.argmin_mem chosen
      have known : r.partials.contains oldest.1 = true := by
        have found := ExtTreeMap.mem_toList_iff_getElem?_eq_some.mp (show (oldest.1, oldest.2) ∈ _ from listed)
        rw [ExtTreeMap.contains_eq_isSome_getElem?, found]
        rfl
      have positive : 0 < r.partials.size := by
        rw [← ExtTreeMap.length_toList]
        exact List.length_pos_of_mem listed
      change (r.partials.erase oldest.1).size + 1 ≤ _
      rw [ExtTreeMap.size_erase, if_pos known]
      omega
    · rename_i none
      have empty : r.partials.size = 0 := by
        rw [← ExtTreeMap.length_toList, List.argmin_eq_none.mp none]
        rfl
      omega

theorem Bounded.evict (bounded : r.Bounded) : r.evictIfAtCapacity.Bounded := by
  have room := size_evictIfAtCapacity bounded.count
  refine ⟨fun y held at_y => ?_, ?_⟩
  · rw [limits_evictIfAtCapacity]
    obtain evicted | kept := evicted_or_kept (r := r) (x := y)
    · rw [evicted] at at_y
      simp at at_y
    · exact bounded.entries y held (kept ▸ at_y)
  · rw [limits_evictIfAtCapacity, pendingCount]
    omega

/-- Every exit of `accept` keeps the bounds. -/
theorem Exit.bounded {call : Call} {answer : Accept} {r' : Reassembler} (exit : Exit r call answer r')
    (bounded : r.Bounded) : r'.Bounded := by
  have expired := bounded.expire call.now
  cases exit with
  | malformed => exact bounded
  | whole | inconsistent | tooLarge | completed => exact expired.remove _
  | declared | duplicate => exact expired
  | started well_formed alone =>
    refine expired.evict.put_of_size ?_ ?_
    · rw [limits_evictIfAtCapacity]
      exact .first well_formed alone
    · rw [limits_evictIfAtCapacity]
      exact ExtTreeMap.size_insert_le.trans (size_evictIfAtCapacity expired.count)
  | restarted well_formed alone held => exact expired.put_held held (.first well_formed alone)
  | stored well_formed alone held total absent fits open_ =>
    obtain ⟨_, index, _⟩ := of_decide_eq_true well_formed
    refine expired.put_held held ((expired.entries _ _ held).add absent ?_ fits ?_)
    · rw [total]
      exact index
    · rw [total]
      exact open_

theorem Bounded.feed (bounded : r.Bounded) (call : Feed) : (r.feed call).Bounded := by
  cases call with
  | accept call => exact (accept_exit r call).bounded bounded
  | expire now => exact bounded.expire now

theorem bounded_fed (limits : ReassemblyLimits) (feeds : List Feed) : (fed limits feeds).Bounded := by
  induction feeds using List.reverseRecOn with
  | nil => exact bounded_new limits
  | append_singleton feeds last ih =>
    rw [fed_concat]
    exact ih.feed last

/-- No partial message holds more than the limit, so neither do all. -/
theorem Bounded.bufferedLen_le (bounded : r.Bounded) : r.bufferedLen ≤ r.pendingCount * r.limits.maxMessageLen := by
  unfold bufferedLen pendingCount
  rw [← ExtTreeMap.length_toList]
  refine (List.sum_le_card_nsmul _ r.limits.maxMessageLen ?_).trans_eq (by rw [List.length_map, smul_eq_mul])
  intro length member
  obtain ⟨⟨x, message⟩, listed, rfl⟩ := List.mem_map.mp member
  have within := bounded.entries x message (ExtTreeMap.mem_toList_iff_getElem?_eq_some.mp listed)
  rw [← within.counted]
  exact within.bounded

/-- The second half of `accept`, with the lookups its two `expect`s are about.
`none` is their panic. -/
def storeChecked (header : FragmentHeader) (payload : Bytes) (now : Instant) (r : Reassembler) :
    Option (Accept × Reassembler) := do
  let message ← r.partials[header.msgId]?
  match message.fragments[header.index]? with
  | some existing =>
    if existing = payload then some (.pending, r)
    else some (.pending, r.put header.msgId (.first header payload now))
  | none =>
    if message.cumulativeLen + payload.length > r.limits.maxMessageLen then
      some (.rejected .messageTooLarge, r.remove header.msgId)
    else
      let message := message.add header.index payload
      let r := r.put header.msgId message
      if UInt16.ofNat message.fragments.size ≠ message.total then some (.pending, r)
      else do
        let completed ← r.partials[header.msgId]?
        some (.complete completed.joined, r.remove header.msgId)

def acceptChecked (header : FragmentHeader) (payload : Bytes) (now : Instant) (r : Reassembler) :
    Option (Accept × Reassembler) :=
  if header.total = 0 then some (.rejected .emptyMessage, r)
  else if header.index ≥ header.total then some (.rejected .indexOutOfRange, r)
  else if payload.length > r.limits.maxMessageLen then some (.rejected .messageTooLarge, r)
  else
    let r := r.expire now
    if header.total = 1 then some (.complete payload, r.remove header.msgId)
    else match r.partials[header.msgId]? with
      | some existing =>
        if existing.total ≠ header.total then some (.rejected .inconsistentTotal, r.remove header.msgId)
        else r.storeChecked header payload now
      | none =>
        if saturatingMul (header.total.toNat - 1) (max payload.length 1) > r.limits.maxMessageLen then
          some (.rejected .messageTooLarge, r)
        else (r.evictIfAtCapacity.put header.msgId (.empty header now)).storeChecked header payload now

section Checked
variable {header : FragmentHeader}

theorem remove_put (msgId : UInt32) (message : PartialMessage) :
    (r.put msgId message).remove msgId = r.remove msgId := by
  have same : ∀ x : UInt32, ((r.partials.insert msgId message).erase msgId)[x]? = (r.partials.erase msgId)[x]? := by
    intro x
    simp only [FiniteMap.getElem?_erase, FiniteMap.getElem?_insert]
    split <;> rfl
  simp only [put, remove, ExtTreeMap.ext_getElem? same]

/-- The message is in the table when it is looked up, both times. -/
theorem storeChecked_eq (payload : Bytes) (now : Instant) (held : r.partials[header.msgId]? = some message) :
    r.storeChecked header payload now = some (r.store header payload now message) := by
  have there : ∀ later : PartialMessage, (r.put header.msgId later).partials[header.msgId]? = some later := by
    intro later
    rw [getElem?_put, if_pos rfl]
  unfold storeChecked store
  rw [held]
  dsimp only [Option.bind_eq_bind, Option.bind_some]
  cases message.fragments[header.index]? with
  | some existing => dsimp only; split_ifs <;> rfl
  | none =>
    dsimp only
    rw [there, Option.bind_some, remove_put]
    split_ifs <;> rfl

/-- Neither `expect` of `accept` panics, in any state. -/
theorem acceptChecked_eq (header : FragmentHeader) (payload : Bytes) (now : Instant) (r : Reassembler) :
    r.acceptChecked header payload now = some (r.accept header payload now) := by
  unfold acceptChecked accept
  dsimp only
  cases held : (r.expire now).partials[header.msgId]? with
  | some existing =>
    have stored := storeChecked_eq payload now held
    dsimp only
    split_ifs
    all_goals first | rfl | exact stored
  | none =>
    have inserted : ((r.expire now).evictIfAtCapacity.put header.msgId (.empty header now)).partials[header.msgId]? =
        some (.empty header now) := by
      rw [getElem?_put, if_pos rfl]
    have stored := storeChecked_eq payload now inserted
    dsimp only
    split_ifs
    all_goals first | rfl | exact stored

end Checked

/-- Whatever a reassembler was fed, it holds no more than its limits allow,
and no call of `accept` panics. -/
theorem fed_bounded (limits : ReassemblyLimits) (feeds : List Feed) :
    (∀ (x : UInt32) (message : PartialMessage), (fed limits feeds).partials[x]? = some message →
      message.Within limits) ∧
    (fed limits feeds).pendingCount ≤ max 1 limits.maxConcurrentReassemblies ∧
    (fed limits feeds).bufferedLen ≤ (fed limits feeds).pendingCount * limits.maxMessageLen ∧
    ∀ (header : FragmentHeader) (payload : Bytes) (now : Instant),
      ((fed limits feeds).acceptChecked header payload now).isSome := by
  have bounded := bounded_fed limits feeds
  have entries := bounded.entries
  have count := bounded.count
  have held := bounded.bufferedLen_le
  rw [limits_fed] at entries count held
  refine ⟨entries, count, held, fun header payload now => ?_⟩
  rw [acceptChecked_eq]
  rfl

end Reassembler

end BleGatt
