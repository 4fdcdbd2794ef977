import BleGatt.Profile.Datagram.Fragment
import Mathlib.Data.List.MinMax

namespace BleGatt
open Std

structure ReassemblyLimits where
  maxMessageLen : Nat
  reassemblyTimeout : Duration
  maxConcurrentReassemblies : Nat
  deriving DecidableEq, Repr

/-- Why a fragment was dropped. -/
inductive RejectReason
  | emptyMessage
  | indexOutOfRange
  | inconsistentTotal
  | messageTooLarge
  deriving DecidableEq, Repr

inductive Accept
  | complete (message : Bytes)
  | pending
  | rejected (reason : RejectReason)
  deriving DecidableEq, Repr

structure PartialMessage where
  total : UInt16
  fragments : ExtTreeMap UInt16 Bytes
  cumulativeLen : Nat
  startedAt : Instant

/-- The fragments of one peer on their way to messages. -/
structure Reassembler where
  limits : ReassemblyLimits
  partials : ExtTreeMap UInt32 PartialMessage

/-- `usize::saturating_mul`. -/
def saturatingMul (a b : Nat) : Nat := min (a * b) (2 ^ 64 - 1)

namespace PartialMessage

/-- A message of which nothing has arrived. -/
def empty (header : FragmentHeader) (now : Instant) : PartialMessage :=
  { total := header.total, fragments := ∅, cumulativeLen := 0, startedAt := now }

def add (index : UInt16) (payload : Bytes) (message : PartialMessage) : PartialMessage :=
  { message with
    fragments := message.fragments.insert index payload
    cumulativeLen := message.cumulativeLen + payload.length }

/-- A message of which one fragment has arrived. -/
def first (header : FragmentHeader) (payload : Bytes) (now : Instant) : PartialMessage :=
  (empty header now).add header.index payload

section Fields
variable (header : FragmentHeader) (index i : UInt16) (payload : Bytes) (now : Instant) (message : PartialMessage)

@[simp] theorem add_total : (message.add index payload).total = message.total := rfl

@[simp] theorem add_startedAt : (message.add index payload).startedAt = message.startedAt := rfl

@[simp] theorem add_cumulativeLen :
    (message.add index payload).cumulativeLen = message.cumulativeLen + payload.length := rfl

theorem getElem?_add : (message.add index payload).fragments[i]? =
    if i = index then some payload else message.fragments[i]? := FiniteMap.getElem?_insert

@[simp] theorem first_total : (first header payload now).total = header.total := rfl

@[simp] theorem first_startedAt : (first header payload now).startedAt = now := rfl

@[simp] theorem first_cumulativeLen : (first header payload now).cumulativeLen = payload.length := Nat.zero_add _

theorem getElem?_first : (first header payload now).fragments[i]? = if i = header.index then some payload else none := by
  rw [first, getElem?_add, empty, ExtTreeMap.getElem?_empty]

end Fields

/-- The payloads in index order. -/
def joined (message : PartialMessage) : Bytes := message.fragments.toList.flatMap Prod.snd

end PartialMessage

namespace Reassembler

def new (limits : ReassemblyLimits) : Reassembler := { limits := limits, partials := ∅ }

def pendingCount (r : Reassembler) : Nat := r.partials.size

/-- A reading before `started_at` counts as no time at all. -/
def expire (now : Instant) (r : Reassembler) : Reassembler :=
  { r with partials := r.partials.filter fun _ message => decide (now - message.startedAt < r.limits.reassemblyTimeout) }

def remove (msgId : UInt32) (r : Reassembler) : Reassembler := { r with partials := r.partials.erase msgId }

def put (msgId : UInt32) (message : PartialMessage) (r : Reassembler) : Reassembler :=
  { r with partials := r.partials.insert msgId message }

/-- Of several messages started at once, the one with the lowest id goes. -/
def evictIfAtCapacity (r : Reassembler) : Reassembler :=
  if r.partials.size < r.limits.maxConcurrentReassemblies then r
  else match r.partials.toList.argmin fun entry => entry.2.startedAt with
    | some oldest => r.remove oldest.1
    | none => r

/-- The second half of `accept`, with `message` in the table. -/
def store (header : FragmentHeader) (payload : Bytes) (now : Instant) (message : PartialMessage) (r : Reassembler) :
    Accept × Reassembler :=
  match message.fragments[header.index]? with
  | some existing =>
    if existing = payload then (.pending, r)
    -- the id was reused: what is buffered will never be completed
    else (.pending, r.put header.msgId (.first header payload now))
  | none =>
    if message.cumulativeLen + payload.length > r.limits.maxMessageLen then
      (.rejected .messageTooLarge, r.remove header.msgId)
    else
      let message := message.add header.index payload
      if UInt16.ofNat message.fragments.size ≠ message.total then (.pending, r.put header.msgId message)
      else (.complete message.joined, r.remove header.msgId)

def accept (header : FragmentHeader) (payload : Bytes) (now : Instant) (r : Reassembler) : Accept × Reassembler :=
  if header.total = 0 then (.rejected .emptyMessage, r)
  else if header.index ≥ header.total then (.rejected .indexOutOfRange, r)
  else if payload.length > r.limits.maxMessageLen then (.rejected .messageTooLarge, r)
  else
    let r := r.expire now
    -- a message that arrives whole takes no slot
    if header.total = 1 then (.complete payload, r.remove header.msgId)
    else match r.partials[header.msgId]? with
      | some existing =>
        if existing.total ≠ header.total then (.rejected .inconsistentTotal, r.remove header.msgId)
        else r.store header payload now existing
      | none =>
        let declaredMin := saturatingMul (header.total.toNat - 1) (max payload.length 1)
        if declaredMin > r.limits.maxMessageLen then (.rejected .messageTooLarge, r)
        else (r.evictIfAtCapacity.put header.msgId (.empty header now)).store header payload now (.empty header now)

section Lookup
variable {r : Reassembler} {x : UInt32} {now : Instant}

theorem getElem?_expire : (r.expire now).partials[x]? =
    r.partials[x]?.filter fun message => decide (now - message.startedAt < r.limits.reassemblyTimeout) := by
  rw [expire, ExtTreeMap.getElem?_filter']

theorem getElem?_remove {msgId : UInt32} : (r.remove msgId).partials[x]? =
    if x = msgId then none else r.partials[x]? := FiniteMap.getElem?_erase

theorem getElem?_put {msgId : UInt32} {message : PartialMessage} : (r.put msgId message).partials[x]? =
    if x = msgId then some message else r.partials[x]? := FiniteMap.getElem?_insert

theorem put_put {msgId : UInt32} {message later : PartialMessage} :
    (r.put msgId message).put msgId later = r.put msgId later := by
  have same : ∀ x : UInt32, ((r.partials.insert msgId message).insert msgId later)[x]? =
      (r.partials.insert msgId later)[x]? := by
    intro x
    simp only [FiniteMap.getElem?_insert]
    split <;> rfl
  simp only [put, ExtTreeMap.ext_getElem? same]

theorem limits_evictIfAtCapacity : r.evictIfAtCapacity.limits = r.limits := by
  unfold evictIfAtCapacity
  split
  · rfl
  · split <;> rfl

/-- An eviction leaves the messages it leaves as they are. -/
theorem evicted_or_kept : r.evictIfAtCapacity.partials[x]? = none ∨
    r.evictIfAtCapacity.partials[x]? = r.partials[x]? := by
  unfold evictIfAtCapacity
  split
  · exact .inr rfl
  · split
    · rename_i oldest _
      rw [getElem?_remove]
      by_cases same : x = oldest.1
      · exact .inl (if_pos same)
      · exact .inr (if_neg same)
    · exact .inr rfl

theorem evictIfAtCapacity_room (room : r.partials.size < r.limits.maxConcurrentReassemblies) :
    r.evictIfAtCapacity = r := if_pos room

end Lookup

end Reassembler

/-- One call of `accept`. -/
structure Call where
  header : FragmentHeader
  payload : Bytes
  now : Instant
  deriving DecidableEq, Repr

namespace Call

/-- What is checked before anything else is looked at. -/
def wellFormed (limits : ReassemblyLimits) (call : Call) : Bool :=
  decide (call.header.total ≠ 0 ∧ call.header.index < call.header.total ∧ call.payload.length ≤ limits.maxMessageLen)

/-- The least a message can measure by its first fragment. -/
def declaredMin (call : Call) : Nat := saturatingMul (call.header.total.toNat - 1) (max call.payload.length 1)

def first (call : Call) : PartialMessage := .first call.header call.payload call.now

end Call

namespace Reassembler

/-- The message buffered under an id once those that ran out are gone. -/
def live (x : UInt32) (now : Instant) (r : Reassembler) : Option PartialMessage := (r.expire now).partials[x]?

/-- Every exit of `accept`, with what is checked on the way to it. -/
inductive Exit (r : Reassembler) (call : Call) : Accept → Reassembler → Prop
  | malformed {reason} : call.wellFormed r.limits = false → Exit r call (.rejected reason) r
  | whole : call.wellFormed r.limits → call.header.total = 1 →
      Exit r call (.complete call.payload) ((r.expire call.now).remove call.header.msgId)
  | inconsistent {message} : call.wellFormed r.limits → call.header.total ≠ 1 →
      r.live call.header.msgId call.now = some message → message.total ≠ call.header.total →
      Exit r call (.rejected .inconsistentTotal) ((r.expire call.now).remove call.header.msgId)
  | declared : call.wellFormed r.limits → call.header.total ≠ 1 → r.live call.header.msgId call.now = none →
      r.limits.maxMessageLen < call.declaredMin → Exit r call (.rejected .messageTooLarge) (r.expire call.now)
  | started : call.wellFormed r.limits → call.header.total ≠ 1 → r.live call.header.msgId call.now = none →
      call.declaredMin ≤ r.limits.maxMessageLen →
      Exit r call .pending ((r.expire call.now).evictIfAtCapacity.put call.header.msgId call.first)
  | duplicate {message} : call.wellFormed r.limits → call.header.total ≠ 1 →
      r.live call.header.msgId call.now = some message → message.total = call.header.total →
      message.fragments[call.header.index]? = some call.payload → Exit r call .pending (r.expire call.now)
  | restarted {message existing} : call.wellFormed r.limits → call.header.total ≠ 1 →
      r.live call.header.msgId call.now = some message → message.total = call.header.total →
      message.fragments[call.header.index]? = some existing → existing ≠ call.payload →
      Exit r call .pending ((r.expire call.now).put call.header.msgId call.first)
  | tooLarge {message} : call.wellFormed r.limits → call.header.total ≠ 1 →
      r.live call.header.msgId call.now = some message → message.total = call.header.total →
      message.fragments[call.header.index]? = none →
      r.limits.maxMessageLen < message.cumulativeLen + call.payload.length →
      Exit r call (.rejected .messageTooLarge) ((r.expire call.now).remove call.header.msgId)
  | stored {message} : call.wellFormed r.limits → call.header.total ≠ 1 →
      r.live call.header.msgId call.now = some message → message.total = call.header.total →
      message.fragments[call.header.index]? = none →
      message.cumulativeLen + call.payload.length ≤ r.limits.maxMessageLen →
      UInt16.ofNat (message.add call.header.index call.payload).fragments.size ≠ call.header.total →
      Exit r call .pending ((r.expire call.now).put call.header.msgId (message.add call.header.index call.payload))
  | completed {message} : call.wellFormed r.limits → call.header.total ≠ 1 →
      r.live call.header.msgId call.now = some message → message.total = call.header.total →
      message.fragments[call.header.index]? = none →
      message.cumulativeLen + call.payload.length ≤ r.limits.maxMessageLen →
      UInt16.ofNat (message.add call.header.index call.payload).fragments.size = call.header.total →
      Exit r call (.complete (message.add call.header.index call.payload).joined)
        ((r.expire call.now).remove call.header.msgId)

theorem size_first {header : FragmentHeader} {payload : Bytes} {now : Instant} :
    (PartialMessage.first header payload now).fragments.size = 1 := by
  simp [PartialMessage.first, PartialMessage.empty, PartialMessage.add, ExtTreeMap.size_insert]

/-- The fragment that starts a message is stored, and never completes it. -/
theorem store_empty {r : Reassembler} {call : Call} (well_formed : call.wellFormed r.limits)
    (several : call.header.total ≠ 1) :
    (r.put call.header.msgId (.empty call.header call.now)).store call.header call.payload call.now
      (.empty call.header call.now) = (.pending, r.put call.header.msgId call.first) := by
  have checks := of_decide_eq_true well_formed
  have absent : (PartialMessage.empty call.header call.now).fragments[call.header.index]? = none := by
    simp [PartialMessage.empty]
  have fits : ¬ (PartialMessage.empty call.header call.now).cumulativeLen + call.payload.length >
      (r.put call.header.msgId (.empty call.header call.now)).limits.maxMessageLen := by
    have bound : call.payload.length ≤ r.limits.maxMessageLen := checks.2.2
    simpa [PartialMessage.empty, put] using bound
  have one : UInt16.ofNat ((PartialMessage.empty call.header call.now).add call.header.index
      call.payload).fragments.size ≠ call.header.total := by
    change UInt16.ofNat (PartialMessage.first call.header call.payload call.now).fragments.size ≠ _
    rw [size_first]
    exact several.symm
  unfold store
  rw [absent]
  dsimp only
  rw [if_neg fits]
  change (if UInt16.ofNat _ ≠ call.header.total then _ else _) = _
  rw [if_pos one, put_put]
  rfl

theorem accept_exit (r : Reassembler) (call : Call) :
    Exit r call (r.accept call.header call.payload call.now).1 (r.accept call.header call.payload call.now).2 := by
  unfold accept
  by_cases zero : call.header.total = 0
  · rw [if_pos zero]
    exact .malformed (by simp [Call.wellFormed, zero])
  rw [if_neg zero]
  by_cases beyond : call.header.index ≥ call.header.total
  · rw [if_pos beyond]
    exact .malformed (by simp [Call.wellFormed, beyond])
  rw [if_neg beyond]
  by_cases large : call.payload.length > r.limits.maxMessageLen
  · rw [if_pos large]
    exact .malformed (by simp [Call.wellFormed, large])
  rw [if_neg large]
  have well_formed : call.wellFormed r.limits = true :=
    decide_eq_true ⟨zero, UInt16.not_le.mp beyond, Nat.le_of_not_lt large⟩
  dsimp only
  by_cases one : call.header.total = 1
  · rw [if_pos one]
    exact .whole well_formed one
  rw [if_neg one]
  cases held : r.live call.header.msgId call.now with
  | none =>
    change (r.expire call.now).partials[call.header.msgId]? = none at held
    rw [held]
    dsimp only
    by_cases oversize : saturatingMul (call.header.total.toNat - 1) (max call.payload.length 1) >
        (r.expire call.now).limits.maxMessageLen
    · rw [if_pos oversize]
      exact .declared well_formed one held oversize
    · have stored : ((r.expire call.now).evictIfAtCapacity.put call.header.msgId (.empty call.header call.now)).store
          call.header call.payload call.now (.empty call.header call.now) = _ :=
        store_empty (by rw [limits_evictIfAtCapacity]; exact well_formed) one
      rw [if_neg oversize, stored]
      exact .started well_formed one held (Nat.le_of_not_lt oversize)
  | some message =>
    have buffered : (r.expire call.now).partials[call.header.msgId]? = some message := held
    rw [buffered]
    dsimp only
    by_cases differs : message.total ≠ call.header.total
    · rw [if_pos differs]
      exact .inconsistent well_formed one held differs
    · rw [if_neg differs]
      have same : message.total = call.header.total := not_not.mp differs
      unfold store
      cases at_index : message.fragments[call.header.index]? with
      | some existing =>
        dsimp only
        by_cases copy : existing = call.payload
        · rw [if_pos copy]
          exact .duplicate well_formed one held same (copy ▸ at_index)
        · rw [if_neg copy]
          exact .restarted well_formed one held same at_index copy
      | none =>
        dsimp only
        by_cases oversize : message.cumulativeLen + call.payload.length > (r.expire call.now).limits.maxMessageLen
        · rw [if_pos oversize]
          exact .tooLarge well_formed one held same at_index oversize
        · rw [if_neg oversize]
          have fits := Nat.le_of_not_lt oversize
          have total : (message.add call.header.index call.payload).total = call.header.total := same
          rw [total]
          split
          · rename_i missing
            exact .stored well_formed one held same at_index fits missing
          · rename_i all
            exact .completed well_formed one held same at_index fits (not_not.mp all)

end Reassembler

end BleGatt
