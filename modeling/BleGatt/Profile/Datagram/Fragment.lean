import BleGatt.Entities.Models
import BleGatt.Lib.LittleEndian
import Mathlib.Algebra.Order.Floor.Div

namespace BleGatt
open LittleEndian

/-- `FRAGMENT_HEADER_LEN`. -/
def fragmentHeaderLen : Nat := 8

/-- `MAX_FRAGMENTS`: what the `u16` field `total` can hold. -/
def maxFragments : Nat := 65535

structure FragmentHeader where
  msgId : UInt32
  index : UInt16
  total : UInt16
  deriving DecidableEq, Repr

namespace FragmentHeader

/-- Every field is written little-endian. -/
def writeTo (header : FragmentHeader) (out : Bytes) : Bytes :=
  out ++ write 4 header.msgId.toNat ++ write 2 header.index.toNat ++ write 2 header.total.toNat

/-- `none` for a buffer too short to hold a header. -/
def parse (bytes : Bytes) : Option (FragmentHeader × Bytes) :=
  if bytes.length < fragmentHeaderLen then none
  else
    let header :=
      { msgId := UInt32.ofNat (read (bytes.take 4))
        index := UInt16.ofNat (read ((bytes.drop 4).take 2))
        total := UInt16.ofNat (read ((bytes.drop 6).take 2)) }
    some (header, bytes.drop fragmentHeaderLen)

@[simp] theorem length_writeTo (header : FragmentHeader) (out : Bytes) :
    (header.writeTo out).length = out.length + fragmentHeaderLen := by
  simp [writeTo, fragmentHeaderLen]

/-- What is written is what is read, whatever payload follows. -/
theorem parse_writeTo (header : FragmentHeader) (payload : Bytes) :
    parse (header.writeTo [] ++ payload) = some (header, payload) := by
  have long : ¬ (header.writeTo [] ++ payload).length < fragmentHeaderLen := by
    rw [List.length_append, length_writeTo]
    omega
  have msg_id : read (write 4 header.msgId.toNat) = header.msgId.toNat := read_write header.msgId.toNat_lt
  have index : read (write 2 header.index.toNat) = header.index.toNat := read_write header.index.toNat_lt
  have total : read (write 2 header.total.toNat) = header.total.toNat := read_write header.total.toNat_lt
  have split_id : (header.writeTo [] ++ payload).take 4 = write 4 header.msgId.toNat := by
    simp [writeTo, List.append_assoc]
  have split_index : ((header.writeTo [] ++ payload).drop 4).take 2 = write 2 header.index.toNat := by
    simp [writeTo, List.append_assoc]
  have past_id : ∀ count, 4 ≤ count → (write 4 header.msgId.toNat).drop count = [] := fun count long =>
    List.drop_eq_nil_of_le (by rwa [length_write])
  have past_index : (write 2 header.index.toNat).drop 4 = [] :=
    List.drop_eq_nil_of_le (by rw [length_write]; decide)
  have split_total : ((header.writeTo [] ++ payload).drop 6).take 2 = write 2 header.total.toNat := by
    simp [writeTo, List.append_assoc, List.drop_append, past_id 6]
  have rest : (header.writeTo [] ++ payload).drop fragmentHeaderLen = payload := by
    simp [writeTo, fragmentHeaderLen, List.append_assoc, List.drop_append, past_id 8, past_index]
  unfold parse
  rw [if_neg long]
  dsimp only
  rw [split_id, split_index, split_total, rest, msg_id, index, total, UInt32.ofNat_toNat, UInt16.ofNat_toNat,
    UInt16.ofNat_toNat]

/-- Nothing of an accepted buffer is lost: it is its header and its payload. -/
theorem writeTo_of_parse {bytes payload : Bytes} {header : FragmentHeader}
    (parsed : parse bytes = some (header, payload)) : header.writeTo [] ++ payload = bytes := by
  unfold parse at parsed
  split at parsed
  · simp at parsed
  · rename_i long
    cases Option.some.inj parsed
    rw [fragmentHeaderLen] at long
    have four : (bytes.take 4).length = 4 := by rw [List.length_take]; omega
    have two : ((bytes.drop 4).take 2).length = 2 := by rw [List.length_take, List.length_drop]; omega
    have last : ((bytes.drop 6).take 2).length = 2 := by rw [List.length_take, List.length_drop]; omega
    have msg_id : (UInt32.ofNat (read (bytes.take 4))).toNat = read (bytes.take 4) :=
      UInt32.toNat_ofNat_of_lt' (by have bound := read_lt (bytes.take 4); rwa [four] at bound)
    have index : (UInt16.ofNat (read ((bytes.drop 4).take 2))).toNat = read ((bytes.drop 4).take 2) :=
      UInt16.toNat_ofNat_of_lt' (by have bound := read_lt ((bytes.drop 4).take 2); rwa [two] at bound)
    have total : (UInt16.ofNat (read ((bytes.drop 6).take 2))).toNat = read ((bytes.drop 6).take 2) :=
      UInt16.toNat_ofNat_of_lt' (by have bound := read_lt ((bytes.drop 6).take 2); rwa [last] at bound)
    unfold writeTo
    rw [msg_id, index, total, write_read four, write_read two, write_read last, List.nil_append, List.append_assoc,
      List.append_assoc]
    have tail : (bytes.drop 6).take 2 ++ bytes.drop fragmentHeaderLen = bytes.drop 6 := by
      have rest := List.take_append_drop 2 (bytes.drop 6)
      rwa [List.drop_drop] at rest
    have middle : (bytes.drop 4).take 2 ++ bytes.drop 6 = bytes.drop 4 := by
      have rest := List.take_append_drop 2 (bytes.drop 4)
      rwa [List.drop_drop] at rest
    rw [tail, middle, List.take_append_drop]

end FragmentHeader

/-- `slice::chunks`: consecutive runs of `size` elements, the last one maybe
shorter. -/
def chunks {α : Type*} (size : Nat) (xs : List α) : List (List α) :=
  (List.range (xs.length ⌈/⌉ size)).map fun i => (xs.drop (i * size)).take size

section Chunks
variable {α : Type*} {size : Nat} {xs : List α}

@[simp] theorem length_chunks : (chunks size xs).length = xs.length ⌈/⌉ size := by
  simp [chunks]

theorem flatten_chunks (positive : 0 < size) : (chunks size xs).flatten = xs := by
  have prefixes : ∀ count, ((List.range count).map fun i => (xs.drop (i * size)).take size).flatten =
      xs.take (count * size) := by
    intro count
    induction count with
    | zero => simp
    | succ count ih =>
      rw [List.range_succ, List.map_append, List.flatten_append, ih, Nat.succ_mul, List.take_add]
      simp
  have covered : xs.length ≤ xs.length ⌈/⌉ size * size := by
    have reach : xs.length ≤ size * _ := (ceilDiv_le_iff_le_mul positive).mp le_rfl
    rwa [Nat.mul_comm]
  rw [chunks, prefixes, List.take_of_length_le covered]

theorem length_le_of_mem_chunks {chunk : List α} (member : chunk ∈ chunks size xs) : chunk.length ≤ size := by
  obtain ⟨i, _, rfl⟩ := List.mem_map.mp member
  exact List.length_take_le _ _

end Chunks

/-- The payloads of the fragments of a message; an empty one still makes one. -/
def bodies (payload : Bytes) (maxFragmentPayload : Nat) : List Bytes :=
  chunks maxFragmentPayload payload ++ if payload.isEmpty then [[]] else []

/-- The fragments of a message. -/
def split (msgId : UInt32) (payload : Bytes) (maxFragmentPayload : Nat) : Except BleError (List Bytes) :=
  if maxFragmentPayload = 0 then
    .error (.gatt "fragment payload budget is zero — negotiated MTU is too small to carry data")
  else
    let total := if payload.isEmpty then 1 else payload.length ⌈/⌉ maxFragmentPayload
    if total > maxFragments then
      .error (.gatt s!"message needs {total} fragments, exceeding the {maxFragments}-fragment limit")
    else
      .ok ((bodies payload maxFragmentPayload).mapIdx fun index chunk =>
        ({ msgId := msgId, index := UInt16.ofNat index, total := UInt16.ofNat total } : FragmentHeader).writeTo [] ++
          chunk)

section Split
variable {payload : Bytes} {budget : Nat}

theorem length_bodies : (bodies payload budget).length =
    if payload.isEmpty then 1 else payload.length ⌈/⌉ budget := by
  rw [bodies, List.length_append, length_chunks]
  cases payload with
  | nil => simp [zero_ceilDiv]
  | cons byte rest => simp

theorem bodies_ne_nil (positive : 0 < budget) : bodies payload budget ≠ [] := by
  intro none_left
  have length : (bodies payload budget).length = _ := length_bodies
  rw [none_left] at length
  cases payload with
  | nil => simp at length
  | cons byte rest =>
    have covered : (byte :: rest).length ≤ budget * _ := (ceilDiv_le_iff_le_mul positive).mp le_rfl
    rw [if_neg (by simp)] at length
    rw [← length] at covered
    simp at covered

theorem flatten_bodies (positive : 0 < budget) : (bodies payload budget).flatten = payload := by
  rw [bodies, List.flatten_append, flatten_chunks positive]
  cases payload <;> simp

theorem length_le_of_mem_bodies {body : Bytes} (member : body ∈ bodies payload budget) : body.length ≤ budget := by
  rcases List.mem_append.mp member with chunk | empty
  · exact length_le_of_mem_chunks chunk
  · cases payload <;> simp_all

/-- Messages of several fragments: all but one of the largest fit in the
message, whose declared size a receiver checks by it. -/
theorem bodies_minimum (positive : 0 < budget) {body : Bytes} (member : body ∈ bodies payload budget)
    (several : 2 ≤ (bodies payload budget).length) :
    ((bodies payload budget).length - 1) * max body.length 1 ≤ payload.length := by
  have length : (bodies payload budget).length = _ := length_bodies
  have filled : payload.isEmpty = false := by
    cases payload with
    | nil => simp [bodies, chunks, zero_ceilDiv] at several
    | cons byte rest => rfl
  rw [filled, if_neg Bool.false_ne_true] at length
  have short : max body.length 1 ≤ budget := max_le (length_le_of_mem_bodies member) positive
  have before : ¬ payload.length ⌈/⌉ budget ≤ payload.length ⌈/⌉ budget - 1 := by omega
  rw [ceilDiv_le_iff_le_mul positive, Nat.mul_comm] at before
  rw [length]
  calc (payload.length ⌈/⌉ budget - 1) * max body.length 1
      ≤ (payload.length ⌈/⌉ budget - 1) * budget := Nat.mul_le_mul_left _ short
    _ ≤ payload.length := by omega

/-- A message that needs no more than `MAX_FRAGMENTS` is split. -/
theorem split_ok {msgId : UInt32} (positive : 0 < budget) (fits : payload.length ≤ budget * maxFragments) :
    split msgId payload budget = .ok ((bodies payload budget).mapIdx fun index body =>
      (⟨msgId, UInt16.ofNat index, UInt16.ofNat (bodies payload budget).length⟩ : FragmentHeader).writeTo [] ++ body) := by
  have few : ¬ (if payload.isEmpty then 1 else payload.length ⌈/⌉ budget) > maxFragments := by
    have most := (ceilDiv_le_iff_le_mul positive).mpr fits
    split
    · decide
    · omega
  unfold split
  rw [if_neg (Nat.ne_of_gt positive)]
  dsimp only
  rw [if_neg few, length_bodies]

theorem length_bodies_le (positive : 0 < budget) (fits : payload.length ≤ budget * maxFragments) :
    (bodies payload budget).length ≤ maxFragments := by
  rw [length_bodies]
  split
  · decide
  · exact (ceilDiv_le_iff_le_mul positive).mpr fits

end Split

end BleGatt
