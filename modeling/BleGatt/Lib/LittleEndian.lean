import Mathlib.Data.Nat.Digits.Lemmas

/-! Numbers as little-endian bytes of a fixed count. -/

namespace LittleEndian

/-- The lowest `count` bytes of `n`, least significant first. -/
def write : Nat → Nat → List UInt8
  | 0, _ => []
  | count + 1, n => UInt8.ofNat n :: write count (n / 256)

/-- The number whose bytes these are. -/
def read (bytes : List UInt8) : Nat := Nat.ofDigits 256 (bytes.map UInt8.toNat)

@[simp] theorem length_write (count n : Nat) : (write count n).length = count := by
  induction count generalizing n with
  | zero => rfl
  | succ count ih => rw [write, List.length_cons, ih]

@[simp] theorem read_nil : read [] = 0 := rfl

@[simp] theorem read_cons (byte : UInt8) (bytes : List UInt8) :
    read (byte :: bytes) = byte.toNat + 256 * read bytes := by
  simp [read, Nat.ofDigits_cons]

theorem read_lt (bytes : List UInt8) : read bytes < 256 ^ bytes.length := by
  induction bytes with
  | nil => decide
  | cons byte bytes ih =>
    have low : byte.toNat < 256 := byte.toNat_lt
    rw [read_cons, List.length_cons, pow_succ]
    omega

theorem read_write {count n : Nat} (fits : n < 256 ^ count) : read (write count n) = n := by
  induction count generalizing n with
  | zero =>
    have zero : n = 0 := by simpa using fits
    rw [write, read_nil, zero]
  | succ count ih =>
    have high : n / 256 < 256 ^ count := by
      rw [pow_succ] at fits
      omega
    have low : (UInt8.ofNat n).toNat = n % 256 := UInt8.toNat_ofNat'
    rw [write, read_cons, ih high, low]
    exact Nat.mod_add_div n 256

theorem write_read {count : Nat} {bytes : List UInt8} (length : bytes.length = count) :
    write count (read bytes) = bytes := by
  induction bytes generalizing count with
  | nil =>
    subst length
    rfl
  | cons byte bytes ih =>
    subst length
    have low : byte.toNat < 256 := byte.toNat_lt
    have rest : read (byte :: bytes) / 256 = read bytes := by
      rw [read_cons]
      omega
    have first : UInt8.ofNat (read (byte :: bytes)) = byte := by
      apply UInt8.toNat_inj.mp
      have value : (UInt8.ofNat (read (byte :: bytes))).toNat = read (byte :: bytes) % 256 := UInt8.toNat_ofNat'
      rw [value, read_cons]
      omega
    rw [List.length_cons, write, first, rest, ih rfl]

end LittleEndian
