import BleGatt.Lib.LittleEndian

/-! Frames on a stream of bytes: each is its length in four bytes, the highest
first, and then as many bytes. A stream may break after any of them. -/

/-- A way to put values into bytes. Both ways may fail. -/
structure Codec (α : Type*) where
  encode : α → Option (List UInt8)
  decode : List UInt8 → Option α

namespace Codec

variable {α : Type*} (C : Codec α)

/-- What is encoded can be decoded, and its length fits the four bytes. -/
structure Sound : Prop where
  decode : ∀ a bytes, C.encode a = some bytes → C.decode bytes = some a
  fits : ∀ a bytes, C.encode a = some bytes → bytes.length < 256 ^ 4

/-- The length as it stands before a frame; of a longer one, what is left of it
in four bytes. -/
def lengthBytes (length : Nat) : List UInt8 := (LittleEndian.write 4 length).reverse

def writeFrame (a : α) : Option (List UInt8) := (C.encode a).map fun bytes => lengthBytes bytes.length ++ bytes

/-- One frame off the front, and what is behind it; `none` where it is cut off,
or cannot be decoded. -/
def readFrame (bytes : List UInt8) : Option (α × List UInt8) :=
  let length := LittleEndian.read (bytes.take 4).reverse
  let rest := bytes.drop 4
  if bytes.length < 4 ∨ rest.length < length then none
  else (C.decode (rest.take length)).map fun a => (a, rest.drop length)

/-- One frame after another, up to the first that cannot be encoded. -/
def writeFrames : List α → List UInt8
  | [] => []
  | a :: rest =>
    match C.writeFrame a with
    | some bytes => bytes ++ writeFrames rest
    | none => []

variable {C} {a : α} {frame more bytes : List UInt8}

@[simp] theorem length_lengthBytes (length : Nat) : (lengthBytes length).length = 4 := by
  rw [lengthBytes, List.length_reverse, LittleEndian.length_write]

theorem read_lengthBytes {length : Nat} (fits : length < 256 ^ 4) : LittleEndian.read (lengthBytes length).reverse = length := by
  rw [lengthBytes, List.reverse_reverse, LittleEndian.read_write fits]

theorem writeFrame_eq_some : C.writeFrame a = some frame ↔
    ∃ bytes, C.encode a = some bytes ∧ frame = lengthBytes bytes.length ++ bytes := by
  rw [writeFrame, Option.map_eq_some_iff]
  constructor
  · rintro ⟨bytes, encoded, rfl⟩
    exact ⟨bytes, encoded, rfl⟩
  · rintro ⟨bytes, encoded, rfl⟩
    exact ⟨bytes, encoded, rfl⟩

/-- A frame that is there in full is read, and nothing of what is behind it. -/
theorem readFrame_writeFrame (sound : C.Sound) (written : C.writeFrame a = some frame) :
    C.readFrame (frame ++ more) = some (a, more) := by
  obtain ⟨bytes, encoded, rfl⟩ := writeFrame_eq_some.mp written
  have first : (lengthBytes bytes.length ++ bytes ++ more).take 4 = lengthBytes bytes.length := by
    rw [List.append_assoc, List.take_append_of_le_length (by simp), List.take_of_length_le (by simp)]
  have rest : (lengthBytes bytes.length ++ bytes ++ more).drop 4 = bytes ++ more := by
    rw [List.append_assoc, List.drop_append_of_le_length (by simp), List.drop_of_length_le (by simp), List.nil_append]
  simp only [readFrame, first, rest, read_lengthBytes (sound.fits a bytes encoded)]
  rw [if_neg (by simp only [List.length_append, length_lengthBytes]; omega), List.take_left, List.drop_left,
    sound.decode a bytes encoded]
  rfl

/-- A frame that is cut off is not read. -/
theorem readFrame_cut (sound : C.Sound) (written : C.writeFrame a = some frame) (cut : bytes <+: frame)
    (short : bytes.length < frame.length) : C.readFrame bytes = none := by
  obtain ⟨content, encoded, rfl⟩ := writeFrame_eq_some.mp written
  rw [readFrame]
  by_cases headless : bytes.length < 4
  · exact if_pos (.inl headless)
  · have first : bytes.take 4 = lengthBytes content.length := by
      obtain ⟨rest, eq⟩ := cut
      have heads := congrArg (List.take 4) eq
      rwa [List.take_append_of_le_length (by omega), List.take_append_of_le_length (by simp),
        List.take_of_length_le (l := lengthBytes content.length) (by simp)] at heads
    rw [first, read_lengthBytes (sound.fits a content encoded)]
    rw [List.length_append, length_lengthBytes] at short
    refine if_pos (.inr ?_)
    rw [List.length_drop]
    omega

/-- Wherever the stream is cut, the next frame is read if it is there in full,
and nothing is if it is not. -/
theorem readFrame_of_prefix (sound : C.Sound) {frames : List α} (cut : bytes <+: C.writeFrames frames) :
    (C.readFrame bytes = none ∧ ∀ a rest frame, frames = a :: rest → C.writeFrame a = some frame →
      bytes.length < frame.length) ∨
    ∃ a rest frame behind, frames = a :: rest ∧ C.writeFrame a = some frame ∧ bytes = frame ++ behind ∧
      behind <+: C.writeFrames rest ∧ C.readFrame bytes = some (a, behind) := by
  have nothing : C.readFrame [] = none := by simp [readFrame]
  cases frames with
  | nil =>
    rw [writeFrames, List.prefix_nil] at cut
    exact .inl ⟨cut ▸ nothing, nofun⟩
  | cons a rest =>
    cases written : C.writeFrame a with
    | none =>
      rw [writeFrames, written, List.prefix_nil] at cut
      refine .inl ⟨cut ▸ nothing, ?_⟩
      intro b _ frame same wrote
      cases same
      cases written.symm.trans wrote
    | some frame =>
      have whole : C.writeFrames (a :: rest) = frame ++ C.writeFrames rest := by rw [writeFrames, written]
      rw [whole] at cut
      by_cases short : bytes.length < frame.length
      · have inside : bytes <+: frame := List.prefix_of_prefix_length_le cut (List.prefix_append _ _) (Nat.le_of_lt short)
        refine .inl ⟨readFrame_cut sound written inside short, ?_⟩
        intro b _ other same wrote
        cases same
        cases written.symm.trans wrote
        exact short
      · -- The frame is there in full, and what is behind it is cut somewhere.
        have front : frame <+: bytes := List.prefix_of_prefix_length_le (List.prefix_append _ _) cut (Nat.le_of_not_lt short)
        obtain ⟨behind, rfl⟩ := front
        have later : behind <+: C.writeFrames rest := (List.prefix_append_right_inj frame).mp cut
        exact .inr ⟨a, rest, frame, behind, rfl, written, rfl, later, readFrame_writeFrame sound written⟩

/-- Frames that can all be encoded are written one after another. -/
theorem writeFrames_append {frames : List α} (encodes : ∀ a ∈ frames, (C.writeFrame a).isSome = true) (more : List α) :
    C.writeFrames (frames ++ more) = C.writeFrames frames ++ C.writeFrames more := by
  induction frames with
  | nil => rfl
  | cons a rest ih =>
    obtain ⟨frame, written⟩ := Option.isSome_iff_exists.mp (encodes a List.mem_cons_self)
    have behind := ih fun b member => encodes b (List.mem_cons_of_mem _ member)
    rw [List.cons_append, writeFrames, writeFrames, written, behind]
    exact (List.append_assoc _ _ _).symm

theorem writeFrames_singleton (written : C.writeFrame a = some frame) : C.writeFrames [a] = frame := by
  rw [writeFrames, written, writeFrames]
  exact List.append_nil frame

end Codec
