import Mathlib.Data.List.Basic
import Mathlib.Data.Option.Basic

/-! Chunks of a sequence, each with its offset, that are laid over one
another: where two of them have something for a place, the later one counts. -/

namespace Overlay

variable {β : Type*} {chunk : Nat × List β} {chunks kept : List (Nat × List β)} {value : List β} {i start end_ : Nat} {b : β}

/-- What a chunk has for a place. -/
def item (chunk : Nat × List β) (i : Nat) : Option β := if chunk.1 ≤ i then chunk.2[i - chunk.1]? else none

/-- What the chunks have for a place, the last one first. -/
def laid (chunks : List (Nat × List β)) (i : Nat) : Option β := chunks.reverse.findSome? fun chunk => item chunk i

def copyInto (value : List β) (chunk : Nat × List β) : List β :=
  value.take chunk.1 ++ chunk.2 ++ value.drop (chunk.1 + chunk.2.length)

/-- How far chunks reach from a start; `none` if one begins beyond what the
earlier ones reach. -/
def extentFrom : Nat → List (Nat × List β) → Option Nat
  | end_, [] => some end_
  | end_, chunk :: chunks =>
    if end_ < chunk.1 then none else extentFrom (max end_ (chunk.1 + chunk.2.length)) chunks

/-- The chunks laid over one another in order, if that leaves no gap. -/
def assemble (blank : β) (chunks : List (Nat × List β)) : Option (List β) :=
  (extentFrom 0 chunks).map fun end_ => chunks.foldl copyInto (List.replicate end_ blank)

theorem item_isSome : (item chunk i).isSome = true ↔ chunk.1 ≤ i ∧ i < chunk.1 + chunk.2.length := by
  unfold item
  split
  · rename_i from_
    rw [Option.isSome_iff_ne_none, ne_eq, List.getElem?_eq_none_iff]
    omega
  · rename_i before
    simp [before]

theorem length_copyInto (fits : chunk.1 + chunk.2.length ≤ value.length) : (copyInto value chunk).length = value.length := by
  simp only [copyInto, List.length_append, List.length_take, List.length_drop]
  omega

theorem getElem?_copyInto (fits : chunk.1 + chunk.2.length ≤ value.length) :
    (copyInto value chunk)[i]? = (item chunk i).or value[i]? := by
  have front : (value.take chunk.1).length = chunk.1 := by
    rw [List.length_take]
    omega
  unfold copyInto item
  by_cases before : i < chunk.1
  · rw [if_neg (by omega), List.append_assoc, List.getElem?_append_left (by omega), List.getElem?_take, if_pos before]
    rfl
  · rw [if_pos (by omega)]
    by_cases inside : i < chunk.1 + chunk.2.length
    · rw [List.getElem?_append_left (by rw [List.length_append]; omega), List.getElem?_append_right (by omega), front,
        List.getElem?_eq_getElem (by omega)]
      rfl
    · rw [List.getElem?_append_right (by rw [List.length_append]; omega), List.getElem?_drop, List.length_append, front,
        List.getElem?_eq_none (l := chunk.2) (by omega)]
      congr 1
      omega

theorem getElem?_foldl (fits : ∀ chunk ∈ chunks, chunk.1 + chunk.2.length ≤ value.length) :
    (chunks.foldl copyInto value)[i]? = (laid chunks i).or value[i]? := by
  induction chunks generalizing value with
  | nil => rfl
  | cons chunk chunks ih =>
    have first := fits chunk List.mem_cons_self
    have length := length_copyInto first
    rw [List.foldl_cons, ih fun other there => by rw [length]; exact fits other (List.mem_cons_of_mem _ there),
      getElem?_copyInto first]
    simp [laid, List.findSome?_append, Option.or_assoc]

/-- The chunks that leave no gap cover everything up to where they reach. -/
theorem extentFrom_eq_some (reached : extentFrom start chunks = some end_) :
    start ≤ end_ ∧ (∀ chunk ∈ chunks, chunk.1 + chunk.2.length ≤ end_) ∧
      ∀ i, start ≤ i → i < end_ → ∃ chunk ∈ chunks, (item chunk i).isSome = true := by
  induction chunks generalizing start with
  | nil =>
    cases Option.some.inj reached
    exact ⟨Nat.le_refl _, by simp, fun i lower upper => absurd upper (Nat.not_lt.mpr lower)⟩
  | cons chunk chunks ih =>
    unfold extentFrom at reached
    split at reached
    · simp at reached
    · rename_i close
      obtain ⟨later, fits, covered⟩ := ih reached
      refine ⟨by omega, fun other there => ?_, fun i lower upper => ?_⟩
      · rcases List.mem_cons.mp there with rfl | there
        · omega
        · exact fits other there
      · by_cases inside : i < chunk.1 + chunk.2.length
        · exact ⟨chunk, List.mem_cons_self, item_isSome.mpr ⟨by omega, inside⟩⟩
        · obtain ⟨other, there, has⟩ := covered i (by omega) upper
          exact ⟨other, List.mem_cons_of_mem _ there, has⟩

theorem extentFrom_eq_none : extentFrom start chunks = none ↔ ∃ before chunk after, chunks = before ++ chunk :: after ∧
    start < chunk.1 ∧ ∀ other ∈ before, other.1 + other.2.length < chunk.1 := by
  induction chunks generalizing start with
  | nil => simp [extentFrom]
  | cons chunk chunks ih =>
    unfold extentFrom
    split
    · rename_i far
      exact iff_of_true rfl ⟨[], chunk, chunks, rfl, far, by simp⟩
    · rename_i close
      rw [ih]
      constructor
      · rintro ⟨before, gap, after, rfl, beyond, apart⟩
        refine ⟨chunk :: before, gap, after, rfl, by omega, fun other there => ?_⟩
        rcases List.mem_cons.mp there with rfl | there
        · omega
        · exact apart other there
      · rintro ⟨before, gap, after, parts, beyond, apart⟩
        cases before with
        | nil =>
          cases parts
          exact absurd beyond close
        | cons first before =>
          cases parts
          have reach := apart _ List.mem_cons_self
          exact ⟨before, gap, after, rfl, by omega, fun other there => apart other (List.mem_cons_of_mem _ there)⟩

theorem getElem?_assemble {blank : β} (whole : assemble blank chunks = some value) : value[i]? = laid chunks i := by
  obtain ⟨end_, reached, rfl⟩ := Option.map_eq_some_iff.mp whole
  obtain ⟨_, fits, covered⟩ := extentFrom_eq_some reached
  rw [getElem?_foldl fun chunk there => by rw [List.length_replicate]; exact fits chunk there]
  by_cases inside : i < end_
  · obtain ⟨chunk, there, has⟩ := covered i (Nat.zero_le i) inside
    have some_ : (laid chunks i).isSome = true := by
      rw [laid, List.findSome?_isSome_iff]
      exact ⟨chunk, List.mem_reverse.mpr there, has⟩
    exact Option.or_of_isSome some_
  · have none_ : (List.replicate end_ blank)[i]? = none := by
      rw [List.getElem?_eq_none_iff, List.length_replicate]
      omega
    rw [none_, Option.or_none]

/-- The chunks that a map by offset keeps of others: for each offset the last
one, in ascending order. -/
structure Kept (chunks kept : List (Nat × List β)) : Prop where
  ascending : kept.Pairwise fun a b => a.1 < b.1
  last : ∀ offset content, (offset, content) ∈ kept ↔ chunks.reverse.lookup offset = some content

/-- One begins beyond what the ones at lower offsets reach. -/
def Gap (kept : List (Nat × List β)) : Prop :=
  ∃ chunk ∈ kept, 0 < chunk.1 ∧ ∀ other ∈ kept, other.1 < chunk.1 → other.1 + other.2.length < chunk.1

theorem assemble_eq_none {blank : β} (ascending : kept.Pairwise fun a b => a.1 < b.1) :
    assemble blank kept = none ↔ Gap kept := by
  rw [assemble, Option.map_eq_none_iff, extentFrom_eq_none]
  constructor
  · rintro ⟨before, chunk, after, rfl, beyond, apart⟩
    refine ⟨chunk, by simp, beyond, fun other there lower => ?_⟩
    rcases List.mem_append.mp there with there | there
    · exact apart other there
    · rw [List.pairwise_append, List.pairwise_cons] at ascending
      rcases List.mem_cons.mp there with rfl | there
      · exact absurd lower (Nat.lt_irrefl _)
      · exact absurd lower (Nat.lt_asymm (ascending.2.1.1 other there))
  · rintro ⟨chunk, there, beyond, apart⟩
    obtain ⟨before, after, rfl⟩ := List.append_of_mem there
    rw [List.pairwise_append] at ascending
    exact ⟨before, chunk, after, rfl, beyond, fun other inside =>
      apart other (List.mem_append_left _ inside) (ascending.2.2 other inside chunk List.mem_cons_self)⟩

theorem lookup_reverse_eq_some (ascending : chunks.Pairwise fun a b => a.1 < b.1) {offset : Nat} {content : List β} :
    chunks.reverse.lookup offset = some content ↔ (offset, content) ∈ chunks := by
  rw [List.lookup_eq_some_iff]
  constructor
  · rintro ⟨before, after, parts, _⟩
    rw [← List.mem_reverse, parts]
    simp
  · intro there
    obtain ⟨before, after, rfl⟩ := List.append_of_mem there
    rw [List.pairwise_append, List.pairwise_cons] at ascending
    refine ⟨after.reverse, before.reverse, by simp, fun other inside => ?_⟩
    have lower := ascending.2.1.1 other (List.mem_reverse.mp inside)
    simp only [bne_iff_ne, ne_eq]
    exact Nat.ne_of_lt lower

/-- Chunks in ascending order are kept as they are. -/
theorem Kept.refl (ascending : chunks.Pairwise fun a b => a.1 < b.1) : Kept chunks chunks :=
  ⟨ascending, fun _ _ => (lookup_reverse_eq_some ascending).symm⟩

/-- Only one list is kept of the same chunks. -/
theorem Kept.unique {other : List (Nat × List β)} (one : Kept chunks kept) (two : Kept chunks other) : kept = other := by
  have apart : ∀ {l : List (Nat × List β)}, l.Pairwise (fun a b => a.1 < b.1) → l.Nodup := fun ascending =>
    ascending.imp fun lower equal => absurd (congrArg Prod.fst equal) (Nat.ne_of_lt lower)
  have same : ∀ chunk, chunk ∈ kept ↔ chunk ∈ other := by
    rintro ⟨offset, content⟩
    rw [one.last, two.last]
  have perm : kept.Perm other := (List.perm_ext_iff_of_nodup (apart one.ascending) (apart two.ascending)).mpr same
  exact perm.eq_of_pairwise (fun _ _ _ _ lower upper => absurd lower (Nat.lt_asymm upper)) one.ascending two.ascending

end Overlay
