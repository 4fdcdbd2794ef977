import Mathlib.Data.List.Infix

/-! Items that give a key or end it, in the order they came: whether a key that
was given and ended is given again. -/

namespace Reused

variable {α κ : Type*} (gives ends : α → κ → Prop)

/-- The key was given, and ended after that. -/
def Ended (l : List α) (k : κ) : Prop :=
  ∃ before a, before ++ [a] <+: l ∧ ends a k ∧ ∃ b ∈ before, gives b k

/-- No item gives a key that had ended before it. -/
def Never (l : List α) : Prop :=
  ∀ before a, before ++ [a] <+: l → ∀ k, gives a k → ¬Ended gives ends before k

variable {gives ends : α → κ → Prop} {l l' : List α} {a : α} {k : κ}

theorem Ended.of_initial (ended : Ended gives ends l' k) (initial : l' <+: l) : Ended gives ends l k := by
  obtain ⟨before, a, place, rest⟩ := ended
  exact ⟨before, a, place.trans initial, rest⟩

theorem ended_concat : Ended gives ends (l ++ [a]) k ↔ Ended gives ends l k ∨ ends a k ∧ ∃ b ∈ l, gives b k := by
  constructor
  · rintro ⟨before, b, place, ends_, given⟩
    obtain whole | place := List.prefix_concat_iff.mp place
    · obtain ⟨rfl, ⟨⟩⟩ := List.append_inj' whole rfl
      exact .inr ⟨ends_, given⟩
    · exact .inl ⟨before, b, place, ends_, given⟩
  · rintro (ended | ⟨ends_, given⟩)
    · exact ended.of_initial (List.prefix_append l [a])
    · exact ⟨l, a, List.prefix_rfl, ends_, given⟩

theorem Ended.given (ended : Ended gives ends l k) : ∃ b ∈ l, gives b k := by
  obtain ⟨before, a, place, _, b, there, gives_⟩ := ended
  exact ⟨b, place.subset (List.mem_append_left _ there), gives_⟩

theorem Never.nil : Never gives ends ([] : List α) := by
  intro before a place
  have empty := List.prefix_nil.mp place
  simp at empty

theorem Never.concat (never : Never gives ends l) (last : ∀ k, gives a k → ¬Ended gives ends l k) :
    Never gives ends (l ++ [a]) := by
  intro before b place k given
  obtain whole | place := List.prefix_concat_iff.mp place
  · obtain ⟨rfl, ⟨⟩⟩ := List.append_inj' whole rfl
    exact last k given
  · exact never before b place k given

end Reused
