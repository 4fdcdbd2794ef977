import Mathlib.Data.List.Infix

/-! In a list, every item of one kind comes after some item of another. -/

variable {α : Type*}

def Preceded (p q : α → Prop) (l : List α) : Prop :=
  ∀ (before : List α) (a : α), before ++ [a] <+: l → q a → ∃ b ∈ before, p b

namespace Preceded

variable {p q : α → Prop} {l l' : List α} {a : α}

theorem of_initial (preceded : Preceded p q l) (initial : l' <+: l) : Preceded p q l' :=
  fun before a place => preceded before a (place.trans initial)

/-- No item of the second kind is in the list. -/
theorem of_none (none_ : ∀ a ∈ l, ¬q a) : Preceded p q l := by
  intro before a place later
  exact absurd later (none_ a (place.subset (List.mem_append_right _ List.mem_cons_self)))

theorem concat (preceded : Preceded p q l) (last : q a → ∃ b ∈ l, p b) : Preceded p q (l ++ [a]) := by
  intro before b place later
  obtain whole | place := List.prefix_concat_iff.mp place
  · obtain ⟨rfl, ⟨⟩⟩ := List.append_inj' whole rfl
    exact last later
  · exact preceded before b place later

end Preceded
