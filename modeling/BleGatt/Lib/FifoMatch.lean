import Mathlib.Data.List.Infix
import Mathlib.Data.List.Nodup
import Mathlib.Data.List.TakeWhile

/-! Completions that carry no identity are told apart by their order: the
tasks under way are the first ones of a queue of ids, in the order they were
begun. What each change of the queue keeps of that. -/

namespace FifoMatch

variable {ι : Type*} {begun queue : List ι} {n : ι}

/-- An id that waits behind none but tasks under way is begun. -/
theorem started [DecidableEq ι] (first : begun <+: queue) (distinct : queue.Nodup) (there : n ∈ queue) (waiting : n ∉ begun)
    (unblocked : ∀ m ∈ queue.takeWhile (fun m => decide (m ≠ n)), m ∈ begun) : begun ++ [n] <+: queue := by
  obtain ⟨rest, rfl⟩ := first
  have before : begun.takeWhile (fun m => decide (m ≠ n)) = begun := by
    rw [List.takeWhile_eq_self_iff]
    intro m member
    rw [decide_eq_true_eq]
    rintro rfl
    exact waiting member
  rw [List.takeWhile_append_of_pos (List.takeWhile_eq_self_iff.mp before)] at unblocked
  cases rest with
  | nil =>
    rw [List.append_nil] at there
    exact absurd there waiting
  | cons next rest =>
    by_cases same : next = n
    · exact ⟨rest, by rw [same, List.append_assoc]; rfl⟩
    · -- `next` waits before `n`, and is not under way
      have earlier : next ∈ begun := by
        refine unblocked next (List.mem_append_right _ ?_)
        simp [same]
      rw [List.nodup_append] at distinct
      exact absurd rfl (distinct.2.2 next earlier next List.mem_cons_self)

/-- An id that waits is withdrawn. -/
theorem withdrawn [DecidableEq ι] (first : begun <+: queue) (waiting : n ∉ begun) : begun <+: queue.erase n := by
  obtain ⟨rest, rfl⟩ := first
  rw [List.erase_append_right rest waiting]
  exact List.prefix_append _ _

/-- The oldest task under way is completed. -/
theorem completed {rest : List ι} (first : n :: rest <+: queue) : ∃ tail, queue = n :: tail ∧ rest <+: tail := by
  obtain ⟨tail, rfl⟩ := first
  exact ⟨rest ++ tail, rfl, List.prefix_append _ _⟩

end FifoMatch
