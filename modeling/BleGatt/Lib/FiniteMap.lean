import Mathlib

/-! Counting the entries of a finite map, and what updates do to the count. -/

namespace FiniteMap
open Std

variable {κ ν : Type*} {cmp : κ → κ → Ordering} [TransCmp cmp] [LawfulEqCmp cmp]

section Lookup
variable [DecidableEq κ]

/-! Lookups after an update, with keys compared by equality. -/

theorem getElem?_insert {m : ExtTreeMap κ ν cmp} {k a : κ} {v : ν} :
    (m.insert k v)[a]? = if a = k then some v else m[a]? := by
  rw [ExtTreeMap.getElem?_insert]
  simp only [LawfulEqCmp.compare_eq_iff_eq, eq_comm (a := k)]

theorem getElem?_erase {m : ExtTreeMap κ ν cmp} {k a : κ} :
    (m.erase k)[a]? = if a = k then none else m[a]? := by
  rw [ExtTreeMap.getElem?_erase]
  simp only [LawfulEqCmp.compare_eq_iff_eq, eq_comm (a := k)]

theorem getElem?_modify {m : ExtTreeMap κ ν cmp} {k a : κ} {f : ν → ν} :
    (m.modify k f)[a]? = if a = k then m[a]?.map f else m[a]? := by
  rw [ExtTreeMap.getElem?_modify]
  simp only [LawfulEqCmp.compare_eq_iff_eq, eq_comm (a := k)]
  split
  · rename_i same; rw [same]
  · rfl

theorem insert_eq_update {m : ExtTreeMap κ ν cmp} {k : κ} {v : ν} :
    (fun a => (m.insert k v)[a]?) = Function.update (fun a => m[a]?) k (some v) := by
  funext a
  rw [getElem?_insert, Function.update_apply]

theorem erase_eq_update {m : ExtTreeMap κ ν cmp} {k : κ} :
    (fun a => (m.erase k)[a]?) = Function.update (fun a => m[a]?) k none := by
  funext a
  rw [getElem?_erase, Function.update_apply]

end Lookup

theorem getElem?_filter_key {m : ExtTreeMap κ ν cmp} {p : κ → Bool} {a : κ} :
    (m.filter fun k _ => p k)[a]? = if p a then m[a]? else none := by
  rw [ExtTreeMap.getElem?_filter']
  cases m[a]? <;> cases p a <;> simp

omit [LawfulEqCmp cmp] in
theorem not_mem_iff {m : ExtTreeMap κ ν cmp} {a : κ} : a ∉ m ↔ m[a]? = none := by
  rw [ExtTreeMap.mem_iff_isSome_getElem?, Bool.not_eq_true, Option.isSome_eq_false_iff, Option.isNone_iff_eq_none]

theorem nodup_toList {m : ExtTreeMap κ ν cmp} : m.toList.Nodup := by
  refine ExtTreeMap.distinct_keys_toList.imp ?_
  rintro a b apart rfl
  exact apart ReflCmp.compare_self

/-- The entries at one key, as a list. -/
theorem filter_key_toList [DecidableEq κ] {m : ExtTreeMap κ ν cmp} {a : κ} :
    m.toList.filter (fun entry => decide (entry.1 = a)) = (m[a]?.map (Prod.mk a)).toList := by
  cases at_a : m[a]? with
  | none =>
    rw [Option.map_none, Option.toList_none, List.filter_eq_nil_iff]
    rintro ⟨k, v⟩ member same
    have found := ExtTreeMap.mem_toList_iff_getElem?_eq_some.mp member
    obtain rfl : k = a := of_decide_eq_true same
    rw [at_a] at found
    exact absurd found (by simp)
  | some v =>
    rw [Option.map_some, Option.toList_some, ← List.perm_singleton]
    refine (List.perm_ext_iff_of_nodup (nodup_toList.filter _) (List.nodup_singleton _)).mpr ?_
    rintro ⟨k, u⟩
    rw [List.mem_filter, ExtTreeMap.mem_toList_iff_getElem?_eq_some, List.mem_singleton, decide_eq_true_eq, Prod.mk.injEq]
    constructor
    · rintro ⟨found, rfl⟩
      exact ⟨rfl, Option.some.inj (found.symm.trans at_a)⟩
    · rintro ⟨rfl, rfl⟩
      exact ⟨at_a, rfl⟩

/-- A new key adds its entry. -/
theorem toList_insert_perm [DecidableEq κ] {m : ExtTreeMap κ ν cmp} {k : κ} {v : ν} (fresh : m[k]? = none) :
    (m.insert k v).toList.Perm ((k, v) :: m.toList) := by
  have absent : (k, v) ∉ m.toList := by
    rw [ExtTreeMap.mem_toList_iff_getElem?_eq_some, fresh]
    simp
  refine (List.perm_ext_iff_of_nodup nodup_toList (List.nodup_cons.mpr ⟨absent, nodup_toList⟩)).mpr ?_
  rintro ⟨a, u⟩
  rw [List.mem_cons, ExtTreeMap.mem_toList_iff_getElem?_eq_some, ExtTreeMap.mem_toList_iff_getElem?_eq_some,
    getElem?_insert, Prod.mk.injEq]
  by_cases same : a = k
  · subst same
    simp [fresh, eq_comm]
  · simp [same]

/-- A map is the list of its entries in key order. -/
theorem toList_eq {m : ExtTreeMap κ ν cmp} {entries : List (κ × ν)}
    (sorted : entries.Pairwise fun a b => cmp a.1 b.1 = .lt)
    (same : ∀ k v, (k, v) ∈ entries ↔ m[k]? = some v) : m.toList = entries := by
  have apart : ∀ a b : κ × ν, cmp a.1 b.1 = .lt → a ≠ b := by
    rintro a b before rfl
    have equal : cmp a.1 a.1 = .eq := ReflCmp.compare_self
    rw [equal] at before
    exact absurd before (by decide)
  have perm : m.toList.Perm entries := by
    refine (List.perm_ext_iff_of_nodup nodup_toList (sorted.imp (apart _ _))).mpr ?_
    rintro ⟨k, v⟩
    rw [ExtTreeMap.mem_toList_iff_getElem?_eq_some, same]
  refine perm.eq_of_pairwise ?_ ExtTreeMap.ordered_keys_toList sorted
  intro a b _ _ before after
  have greater : cmp b.1 a.1 = .gt := OrientedCmp.gt_of_lt before
  rw [greater] at after
  exact absurd after (by decide)

/-- The number of entries whose value satisfies `p`. -/
def count (p : ν → Bool) (m : ExtTreeMap κ ν cmp) : Nat :=
  (m.filter fun _ v => p v).size

/-- The entry at `k` satisfies `p`. -/
def Holds (p : ν → Bool) (m : ExtTreeMap κ ν cmp) (k : κ) : Prop :=
  ∃ v, m[k]? = some v ∧ p v = true

theorem mem_keys_filter {p : ν → Bool} {m : ExtTreeMap κ ν cmp} {k : κ} :
    k ∈ (m.filter fun _ v => p v).keys ↔ Holds p m k := by
  rw [ExtTreeMap.mem_keys, ExtTreeMap.mem_iff_isSome_getElem?, ExtTreeMap.getElem?_filter']
  cases at_k : m[k]? with
  | none => simp [Holds, at_k]
  | some v => cases good : p v <;> simp [Holds, at_k, good]

/-- Fewer satisfying keys, fewer satisfying entries. -/
theorem count_le_length {p : ν → Bool} {m : ExtTreeMap κ ν cmp} (keys : List κ)
    (covered : ∀ k, Holds p m k → k ∈ keys) : count p m ≤ keys.length := by
  unfold count
  rw [← ExtTreeMap.length_keys]
  refine (List.Nodup.subperm ExtTreeMap.nodup_keys ?_).length_le
  intro k member
  exact covered k (mem_keys_filter.mp member)

theorem count_le_of_imp {p : ν → Bool} {before after : ExtTreeMap κ ν cmp}
    (imp : ∀ k, Holds p after k → Holds p before k) : count p after ≤ count p before := by
  refine (count_le_length (before.filter fun _ v => p v).keys ?_).trans_eq ?_
  · intro k holds
    exact mem_keys_filter.mpr (imp k holds)
  · rw [ExtTreeMap.length_keys]; rfl

/-- An update that can make only one more key satisfy `p` adds at most one. -/
theorem count_le_succ {p : ν → Bool} {before after : ExtTreeMap κ ν cmp} (key : κ)
    (imp : ∀ k, k ≠ key → Holds p after k → Holds p before k) : count p after ≤ count p before + 1 := by
  refine (count_le_length (key :: (before.filter fun _ v => p v).keys) ?_).trans_eq ?_
  · intro k holds
    by_cases same : k = key
    · exact same ▸ List.mem_cons_self
    · exact List.mem_cons_of_mem _ (mem_keys_filter.mpr (imp k same holds))
  · rw [List.length_cons, ExtTreeMap.length_keys]; rfl

/-- Two predicates no entry satisfies both of are counted apart. -/
theorem count_add_le {p q : ν → Bool} {m : ExtTreeMap κ ν cmp}
    (apart : ∀ (k : κ) (v : ν), m[k]? = some v → p v = true → q v = false) :
    count p m + count q m ≤ count (fun v => p v || q v) m := by
  unfold count
  rw [← ExtTreeMap.length_keys, ← ExtTreeMap.length_keys, ← ExtTreeMap.length_keys, ← List.length_append]
  refine (List.Nodup.subperm (List.Nodup.append ExtTreeMap.nodup_keys ExtTreeMap.nodup_keys ?_) ?_).length_le
  · intro k in_p in_q
    obtain ⟨v, at_k, good⟩ := mem_keys_filter.mp in_p
    obtain ⟨u, at_k', good'⟩ := mem_keys_filter.mp in_q
    cases at_k.symm.trans at_k'
    rw [apart k v at_k good] at good'
    exact absurd good' Bool.false_ne_true
  · intro k member
    refine mem_keys_filter.mpr ?_
    obtain in_p | in_q := List.mem_append.mp member
    · obtain ⟨v, at_k, good⟩ := mem_keys_filter.mp in_p
      exact ⟨v, at_k, by simp [good]⟩
    · obtain ⟨v, at_k, good⟩ := mem_keys_filter.mp in_q
      exact ⟨v, at_k, by simp [good]⟩

end FiniteMap
