import Mathlib.Data.List.Basic

/-! Tasks that are numbered in the order they were started, as the entries of
a list: what a started, replaced or changed task does to every lookup. -/

namespace TaskList

variable {α : Type*} {tasks : List α} {number n : Nat} {task old : α}

theorem getElem?_set (here : tasks[number]? = some old) :
    (tasks.set number task)[n]? = if n = number then some task else tasks[n]? := by
  have bound : number < tasks.length := (List.getElem?_eq_some_iff.mp here).1
  rw [List.getElem?_set]
  by_cases same : n = number
  · rw [if_pos same.symm, if_pos bound, if_pos same]
  · rw [if_neg (Ne.symm same), if_neg same]

theorem getElem?_set_self (here : tasks[number]? = some old) : (tasks.set number task)[number]? = some task := by
  rw [getElem?_set here, if_pos rfl]

theorem bind_set {β : Type*} (f : α → Option β) (here : tasks[number]? = some old) :
    (tasks.set number task)[n]?.bind f = if n = number then f task else tasks[n]?.bind f := by
  rw [getElem?_set here]
  split <;> rfl

theorem of_set {found : α} (there : (tasks.set number task)[n]? = some found) :
    n = number ∧ found = task ∨ n ≠ number ∧ tasks[n]? = some found := by
  rw [List.getElem?_set] at there
  split at there
  · rename_i same
    split at there
    · exact .inl ⟨same.symm, (Option.some.inj there).symm⟩
    · simp at there
  · rename_i other
    exact .inr ⟨Ne.symm other, there⟩

theorem getElem?_modify (f : α → α) :
    (tasks.modify number f)[n]? = if n = number then tasks[n]?.map f else tasks[n]? := by
  rw [List.getElem?_modify]
  by_cases same : n = number
  · simp [same]
  · simp [same, Ne.symm same]

theorem of_modify {f : α → α} {found : α} (there : (tasks.modify number f)[n]? = some found) :
    (∃ before, tasks[n]? = some before ∧ n = number ∧ found = f before) ∨ n ≠ number ∧ tasks[n]? = some found := by
  rw [getElem?_modify] at there
  split at there
  · rename_i same
    obtain ⟨before, here, changed⟩ := Option.map_eq_some_iff.mp there
    exact .inl ⟨before, here, same, changed.symm⟩
  · rename_i other
    exact .inr ⟨other, there⟩

theorem of_append {found : α} (there : (tasks ++ [task])[n]? = some found) :
    tasks[n]? = some found ∨ n = tasks.length ∧ found = task := by
  rcases Nat.lt_trichotomy n tasks.length with before | here | after
  · rw [List.getElem?_append_left before] at there
    exact .inl there
  · subst here
    rw [List.getElem?_concat_length, Option.some.injEq] at there
    exact .inr ⟨rfl, there.symm⟩
  · rw [List.getElem?_eq_none (by simp; omega)] at there
    simp at there

/-- A started task that the function says nothing of. -/
theorem bind_append {β : Type*} {f : α → Option β} (fresh : f task = none) :
    (tasks ++ [task])[n]?.bind f = tasks[n]?.bind f := by
  cases there : (tasks ++ [task])[n]? with
  | none =>
    rw [List.getElem?_eq_none_iff, List.length_append] at there
    rw [List.getElem?_eq_none (by omega)]
  | some found =>
    obtain there | ⟨rfl, rfl⟩ := of_append there
    · rw [there]
    · rw [List.getElem?_eq_none Nat.le.refl]
      exact fresh

theorem getElem?_append_of (here : tasks[n]? = some old) (more : List α) : (tasks ++ more)[n]? = some old := by
  rw [List.getElem?_append_left (List.getElem?_eq_some_iff.mp here).1, here]

theorem lt_length (here : tasks[n]? = some old) : n < tasks.length := (List.getElem?_eq_some_iff.mp here).1

/-- How many tasks meet a predicate, with one task replaced. -/
theorem countP_set (p : α → Bool) (here : tasks[number]? = some old) :
    (tasks.set number task).countP p + (if p old then 1 else 0) = tasks.countP p + (if p task then 1 else 0) := by
  induction tasks generalizing number with
  | nil => simp at here
  | cons first rest ih =>
    cases number with
    | zero =>
      simp only [List.getElem?_cons_zero, Option.some.injEq] at here
      subst here
      simp only [List.set_cons_zero, List.countP_cons]
      omega
    | succ number =>
      simp only [List.getElem?_cons_succ] at here
      simp only [List.set_cons_succ, List.countP_cons]
      have held := ih here
      omega

theorem countP_set_same {p : α → Bool} (here : tasks[number]? = some old) (same : p task = p old) :
    (tasks.set number task).countP p = tasks.countP p := by
  have counted : (tasks.set number task).countP p + _ = _ := countP_set p here
  rw [same] at counted
  omega

theorem countP_set_on {p : α → Bool} (here : tasks[number]? = some old) (off : p old = false) (on : p task = true) :
    (tasks.set number task).countP p = tasks.countP p + 1 := by
  have counted : (tasks.set number task).countP p + _ = _ := countP_set p here
  rw [off, on] at counted
  simpa using counted

theorem countP_set_off {p : α → Bool} (here : tasks[number]? = some old) (on : p old = true) (off : p task = false) :
    (tasks.set number task).countP p + 1 = tasks.countP p := by
  have counted : (tasks.set number task).countP p + _ = _ := countP_set p here
  rw [off, on] at counted
  simpa using counted

theorem countP_pos {p : α → Bool} (here : tasks[n]? = some task) (is : p task = true) : 0 < tasks.countP p :=
  List.countP_pos_iff.mpr ⟨task, List.mem_of_getElem? here, is⟩

/-- Where at most one task counts. -/
theorem eq_of_countP_le_one {p : α → Bool} (one : tasks.countP p ≤ 1) {m : Nat} {first second : α}
    (here : tasks[m]? = some first) (there : tasks[n]? = some second) (is : p first = true) (too : p second = true) :
    m = n := by
  induction tasks generalizing m n with
  | nil => simp at here
  | cons task rest ih =>
    rw [List.countP_cons] at one
    cases m with
    | zero =>
      cases n with
      | zero => rfl
      | succ n =>
        simp only [List.getElem?_cons_zero, Option.some.injEq] at here
        rw [List.getElem?_cons_succ] at there
        have more := countP_pos there too
        rw [here, is] at one
        simp only [if_true] at one
        omega
    | succ m =>
      rw [List.getElem?_cons_succ] at here
      cases n with
      | zero =>
        simp only [List.getElem?_cons_zero, Option.some.injEq] at there
        have more := countP_pos here is
        rw [there, too] at one
        simp only [if_true] at one
        omega
      | succ n =>
        rw [List.getElem?_cons_succ] at there
        rw [ih (Nat.le_trans (Nat.le_add_right _ _) one) here there]

/-- What holds of each task. -/
def Each (P : Nat → α → Prop) (tasks : List α) : Prop :=
  ∀ (n : Nat) (task : α), tasks[n]? = some task → P n task

namespace Each

variable {P Q : Nat → α → Prop}

theorem imp (held : Each P tasks) (kept : ∀ n task, P n task → Q n task) : Each Q tasks := by
  intro n found there
  exact kept n found (held n found there)

theorem set (held : Each P tasks) (new : P number task) : Each P (tasks.set number task) := by
  intro n found there
  obtain ⟨rfl, rfl⟩ | ⟨_, there⟩ := of_set there
  · exact new
  · exact held n found there

/-- One task is replaced, and what is known of the others changes. -/
theorem replace (held : Each P tasks) (kept : ∀ n found, n ≠ number → tasks[n]? = some found → P n found → Q n found)
    (new : Q number task) : Each Q (tasks.set number task) := by
  intro n found there
  obtain ⟨rfl, rfl⟩ | ⟨other, there⟩ := of_set there
  · exact new
  · exact kept n found other there (held n found there)

theorem start (held : Each P tasks) (new : P tasks.length task) : Each P (tasks ++ [task]) := by
  intro n found there
  obtain there | ⟨rfl, rfl⟩ := of_append there
  · exact held n found there
  · exact new

theorem map {f : α → α} (held : Each P tasks) (kept : ∀ n task, P n task → Q n (f task)) : Each Q (tasks.map f) := by
  intro n found there
  rw [List.getElem?_map] at there
  obtain ⟨before, was, rfl⟩ := Option.map_eq_some_iff.mp there
  exact kept n before (held n before was)

end Each

end TaskList
