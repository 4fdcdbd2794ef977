import Mathlib.Data.Option.Basic
import Mathlib.Data.List.Basic
import Mathlib.Logic.Relation

/-- A machine whose every outside choice (what arrives, in which order, what
a clock reads) is part of the input, so that a step is a partial function.
`none` is an input the state does not accept, or a step that panics. -/
structure Machine (σ : Type*) (ι : Type*) where
  Init : σ → Prop
  step : σ → ι → Option σ

namespace Machine

variable {σ ι η : Type*} (M : Machine σ ι)

/-- The states some run from a start state passes through. -/
inductive Reach : σ → Prop
  | start {s} : M.Init s → Reach s
  | next {s i t} : Reach s → M.step s i = some t → Reach t

/-- The runs whose every step meets `Ok`, carrying a history that `note`
extends at each step. No step reads the history, so it constrains a run
only through `Ok`. -/
inductive Run (Ok : η → σ → ι → Prop) (note : η → σ → ι → σ → η) (blank : η) : η → σ → Prop
  | start {s} : M.Init s → Run Ok note blank blank s
  | next {h s i t} : Run Ok note blank h s → Ok h s i → M.step s i = some t →
      Run Ok note blank (note h s i t) t

variable {M}

theorem Reach.invariant {P : σ → Prop} (init : ∀ s, M.Init s → P s)
    (keep : ∀ s i t, M.Reach s → P s → M.step s i = some t → P t) {s : σ} (reach : M.Reach s) : P s := by
  induction reach with
  | start first => exact init _ first
  | next previous step ih => exact keep _ _ _ previous ih step

variable {Ok : η → σ → ι → Prop} {note : η → σ → ι → σ → η} {blank : η}

theorem Run.reach {h : η} {s : σ} (run : M.Run Ok note blank h s) : M.Reach s := by
  induction run with
  | start first => exact .start first
  | next _ _ step ih => exact .next ih step

theorem Run.invariant {P : η → σ → Prop} (init : ∀ s, M.Init s → P blank s)
    (keep : ∀ h s i t, M.Run Ok note blank h s → P h s → Ok h s i → M.step s i = some t →
      P (note h s i t) t)
    {h : η} {s : σ} (run : M.Run Ok note blank h s) : P h s := by
  induction run with
  | start first => exact init _ first
  | next previous ok step ih => exact keep _ _ _ _ previous ih ok step

/-- A run that meets a condition meets every weaker one, the history being
the same. `P` is whatever the run itself guarantees at each state. -/
theorem Run.weaken {Ok' : η → σ → ι → Prop} {P : η → σ → Prop}
    (sound : ∀ h s, M.Run Ok' note blank h s → P h s)
    (weaker : ∀ h s i, P h s → Ok h s i → Ok' h s i)
    {h : η} {s : σ} (run : M.Run Ok note blank h s) : M.Run Ok' note blank h s := by
  induction run with
  | start first => exact .start first
  | next _ ok step ih => exact .next ih (weaker _ _ _ (sound _ _ ih) ok) step

/-- Every reachable state ends a run with a history. -/
theorem Reach.run (note : η → σ → ι → σ → η) (blank : η) {s : σ} (reach : M.Reach s) :
    ∃ h, M.Run (fun _ _ _ => True) note blank h s := by
  induction reach with
  | start first => exact ⟨blank, .start first⟩
  | next _ step ih =>
    obtain ⟨h, run⟩ := ih
    exact ⟨_, .next run trivial step⟩

section Follow
variable (M Ok note) [∀ h s i, Decidable (Ok h s i)]

/-- Drive a machine along given inputs; `none` once one is refused, or does
not meet `Ok`. -/
def follow : η × σ → List ι → Option (η × σ)
  | here, [] => some here
  | (h, s), i :: inputs =>
    if Ok h s i then
      match M.step s i with
      | none => none
      | some t => follow (note h s i t, t) inputs
    else none

variable {M Ok note}

theorem Run.follow {here there : η × σ} {inputs : List ι} (run : M.Run Ok note blank here.1 here.2)
    (followed : M.follow Ok note here inputs = some there) : M.Run Ok note blank there.1 there.2 := by
  induction inputs generalizing here with
  | nil =>
    cases Option.some.inj followed
    exact run
  | cons i inputs ih =>
    obtain ⟨h, s⟩ := here
    simp only [Machine.follow] at followed
    split at followed
    · rename_i ok
      split at followed
      · simp at followed
      · rename_i t step
        exact ih (.next run ok step) followed
    · simp at followed

variable (M Ok note)

/-- What holds at the end of a followed list of inputs holds at the end of
some run: the way a concrete run is exhibited. -/
theorem Run.exists_of_follow (blank : η) (P : η → σ → Bool) {s : σ} (first : M.Init s) (inputs : List ι)
    (holds : (M.follow Ok note (blank, s) inputs).any (fun end_ => P end_.1 end_.2) = true) :
    ∃ h t, M.Run Ok note blank h t ∧ P h t = true := by
  cases followed : M.follow Ok note (blank, s) inputs with
  | none => simp [followed] at holds
  | some there =>
    rw [followed] at holds
    exact ⟨there.1, there.2, Run.follow (.start first) followed, holds⟩

end Follow

/-- The same for a state that is only to be reachable. -/
theorem Reach.exists_of_follow (M : Machine σ ι) (P : σ → Bool) {s : σ} (first : M.Init s) (inputs : List ι)
    (holds : (M.follow (fun (_ : Unit) _ _ => True) (fun _ _ _ _ => ()) ((), s) inputs).any (fun end_ => P end_.2) =
      true) : ∃ t, M.Reach t ∧ P t = true := by
  obtain ⟨_, t, run, good⟩ := Run.exists_of_follow M _ _ () (fun _ => P) first inputs holds
  exact ⟨t, run.reach, good⟩

/-- The states that come after a state, itself included. -/
def Later (M : Machine σ ι) : σ → σ → Prop := Relation.ReflTransGen fun s t => ∃ i, M.step s i = some t

theorem Later.invariant {P : σ → Prop} {s t : σ} (later : M.Later s t) (here : P s)
    (keep : ∀ s i t, P s → M.step s i = some t → P t) : P t := by
  induction later with
  | refl => exact here
  | tail _ step ih =>
    obtain ⟨i, step⟩ := step
    exact keep _ i _ ih step

end Machine
