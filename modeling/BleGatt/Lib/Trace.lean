import Mathlib.Algebra.BigOperators.Group.List.Basic
import Mathlib.Algebra.Ring.Nat

/-! The runs of a deterministic machine with outputs: what it goes through
from a state over a list of inputs. -/

structure Transition (σ ι ω : Type*) where
  before : σ
  input : ι
  outputs : List ω
  after : σ

namespace Transition

variable {σ ι ω : Type*}

def of (step : σ → ι → σ × List ω) (s : σ) (input : ι) : Transition σ ι ω :=
  ⟨s, input, (step s input).2, (step s input).1⟩

/-- The transitions of a run, oldest first. -/
def trace (step : σ → ι → σ × List ω) : σ → List ι → List (Transition σ ι ω)
  | _, [] => []
  | s, input :: inputs => of step s input :: trace step (step s input).1 inputs

/-- Where it ends. -/
def final (step : σ → ι → σ × List ω) (s : σ) (inputs : List ι) : σ := inputs.foldl (fun s input => (step s input).1) s

variable {step : σ → ι → σ × List ω} {s : σ} {inputs : List ι}

theorem final_concat (input : ι) : final step s (inputs ++ [input]) = (step (final step s inputs) input).1 := by
  rw [final, List.foldl_append]
  rfl

theorem trace_concat (input : ι) :
    trace step s (inputs ++ [input]) = trace step s inputs ++ [of step (final step s inputs) input] := by
  induction inputs generalizing s with
  | nil => rfl
  | cons first inputs ih =>
    rw [List.cons_append, trace, ih]
    rfl

/-- What holds of every transition holds of those of a run. -/
theorem forall_mem_trace {P : Transition σ ι ω → Prop} (each : ∀ s input, P (of step s input)) :
    ∀ t ∈ trace step s inputs, P t := by
  induction inputs generalizing s with
  | nil => simp [trace]
  | cons input inputs ih =>
    intro t there
    rcases List.mem_cons.mp there with rfl | later
    · exact each s input
    · exact ih t later

/-- What every transition balances is balanced over a run. -/
theorem balance (weight : σ → Nat) (gain loss : Transition σ ι ω → Nat)
    (each : ∀ s input, weight s + gain (of step s input) = loss (of step s input) + weight (step s input).1) :
    weight s + ((trace step s inputs).map gain).sum =
      ((trace step s inputs).map loss).sum + weight (final step s inputs) := by
  induction inputs generalizing s with
  | nil => simp [trace, final]
  | cons input inputs ih =>
    have here := each s input
    have rest := @ih (step s input).1
    simp only [trace, List.map_cons, List.sum_cons]
    have end_ : final step s (input :: inputs) = final step (step s input).1 inputs := rfl
    rw [end_]
    omega

theorem sum_map_toNat (p : Transition σ ι ω → Bool) (steps : List (Transition σ ι ω)) :
    (steps.map fun t => (p t).toNat).sum = steps.countP p := by
  induction steps with
  | nil => rfl
  | cons t steps ih =>
    rw [List.map_cons, List.sum_cons, ih, List.countP_cons]
    cases p t
    · simp
    · simp [Nat.add_comm]

end Transition
