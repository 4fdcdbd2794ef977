import BleGatt.Lib.TaskList

/-! Calls that take their locks one after another. What a call has still to do
is a list of critical sections; between two of them any other call may come. -/

namespace Sectioned

variable {σ κ α τ : Type*}

/-- What a section leaves to its call. -/
inductive Turn (α τ : Type*)
  /-- These sections, before the rest. -/
  | go (first : List α)
  /-- Nothing: the call returns. -/
  | end_ (result : τ)

inductive Stage (α τ : Type*)
  | running (next : α) (rest : List α)
  | returned (result : τ)

/-- What a call has still to go through. -/
def Stage.ahead : Stage α τ → List α
  | running next rest => next :: rest
  | returned _ => []

structure Call (κ α τ : Type*) where
  request : κ
  stage : Stage α τ

def Call.ahead (call : Call κ α τ) : List α := call.stage.ahead

end Sectioned

/-- Calls of requests `κ` on a state `σ`, that return a `τ`. -/
structure Sectioned (σ κ α τ : Type*) where
  sections : κ → List α
  /-- `none` is a section that has to wait. -/
  act : σ → α → Option (σ × Sectioned.Turn α τ)
  /-- What a call returns that has nothing ahead. -/
  done : τ

namespace Sectioned

variable {σ κ α τ : Type*} (P : Sectioned σ κ α τ)

def stage : List α → Stage α τ
  | [] => .returned P.done
  | next :: rest => .running next rest

def start (request : κ) (calls : List (Call κ α τ)) : List (Call κ α τ) :=
  calls ++ [⟨request, P.stage (P.sections request)⟩]

def after (rest : List α) : Turn α τ → Stage α τ
  | .go first => P.stage (first ++ rest)
  | .end_ result => .returned result

/-- The section a call is about to enter, and what it has ahead after that. -/
def next (calls : List (Call κ α τ)) (n : Nat) : Option (α × List α) :=
  match (calls[n]?).map Call.ahead with
  | some (section_ :: rest) => some (section_, rest)
  | _ => none

/-- A call goes through its next section. -/
def proceed (s : σ) (calls : List (Call κ α τ)) (n : Nat) : Option (σ × List (Call κ α τ)) :=
  match calls[n]?, next calls n with
  | some call, some (section_, rest) =>
    (P.act s section_).map fun acted => (acted.1, calls.set n { call with stage := P.after rest acted.2 })
  | _, _ => none

variable {P} {s t : σ} {calls calls' : List (Call κ α τ)} {n m : Nat} {call : Call κ α τ}
  {section_ : α} {rest : List α}

theorem next_eq_some :
    next calls n = some (section_, rest) ↔ ∃ call, calls[n]? = some call ∧ call.ahead = section_ :: rest := by
  unfold next
  cases here : calls[n]? with
  | none => simp
  | some call =>
    cases ahead : call.ahead with
    | nil => simp [ahead]
    | cons first others => simp [ahead]

@[simp] theorem ahead_stage (ahead : List α) : (P.stage ahead).ahead = ahead := by
  cases ahead <;> rfl

theorem ahead_go (first : List α) : (P.after rest (.go first)).ahead = first ++ rest := ahead_stage _

theorem ahead_end (result : τ) : (P.after rest (.end_ result)).ahead = [] := rfl

/-- All that a turn of a call can be. -/
theorem proceed_cases (proceeded : P.proceed s calls n = some (t, calls')) :
    ∃ call section_ rest turn, calls[n]? = some call ∧ call.ahead = section_ :: rest ∧
      P.act s section_ = some (t, turn) ∧ calls' = calls.set n ⟨call.request, P.after rest turn⟩ := by
  unfold proceed at proceeded
  split at proceeded
  · rename_i call section_ rest here coming
    obtain ⟨acted, act, eq⟩ := Option.map_eq_some_iff.mp proceeded
    obtain ⟨rfl, rfl⟩ := Prod.mk.inj eq
    obtain ⟨found, there, ahead⟩ := next_eq_some.mp coming
    cases here.symm.trans there
    exact ⟨call, section_, rest, acted.2, here, ahead, act, rfl⟩
  · simp at proceeded

/-- A call that was just started. -/
theorem of_start {request : κ} (there : (P.start request calls)[m]? = some call) :
    calls[m]? = some call ∨ m = calls.length ∧ call.request = request ∧ call.ahead = P.sections request := by
  obtain old | ⟨rfl, rfl⟩ := TaskList.of_append there
  · exact .inl old
  · exact .inr ⟨rfl, rfl, ahead_stage _⟩

end Sectioned
