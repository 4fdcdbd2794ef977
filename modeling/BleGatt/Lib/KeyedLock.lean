import Mathlib.Logic.Function.Basic
import BleGatt.Lib.Machine

/-! One lock for each key. A table names the owner of each lock that is taken;
what each task says it holds is kept in step with the table. -/

namespace KeyedLock

variable {τ κ : Type*}

/-- Whoever holds a lock is its owner in the table. -/
def Owned (held : τ → Option κ) (owner : κ → Option τ) : Prop :=
  ∀ task key, held task = some key → owner key = some task

namespace Owned

variable {held : τ → Option κ} {owner : κ → Option τ} {task other : τ} {key : κ}

theorem alone (owned : Owned held owner) (first : held task = some key) (second : held other = some key) :
    task = other :=
  Option.some.inj ((owned task key first).symm.trans (owned other key second))

/-- A task that holds nothing takes a free lock. -/
theorem take [DecidableEq τ] [DecidableEq κ] (owned : Owned held owner) (free : owner key = none) :
    Owned (Function.update held task (some key)) (Function.update owner key (some task)) := by
  intro other at_ here
  by_cases same : other = task
  · subst same
    rw [Function.update_self, Option.some.injEq] at here
    rw [here, Function.update_self]
  · rw [Function.update_of_ne same] at here
    have theirs := owned other at_ here
    rw [Function.update_of_ne]
    · exact theirs
    · rintro rfl
      rw [free] at theirs
      simp at theirs

/-- A task leaves the lock that it holds. -/
theorem leave [DecidableEq τ] [DecidableEq κ] (owned : Owned held owner) (mine : held task = some key) :
    Owned (Function.update held task none) (Function.update owner key none) := by
  intro other at_ here
  by_cases same : other = task
  · subst same
    rw [Function.update_self] at here
    simp at here
  · rw [Function.update_of_ne same] at here
    rw [Function.update_of_ne]
    · exact owned other at_ here
    · rintro rfl
      exact same (owned.alone here mine)

end Owned

/-- And the table names nobody else. -/
structure Exact (held : τ → Option κ) (owner : κ → Option τ) : Prop where
  owned : Owned held owner
  named : Owned owner held

/-- What a step does to the table at most. -/
inductive Turn [DecidableEq κ] (owner : κ → Option τ) : (κ → Option τ) → Prop
  | stay : Turn owner owner
  | take {task : τ} {key : κ} (free : owner key = none) : Turn owner (Function.update owner key (some task))
  | leave {task : τ} {key : κ} (mine : owner key = some task) : Turn owner (Function.update owner key none)

/-- What any number of steps make of the table, from the one that names
nobody. -/
def Turns [DecidableEq κ] (owner : κ → Option τ) : Prop := Relation.ReflTransGen Turn (fun _ => none) owner

/-- A machine whose every step is a turn refines the table. -/
theorem turns_of_reach [DecidableEq κ] {σ ι : Type*} {M : Machine σ ι} (owner : σ → κ → Option τ)
    (init : ∀ s, M.Init s → owner s = fun _ => none)
    (turn : ∀ s i t, M.Reach s → M.step s i = some t → Turn (owner s) (owner t)) {s : σ} (reach : M.Reach s) :
    Turns (owner s) := by
  refine Machine.Reach.invariant (P := fun s => Turns (owner s)) ?_ ?_ reach
  · intro s first
    rw [init s first]
    exact .refl
  · intro s i t reach turns step
    exact turns.tail (turn s i t reach step)

namespace Exact

variable {held : τ → Option κ} {owner owner' : κ → Option τ} {task : τ} {key : κ}

theorem unique (first : Exact held owner) (second : Exact held owner') : owner = owner' := by
  funext key
  refine Option.ext fun task => ?_
  constructor
  · intro mine
    exact second.owned task key (first.named key task mine)
  · intro mine
    exact first.owned task key (second.named key task mine)

theorem turn_stay [DecidableEq κ] (before : Exact held owner) (after : Exact held owner') : Turn owner owner' := by
  rw [before.unique after]
  exact .stay

theorem turn_take [DecidableEq τ] [DecidableEq κ] (before : Exact held owner)
    (after : Exact (Function.update held task (some key)) owner') (idle : held task = none)
    (free : owner key = none) : Turn owner owner' := by
  have taken : Exact (Function.update held task (some key)) (Function.update owner key (some task)) :=
    ⟨before.owned.take free, before.named.take idle⟩
  rw [after.unique taken]
  exact .take free

theorem turn_leave [DecidableEq τ] [DecidableEq κ] (before : Exact held owner)
    (after : Exact (Function.update held task none) owner') (mine : held task = some key) : Turn owner owner' := by
  have theirs := before.owned task key mine
  have left : Exact (Function.update held task none) (Function.update owner key none) :=
    ⟨before.owned.leave mine, before.named.leave theirs⟩
  rw [after.unique left]
  exact .leave theirs

end Exact

end KeyedLock
