import Mathlib.Logic.Basic

/-! A flag with a wake-up permit: any number of parties raise it, each in two
halves, and one party looks at it, sleeping until the permit is there. -/

structure Signal where
  flagged : Bool := false
  permit : Bool := false
  /-- How many are between the two halves of a raise. -/
  raising : Nat := 0

namespace Signal

/-- The first half of a raise. -/
def store (s : Signal) : Signal := { s with flagged := true, raising := s.raising + 1 }

/-- The second half: one permit is stored, however many are. -/
def notify (s : Signal) : Signal := { s with permit := true, raising := s.raising - 1 }

def take (s : Signal) : Signal := { s with flagged := false }

/-- The sleeper uses the permit up. -/
def wake (s : Signal) : Option Signal := if s.permit then some { s with permit := false } else none

/-- A raised flag is not slept through: it is looked at before the next sleep,
or the permit is there, or is about to be. -/
def Heard (looking : Bool) (s : Signal) : Prop := s.flagged = true → looking = true ∨ s.permit = true ∨ 0 < s.raising

variable {looking : Bool} {s : Signal}

theorem heard_looking : Heard true s := fun _ => .inl rfl

theorem heard_store : Heard looking s.store := fun _ => .inr (.inr (Nat.succ_pos _))

theorem heard_notify : Heard looking s.notify := fun _ => .inr (.inl rfl)

/-- Falling asleep right after the flag was found down. -/
theorem heard_down (down : s.flagged = false) : Heard looking s := fun up => absurd (down.symm.trans up) Bool.noConfusion

/-- Awake with no permit stored and no raise half done, the flag is down. -/
theorem Heard.down (heard : Heard false s) (used : s.permit = false) (whole : s.raising = 0) : s.flagged = false := by
  cases up : s.flagged with
  | false => rfl
  | true =>
    obtain looks | permit | half := heard up
    · exact looks.symm
    · exact absurd (permit.symm.trans used) Bool.noConfusion
    · exact absurd whole (Nat.ne_of_gt half)

end Signal
