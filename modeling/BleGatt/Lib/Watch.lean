import Mathlib.Logic.Basic

/-! A published value: one side replaces it, and each receiver can tell
whether that has happened since it last looked. -/

variable {α : Type*}

structure Watch (α : Type*) where
  value : α
  /-- How often it was replaced. -/
  version : Nat := 0

/-- A receiver, as of its last look. -/
structure WatchReceiver (α : Type*) where
  seen : Nat
  saw : α

namespace Watch

/-- `send_if_modified`: the closure changes the value and says whether it did. -/
def sendIfModified (modify : α → α × Bool) (w : Watch α) : Watch α :=
  { value := (modify w.value).1, version := if (modify w.value).2 then w.version + 1 else w.version }

def look (w : Watch α) : WatchReceiver α := ⟨w.version, w.value⟩

end Watch

namespace WatchReceiver

/-- It is woken, or finds at once that there is something new. -/
def changed (receiver : WatchReceiver α) (w : Watch α) : Bool := receiver.seen != w.version

/-- No change is slept through: a receiver that is not woken knows the value. -/
def Follows (w : Watch α) (receiver : WatchReceiver α) : Prop :=
  receiver.seen ≤ w.version ∧ (receiver.changed w = false → receiver.saw = w.value)

variable {w : Watch α} {receiver : WatchReceiver α}

theorem follows_look : Follows w w.look := ⟨Nat.le_refl _, fun _ => rfl⟩

/-- Whatever is sent, as long as a change is not kept quiet. -/
theorem Follows.send {modify : α → α × Bool} (follows : Follows w receiver)
    (honest : (modify w.value).2 = false → (modify w.value).1 = w.value) : Follows (w.sendIfModified modify) receiver := by
  obtain ⟨seen, knows⟩ := follows
  unfold Watch.sendIfModified
  cases modified : (modify w.value).2 with
  | false =>
    simp only [Follows, changed, honest modified]
    exact ⟨seen, knows⟩
  | true =>
    have behind : receiver.seen ≠ w.version + 1 := by omega
    refine ⟨Nat.le_succ_of_le seen, ?_⟩
    intro quiet
    simp [changed, behind] at quiet

end WatchReceiver
