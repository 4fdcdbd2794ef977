import BleGatt.Profile.Datagram.Inbound

namespace BleGatt
namespace Inbound

/-- The receiver looks at the flag before it is polled in its `select!` again. -/
def looking (s : Inbound) : Bool :=
  match s.receiver with
  | .parked | .polling _ => false
  | _ => true

/-- The end of the queue is not found with a wake-up permit stored, or with
a raise between its two halves. -/
def WakesFirst (s : Inbound) : InboundStep → Bool
  | .arm =>
    match s.receiver, s.queue, s.task with
    | .polling (.inbound :: _), [], .ended => !s.overflow.permit && s.overflow.raising == 0
    | _, _, _ => true
  | _ => true

/-- No gap that was raised is slept through. -/
def Heard (s : Inbound) : Prop := s.overflow.Heard s.looking

variable {cfg : DatagramConfig} {s s' : Inbound}

theorem heard_of_looking (looks : s.looking = true) : s.Heard := by
  unfold Heard
  rw [looks]
  exact Signal.heard_looking

theorem Heard.of_same (heard : s.Heard) (overflow : s'.overflow = s.overflow) (receiver : s'.receiver = s.receiver) :
    s'.Heard := by
  unfold Heard looking at heard ⊢
  rw [overflow, receiver]
  exact heard

/-- A fragment leaves the receiver, and raises a gap or leaves the signal. -/
theorem incoming_heard (heard : s.Heard) (raw : Except BleError Bytes) : (s.incoming cfg raw).Heard := by
  unfold incoming
  split
  · exact Signal.heard_store
  · split
    · exact heard.of_same rfl rfl
    · dsimp only
      split <;> exact heard.of_same rfl rfl

theorem pollArm_heard {arm : Arm} {left : List Arm} (heard : s.Heard) (polling : s.receiver = .polling (arm :: left)) :
    (s.pollArm arm left).Heard := by
  have pending : (s.pend left).Heard := by
    have asleep : (s.pend left).looking = s.looking := by
      unfold pend looking
      rw [polling]
      cases left <;> rfl
    unfold Heard
    rw [asleep]
    exact heard
  unfold pollArm
  split
  · split
    · exact heard_of_looking rfl
    · split
      · exact heard_of_looking rfl
      · exact pending
  · split
    · exact heard_of_looking rfl
    · exact pending

theorem Heard.step {label : InboundStep} (heard : s.Heard) (stepped : Inbound.step cfg s label = some s') : s'.Heard := by
  cases step_cases stepped with
  | arrive _ => exact incoming_heard heard _
  | raised _ | gapRaised _ => exact Signal.heard_notify
  | gap _ => exact Signal.heard_store
  | call _ | checkUp _ _ | cancelRecv _ | drop _ => exact heard_of_looking rfl
  | checkDown _ down => exact Signal.heard_down down
  | poll parked =>
    unfold Heard looking at heard ⊢
    rw [parked] at heard
    exact heard
  | arm polling => exact pollArm_heard heard polling
  | _ => exact heard.of_same rfl rfl

theorem reach_heard (reach : (machine cfg).Reach s) : s.Heard := by
  induction reach with
  | start first =>
    obtain ⟨role, peer, now, rfl⟩ := first
    exact heard_of_looking rfl
  | next _ stepped heard => exact heard.step stepped

theorem incoming_received (raw : Except BleError Bytes) : (s.incoming cfg raw).received = s.received := by
  unfold incoming
  split
  · rfl
  · split
    · rfl
    · dsimp only
      split <;> rfl

/-- `recv` returns `None` in one place: where its `select!` polls a queue that
is drained and closed. -/
theorem returns_none {label : InboundStep} (stepped : step cfg s label = some s')
    (returned : s'.received = s.received ++ [none]) :
    label = .arm ∧ (∃ left, s.receiver = .polling (.inbound :: left)) ∧ s.queue = [] ∧ s.task = .ended := by
  have unchanged : s.received ≠ s.received ++ [none] := by simp
  have other : ∀ item, s.received ++ [some item] ≠ s.received ++ [none] := by simp
  cases step_cases stepped with
  | arrive _ => exact absurd ((incoming_received _).symm.trans returned) unchanged
  | checkUp _ _ => exact absurd returned (other _)
  | @arm arm left polling =>
    unfold pollArm at returned
    cases arm with
    | inbound =>
      cases queue : s.queue with
      | cons message rest =>
        rw [queue] at returned
        exact absurd returned (other _)
      | nil =>
        rw [queue] at returned
        by_cases ended : s.task = .ended
        · exact ⟨rfl, ⟨left, polling⟩, rfl, ended⟩
        · dsimp only at returned
          rw [if_neg ended] at returned
          exact absurd returned unchanged
    | notified =>
      dsimp only at returned
      split at returned <;> exact absurd returned unchanged
  | _ => exact absurd returned unchanged

/-- A `None` that comes with no wake-up left behind comes with no gap. -/
theorem gap_reported (reach : (machine cfg).Reach s) {label : InboundStep} (woken : WakesFirst s label = true)
    (stepped : step cfg s label = some s') (returned : s'.received = s.received ++ [none]) :
    s.overflow.flagged = false := by
  obtain ⟨rfl, ⟨left, polling⟩, drained, ended⟩ := returns_none stepped returned
  have heard := reach_heard reach
  unfold Heard looking at heard
  rw [polling] at heard
  simp only [WakesFirst, polling, drained, ended, Bool.and_eq_true, Bool.not_eq_true', beq_iff_eq] at woken
  exact Signal.Heard.down heard woken.1 woken.2

/-- Some `recv` has returned `None` over a gap that was raised. -/
def silence (silent : Bool) (s : Inbound) (_ : InboundStep) (s' : Inbound) : Bool :=
  silent || decide (s'.received = s.received ++ [none]) && s.overflow.flagged

/-- A receiver is parked when the watcher reports lag and ends the channel. -/
def laggedWhileParked : List InboundStep := [.call, .check, .gap true, .gapRaised, .lost, .cancelled]

end Inbound
end BleGatt
