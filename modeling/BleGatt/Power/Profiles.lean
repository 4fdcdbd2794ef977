import BleGatt.Entities.Models
import BleGatt.Lib.Machine

namespace BleGatt

/-! The advice on how hard to work the radio, and how it is published. -/

/-- The device's situation. -/
structure PowerInputs where
  foreground : Bool := true
  batteryPercent : Option UInt8 := none
  charging : Bool := false
  peersNearby : Nat := 0
  deriving DecidableEq

inductive PowerMode
  | performance
  | balanced
  | powerSaver
  | ultraLowPower
  deriving DecidableEq

/-- One mode's schedule. -/
structure PowerProfile where
  mode : PowerMode
  scanOn : Duration
  /-- Zero is to scan continuously. -/
  scanOff : Duration
  maxConnections : Nat
  connectionPriority : ConnectionPriority
  deriving DecidableEq

/-- The rules that pick a mode, and each mode's schedule. -/
structure PowerPolicy where
  criticalBatteryPercent : UInt8 := 10
  lowBatteryPercent : UInt8 := 20
  performance : PowerProfile := ⟨.performance, .ofSecs 10, 0, 8, .high⟩
  balanced : PowerProfile := ⟨.balanced, .ofSecs 5, .ofSecs 10, 6, .balanced⟩
  powerSaver : PowerProfile := ⟨.powerSaver, .ofSecs 3, .ofSecs 30, 3, .lowPower⟩
  ultraLowPower : PowerProfile := ⟨.ultraLowPower, .ofSecs 2, .ofSecs 60, 1, .lowPower⟩
  deriving DecidableEq

namespace PowerPolicy

/-- The first rule that matches. -/
def mode (policy : PowerPolicy) (inputs : PowerInputs) : PowerMode :=
  if inputs.charging then .performance
  else if inputs.batteryPercent.any (· ≤ policy.criticalBatteryPercent) then .ultraLowPower
  else if inputs.batteryPercent.any (· ≤ policy.lowBatteryPercent) then .powerSaver
  else if inputs.foreground || decide (0 < inputs.peersNearby) then .balanced
  else .powerSaver

def profile (policy : PowerPolicy) : PowerMode → PowerProfile
  | .performance => policy.performance
  | .balanced => policy.balanced
  | .powerSaver => policy.powerSaver
  | .ultraLowPower => policy.ultraLowPower

def resolve (policy : PowerPolicy) (inputs : PowerInputs) : PowerProfile := policy.profile (policy.mode inputs)

end PowerPolicy

/-- How far a call of `update` is. -/
inductive UpdateCall
  | called (change : PowerInputs → PowerInputs)
  /-- `send_modify` returned. -/
  | modified
  /-- The profile it is going to publish. -/
  | resolved (profile : PowerProfile)
  | returned

def UpdateCall.isReturned : UpdateCall → Bool
  | returned => true
  | _ => false

/-- The two cells, each behind its own lock, and every call of `update`. -/
structure PowerProfiles where
  policy : PowerPolicy
  inputs : PowerInputs
  profile : PowerProfile
  calls : List UpdateCall
  /-- The profiles the receivers were woken for. -/
  published : List PowerProfile

inductive PowerStep
  | update (change : PowerInputs → PowerInputs)
  | modify (call : Nat)
  | resolve (call : Nat)
  | publish (call : Nat)

namespace PowerProfiles

def withPolicy (policy : PowerPolicy) (inputs : PowerInputs) : PowerProfiles :=
  { policy := policy, inputs := inputs, profile := policy.resolve inputs, calls := [], published := [] }

def setCall (number : Nat) (call : UpdateCall) (s : PowerProfiles) : PowerProfiles :=
  { s with calls := s.calls.set number call }

/-- `send_if_modified`. -/
def sendIfModified (profile : PowerProfile) (s : PowerProfiles) : PowerProfiles :=
  { s with
    profile := profile
    published := if s.profile ≠ profile then s.published ++ [profile] else s.published }

/-- Each step of an `update` holds one lock, so they come in any order. -/
def step (s : PowerProfiles) : PowerStep → Option PowerProfiles
  | .update change => some { s with calls := s.calls ++ [.called change] }
  | .modify number =>
    match s.calls[number]? with
    | some (.called change) => some ({ s with inputs := change s.inputs }.setCall number .modified)
    | _ => none
  | .resolve number =>
    match s.calls[number]? with
    | some .modified => some (s.setCall number (.resolved (s.policy.resolve s.inputs)))
    | _ => none
  | .publish number =>
    match s.calls[number]? with
    | some (.resolved profile) => some ((s.sendIfModified profile).setCall number .returned)
    | _ => none

def machine : Machine PowerProfiles PowerStep where
  Init s := ∃ policy inputs, s = withPolicy policy inputs
  step := step

/-- Every call has returned. -/
def quiet (s : PowerProfiles) : Bool := s.calls.all UpdateCall.isReturned

/-- The calls that resolved since the inputs changed last. -/
def resolvedSince (h : List Nat) (_ : PowerProfiles) (label : PowerStep) (_ : PowerProfiles) : List Nat :=
  match label with
  | .modify _ => []
  | .resolve number => number :: h
  | _ => h

/-- The call that publishes last, with no other under way, resolved after the last
change. The others publish in any order. -/
def LastResolvedLast (h : List Nat) (s : PowerProfiles) : PowerStep → Bool
  | .publish number => !(s.setCall number .returned).quiet || decide (number ∈ h)
  | _ => true

/-- What each call is going to publish, and what is published between calls. -/
structure Published (h : List Nat) (s : PowerProfiles) : Prop where
  resolved : ∀ number ∈ h, ∀ profile, s.calls[number]? = some (.resolved profile) →
    profile = s.policy.resolve s.inputs
  quiet : s.quiet = true → s.profile = s.policy.resolve s.inputs

section Quiet
variable {s : PowerProfiles} {number : Nat} {call : UpdateCall}

theorem not_quiet_of_mem (member : call ∈ s.calls) (under_way : call.isReturned = false) : s.quiet = false := by
  rw [quiet, List.all_eq_false]
  exact ⟨call, member, by simp [under_way]⟩

theorem not_quiet_setCall {before : UpdateCall} (there : s.calls[number]? = some before)
    (under_way : call.isReturned = false) : (s.setCall number call).quiet = false := by
  have inside : number < s.calls.length := (List.getElem?_eq_some_iff.mp there).1
  exact not_quiet_of_mem (List.mem_set inside call) under_way

theorem getElem?_setCall {before : UpdateCall} (there : s.calls[number]? = some before) (other : Nat) :
    (s.setCall number call).calls[other]? = if number = other then some call else s.calls[other]? := by
  have inside : number < s.calls.length := (List.getElem?_eq_some_iff.mp there).1
  change (s.calls.set number call)[other]? = _
  rw [List.getElem?_set, if_pos inside]

end Quiet

namespace Published

variable {h : List Nat} {s s' : PowerProfiles} {number : Nat}

theorem start (policy : PowerPolicy) (inputs : PowerInputs) : Published [] (withPolicy policy inputs) where
  resolved number member := by simp at member
  quiet _ := rfl

theorem update (published : Published h s) (change : PowerInputs → PowerInputs) :
    Published h { s with calls := s.calls ++ [.called change] } := by
  constructor
  · intro number member profile there
    dsimp only at there
    rw [List.getElem?_append] at there
    split at there
    · exact published.resolved number member profile there
    · have new := List.mem_of_getElem? there
      exact absurd (List.mem_singleton.mp new) (by simp)
  · intro quiet
    have under_way : ({ s with calls := s.calls ++ [.called change] } : PowerProfiles).quiet = false :=
      not_quiet_of_mem (List.mem_append_right _ List.mem_cons_self) rfl
    rw [under_way] at quiet
    exact absurd quiet (by simp)

/-- Whatever was resolved before is overtaken. -/
theorem modify {change : PowerInputs → PowerInputs} (there : s.calls[number]? = some (.called change)) :
    Published [] ({ s with inputs := change s.inputs }.setCall number .modified) := by
  constructor
  · intro other member
    simp at member
  · intro quiet
    have at_call : ({ s with inputs := change s.inputs } : PowerProfiles).calls[number]? = some (.called change) := there
    rw [not_quiet_setCall at_call rfl] at quiet
    exact absurd quiet (by simp)

theorem resolve (published : Published h s) (there : s.calls[number]? = some .modified) :
    Published (number :: h) (s.setCall number (.resolved (s.policy.resolve s.inputs))) := by
  constructor
  · intro other member profile at_other
    rw [getElem?_setCall there] at at_other
    split at at_other
    · cases Option.some.inj at_other
      rfl
    · rename_i apart
      have before : other ∈ h := by
        obtain own | before := List.mem_cons.mp member
        · exact absurd own.symm apart
        · exact before
      exact published.resolved other before profile at_other
  · intro quiet
    rw [not_quiet_setCall there rfl] at quiet
    exact absurd quiet (by simp)

theorem publish {profile : PowerProfile} (published : Published h s)
    (there : s.calls[number]? = some (.resolved profile)) (last : LastResolvedLast h s (.publish number) = true) :
    Published h ((s.sendIfModified profile).setCall number .returned) := by
  have there_after : (s.sendIfModified profile).calls[number]? = some (.resolved profile) := there
  constructor
  · intro other member profile' at_other
    rw [getElem?_setCall there_after] at at_other
    split at at_other
    · exact absurd (Option.some.inj at_other) (by simp)
    · exact published.resolved other member profile' at_other
  · intro quiet
    have quiet_after : (s.setCall number .returned).quiet = true := quiet
    simp only [LastResolvedLast, quiet_after, Bool.not_true, Bool.false_or, decide_eq_true_eq] at last
    exact published.resolved number last profile there

theorem step {label : PowerStep} (published : Published h s) (last : LastResolvedLast h s label = true)
    (step : PowerProfiles.step s label = some s') : Published (resolvedSince h s label s') s' := by
  unfold PowerProfiles.step at step
  cases label with
  | update change =>
    cases Option.some.inj step
    exact published.update change
  | modify number =>
    dsimp only at step
    split at step
    · rename_i change there
      cases Option.some.inj step
      exact modify there
    · simp at step
  | resolve number =>
    dsimp only at step
    split at step
    · rename_i there
      cases Option.some.inj step
      exact published.resolve there
    · simp at step
  | publish number =>
    dsimp only at step
    split at step
    · rename_i profile there
      cases Option.some.inj step
      exact published.publish there last
    · simp at step

end Published

/-- Between calls the profile is that of the inputs, if the call that publishes
last is always one that resolved after the last change. -/
theorem run_converges {h : List Nat} {s : PowerProfiles}
    (run : machine.Run (fun h s label => LastResolvedLast h s label = true) resolvedSince [] h s) :
    s.quiet = true → s.profile = s.policy.resolve s.inputs := by
  have published : Published h s := by
    refine run.invariant (fun s first => ?_) fun h s label t _ published last step => published.step last step
    obtain ⟨policy, inputs, rfl⟩ := first
    exact .start policy inputs
  exact published.quiet

/-- The battery is low, and then the device is put on charge. -/
def lowThenCharged (before after : List PowerStep) : List PowerStep :=
  [.update fun inputs => { inputs with batteryPercent := some 8 }, .update fun inputs => { inputs with charging := true },
    .modify 0, .resolve 0] ++ before ++ [.modify 1, .resolve 1, .publish 1] ++ after

theorem run_converges_lowThenCharged : ∃ s : PowerProfiles, s.profile.mode = .performance ∧
    s.profile = s.policy.resolve s.inputs := by
  obtain ⟨h, s, run, kept⟩ := Machine.Run.exists_of_follow machine (fun h s label => LastResolvedLast h s label = true)
    resolvedSince [] (fun _ s => s.quiet && decide (s.profile.mode = .performance))
    (s := withPolicy {} {}) ⟨_, _, rfl⟩ (lowThenCharged [.publish 0] []) (by decide +kernel)
  rw [Bool.and_eq_true, decide_eq_true_eq] at kept
  exact ⟨s, kept.2, run_converges run kept.1⟩

/-- The first call publishes last. -/
theorem not_converges : ¬ ∀ s : PowerProfiles, machine.Reach s → s.quiet = true → s.profile = s.policy.resolve s.inputs := by
  intro claim
  obtain ⟨s, reach, kept⟩ := Machine.Reach.exists_of_follow machine
    (fun s : PowerProfiles => s.quiet && decide (s.profile ≠ s.policy.resolve s.inputs))
    (s := withPolicy {} {}) ⟨_, _, rfl⟩ (lowThenCharged [] [.publish 0]) (by decide +kernel)
  rw [Bool.and_eq_true, decide_eq_true_eq] at kept
  exact kept.2 (claim s reach kept.1)

end PowerProfiles

end BleGatt
