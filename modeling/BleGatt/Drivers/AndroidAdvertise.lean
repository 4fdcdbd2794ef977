import BleGatt.Drivers.LinuxServing
import BleGatt.Lib.TaskList

namespace BleGatt

/-! The server half of `AndroidDriver`: who writes `served_service`, and how
a start result reaches the call that waits for it. -/

/-- What a waiter on Android's start result is told. -/
inductive StartOutcome
  | started
  | refused (code : Int32)
  /-- The sender was dropped. -/
  | lost
  deriving DecidableEq

/-- `ADVERTISE_ERROR_STOPPED`. -/
def advertiseErrorStopped : Int32 := 102

inductive AttemptPhase
  /-- It awaits its start result, its guard armed. -/
  | waiting
  /-- It started and found its generation current. -/
  | current
  /-- Its future was dropped, and the task of its guard is to stop it. -/
  | abandoned
  | over
  deriving DecidableEq

/-- A call of `advertise` that held the lock. -/
structure Attempt where
  service : GattServiceSpec
  generation : Nat
  phase : AttemptPhase
  outcome : Option StartOutcome := none
  result : Option (Except BleError Unit) := none
  deriving DecidableEq

/-- A call of `update_advertisement` that holds the lock. -/
structure Update where
  service : GattServiceSpec
  outcome : Option StartOutcome := none
  deriving DecidableEq

/-- Whose sender `advertise_tx` has. -/
inductive StartWaiter
  | attempt (number : Nat)
  | update
  deriving DecidableEq

/-- How far a platform call came. -/
inductive JniCall
  /-- It failed before the waiter's sender was put in place. -/
  | unprepared (err : BleError)
  | failed (err : BleError)
  | issued
  deriving DecidableEq

/-- The server half of `Inner`. Attempts go by their number. -/
structure AndroidServer where
  servedService : Option GattServiceSpec := none
  advertiseGeneration : Nat := 0
  advertiseTx : Option StartWaiter := none
  attempts : List Attempt := []
  /-- `update_advertisement` keeps `advertise_lock` until its outcome. -/
  updating : Option Update := none
  deriving DecidableEq

inductive AdvertiseStep
  | advertise (service : GattServiceSpec) (call : JniCall)
  | onAdvertiseResult (success : Bool) (errorCode : Int32)
  /-- A call of `advertise` is polled with its result in. -/
  | resume (number : Nat)
  | record (number : Nat)
  /-- The future of a call is dropped. -/
  | cancel (number : Nat)
  /-- The task of its guard gets the lock. -/
  | cleanUp (number : Nat)
  | stopAdvertising
  | updateAdvertisement (service : GattServiceSpec) (call : JniCall)
  | resumeUpdate
  | cancelUpdate
  /-- `onRadioState` with anything but `on`. -/
  | radioLost
  deriving DecidableEq

namespace AndroidServer

def setAttempt (number : Nat) (attempt : Attempt) (s : AndroidServer) : AndroidServer :=
  { s with attempts := s.attempts.set number attempt }

/-- The sender in `advertise_tx`, if any, is taken out and used. -/
def resolve (outcome : StartOutcome) (s : AndroidServer) : AndroidServer :=
  match s.advertiseTx with
  | none => s
  | some (.attempt number) =>
    { s with
      advertiseTx := none
      attempts := s.attempts.modify number fun attempt => { attempt with outcome := some outcome } }
  | some .update =>
    { s with
      advertiseTx := none
      updating := s.updating.map fun update => { update with outcome := some outcome } }

/-- A new sender is put in `advertise_tx`, which drops the one it has. -/
def install (waiter : StartWaiter) (s : AndroidServer) : AndroidServer :=
  { s.resolve .lost with advertiseTx := some waiter }

/-- `advertise` under its lock. -/
def claim (service : GattServiceSpec) (call : JniCall) (s : AndroidServer) : AndroidServer :=
  let number := s.attempts.length
  let attempt : Attempt := { service := service, generation := s.advertiseGeneration + 1, phase := .waiting }
  let s := { s with advertiseGeneration := s.advertiseGeneration + 1, servedService := none }
  match call with
  | .unprepared err =>
    { s with attempts := s.attempts ++ [{ attempt with phase := .over, result := some (.error err) }] }
  | .failed err =>
    ({ s with attempts := s.attempts ++ [{ attempt with phase := .over, result := some (.error err) }] }).install
      (.attempt number)
  | .issued => ({ s with attempts := s.attempts ++ [attempt] }).install (.attempt number)

/-- `advertise`, which the lock lets run alone up to its wait. -/
def advertise (service : GattServiceSpec) (call : JniCall) (s : AndroidServer) : AndroidServer :=
  match service.validate with
  | .error _ => s
  | .ok () => s.claim service call

/-- `advertise` after its wait. -/
def resume (number : Nat) (attempt : Attempt) (outcome : StartOutcome) (s : AndroidServer) : AndroidServer :=
  match outcome with
  | .started =>
    if s.advertiseGeneration = attempt.generation then s.setAttempt number { attempt with phase := .current }
    else s.setAttempt number { attempt with phase := .over, result := some (.ok ()) }
  | .refused code =>
    let err := BleError.gatt s!"Android refused to start advertising (AdvertiseCallback error {code.toInt})"
    s.setAttempt number { attempt with phase := .over, result := some (.error err) }
  | .lost =>
    let err := BleError.gatt "advertise outcome was never reported"
    s.setAttempt number { attempt with phase := .over, result := some (.error err) }

/-- The second half of the current attempt's success: the check of the
generation is not made under the lock. -/
def record (number : Nat) (attempt : Attempt) (s : AndroidServer) : AndroidServer :=
  { s.setAttempt number { attempt with phase := .over, result := some (.ok ()) } with
    servedService := some attempt.service }

/-- What the guard of a dropped call has its task do. -/
def cleanUp (number : Nat) (attempt : Attempt) (s : AndroidServer) : AndroidServer :=
  let s := s.setAttempt number { attempt with phase := .over }
  if s.advertiseGeneration = attempt.generation then s.resolve (.refused advertiseErrorStopped) else s

def stopAdvertising (s : AndroidServer) : AndroidServer :=
  ({ s with servedService := none }).resolve (.refused advertiseErrorStopped)

/-- `update_advertisement` up to its wait. -/
def updateAdvertisement (service : GattServiceSpec) (call : JniCall) (s : AndroidServer) :
    Option (Except BleError Unit) × AndroidServer :=
  match service.validate with
  | .error err => (some (.error err), s)
  | .ok () =>
    if s.servedService.any fun served => served.sameService service then
      match call with
      | .unprepared err => (some (.error err), s)
      | .failed err => (some (.error err), s.install .update)
      | .issued => (none, { s.install .update with updating := some { service := service } })
    else
      (some (.error (.gatt
        s!"update_advertisement: not serving service {uuidText service.uuid.uuid} with these characteristics")), s)

/-- `update_advertisement` after its wait. -/
def resumeUpdate (update : Update) (outcome : StartOutcome) (s : AndroidServer) : Except BleError Unit × AndroidServer :=
  match outcome with
  | .started => (.ok (), { s with servedService := some update.service, updating := none })
  | .refused code =>
    (.error (.gatt s!"Android refused the updated advertisement (AdvertiseCallback error {code.toInt})"),
      { s with updating := none })
  | .lost => (.error (.gatt "advertisement update outcome was never reported"), { s with updating := none })

def step (s : AndroidServer) : AdvertiseStep → Option AndroidServer
  | .advertise service call => if s.updating.isNone then some (s.advertise service call) else none
  | .onAdvertiseResult success errorCode => some (s.resolve (if success then .started else .refused errorCode))
  | .resume number => do
    let attempt ← s.attempts[number]?.filter fun attempt => decide (attempt.phase = .waiting)
    let outcome ← attempt.outcome
    some (s.resume number attempt outcome)
  | .record number => do
    let attempt ← s.attempts[number]?.filter fun attempt => decide (attempt.phase = .current)
    some (s.record number attempt)
  | .cancel number => do
    let attempt ← s.attempts[number]?.filter fun attempt => decide (attempt.phase = .waiting)
    some (s.setAttempt number { attempt with phase := .abandoned })
  | .cleanUp number => do
    let attempt ← s.attempts[number]?.filter fun attempt => decide (attempt.phase = .abandoned)
    if s.updating.isNone then some (s.cleanUp number attempt) else none
  | .stopAdvertising => if s.updating.isNone then some s.stopAdvertising else none
  | .updateAdvertisement service call =>
    if s.updating.isNone then some (s.updateAdvertisement service call).2 else none
  | .resumeUpdate => do
    let update ← s.updating
    let outcome ← update.outcome
    some (s.resumeUpdate update outcome).2
  | .cancelUpdate => if s.updating.isSome then some { s with updating := none } else none
  | .radioLost => some (s.resolve (.refused advertiseErrorStopped))

/-- The driver's server, over every order of the calls' steps and Kotlin's
results. -/
def machine : Machine AndroidServer AdvertiseStep where
  Init s := s = {}
  step := step

end AndroidServer

/-- The start result of the attempt is in, and the call is still to record
it. -/
def Attempt.settling (generation : Nat) (attempt : Attempt) : Bool :=
  decide (attempt.phase = .current) ||
    decide (attempt.phase = .waiting) && decide (attempt.outcome = some .started) &&
      decide (attempt.generation = generation)

namespace AndroidServer

/-- No stop comes while a call is still to record its success. -/
def stopsSettled (s : AndroidServer) : AdvertiseStep → Bool
  | .stopAdvertising => s.attempts.all fun attempt => !attempt.settling s.advertiseGeneration
  | _ => true

/-- The attempts there were at the last stop, until a later one succeeds. -/
def noteStopped (stopped : Option Nat) (s : AndroidServer) (label : AdvertiseStep) (s' : AndroidServer) : Option Nat :=
  match label with
  | .stopAdvertising => some s.attempts.length
  | .resume number | .record number =>
    if s'.attempts[number]?.any fun attempt => decide (attempt.result = some (.ok ())) then
      stopped.filter fun before => decide (number < before)
    else stopped
  | _ => stopped

section Resolve

variable {s : AndroidServer} {outcome : StartOutcome} {waiter : StartWaiter} {n : Nat} {attempt : Attempt}

@[simp] theorem resolve_servedService : (s.resolve outcome).servedService = s.servedService := by
  unfold resolve
  split <;> rfl

@[simp] theorem resolve_advertiseGeneration : (s.resolve outcome).advertiseGeneration = s.advertiseGeneration := by
  unfold resolve
  split <;> rfl

@[simp] theorem resolve_advertiseTx : (s.resolve outcome).advertiseTx = none := by
  unfold resolve
  split
  · assumption
  · rfl
  · rfl

@[simp] theorem resolve_length : (s.resolve outcome).attempts.length = s.attempts.length := by
  unfold resolve
  split
  · rfl
  · exact List.length_modify ..
  · rfl

theorem resolve_idle (idle : s.updating = none) : (s.resolve outcome).updating = none := by
  unfold resolve
  split
  · exact idle
  · exact idle
  · simp [idle]

/-- Only the attempt whose sender it is hears of it. -/
theorem of_resolve (there : (s.resolve outcome).attempts[n]? = some attempt) :
    s.advertiseTx ≠ some (.attempt n) ∧ s.attempts[n]? = some attempt ∨
      s.advertiseTx = some (.attempt n) ∧
        ∃ before, s.attempts[n]? = some before ∧ attempt = { before with outcome := some outcome } := by
  unfold resolve at there
  split at there
  · rename_i none_there
    exact .inl ⟨by simp [none_there], there⟩
  · rename_i number has
    rcases TaskList.of_modify there with ⟨before, here, rfl, rfl⟩ | ⟨other, here⟩
    · exact .inr ⟨has, before, here, rfl⟩
    · refine .inl ⟨?_, here⟩
      rw [has]
      simp [Ne.symm other]
  · rename_i has
    exact .inl ⟨by simp [has], there⟩

theorem of_setAttempt {number : Nat} {changed found : Attempt}
    (there : (s.setAttempt number changed).attempts[n]? = some found) :
    n = number ∧ found = changed ∨ n ≠ number ∧ s.attempts[n]? = some found := TaskList.of_set there

end Resolve

/-- What a step does. -/
inductive Stepped (s : AndroidServer) : AdvertiseStep → AndroidServer → Prop
  | advertised (service : GattServiceSpec) (call : JniCall) (free : s.updating = none) :
      Stepped s (.advertise service call) (s.advertise service call)
  | told (success : Bool) (errorCode : Int32) : Stepped s (.onAdvertiseResult success errorCode)
      (s.resolve (if success then .started else .refused errorCode))
  | resumed {number : Nat} {attempt : Attempt} {outcome : StartOutcome} (here : s.attempts[number]? = some attempt)
      (phase : attempt.phase = .waiting) (heard : attempt.outcome = some outcome) :
      Stepped s (.resume number) (s.resume number attempt outcome)
  | recorded {number : Nat} {attempt : Attempt} (here : s.attempts[number]? = some attempt)
      (phase : attempt.phase = .current) : Stepped s (.record number) (s.record number attempt)
  | cancelled {number : Nat} {attempt : Attempt} (here : s.attempts[number]? = some attempt)
      (phase : attempt.phase = .waiting) :
      Stepped s (.cancel number) (s.setAttempt number { attempt with phase := .abandoned })
  | cleaned {number : Nat} {attempt : Attempt} (here : s.attempts[number]? = some attempt)
      (phase : attempt.phase = .abandoned) (free : s.updating = none) :
      Stepped s (.cleanUp number) (s.cleanUp number attempt)
  | stopped (free : s.updating = none) : Stepped s .stopAdvertising s.stopAdvertising
  | updated (service : GattServiceSpec) (call : JniCall) (free : s.updating = none) :
      Stepped s (.updateAdvertisement service call) (s.updateAdvertisement service call).2
  | updateResumed {update : Update} {outcome : StartOutcome} (here : s.updating = some update)
      (heard : update.outcome = some outcome) : Stepped s .resumeUpdate (s.resumeUpdate update outcome).2
  | updateCancelled {update : Update} (here : s.updating = some update) :
      Stepped s .cancelUpdate { s with updating := none }
  | radioLost : Stepped s .radioLost (s.resolve (.refused advertiseErrorStopped))

theorem step_cases {s s' : AndroidServer} {label : AdvertiseStep} (step : s.step label = some s') :
    Stepped s label s' := by
  unfold AndroidServer.step at step
  cases label with
  | advertise service call =>
    simp only [Option.ite_none_right_eq_some, Option.isNone_iff_eq_none, Option.some.injEq] at step
    obtain ⟨free, rfl⟩ := step
    exact .advertised service call free
  | onAdvertiseResult success errorCode =>
    cases Option.some.inj step
    exact .told success errorCode
  | resume number =>
    simp only [Option.bind_eq_bind, Option.bind_eq_some_iff, Option.filter_eq_some_iff, decide_eq_true_eq,
      Option.some.injEq] at step
    obtain ⟨attempt, ⟨here, phase⟩, outcome, heard, rfl⟩ := step
    exact .resumed here phase heard
  | record number =>
    simp only [Option.bind_eq_bind, Option.bind_eq_some_iff, Option.filter_eq_some_iff, decide_eq_true_eq,
      Option.some.injEq] at step
    obtain ⟨attempt, ⟨here, phase⟩, rfl⟩ := step
    exact .recorded here phase
  | cancel number =>
    simp only [Option.bind_eq_bind, Option.bind_eq_some_iff, Option.filter_eq_some_iff, decide_eq_true_eq,
      Option.some.injEq] at step
    obtain ⟨attempt, ⟨here, phase⟩, rfl⟩ := step
    exact .cancelled here phase
  | cleanUp number =>
    simp only [Option.bind_eq_bind, Option.bind_eq_some_iff, Option.filter_eq_some_iff, decide_eq_true_eq,
      Option.ite_none_right_eq_some, Option.isNone_iff_eq_none, Option.some.injEq] at step
    obtain ⟨attempt, ⟨here, phase⟩, free, rfl⟩ := step
    exact .cleaned here phase free
  | stopAdvertising =>
    simp only [Option.ite_none_right_eq_some, Option.isNone_iff_eq_none, Option.some.injEq] at step
    obtain ⟨free, rfl⟩ := step
    exact .stopped free
  | updateAdvertisement service call =>
    simp only [Option.ite_none_right_eq_some, Option.isNone_iff_eq_none, Option.some.injEq] at step
    obtain ⟨free, rfl⟩ := step
    exact .updated service call free
  | resumeUpdate =>
    simp only [Option.bind_eq_bind, Option.bind_eq_some_iff, Option.some.injEq] at step
    obtain ⟨update, here, outcome, heard, rfl⟩ := step
    exact .updateResumed here heard
  | cancelUpdate =>
    simp only [Option.ite_none_right_eq_some, Option.isSome_iff_exists, Option.some.injEq] at step
    obtain ⟨⟨update, here⟩, rfl⟩ := step
    exact .updateCancelled here
  | radioLost =>
    cases Option.some.inj step
    exact .radioLost

/-- A call that waits for its result has the sender, or is told. -/
structure Awaited (s : AndroidServer) : Prop where
  generation : ∀ (n : Nat) (attempt : Attempt), s.attempts[n]? = some attempt →
    attempt.generation ≤ s.advertiseGeneration
  sender : ∀ (n : Nat) (attempt : Attempt), s.attempts[n]? = some attempt → attempt.phase = .waiting →
    attempt.outcome = none → s.advertiseTx = some (.attempt n)

namespace Awaited

variable {s : AndroidServer}

theorem resolve (awaited : Awaited s) (outcome : StartOutcome) : Awaited (s.resolve outcome) := by
  constructor
  · intro n attempt there
    rw [resolve_advertiseGeneration]
    rcases of_resolve there with ⟨_, here⟩ | ⟨_, before, here, rfl⟩
    · exact awaited.generation n attempt here
    · exact awaited.generation n before here
  · intro n attempt there waiting unheard
    rcases of_resolve there with ⟨other, here⟩ | ⟨_, before, here, rfl⟩
    · exact absurd (awaited.sender n attempt here waiting unheard) other
    · simp at unheard

/-- An attempt that waits no more. -/
theorem moves (awaited : Awaited s) {number : Nat} {attempt : Attempt}
    (bound : attempt.generation ≤ s.advertiseGeneration) (moved : attempt.phase ≠ .waiting) :
    Awaited (s.setAttempt number attempt) := by
  constructor
  · intro n found there
    rcases of_setAttempt there with ⟨_, rfl⟩ | ⟨_, here⟩
    · exact bound
    · exact awaited.generation n found here
  · intro n found there waiting unheard
    rcases of_setAttempt there with ⟨_, rfl⟩ | ⟨_, here⟩
    · exact absurd waiting moved
    · exact awaited.sender n found here waiting unheard

/-- What only `advertise` writes is not read here. -/
theorem rest {s' : AndroidServer} (awaited : Awaited s) (generation : s'.advertiseGeneration = s.advertiseGeneration)
    (attempts : s'.attempts = s.attempts) (tx : s'.advertiseTx = s.advertiseTx) : Awaited s' :=
  ⟨by rw [attempts, generation]; exact awaited.generation, by rw [attempts, tx]; exact awaited.sender⟩

/-- A new sender is for the only call that may wait without one. -/
theorem install {waiter : StartWaiter}
    (generation : ∀ (n : Nat) (attempt : Attempt), s.attempts[n]? = some attempt →
      attempt.generation ≤ s.advertiseGeneration)
    (sender : ∀ (n : Nat) (attempt : Attempt), waiter ≠ .attempt n → s.attempts[n]? = some attempt →
      attempt.phase = .waiting → attempt.outcome = none → s.advertiseTx = some (.attempt n)) :
    Awaited (s.install waiter) := by
  constructor
  · intro n attempt there
    change attempt.generation ≤ (s.resolve .lost).advertiseGeneration
    rw [resolve_advertiseGeneration]
    rcases of_resolve there with ⟨_, here⟩ | ⟨_, before, here, rfl⟩
    · exact generation n attempt here
    · exact generation n before here
  · intro n attempt there waiting unheard
    change some waiter = some (.attempt n)
    by_contra other
    rcases of_resolve there with ⟨elsewhere, here⟩ | ⟨_, before, here, rfl⟩
    · exact elsewhere (sender n attempt (fun same => other (congrArg some same)) here waiting unheard)
    · simp at unheard

theorem claim (awaited : Awaited s) (service : GattServiceSpec) (call : JniCall) : Awaited (s.claim service call) := by
  have bound : ∀ {n : Nat} {attempt new : Attempt}, new.generation = s.advertiseGeneration + 1 →
      (s.attempts ++ [new])[n]? = some attempt → attempt.generation ≤ s.advertiseGeneration + 1 := by
    intro n attempt new fresh there
    rcases TaskList.of_append there with here | ⟨_, rfl⟩
    · exact (awaited.generation n attempt here).trans (Nat.le_succ _)
    · exact fresh.le
  cases call with
  | unprepared err =>
    refine ⟨fun n attempt there => bound rfl there, ?_⟩
    intro n attempt there waiting unheard
    rcases TaskList.of_append there with here | ⟨_, rfl⟩
    · exact awaited.sender n attempt here waiting unheard
    · simp at waiting
  | failed err =>
    refine Awaited.install (fun n attempt there => bound rfl there) ?_
    intro n attempt _ there waiting unheard
    rcases TaskList.of_append there with here | ⟨_, rfl⟩
    · exact awaited.sender n attempt here waiting unheard
    · simp at waiting
  | issued =>
    refine Awaited.install (fun n attempt there => bound rfl there) ?_
    intro n attempt other there waiting unheard
    rcases TaskList.of_append there with here | ⟨last, _⟩
    · exact awaited.sender n attempt here waiting unheard
    · exact absurd (congrArg StartWaiter.attempt last.symm) other

theorem step (awaited : Awaited s) {s' : AndroidServer} {label : AdvertiseStep} (step : s.step label = some s') :
    Awaited s' := by
  cases step_cases step with
  | advertised service call _ =>
    unfold AndroidServer.advertise
    split
    · exact awaited
    · exact awaited.claim service call
  | told success errorCode => exact awaited.resolve _
  | @resumed number attempt outcome here _ _ =>
    have bound := awaited.generation number attempt here
    unfold AndroidServer.resume
    cases outcome with
    | started =>
      dsimp only
      split
      · exact awaited.moves bound (by simp)
      · exact awaited.moves bound (by simp)
    | refused code => exact awaited.moves bound (by simp)
    | lost => exact awaited.moves bound (by simp)
  | @recorded number attempt here _ =>
    have moved : Awaited (s.setAttempt number { attempt with phase := .over, result := some (.ok ()) }) :=
      awaited.moves (awaited.generation number attempt here) (by simp)
    exact moved.rest rfl rfl rfl
  | @cancelled number attempt here _ => exact awaited.moves (awaited.generation number attempt here) (by simp)
  | @cleaned number attempt here _ _ =>
    have moved : Awaited (s.setAttempt number { attempt with phase := .over }) :=
      awaited.moves (awaited.generation number attempt here) (by simp)
    unfold AndroidServer.cleanUp
    dsimp only
    split
    · exact moved.resolve _
    · exact moved
  | stopped _ =>
    have cleared : Awaited { s with servedService := none } := awaited.rest rfl rfl rfl
    exact cleared.resolve _
  | updated service call _ =>
    have installed : Awaited (s.install .update) :=
      .install awaited.generation fun n attempt _ => awaited.sender n attempt
    unfold AndroidServer.updateAdvertisement
    split
    · exact awaited
    · split
      · split
        · exact awaited
        · exact installed
        · exact installed.rest rfl rfl rfl
      · exact awaited
  | @updateResumed update outcome _ _ => cases outcome <;> exact awaited.rest rfl rfl rfl
  | updateCancelled _ => exact awaited.rest rfl rfl rfl
  | radioLost => exact awaited.resolve _

theorem reach {s : AndroidServer} (reach : machine.Reach s) : Awaited s := by
  refine reach.invariant ?_ fun s label s' _ held => held.step
  rintro s rfl
  exact ⟨by simp, by simp⟩

end Awaited

/-- Nothing is served, and no attempt from before the stop will change that. -/
structure Stopped (before : Nat) (s : AndroidServer) : Prop where
  idle : s.servedService = none
  free : s.updating = none
  known : before ≤ s.attempts.length
  later : ∀ n : Nat, s.advertiseTx = some (.attempt n) → before ≤ n
  early : ∀ (n : Nat) (attempt : Attempt), n < before → s.attempts[n]? = some attempt →
    attempt.phase ≠ .current ∧ (attempt.phase = .waiting → ∃ outcome, attempt.outcome = some outcome ∧
      (outcome = .started → attempt.generation < s.advertiseGeneration))

namespace Stopped

variable {before : Nat} {s : AndroidServer}

theorem resolve (stopped : Stopped before s) (outcome : StartOutcome) : Stopped before (s.resolve outcome) where
  idle := resolve_servedService.trans stopped.idle
  free := resolve_idle stopped.free
  known := stopped.known.trans_eq resolve_length.symm
  later n has := by simp at has
  early n attempt early there := by
    rw [resolve_advertiseGeneration]
    rcases of_resolve there with ⟨_, here⟩ | ⟨has, _⟩
    · exact stopped.early n attempt early here
    · exact absurd (stopped.later n has) (Nat.not_le.mpr early)

/-- An attempt of before that waits no more, or any later one. -/
theorem moves (stopped : Stopped before s) {number : Nat} {attempt : Attempt}
    (moved : number < before → attempt.phase ≠ .current ∧ attempt.phase ≠ .waiting) :
    Stopped before (s.setAttempt number attempt) where
  idle := stopped.idle
  free := stopped.free
  known := stopped.known.trans_eq (List.length_set ..).symm
  later := stopped.later
  early n found early there := by
    rcases of_setAttempt there with ⟨rfl, rfl⟩ | ⟨_, here⟩
    · exact ⟨(moved early).1, fun waiting => absurd waiting (moved early).2⟩
    · exact stopped.early n found early here

theorem claim (stopped : Stopped before s) (service : GattServiceSpec) (call : JniCall) :
    Stopped before (s.claim service call) := by
  have opened : ∀ new : Attempt, Stopped before { s with
      servedService := none, advertiseGeneration := s.advertiseGeneration + 1, attempts := s.attempts ++ [new] } := by
    intro new
    refine ⟨rfl, stopped.free, by simp only [List.length_append]; exact Nat.le_add_right_of_le stopped.known,
      stopped.later, ?_⟩
    intro n attempt early there
    rcases TaskList.of_append there with here | ⟨last, _⟩
    · obtain ⟨settled, heard⟩ := stopped.early n attempt early here
      refine ⟨settled, fun waiting => ?_⟩
      obtain ⟨outcome, has, stale⟩ := heard waiting
      exact ⟨outcome, has, fun started => Nat.lt_succ_of_lt (stale started)⟩
    · exact absurd stopped.known (by omega)
  have installed : ∀ new : Attempt, Stopped before (({ s with
      servedService := none, advertiseGeneration := s.advertiseGeneration + 1,
      attempts := s.attempts ++ [new] } : AndroidServer).install (.attempt s.attempts.length)) := by
    intro new
    have dropped := (opened new).resolve .lost
    refine ⟨dropped.idle, dropped.free, dropped.known, ?_, dropped.early⟩
    intro n has
    cases has
    exact stopped.known
  cases call with
  | unprepared err => exact opened _
  | failed err => exact installed _
  | issued => exact installed _

/-- A stop while no success is still to be recorded. -/
theorem stop (awaited : Awaited s) (free : s.updating = none) (settled : s.stopsSettled .stopAdvertising = true) :
    Stopped s.attempts.length s.stopAdvertising where
  idle := resolve_servedService
  free := resolve_idle free
  known := by
    unfold stopAdvertising
    rw [resolve_length]
  later n has := by
    unfold stopAdvertising at has
    simp at has
  early n attempt _ there := by
    unfold stopAdvertising at there ⊢
    rw [resolve_advertiseGeneration]
    rcases of_resolve there with ⟨has, here⟩ | ⟨_, old, here, rfl⟩
    · have still := List.all_eq_true.mp settled attempt (List.mem_of_getElem? here)
      simp only [Attempt.settling, Bool.not_eq_true', Bool.or_eq_false_iff, Bool.and_eq_false_imp,
        decide_eq_false_iff_not, decide_eq_true_eq, Bool.and_eq_true, and_imp] at still
      refine ⟨still.1, fun waiting => ?_⟩
      cases heard : attempt.outcome with
      | none => exact absurd (awaited.sender n attempt here waiting heard) has
      | some outcome =>
        refine ⟨outcome, rfl, ?_⟩
        rintro rfl
        exact lt_of_le_of_ne (awaited.generation n attempt here) (still.2 waiting heard)
    · have still := List.all_eq_true.mp settled old (List.mem_of_getElem? here)
      simp only [Attempt.settling, Bool.not_eq_true', Bool.or_eq_false_iff, decide_eq_false_iff_not] at still
      exact ⟨still.1, fun _ => ⟨_, rfl, by simp⟩⟩

theorem step (awaited : Awaited s) (stopped : Stopped before s) {s' : AndroidServer} {label : AdvertiseStep}
    {after : Nat} (ok : s.stopsSettled label = true) (step : s.step label = some s')
    (still : noteStopped (some before) s label s' = some after) : Stopped after s' := by
  cases step_cases step with
  | advertised service call _ =>
    cases still
    unfold AndroidServer.advertise
    split
    · exact stopped
    · exact stopped.claim service call
  | told success errorCode =>
    cases still
    exact stopped.resolve _
  | @resumed number attempt outcome here phase heard =>
    obtain rfl : before = after := by
      unfold noteStopped at still
      dsimp only at still
      split at still
      · exact Option.some.inj (Option.filter_eq_some_iff.mp still).1
      · exact Option.some.inj still
    unfold AndroidServer.resume
    cases outcome with
    | started =>
      dsimp only
      split
      · rename_i same
        refine stopped.moves fun early => ?_
        obtain ⟨outcome, has, stale⟩ := (stopped.early number attempt early here).2 phase
        cases heard.symm.trans has
        exact absurd same (stale rfl).ne'
      · exact stopped.moves (by simp)
    | refused code => exact stopped.moves (by simp)
    | lost => exact stopped.moves (by simp)
  | @recorded number attempt here phase =>
    -- an attempt from before the stop is not here; a later one succeeds
    have early : ¬number < before := fun early => (stopped.early number attempt early here).1 phase
    have recorded : (s.record number attempt).attempts[number]? =
        some { attempt with phase := .over, result := some (.ok ()) } := TaskList.getElem?_set_self here
    simp only [noteStopped, recorded, Option.any_some, decide_true, if_true] at still
    obtain ⟨same, is_early⟩ := Option.filter_eq_some_iff.mp still
    cases Option.some.inj same
    exact absurd (of_decide_eq_true is_early) early
  | cancelled _ _ =>
    cases still
    exact stopped.moves (by simp)
  | @cleaned number attempt _ _ _ =>
    cases still
    have moved : Stopped before (s.setAttempt number { attempt with phase := .over }) := stopped.moves (by simp)
    unfold AndroidServer.cleanUp
    dsimp only
    split
    · exact moved.resolve _
    · exact moved
  | stopped free =>
    cases still
    exact stop awaited free ok
  | updated service call _ =>
    cases still
    unfold AndroidServer.updateAdvertisement
    split
    · exact stopped
    · rw [stopped.idle]
      exact stopped
  | updateResumed here _ =>
    rw [stopped.free] at here
    simp at here
  | updateCancelled here =>
    rw [stopped.free] at here
    simp at here
  | radioLost =>
    cases still
    exact stopped.resolve _

end Stopped

/-- Until a later `advertise` succeeds, a stop leaves nothing to advertise
again. -/
def StopHeld (stopped : Option Nat) (s : AndroidServer) : Prop :=
  stopped.isSome → s.servedService = none ∧ ∀ service : GattServiceSpec, service.recovery s.servedService = none

/-- In every run in which no stop comes while a call is still to record its
success, a stop holds. -/
theorem run_stopHeld {stopped : Option Nat} {s : AndroidServer}
    (run : machine.Run (fun _ s label => s.stopsSettled label = true) noteStopped none stopped s) :
    StopHeld stopped s := by
  have held : ∀ before, stopped = some before → Stopped before s := by
    refine run.invariant (P := fun stopped s => ∀ before, stopped = some before → Stopped before s) (by simp) ?_
    intro stopped s label s' earlier held ok step after still
    have awaited := Awaited.reach earlier.reach
    cases stopped with
    | some before => exact (held before rfl).step awaited ok step still
    | none =>
      cases step_cases step with
      | stopped free =>
        cases still
        exact .stop awaited free ok
      | resumed => simp [noteStopped] at still
      | recorded => simp [noteStopped] at still
      | _ => simp [noteStopped] at still
  intro since
  obtain ⟨before, rfl⟩ := Option.isSome_iff_exists.mp since
  have idle := (held before rfl).idle
  exact ⟨idle, fun service => by rw [idle]; rfl⟩

/-- A service is started, and is stopped before or after its call says so. -/
def startAndStop (stopFirst : Bool) : List AdvertiseStep :=
  let service : GattServiceSpec := { uuid := ⟨1⟩, characteristics := [] }
  [.advertise service .issued, .onAdvertiseResult true 0] ++
    if stopFirst then [.stopAdvertising, .resume 0, .record 0] else [.resume 0, .record 0, .stopAdvertising]

theorem run_stopHeld_recorded : ∃ s, StopHeld (some 1) s ∧
    s.attempts.any (fun attempt => decide (attempt.result = some (.ok ()))) = true := by
  obtain ⟨stopped, s, run, ended⟩ := Machine.Run.exists_of_follow machine
    (fun _ s label => s.stopsSettled label = true) noteStopped none
    (fun stopped s => decide (stopped = some 1) &&
      s.attempts.any fun attempt => decide (attempt.result = some (.ok ()))) rfl (startAndStop false) (by decide +kernel)
  simp only [Bool.and_eq_true, decide_eq_true_eq] at ended
  obtain ⟨rfl, recorded⟩ := ended
  exact ⟨s, run_stopHeld run, recorded⟩

/-- The call finds its generation current after the stop, and the service is
there to be advertised again. -/
theorem not_stopHeld : ¬ ∀ (stopped : Option Nat) (s : AndroidServer),
    machine.Run (fun _ _ _ => True) noteStopped none stopped s → StopHeld stopped s := by
  intro claim
  obtain ⟨stopped, s, run, served⟩ := Machine.Run.exists_of_follow machine (fun _ _ _ => True) noteStopped none
    (fun stopped s => stopped.isSome && s.servedService.isSome) rfl (startAndStop true) (by decide +kernel)
  simp only [Bool.and_eq_true] at served
  have idle := (claim stopped s run served.1).1
  rw [idle] at served
  simp at served

end AndroidServer

end BleGatt
