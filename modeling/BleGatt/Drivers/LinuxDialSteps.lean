import BleGatt.Drivers.LinuxDial
import BleGatt.Lib.KeyedLock

namespace BleGatt
open Std

/-! What each step of the dials and teardowns does, under which of its
guards, and who has the lock of each address. -/

/-- It may count on no quarantine of its address. -/
def ConnectPhase.clear : ConnectPhase → Bool
  | .cleared | .dialed | .reserved | .issued | .refused | .ending | .abandoned | .forgotten => true
  | _ => false

/-- If its address is in `dialed`, that is its own dial. -/
def ConnectPhase.dials : ConnectPhase → Bool
  | .dialed | .reserved | .issued | .abandoned => true
  | _ => false

namespace LinuxDialer

/-- What a step does. -/
inductive Stepped (s : LinuxDialer) : DialStep → LinuxDialer → Prop
  | same (label : DialStep) : Stepped s label s
  | called (address : PeerAddress) :
      Stepped s (.connect address) { s with connects := s.connects ++ [{ address := address }] }
  /-- A call of `connect` goes on by itself. -/
  | moved {label : DialStep} {number : Nat} {call : ConnectCall} (phase : ConnectPhase)
      (here : s.connects[number]? = some call) (accepted : phase.accepted = call.phase.accepted)
      (locks : phase.locks = call.phase.locks) (reserves : phase.reserves = call.phase.reserves)
      (clear : phase.clear = true → call.phase.clear = true) (dials : phase.dials = true → call.phase.dials = true)
      (forgets : phase ≠ .forgotten) : Stepped s label (s.setConnect number { call with phase := phase })
  | refused {number : Nat} {call : ConnectCall} (here : s.connects[number]? = some call) (phase : call.phase = .checked) :
      Stepped s (.proceed number) (s.setConnect number { call with phase := .over })
  | issued {number : Nat} {call : ConnectCall} (here : s.connects[number]? = some call) (phase : call.phase = .reserved) :
      Stepped s (.proceed number) (s.setConnect number { call with phase := .issued })
  | accepted {number : Nat} {call : ConnectCall} (here : s.connects[number]? = some call) (phase : call.phase = .checked)
      (free : call.address ∉ s.inFlight) :
      Stepped s (.proceed number)
        { s.setConnect number { call with phase := .settling } with inFlight := s.inFlight ++ [call.address] }
  | dropped {label : DialStep} {number : Nat} {call : ConnectCall} (here : s.connects[number]? = some call)
      (phase : call.phase = .settling ∨ call.phase = .locking) :
      Stepped s label (s.setConnect number { call with phase := .unlocked })
  | locked {number : Nat} {call : ConnectCall} (here : s.connects[number]? = some call) (phase : call.phase = .locking)
      (free : s.dialLock[call.address]? = none) :
      Stepped s (.proceed number)
        { s.setConnect number { call with phase := .locked } with
          dialLock := s.dialLock.insert call.address (.connect number) }
  | cleared {number : Nat} {call : ConnectCall} (here : s.connects[number]? = some call) (phase : call.phase = .locked)
      (unquarantined : call.address ∉ s.pendingCleanup) :
      Stepped s (.proceed number) (s.setConnect number { call with phase := .cleared })
  | dialed {number : Nat} {call : ConnectCall} (here : s.connects[number]? = some call) (phase : call.phase = .cleared) :
      Stepped s (.proceed number)
        { s.setConnect number { call with phase := .dialed, generation := s.nextSession } with
          nextSession := s.nextSession + 1
          dialed := s.dialed.insert call.address s.nextSession }
  | reserved {number : Nat} {call : ConnectCall} (here : s.connects[number]? = some call) (phase : call.phase = .dialed)
      (some_ : s.cleanupPermits ≠ 0) :
      Stepped s (.proceed number)
        { s.setConnect number { call with phase := .reserved } with cleanupPermits := s.cleanupPermits - 1 }
  /-- Its own entry is gone from `dialed`. -/
  | undialed {number : Nat} {call : ConnectCall} (phase : ConnectPhase) (dialed : PeerMap Nat)
      (here : s.connects[number]? = some call)
      (from_ : call.phase = .dialed ∧ phase = .releasing ∨ call.phase = .refused ∧ phase = .ending ∨
        call.phase = .abandoned ∧ phase = .forgotten)
      (fewer : ∀ (address : PeerAddress) (generation : Nat), dialed[address]? = some generation →
        s.dialed[address]? = some generation)
      (gone : dialed[call.address]? ≠ some call.generation) :
      Stepped s (.proceed number) { s.setConnect number { call with phase := phase } with dialed := dialed }
  | ended {number : Nat} {call : ConnectCall} (here : s.connects[number]? = some call) (phase : call.phase = .ending) :
      Stepped s (.proceed number)
        { s.setConnect number { call with phase := .releasing } with cleanupPermits := s.cleanupPermits + 1 }
  | quarantined {number : Nat} {call : ConnectCall} (here : s.connects[number]? = some call)
      (phase : call.phase = .forgotten) :
      Stepped s (.proceed number) ((s.quarantine number call).setConnect number { call with phase := .releasing })
  | unlocked {number : Nat} {call : ConnectCall} (here : s.connects[number]? = some call)
      (phase : call.phase = .releasing) :
      Stepped s (.proceed number) ((s.unlock call.address).setConnect number { call with phase := .unlocked })
  | finished {number : Nat} {call : ConnectCall} (here : s.connects[number]? = some call) (phase : call.phase = .unlocked) :
      Stepped s (.proceed number)
        { s.setConnect number { call with phase := .over } with inFlight := s.inFlight.erase call.address }
  | cleanupLocked {number : Nat} {cleanup : Cleanup} {device : Bool} (here : s.cleanups[number]? = some cleanup)
      (phase : cleanup.phase = .locking) (free : s.dialLock[cleanup.address]? = none) :
      Stepped s (.cleanUp number device)
        { s.setCleanup number { cleanup with phase := .locked } with
          dialLock := s.dialLock.insert cleanup.address (.cleanup number) }
  | cleanupChecked {number : Nat} {cleanup : Cleanup} {device : Bool} (here : s.cleanups[number]? = some cleanup)
      (phase : cleanup.phase = .locked) :
      Stepped s (.cleanUp number device) (s.setCleanup number { cleanup with phase := .checked })
  | superseded {number : Nat} {cleanup : Cleanup} {device : Bool} (here : s.cleanups[number]? = some cleanup)
      (phase : cleanup.phase = .locked) (newer : s.dialed[cleanup.address]?.isSome = true) :
      Stepped s (.cleanUp number device)
        ((s.unlock cleanup.address).setCleanup number { cleanup with phase := .lifting .newerDial })
  | cleanupIssued {number : Nat} {cleanup : Cleanup} {device : Bool} (here : s.cleanups[number]? = some cleanup)
      (phase : cleanup.phase = .checked) :
      Stepped s (.cleanUp number device)
        (((s.issueDisconnect cleanup.address (.cleanup number)).unlock cleanup.address).setCleanup number
          { cleanup with phase := .waiting s.disconnects.length })
  | noDevice {number : Nat} {cleanup : Cleanup} {device : Bool} (here : s.cleanups[number]? = some cleanup)
      (phase : cleanup.phase = .checked) :
      Stepped s (.cleanUp number device)
        ((s.unlock cleanup.address).setCleanup number { cleanup with phase := .lifting .noDevice })
  | cleaned {number call : Nat} {cleanup : Cleanup} {made : DisconnectCall} {result : DisconnectResult} {device : Bool}
      (here : s.cleanups[number]? = some cleanup) (phase : cleanup.phase = .waiting call)
      (out : s.disconnects[call]? = some made) (returned : made.result = some result) (clean : result.clean = true) :
      Stepped s (.cleanUp number device) (s.setCleanup number { cleanup with phase := .lifting (.clean call) })
  | cleanupRetried {number call : Nat} {cleanup : Cleanup} {made : DisconnectCall} {result : DisconnectResult}
      {device : Bool} (here : s.cleanups[number]? = some cleanup) (phase : cleanup.phase = .waiting call)
      (out : s.disconnects[call]? = some made) (returned : made.result = some result) :
      Stepped s (.cleanUp number device) (s.setCleanup number { cleanup with phase := .locking })
  | lifted {number : Nat} {cleanup : Cleanup} {reason : LiftReason} {device : Bool}
      (here : s.cleanups[number]? = some cleanup) (phase : cleanup.phase = .lifting reason) :
      Stepped s (.cleanUp number device)
        { s.setCleanup number { cleanup with phase := .lifted reason } with
          pendingCleanup := s.pendingCleanup.erase cleanup.address }
  | cleanupOver {number : Nat} {cleanup : Cleanup} {reason : LiftReason} {device : Bool}
      (here : s.cleanups[number]? = some cleanup) (phase : cleanup.phase = .lifted reason) :
      Stepped s (.cleanUp number device)
        { s.setCleanup number { cleanup with phase := .over reason } with cleanupPermits := s.cleanupPermits + 1 }
  | teardown (address : PeerAddress) (kind : TeardownKind) :
      Stepped s (.teardown address kind)
        { s with teardowns := s.teardowns ++ [{ address := address, kind := kind }] }
  | teardownLocked {number : Nat} {teardown : Teardown} {device : Bool} (here : s.teardowns[number]? = some teardown)
      (phase : teardown.phase = .locking) (free : s.dialLock[teardown.address]? = none) :
      Stepped s (.tearDown number device)
        { s.setTeardown number { teardown with phase := .locked } with
          dialLock := s.dialLock.insert teardown.address (.teardown number) }
  | teardownMoved {number : Nat} {teardown : Teardown} {device : Bool} (phase : TeardownPhase)
      (here : s.teardowns[number]? = some teardown) (locks : teardown.phase.locks = true)
      (unissued : ∀ call, teardown.phase ≠ .issued call) (next : phase = .admitting ∨ phase = .admitted) :
      Stepped s (.tearDown number device) (s.setTeardown number { teardown with phase := phase })
  | teardownIssued {number : Nat} {teardown : Teardown} {device : Bool} (here : s.teardowns[number]? = some teardown)
      (phase : teardown.phase = .admitted) :
      Stepped s (.tearDown number device)
        ((s.issueDisconnect teardown.address (.teardown number)).setTeardown number
          { teardown with phase := .issued s.disconnects.length })
  /-- A teardown ends, and leaves its lock if it has it. -/
  | tornDown {label : DialStep} {number : Nat} {teardown : Teardown} (dialed : PeerMap Nat)
      (here : s.teardowns[number]? = some teardown)
      (fewer : ∀ (address : PeerAddress) (generation : Nat), dialed[address]? = some generation →
        s.dialed[address]? = some generation)
      (answered : ∀ call, teardown.phase = .issued call → label = .giveUp number ∨
        ∃ made : DisconnectCall, s.disconnects[call]? = some made ∧ made.result.isSome = true) :
      Stepped s label
        { s.setTeardown number { teardown with phase := .over } with
          dialed := dialed
          dialLock := if teardown.phase.locks then s.dialLock.erase teardown.address else s.dialLock }
  | returned {call : Nat} {made : DisconnectCall} {result : DisconnectResult}
      (out : s.disconnects[call]? = some made) (silent : made.result = none) :
      Stepped s (.returns call result) { s with disconnects := s.disconnects.set call { made with result := some result } }
  | resolved {call : Nat} {made : DisconnectCall} (out : s.disconnects[call]? = some made) :
      Stepped s (.resolve call) { s with disconnects := s.disconnects.set call { made with resolved := true } }
  | lost {label : DialStep} (dialed : PeerMap Nat)
      (fewer : ∀ (address : PeerAddress) (generation : Nat), dialed[address]? = some generation →
        s.dialed[address]? = some generation) : Stepped s label { s with dialed := dialed }
  | served {label : DialStep} (served : PeerMap Nat) : Stepped s label { s with servedPeers := served }

section Steps

variable {s s' : LinuxDialer}

theorem undial_eq (address : PeerAddress) (generation : Nat) (s : LinuxDialer) :
    ∃ dialed, s.undial address generation = { s with dialed := dialed } ∧
      (∀ (other : PeerAddress) (found : Nat), dialed[other]? = some found → s.dialed[other]? = some found) ∧
        dialed[address]? ≠ some generation := by
  unfold undial
  split
  · refine ⟨_, rfl, fun other found there => ?_, ?_⟩
    · rw [FiniteMap.getElem?_erase] at there
      split at there
      · simp at there
      · exact there
    · rw [FiniteMap.getElem?_erase, if_pos rfl]
      simp
  · rename_i other
    exact ⟨s.dialed, rfl, fun _ _ there => there, other⟩

theorem lock_cases {address : PeerAddress} {task : DriverTask} {after : LinuxDialer}
    (locked : s.lock address task = some after) : s.dialLock[address]? = none ∧
      after = { s with dialLock := s.dialLock.insert address task } := by
  unfold lock at locked
  simp only [Option.ite_none_right_eq_some, Option.some.injEq] at locked
  exact ⟨locked.1, locked.2.symm⟩

theorem proceed_cases {number : Nat} {call : ConnectCall} (here : s.connects[number]? = some call)
    (moved : s.proceed number call = some s') : Stepped s (.proceed number) s' := by
  unfold proceed at moved
  split at moved
  · rename_i phase
    split at moved
    · cases Option.some.inj moved
      exact .refused here phase
    · rename_i free
      cases Option.some.inj moved
      exact .accepted here phase free
  · rename_i phase
    cases Option.some.inj moved
    exact .moved .locking here (by rw [phase]; rfl) (by rw [phase]; rfl) (by rw [phase]; rfl)
      (fun clear => absurd clear (by decide)) (fun dials => absurd dials (by decide)) (by decide)
  · rename_i phase
    obtain ⟨taken, locked, rfl⟩ := Option.map_eq_some_iff.mp moved
    obtain ⟨free, rfl⟩ := lock_cases locked
    exact .locked here phase free
  · rename_i phase
    split at moved
    · cases Option.some.inj moved
      exact .moved .releasing here (by rw [phase]; rfl) (by rw [phase]; rfl) (by rw [phase]; rfl)
        (fun clear => absurd clear (by decide)) (fun dials => absurd dials (by decide)) (by decide)
    · rename_i unquarantined
      cases Option.some.inj moved
      exact .cleared here phase unquarantined
  · rename_i phase
    cases Option.some.inj moved
    exact .dialed here phase
  · rename_i phase
    split at moved
    · cases Option.some.inj moved
      obtain ⟨dialed, same, fewer, gone⟩ := undial_eq call.address call.generation s
      rw [same]
      exact .undialed .releasing dialed here (.inl ⟨phase, rfl⟩) fewer gone
    · rename_i some_
      cases Option.some.inj moved
      exact .reserved here phase some_
  · rename_i phase
    cases Option.some.inj moved
    exact .issued here phase
  · simp at moved
  · rename_i phase
    cases Option.some.inj moved
    obtain ⟨dialed, same, fewer, gone⟩ := undial_eq call.address call.generation s
    rw [same]
    exact .undialed .ending dialed here (.inr (.inl ⟨phase, rfl⟩)) fewer gone
  · rename_i phase
    cases Option.some.inj moved
    exact .ended here phase
  · rename_i phase
    cases Option.some.inj moved
    obtain ⟨dialed, same, fewer, gone⟩ := undial_eq call.address call.generation s
    rw [same]
    exact .undialed .forgotten dialed here (.inr (.inr ⟨phase, rfl⟩)) fewer gone
  · rename_i phase
    cases Option.some.inj moved
    exact .quarantined here phase
  · rename_i phase
    cases Option.some.inj moved
    exact .unlocked here phase
  · rename_i phase
    cases Option.some.inj moved
    exact .finished here phase
  · simp at moved

theorem cleanUp_cases {number : Nat} {cleanup : Cleanup} {device : Bool} (here : s.cleanups[number]? = some cleanup)
    (moved : s.cleanUp number cleanup device = some s') : Stepped s (.cleanUp number device) s' := by
  unfold cleanUp at moved
  split at moved
  · rename_i phase
    obtain ⟨taken, locked, rfl⟩ := Option.map_eq_some_iff.mp moved
    obtain ⟨free, rfl⟩ := lock_cases locked
    exact .cleanupLocked here phase free
  · rename_i phase
    split at moved
    · rename_i newer
      cases Option.some.inj moved
      exact .superseded here phase newer
    · cases Option.some.inj moved
      exact .cleanupChecked here phase
  · rename_i phase
    split at moved
    · cases Option.some.inj moved
      exact .cleanupIssued here phase
    · cases Option.some.inj moved
      exact .noDevice here phase
  · rename_i call phase
    obtain ⟨made, out, moved⟩ := Option.bind_eq_some_iff.mp moved
    obtain ⟨result, returned, moved⟩ := Option.bind_eq_some_iff.mp moved
    split at moved
    · rename_i clean
      cases Option.some.inj moved
      exact .cleaned here phase out returned clean
    · cases Option.some.inj moved
      exact .cleanupRetried here phase out returned
  · rename_i reason phase
    cases Option.some.inj moved
    exact .lifted here phase
  · rename_i reason phase
    cases Option.some.inj moved
    exact .cleanupOver here phase
  · simp at moved

theorem leaveLink_eq (teardown : Teardown) (s : LinuxDialer) :
    ∃ dialed, s.leaveLink teardown = { s with dialed := dialed } ∧
      ∀ (other : PeerAddress) (found : Nat), dialed[other]? = some found → s.dialed[other]? = some found := by
  unfold leaveLink
  split
  · rename_i session _
    obtain ⟨dialed, same, fewer, _⟩ := undial_eq teardown.address session s
    exact ⟨dialed, same, fewer⟩
  · exact ⟨s.dialed, rfl, fun _ _ there => there⟩

theorem endTeardown_eq (number : Nat) (teardown : Teardown) (s : LinuxDialer) : s.endTeardown number teardown =
    { s.setTeardown number { teardown with phase := .over } with
      dialLock := if teardown.phase.locks then s.dialLock.erase teardown.address else s.dialLock } := by
  unfold endTeardown
  split <;> rfl

theorem tearDown_cases {number : Nat} {teardown : Teardown} {device : Bool}
    (here : s.teardowns[number]? = some teardown) (moved : s.tearDown number teardown device = some s') :
    Stepped s (.tearDown number device) s' := by
  have ends : ∀ dialed : PeerMap Nat, (∀ (other : PeerAddress) (found : Nat), dialed[other]? = some found →
      s.dialed[other]? = some found) → (∀ call, teardown.phase ≠ .issued call) →
        Stepped s (.tearDown number device) ({ s with dialed := dialed }.endTeardown number teardown) := by
    intro dialed fewer unissued
    rw [endTeardown_eq]
    exact .tornDown dialed here fewer fun call issued => absurd issued (unissued call)
  unfold tearDown at moved
  split at moved
  · rename_i phase
    obtain ⟨taken, locked, rfl⟩ := Option.map_eq_some_iff.mp moved
    obtain ⟨free, rfl⟩ := lock_cases locked
    exact .teardownLocked here phase free
  · rename_i phase
    have locks : teardown.phase.locks = true := by rw [phase]; rfl
    have unissued : ∀ call, teardown.phase ≠ .issued call := by simp [phase]
    split at moved
    · split at moved
      · cases Option.some.inj moved
        exact .teardownMoved .admitting here locks unissued (.inl rfl)
      · cases Option.some.inj moved
        exact ends s.dialed (fun _ _ there => there) unissued
    · cases Option.some.inj moved
      exact .teardownMoved .admitting here locks unissued (.inl rfl)
    · cases Option.some.inj moved
      exact .teardownMoved .admitted here locks unissued (.inr rfl)
    · cases Option.some.inj moved
      exact .teardownMoved .admitted here locks unissued (.inr rfl)
  · rename_i phase
    cases Option.some.inj moved
    exact .teardownMoved .admitted here (by rw [phase]; rfl) (by simp [phase]) (.inr rfl)
  · rename_i phase
    have unissued : ∀ call, teardown.phase ≠ .issued call := by simp [phase]
    split at moved
    · split at moved
      · cases Option.some.inj moved
        exact .teardownIssued here phase
      · cases Option.some.inj moved
        exact ends s.dialed (fun _ _ there => there) unissued
    · cases Option.some.inj moved
      obtain ⟨dialed, same, fewer⟩ := leaveLink_eq teardown s
      rw [same]
      exact ends dialed fewer unissued
  · rename_i call phase
    obtain ⟨made, out, moved⟩ := Option.bind_eq_some_iff.mp moved
    split at moved
    · rename_i returned
      cases Option.some.inj moved
      rw [endTeardown_eq]
      refine .tornDown s.dialed here (fun _ _ there => there) fun other issued => .inr ⟨made, ?_, returned⟩
      cases phase.symm.trans issued
      exact out
    · simp at moved
  · simp at moved

theorem step_cases {label : DialStep} (step : s.step label = some s') : Stepped s label s' := by
  unfold LinuxDialer.step at step
  cases label with
  | connect address =>
    cases Option.some.inj step
    unfold connect
    split
    · exact .same _
    · exact .called address
  | proceed number =>
    obtain ⟨call, here, moved⟩ := Option.bind_eq_some_iff.mp step
    exact proceed_cases here moved
  | answer number ok =>
    obtain ⟨call, here, moved⟩ := Option.bind_eq_some_iff.mp step
    obtain ⟨here, phase⟩ := Option.filter_eq_some_iff.mp here
    rw [decide_eq_true_eq] at phase
    cases Option.some.inj moved
    cases ok with
    | false =>
      exact .moved .refused here (by rw [phase]; rfl) (by rw [phase]; rfl) (by rw [phase]; rfl)
        (fun _ => by rw [phase]; rfl) (fun dials => absurd dials (by decide)) (by decide)
    | true =>
      exact .moved .ending here (by rw [phase]; rfl) (by rw [phase]; rfl) (by rw [phase]; rfl)
        (fun _ => by rw [phase]; rfl) (fun dials => absurd dials (by decide)) (by decide)
  | abandon number =>
    obtain ⟨call, here, moved⟩ := Option.bind_eq_some_iff.mp step
    unfold abandon at moved
    split at moved
    · rename_i phase
      cases Option.some.inj moved
      exact .dropped here (.inl phase)
    · rename_i phase
      cases Option.some.inj moved
      exact .dropped here (.inr phase)
    · rename_i phase
      cases Option.some.inj moved
      exact .moved .abandoned here (by rw [phase]; rfl) (by rw [phase]; rfl) (by rw [phase]; rfl)
        (fun _ => by rw [phase]; rfl) (fun _ => by rw [phase]; rfl) (by decide)
    · simp at moved
  | cleanUp number device =>
    obtain ⟨cleanup, here, moved⟩ := Option.bind_eq_some_iff.mp step
    exact cleanUp_cases here moved
  | teardown address kind =>
    cases Option.some.inj step
    exact .teardown address kind
  | tearDown number device =>
    obtain ⟨teardown, here, moved⟩ := Option.bind_eq_some_iff.mp step
    exact tearDown_cases here moved
  | giveUp number =>
    obtain ⟨teardown, here, moved⟩ := Option.bind_eq_some_iff.mp step
    obtain ⟨here, _⟩ := Option.filter_eq_some_iff.mp here
    cases Option.some.inj moved
    rw [endTeardown_eq]
    exact .tornDown s.dialed here (fun _ _ there => there) fun _ _ => .inl rfl
  | returns call result =>
    obtain ⟨made, out, moved⟩ := Option.bind_eq_some_iff.mp step
    obtain ⟨out, silent⟩ := Option.filter_eq_some_iff.mp out
    rw [Bool.and_eq_true, Option.isNone_iff_eq_none] at silent
    cases Option.some.inj moved
    exact .returned out silent.1
  | resolve call =>
    obtain ⟨made, out, moved⟩ := Option.bind_eq_some_iff.mp step
    cases Option.some.inj moved
    exact .resolved out
  | reportCentralLoss address generation =>
    cases Option.some.inj step
    obtain ⟨dialed, same, fewer, _⟩ := undial_eq address generation s
    rw [same]
    exact .lost dialed fewer
  | serve address session =>
    cases Option.some.inj step
    exact .served _

end Steps

/-- The address whose lock a task has. -/
def held (s : LinuxDialer) : DriverTask → Option PeerAddress
  | .connect n => s.connects[n]?.bind fun call => if call.phase.locks then some call.address else none
  | .cleanup n => s.cleanups[n]?.bind fun cleanup => if cleanup.phase.locks then some cleanup.address else none
  | .teardown n => s.teardowns[n]?.bind fun teardown => if teardown.phase.locks then some teardown.address else none

def Exclusive (s : LinuxDialer) : Prop := KeyedLock.Owned s.held fun address => s.dialLock[address]?

section Held

variable {s : LinuxDialer} {number : Nat} {call call' : ConnectCall} {cleanup cleanup' : Cleanup}
  {teardown teardown' : Teardown}

theorem held_connect (here : s.connects[number]? = some call) :
    s.held (.connect number) = if call.phase.locks then some call.address else none := by
  simp only [held, here, Option.bind_some]

theorem held_cleanup (here : s.cleanups[number]? = some cleanup) :
    s.held (.cleanup number) = if cleanup.phase.locks then some cleanup.address else none := by
  simp only [held, here, Option.bind_some]

theorem held_teardown (here : s.teardowns[number]? = some teardown) :
    s.held (.teardown number) = if teardown.phase.locks then some teardown.address else none := by
  simp only [held, here, Option.bind_some]

theorem held_setConnect (here : s.connects[number]? = some call) : (s.setConnect number call').held =
    Function.update s.held (.connect number) (if call'.phase.locks then some call'.address else none) := by
  funext task
  rw [Function.update_apply]
  cases task with
  | connect n => simp only [held, LinuxDialer.setConnect, TaskList.bind_set _ here, DriverTask.connect.injEq]
  | _ => rfl

theorem held_setCleanup (here : s.cleanups[number]? = some cleanup) : (s.setCleanup number cleanup').held =
    Function.update s.held (.cleanup number) (if cleanup'.phase.locks then some cleanup'.address else none) := by
  funext task
  rw [Function.update_apply]
  cases task with
  | cleanup n => simp only [held, LinuxDialer.setCleanup, TaskList.bind_set _ here, DriverTask.cleanup.injEq]
  | _ => rfl

theorem held_setTeardown (here : s.teardowns[number]? = some teardown) : (s.setTeardown number teardown').held =
    Function.update s.held (.teardown number) (if teardown'.phase.locks then some teardown'.address else none) := by
  funext task
  rw [Function.update_apply]
  cases task with
  | teardown n => simp only [held, LinuxDialer.setTeardown, TaskList.bind_set _ here, DriverTask.teardown.injEq]
  | _ => rfl

end Held

namespace Exclusive

variable {s s' : LinuxDialer} {number : Nat} {call call' : ConnectCall} {cleanup cleanup' : Cleanup}
  {teardown teardown' : Teardown} {task : DriverTask} {address : PeerAddress}

theorem setConnect (owned : Exclusive s) (here : s.connects[number]? = some call)
    (address : call'.address = call.address) (locks : call'.phase.locks = call.phase.locks) :
    Exclusive (s.setConnect number call') := by
  unfold Exclusive
  rw [held_setConnect here, address, locks, ← held_connect here, Function.update_eq_self]
  exact owned

theorem setCleanup (owned : Exclusive s) (here : s.cleanups[number]? = some cleanup)
    (address : cleanup'.address = cleanup.address) (locks : cleanup'.phase.locks = cleanup.phase.locks) :
    Exclusive (s.setCleanup number cleanup') := by
  unfold Exclusive
  rw [held_setCleanup here, address, locks, ← held_cleanup here, Function.update_eq_self]
  exact owned

theorem setTeardown (owned : Exclusive s) (here : s.teardowns[number]? = some teardown)
    (address : teardown'.address = teardown.address) (locks : teardown'.phase.locks = teardown.phase.locks) :
    Exclusive (s.setTeardown number teardown') := by
  unfold Exclusive
  rw [held_setTeardown here, address, locks, ← held_teardown here, Function.update_eq_self]
  exact owned

/-- A task takes a free lock. -/
theorem take (owned : Exclusive s) (free : s.dialLock[address]? = none)
    (taken : s'.held = Function.update s.held task (some address))
    (table : s'.dialLock = s.dialLock.insert address task) : Exclusive s' := by
  unfold Exclusive
  rw [taken, table, FiniteMap.insert_eq_update]
  exact KeyedLock.Owned.take owned free

/-- A task leaves its lock. -/
theorem leave (owned : Exclusive s) (mine : s.held task = some address)
    (left : s'.held = Function.update s.held task none) (table : s'.dialLock = s.dialLock.erase address) :
    Exclusive s' := by
  unfold Exclusive
  rw [left, table, FiniteMap.erase_eq_update]
  exact KeyedLock.Owned.leave owned mine

/-- A task that has no lock is started. -/
theorem start (owned : Exclusive s) (same : s'.held = s.held) (table : s'.dialLock = s.dialLock) : Exclusive s' := by
  unfold Exclusive
  rw [same, table]
  exact owned

theorem step {label : DialStep} (owned : Exclusive s) (stepped : Stepped s label s') : Exclusive s' := by
  cases stepped with
  | called at_ =>
    refine owned.start (funext fun task => ?_) rfl
    cases task with
    | connect n => exact TaskList.bind_append rfl
    | _ => rfl
  | moved phase here accepted locks => exact owned.setConnect here rfl locks
  | refused here phase | issued here phase | accepted here phase | cleared here phase | dialed here phase
  | reserved here phase | ended here phase | finished here phase =>
    exact owned.setConnect here rfl (by rw [phase]; rfl)
  | dropped here phase =>
    refine owned.setConnect here rfl ?_
    rcases phase with phase | phase <;> rw [phase] <;> rfl
  | locked here phase free => exact owned.take free (held_setConnect here) rfl
  | undialed phase dialed here from_ =>
    refine owned.setConnect here rfl ?_
    rcases from_ with ⟨was, rfl⟩ | ⟨was, rfl⟩ | ⟨was, rfl⟩ <;> rw [was] <;> rfl
  | @quarantined number call here phase =>
    have moved : Exclusive (s.setConnect number { call with phase := .releasing }) :=
      owned.setConnect here rfl (by rw [phase]; rfl)
    refine moved.start (funext fun task => ?_) rfl
    cases task with
    | cleanup n => exact TaskList.bind_append rfl
    | _ => rfl
  | unlocked here phase =>
    refine owned.leave ?_ (held_setConnect here) rfl
    rw [held_connect here, phase]
    rfl
  | cleanupLocked here phase free => exact owned.take free (held_setCleanup here) rfl
  | cleanupChecked here phase | cleaned here phase | cleanupRetried here phase | lifted here phase
  | cleanupOver here phase =>
    exact owned.setCleanup here rfl (by rw [phase]; rfl)
  | superseded here phase | cleanupIssued here phase | noDevice here phase =>
    refine owned.leave ?_ (held_setCleanup here) rfl
    rw [held_cleanup here, phase]
    rfl
  | teardown at_ kind =>
    refine owned.start (funext fun task => ?_) rfl
    cases task with
    | teardown n => exact TaskList.bind_append rfl
    | _ => rfl
  | teardownLocked here phase free => exact owned.take free (held_setTeardown here) rfl
  | teardownMoved phase here locks unissued next =>
    refine owned.setTeardown here rfl ?_
    rw [locks]
    rcases next with rfl | rfl <;> rfl
  | teardownIssued here phase => exact owned.setTeardown here rfl (by rw [phase]; rfl)
  | @tornDown _ number teardown dialed here =>
    cases locks : teardown.phase.locks with
    | true =>
      refine owned.leave ?_ (held_setTeardown here) rfl
      rw [held_teardown here, locks]
      rfl
    | false => exact owned.setTeardown here rfl locks.symm
  | _ => exact owned

theorem turn_take (free : s.dialLock[address]? = none) (table : s'.dialLock = s.dialLock.insert address task) :
    KeyedLock.Turn (fun other : PeerAddress => s.dialLock[other]?) fun other => s'.dialLock[other]? := by
  rw [table, FiniteMap.insert_eq_update]
  exact .take free

theorem turn_leave (owned : Exclusive s) (mine : s.held task = some address)
    (table : s'.dialLock = s.dialLock.erase address) :
    KeyedLock.Turn (fun other : PeerAddress => s.dialLock[other]?) fun other => s'.dialLock[other]? := by
  rw [table, FiniteMap.erase_eq_update]
  exact .leave (owned task address mine)

/-- Each step takes the locks and leaves them as their map with its mutexes
allows. -/
theorem turn {label : DialStep} (owned : Exclusive s) (stepped : Stepped s label s') :
    KeyedLock.Turn (fun other : PeerAddress => s.dialLock[other]?) fun other => s'.dialLock[other]? := by
  cases stepped with
  | locked here phase free => exact turn_take free rfl
  | cleanupLocked here phase free => exact turn_take free rfl
  | teardownLocked here phase free => exact turn_take free rfl
  | unlocked here phase =>
    exact owned.turn_leave ((held_connect here).trans (by rw [phase]; rfl)) rfl
  | superseded here phase | cleanupIssued here phase | noDevice here phase =>
    exact owned.turn_leave ((held_cleanup here).trans (by rw [phase]; rfl)) rfl
  | @tornDown _ number teardown dialed here =>
    cases locks : teardown.phase.locks with
    | true =>
      exact owned.turn_leave ((held_teardown here).trans (by rw [locks]; rfl)) rfl
    | false => exact .stay
  | _ => exact .stay

end Exclusive

end LinuxDialer

end BleGatt
