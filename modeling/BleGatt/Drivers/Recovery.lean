import BleGatt.Drivers.LinuxServing
import BleGatt.Lib.TaskList

namespace BleGatt

namespace LinuxDriver

variable {d : LinuxDriver} {spec : GattServiceSpec} {refused : Option String}

theorem beginAdvertise_cases :
    ((∃ err, spec.validate = .error err) ∧ ∃ err, d.beginAdvertise spec = .error err) ∨
    (spec.validate = .ok () ∧ d.beginAdvertise spec = .ok (d.openRegistration spec)) := by
  unfold beginAdvertise
  cases spec.validate with
  | error err => exact .inl ⟨⟨err, rfl⟩, err, rfl⟩
  | ok => exact .inr ⟨rfl, rfl⟩

theorem beginAdvertise_valid (valid : spec.validate = .ok ()) :
    d.beginAdvertise spec = .ok (d.openRegistration spec) := by
  simp only [beginAdvertise, valid]

theorem Idle.openRegistration (idle : d.Idle) : (d.openRegistration spec).Idle :=
  ⟨rfl, idle.appHandle, idle.advHandle⟩

theorem Idle.updateAdvertisement (idle : d.Idle) : (d.updateAdvertisement spec refused).1 = d := by
  unfold LinuxDriver.updateAdvertisement
  cases spec.validate with
  | error err => rfl
  | ok => simp only [idle.servedService, Option.any_none, Bool.false_eq_true, if_false]

/-- An update is refused and keeps the served service, or it was of the
service served and replaces its data. -/
theorem updateAdvertisement_cases :
    ((∃ err, (d.updateAdvertisement spec refused).2 = .error err) ∧
      (d.updateAdvertisement spec refused).1.servedService = d.servedService) ∨
    (spec.validate = .ok () ∧ (d.updateAdvertisement spec refused).2 = .ok () ∧
      (d.updateAdvertisement spec refused).1.servedService = some spec) := by
  unfold updateAdvertisement
  split
  · rename_i err invalid
    exact .inl ⟨⟨err, rfl⟩, rfl⟩
  · rename_i valid
    split
    · cases refused with
      | none => exact .inr ⟨valid, rfl, rfl⟩
      | some reason => exact .inl ⟨⟨_, rfl⟩, rfl⟩
    · exact .inl ⟨⟨_, rfl⟩, rfl⟩

end LinuxDriver

namespace Serving

variable {s t : Serving} {number : Nat} {task : RecoveryTask} {caller : Advertiser} {call : Registration}
  {spec : GattServiceSpec}

/-- The service a task read, until its `advertise` of it is through. -/
def pendingOf (number : Nat) (s : Serving) : Option GattServiceSpec := s.tasks[number]?.bind RecoveryTask.pending

@[simp] theorem setTask_driver : (s.setTask number task).driver = s.driver := rfl
@[simp] theorem setTask_registration : (s.setTask number task).registration = s.registration := rfl
@[simp] theorem settleTask_driver : (s.settleTask number).driver = s.driver := rfl
@[simp] theorem settleTask_registration : (s.settleTask number).registration = s.registration := rfl

@[simp] theorem settle_driver (done : Bool) : (s.settle caller spec done).driver = s.driver := by
  unfold settle
  cases caller <;> cases done <;> rfl

@[simp] theorem settle_registration (done : Bool) : (s.settle caller spec done).registration = s.registration := by
  unfold settle
  cases caller <;> cases done <;> rfl

theorem pendingOf_setTask (known : s.tasks[number]?.isSome) (other : Nat) :
    (s.setTask number task).pendingOf other = if other = number then task.pending else s.pendingOf other := by
  obtain ⟨inside, -⟩ := List.getElem?_eq_some_iff.mp (Option.eq_some_of_isSome known)
  unfold pendingOf setTask
  by_cases same : number = other
  · subst same
    simp [inside]
  · simp [List.getElem?_set_ne same, Ne.symm same]

/-- A task that ends keeps what it is about to advertise. -/
theorem pendingOf_retired (known : s.tasks[number]? = some task) (other : Nat) :
    (s.setTask number { task with live := false }).pendingOf other = s.pendingOf other := by
  rw [pendingOf_setTask (Option.isSome_of_eq_some known)]
  split
  · rename_i same
    simp [pendingOf, same, known]
  · rfl

theorem pendingOf_settleTask (other : Nat) :
    (s.settleTask number).pendingOf other = if number = other then none else s.pendingOf other := by
  simp only [pendingOf, settleTask, List.getElem?_modify]
  cases s.tasks[other]? <;> split <;> rfl

/-- No task reads anything as a call is settled. -/
theorem pending_of_settle {done : Bool} {other : Nat}
    (pending : ((s.settle caller spec done).pendingOf other).isSome) : (s.pendingOf other).isSome := by
  unfold settle at pending
  cases caller with
  | serve kind =>
    dsimp only at pending
    split at pending
    · simp only [pendingOf, List.getElem?_append] at pending
      split at pending
      · exact pending
      · rename_i outside
        rw [List.getElem?_singleton] at pending
        split at pending <;> simp at pending
    · exact pending
  | application => exact pending
  | recovery number =>
    rw [pendingOf_settleTask] at pending
    split at pending
    · simp at pending
    · exact pending

/-- What getting the lock for an `advertise` does. -/
theorem advertise_cases (called : s.advertise caller spec = some t) :
    ((∃ err, spec.validate = .error err) ∧ t = s.settle caller spec false) ∨
    (spec.validate = .ok () ∧ s.registration = none ∧
      t = { s with driver := s.driver.openRegistration spec, registration := some { caller := caller, spec := spec } }) := by
  unfold advertise at called
  rcases @LinuxDriver.beginAdvertise_cases s.driver spec with ⟨invalid, err, failed⟩ | ⟨valid, opened⟩
  · rw [failed] at called
    exact .inl ⟨invalid, (Option.some.inj called).symm⟩
  · rw [opened] at called
    simp only [Option.ite_none_right_eq_some, Option.some.injEq, Option.isNone_iff_eq_none] at called
    exact .inr ⟨valid, called.1, called.2.symm⟩

/-- What BlueZ's answer to the call that has the lock does. -/
theorem answer_cases (call : Registration) (refused : Option String) (s : Serving) :
    (refused.isSome ∧ s.answer call refused = { s with registration := none }.settle call.caller call.spec false) ∨
    (refused = none ∧ call.published = false ∧ s.answer call refused =
      { s with driver := s.driver.publishApplication call.spec, registration := some { call with published := true } }) ∨
    (refused = none ∧ call.published = true ∧ s.answer call refused =
      { s with driver := s.driver.installAdvertisement call.spec, registration := none }.settle
        call.caller call.spec true) := by
  unfold answer LinuxDriver.onRegistration
  cases refused with
  | some reason => exact .inl ⟨rfl, rfl⟩
  | none =>
    cases published : call.published with
    | false => exact .inr (.inl ⟨rfl, rfl, rfl⟩)
    | true => exact .inr (.inr ⟨rfl, rfl, rfl⟩)

/-- What `stop` saw, from the application's side: it stopped and did not
serve or advertise since, and which tasks had read `served_service` before
the stop and not called `advertise` yet. -/
structure StopNote where
  stopped : Bool := false
  stale : List Nat := []
  deriving DecidableEq

def noteStop (note : StopNote) (s : Serving) : ServingStep → StopNote
  | .serve _ _ => {}
  | .advertise _ => {}
  | .stopAdvertising =>
    { stopped := true, stale := (List.range s.tasks.length).filter fun number => (s.pendingOf number).isSome }
  | _ => note

/-- The platform takes no application of a task that read before the stop. -/
def StaleUnserved (note : StopNote) (s : Serving) : ServingStep → Prop
  | .answer refused => ∀ call ∈ s.registration, ∀ number ∈ note.stale, call.caller = .recovery number → refused.isSome
  | _ => True

instance (note : StopNote) (s : Serving) (i : ServingStep) : Decidable (StaleUnserved note s i) := by
  cases i <;> unfold StaleUnserved <;> infer_instance

/-- Stopped, the driver is idle, and a task about to advertise read before
the stop. -/
structure Stopped (note : StopNote) (s : Serving) : Prop where
  idle : s.driver.Idle
  stale : ∀ number, (s.pendingOf number).isSome → number ∈ note.stale
  calling : ∀ call ∈ s.registration, ∃ number ∈ note.stale, call.caller = .recovery number

theorem stopped_stop (note : StopNote) (free : s.registration = none) :
    Stopped (noteStop note s .stopAdvertising) { s with driver := s.driver.stopAdvertising } := by
  refine ⟨⟨rfl, rfl, rfl⟩, ?_, ?_⟩
  · intro number pending
    have inside : number < s.tasks.length := by
      by_contra outside
      have gone : s.tasks[number]? = none := List.getElem?_eq_none (by omega)
      simp [pendingOf, gone] at pending
    exact List.mem_filter.mpr ⟨List.mem_range.mpr inside, pending⟩
  · intro call held
    rw [free] at held
    simp at held

/-- A call that is through leaves the driver as it was. -/
theorem Stopped.settled {note : StopNote} (held : Stopped note s) (caller : Advertiser) (spec : GattServiceSpec)
    (done : Bool) : Stopped note ({ s with registration := none }.settle caller spec done) := by
  refine ⟨?_, fun other pending => held.stale other (pending_of_settle (s := { s with registration := none }) pending), ?_⟩
  · rw [settle_driver]
    exact held.idle
  · intro call calling
    rw [settle_registration] at calling
    simp at calling

theorem Stopped.step {note : StopNote} {i : ServingStep} (held : Stopped note s) (ok : StaleUnserved note s i)
    (step : s.step i = some t) (still : (noteStop note s i).stopped) : Stopped (noteStop note s i) t := by
  cases i with
  | serve kind spec => simp [noteStop] at still
  | advertise spec => simp [noteStop] at still
  | answer refused =>
    obtain ⟨call, calling, moved⟩ := Option.bind_eq_some_iff.mp step
    cases moved
    obtain ⟨number, stale, caller⟩ := held.calling call calling
    have refuses := ok call calling number stale caller
    rcases answer_cases call refused s with ⟨-, is⟩ | ⟨taken, -⟩ | ⟨taken, -⟩
    · rw [is]
      exact held.settled _ _ _
    all_goals simp [taken] at refuses
  | dropCall =>
    obtain ⟨call, -, moved⟩ := Option.bind_eq_some_iff.mp step
    cases moved
    exact held.settled _ _ _
  | updateAdvertisement spec refused =>
    simp only [Serving.step, Option.ite_none_right_eq_some, Option.some.injEq] at step
    obtain ⟨-, rfl⟩ := step
    rw [held.idle.updateAdvertisement]
    exact held
  | stopAdvertising =>
    simp only [Serving.step, Option.ite_none_right_eq_some, Option.some.injEq, Option.isNone_iff_eq_none] at step
    obtain ⟨free, rfl⟩ := step
    exact stopped_stop note free
  | servedService =>
    cases step
    exact held
  | radioChanged number status =>
    obtain ⟨task, found, moved⟩ := Option.bind_eq_some_iff.mp step
    obtain ⟨known, -⟩ := Option.filter_eq_some_iff.mp found
    cases moved
    cases status with
    | on =>
      refine ⟨held.idle, fun other pending => held.stale other ?_, held.calling⟩
      simp only [onRadioChanged, pendingOf_setTask (Option.isSome_of_eq_some known)] at pending
      split at pending
      · -- nothing is served, so the task read nothing
        simp [GattServiceSpec.recovery, held.idle.servedService] at pending
      · exact pending
    | off => exact held
    | unsupported => exact held
  | recover number =>
    obtain ⟨task, known, rest⟩ := Option.bind_eq_some_iff.mp step
    obtain ⟨spec, pending, called⟩ := Option.bind_eq_some_iff.mp rest
    have was_stale : number ∈ note.stale := held.stale number (by simp [pendingOf, known, pending])
    rcases advertise_cases called with ⟨-, rfl⟩ | ⟨-, -, rfl⟩
    · exact ⟨by rw [settle_driver]; exact held.idle, fun other waiting => held.stale other (pending_of_settle waiting),
        by rw [settle_registration]; exact held.calling⟩
    · refine ⟨held.idle.openRegistration, held.stale, fun call calling => ?_⟩
      cases calling
      exact ⟨number, was_stale, rfl⟩
  | dropWaiting number =>
    obtain ⟨task, -, moved⟩ := Option.bind_eq_some_iff.mp step
    cases moved
    refine ⟨held.idle, fun other waiting => ?_, held.calling⟩
    rw [pendingOf_settleTask] at waiting
    split at waiting
    · simp at waiting
    · exact held.stale other waiting
  | acceptClosed number =>
    obtain ⟨task, found, moved⟩ := Option.bind_eq_some_iff.mp step
    obtain ⟨known, -⟩ := Option.filter_eq_some_iff.mp found
    cases moved
    exact ⟨held.idle, fun other waiting => held.stale other (pendingOf_retired known other ▸ waiting), held.calling⟩
  | abort number =>
    obtain ⟨task, found, moved⟩ := Option.bind_eq_some_iff.mp step
    obtain ⟨known, -⟩ := Option.filter_eq_some_iff.mp found
    cases moved
    exact ⟨held.idle, fun other waiting => held.stale other (pendingOf_retired known other ▸ waiting), held.calling⟩

/-- The radio comes back, and the service is stopped between the task's read
and its call. -/
def stopWhileRecovering (kind : RecoveryKind) (refused : Option String) : List ServingStep :=
  let spec : GattServiceSpec := { uuid := ⟨1⟩, characteristics := [] }
  [.serve kind spec, .answer none, .answer none, .radioChanged 0 .off, .radioChanged 0 .on, .stopAdvertising,
    .recover 0, .answer refused]

/-- What the application has advertised with success, with its latest data,
and neither stopped nor replaced since; and whether every `served_service`
reported it. -/
structure OwedNote where
  owed : Option GattServiceSpec := none
  told : Bool := true
  deriving DecidableEq

/-- A call of the application that gets the lock replaces what there was. -/
def OwedNote.replaced (note : OwedNote) (spec : GattServiceSpec) : OwedNote :=
  match spec.validate with
  | .error _ => note
  | .ok () => { note with owed := none }

/-- A read of `served_service`. -/
def OwedNote.read (note : OwedNote) (served : Option GattServiceSpec) : OwedNote :=
  { note with told := note.told && (note.owed.isNone || decide (served = note.owed)) }

def noteOwed (note : OwedNote) (s : Serving) : ServingStep → OwedNote
  | .serve _ spec => note.replaced spec
  | .advertise spec => note.replaced spec
  | .answer refused =>
    match s.registration with
    | some call =>
      if call.published && call.caller.ofApplication && refused.isNone then { note with owed := some call.spec } else note
    | none => note
  | .updateAdvertisement spec refused =>
    match (s.driver.updateAdvertisement spec refused).2 with
    | .ok () => { note with owed := note.owed.map fun _ => spec }
    | .error _ => note
  | .stopAdvertising => { note with owed := none }
  | .servedService => note.read s.driver.servedService
  | .radioChanged _ .on => note.read s.driver.servedService
  | _ => note

/-- While something is owed, a recovery asks for it and is not refused, and
nobody reads `served_service` in the middle of that. -/
def Recovers (note : OwedNote) (s : Serving) : ServingStep → Prop
  | .recover number => note.owed = none ∨ s.pendingOf number = note.owed
  | .answer refused => note.owed = none ∨ refused = none
  | .dropCall => note.owed = none
  | .servedService => note.owed = none ∨ s.registration = none
  | .radioChanged _ .on => note.owed = none ∨ s.registration = none
  | _ => True

instance (note : OwedNote) (s : Serving) (i : ServingStep) : Decidable (Recovers note s i) := by
  unfold Recovers
  split <;> infer_instance

/-- What is owed is what `served_service` reports, and every task that serves
it and takes a `RadioChanged` to `On` asks the platform for it again; while
BlueZ is asked, it is asked for what is owed. -/
structure Kept (note : OwedNote) (s : Serving) : Prop where
  told : note.told = true
  reported : ∀ spec ∈ note.owed, s.registration = none → s.driver.servedService = some spec
  readvertised : ∀ spec ∈ note.owed, s.registration = none → ∀ number task, s.tasks[number]? = some task →
    task.live → task.pending = none → spec.sameService task.service →
      ∃ t u, s.step (.radioChanged number .on) = some t ∧ t.step (.recover number) = some u ∧
        u.driver.applications = s.driver.applications ++ [spec]
  underway : ∀ spec ∈ note.owed, ∀ call ∈ s.registration, call.spec = spec ∧ call.caller.ofApplication = false

/-- A task that reads a valid service of its own goes on to ask for it. -/
theorem radioChanged_recovers (valid : spec.validate = .ok ()) (free : s.registration = none)
    (served : s.driver.servedService = some spec) (known : s.tasks[number]? = some task) (live : task.live)
    (waiting : task.pending = none) (same : spec.sameService task.service) :
    ∃ t u, s.step (.radioChanged number .on) = some t ∧ t.step (.recover number) = some u ∧
      u.driver.applications = s.driver.applications ++ [spec] := by
  have reads : task.service.recovery s.driver.servedService = some spec := by
    rw [GattServiceSpec.recovery, served]
    exact Option.filter_eq_some_iff.mpr ⟨rfl, same⟩
  obtain ⟨inside, -⟩ := List.getElem?_eq_some_iff.mp known
  have found : s.tasks[number]?.filter (fun task => task.live && task.pending.isNone) = some task := by
    rw [known]
    exact Option.filter_eq_some_iff.mpr ⟨rfl, by simp [live, waiting]⟩
  have taken : s.step (.radioChanged number .on) = some (s.setTask number { task with pending := some spec }) := by
    simp only [step, found, Option.bind_eq_bind, Option.bind_some, onRadioChanged, reads]
  have known' : (s.setTask number { task with pending := some spec }).tasks[number]? =
      some { task with pending := some spec } := by
    simp [setTask, inside]
  have asks : (s.setTask number { task with pending := some spec }).step (.recover number) =
      some { s.setTask number { task with pending := some spec } with
        driver := s.driver.openRegistration spec
        registration := some { caller := .recovery number, spec := spec } } := by
    simp only [step, known', Option.bind_eq_bind, Option.bind_some, advertise, setTask_driver,
      LinuxDriver.beginAdvertise_valid valid, setTask_registration, free, Option.isNone_none, if_true]
  exact ⟨_, _, taken, asks, rfl⟩

/-- What every step keeps: what is owed is valid, and reported unless a
recovery is registering it. -/
structure Reported (note : OwedNote) (s : Serving) : Prop where
  told : note.told = true
  valid : ∀ spec ∈ note.owed, spec.validate = .ok ()
  calling : ∀ call ∈ s.registration, call.spec.validate = .ok ()
  reported : ∀ spec ∈ note.owed, s.registration = none → s.driver.servedService = some spec
  underway : ∀ spec ∈ note.owed, ∀ call ∈ s.registration, call.spec = spec ∧ call.caller.ofApplication = false

namespace Reported

variable {note : OwedNote} {refused : Option String}

theorem kept (reported : Reported note s) : Kept note s where
  told := reported.told
  reported := reported.reported
  readvertised spec is_owed free _ _ known live waiting same :=
    radioChanged_recovers (reported.valid spec is_owed) free (reported.reported spec is_owed free) known live waiting same
  underway := reported.underway

/-- Neither the note nor what the driver has of a service changes. -/
theorem same (reported : Reported note s) (driver : t.driver = s.driver) (calls : t.registration = s.registration) :
    Reported note t where
  told := reported.told
  valid := reported.valid
  calling call is_call := reported.calling call (calls ▸ is_call)
  reported spec is_owed free := by
    rw [driver]
    exact reported.reported spec is_owed (calls ▸ free)
  underway spec is_owed call is_call := reported.underway spec is_owed call (calls ▸ is_call)

/-- Nothing is owed any more. -/
theorem cleared (reported : Reported note s) (calling : ∀ call ∈ t.registration, call.spec.validate = .ok ()) :
    Reported { note with owed := none } t where
  told := reported.told
  valid spec is_owed := by simp at is_owed
  calling := calling
  reported spec is_owed := by simp at is_owed
  underway spec is_owed := by simp at is_owed

/-- A call of the application gets the lock, or is refused before. -/
theorem replaced (reported : Reported note s) (called : s.advertise caller spec = some t) :
    Reported (note.replaced spec) t := by
  unfold OwedNote.replaced
  rcases advertise_cases called with ⟨⟨err, invalid⟩, rfl⟩ | ⟨valid, -, rfl⟩
  · rw [invalid]
    exact reported.same (settle_driver _) (settle_registration _)
  · rw [valid]
    refine reported.cleared fun call is_call => ?_
    cases is_call
    exact valid

/-- A read gives what is owed, unless a recovery is registering it. -/
theorem read (reported : Reported note s) (ok : note.owed = none ∨ s.registration = none) :
    note.read s.driver.servedService = note := by
  have agrees : (note.owed.isNone || decide (s.driver.servedService = note.owed)) = true := by
    cases is_owed : note.owed with
    | none => rfl
    | some spec =>
      rcases ok with unowed | free
      · rw [is_owed] at unowed
        simp at unowed
      · rw [reported.reported spec is_owed free]
        simp
  unfold OwedNote.read
  rw [agrees, Bool.and_true]

/-- A recovery of what is owed gets the lock. -/
theorem recovering (reported : Reported note s) (ok : note.owed = none ∨ some spec = note.owed)
    (called : s.advertise (.recovery number) spec = some t) : Reported note t := by
  rcases advertise_cases called with ⟨-, rfl⟩ | ⟨valid, -, rfl⟩
  · exact reported.same (settle_driver _) (settle_registration _)
  · refine ⟨reported.told, reported.valid, fun call is_call => ?_, fun owing is_owed free => ?_,
      fun owing is_owed call is_call => ?_⟩
    · cases is_call
      exact valid
    · simp at free
    · cases is_call
      rcases ok with unowed | same
      · rw [unowed] at is_owed
        simp at is_owed
      · exact ⟨Option.some.inj (same.trans is_owed), rfl⟩

/-- A call that ends without success, nothing being owed. -/
theorem failed (reported : Reported note s) (unowed : note.owed = none) (caller : Advertiser)
    (spec : GattServiceSpec) : Reported note ({ s with registration := none }.settle caller spec false) where
  told := reported.told
  valid := reported.valid
  calling call is_call := by
    rw [settle_registration] at is_call
    simp at is_call
  reported owing is_owed := by
    rw [unowed] at is_owed
    simp at is_owed
  underway owing is_owed := by
    rw [unowed] at is_owed
    simp at is_owed

/-- BlueZ took the advertisement. -/
theorem registered {note' : OwedNote} (reported : Reported note s) (calling : s.registration = some call)
    (told : note'.told = note.told) (owed : ∀ spec ∈ note'.owed, spec = call.spec) :
    Reported note' ({ s with driver := s.driver.installAdvertisement call.spec, registration := none }.settle
      call.caller call.spec true) where
  told := told.trans reported.told
  valid spec is_owed := by
    rw [owed spec is_owed]
    exact reported.calling call calling
  calling other is_call := by
    rw [settle_registration] at is_call
    simp at is_call
  reported spec is_owed _ := by
    rw [settle_driver, owed spec is_owed]
    rfl
  underway spec is_owed other is_call := by
    rw [settle_registration] at is_call
    simp at is_call

theorem answered (reported : Reported note s) (calling : s.registration = some call)
    (ok : note.owed = none ∨ refused = none) : Reported (noteOwed note s (.answer refused)) (s.answer call refused) := by
  simp only [noteOwed, calling]
  rcases answer_cases call refused s with ⟨refuses, is⟩ | ⟨rfl, unpublished, is⟩ | ⟨rfl, published, is⟩
  · have unowed : note.owed = none := by
      rcases ok with unowed | taken
      · exact unowed
      · rw [taken] at refuses
        simp at refuses
    rw [is, Option.isNone_eq_false_iff.mpr refuses, Bool.and_false, if_neg (by decide)]
    exact reported.failed unowed _ _
  · rw [is, unpublished]
    refine ⟨reported.told, reported.valid, fun other is_call => ?_, fun owing is_owed free => ?_,
      fun owing is_owed other is_call => ?_⟩
    · cases is_call
      exact reported.calling call calling
    · simp at free
    · cases is_call
      exact reported.underway owing is_owed call calling
  · rw [is, published]
    cases own : call.caller.ofApplication with
    | true =>
      refine reported.registered calling rfl fun spec is_owed => ?_
      cases is_owed
      rfl
    | false => exact reported.registered calling rfl fun spec is_owed => (reported.underway spec is_owed call calling).1.symm

theorem step {i : ServingStep} (reported : Reported note s) (ok : Recovers note s i) (step : s.step i = some t) :
    Reported (noteOwed note s i) t := by
  cases i with
  | serve kind spec => exact reported.replaced step
  | advertise spec => exact reported.replaced step
  | answer refused =>
    obtain ⟨call, calling, moved⟩ := Option.bind_eq_some_iff.mp step
    cases moved
    exact reported.answered calling ok
  | dropCall =>
    obtain ⟨call, -, moved⟩ := Option.bind_eq_some_iff.mp step
    cases moved
    exact reported.failed ok _ _
  | updateAdvertisement spec refused =>
    simp only [Serving.step, Option.ite_none_right_eq_some, Option.some.injEq, Option.isNone_iff_eq_none] at step
    obtain ⟨free, rfl⟩ := step
    rcases @LinuxDriver.updateAdvertisement_cases s.driver spec refused with
      ⟨⟨err, failed⟩, kept⟩ | ⟨valid, done, served⟩
    · simp only [noteOwed, failed]
      exact ⟨reported.told, reported.valid, reported.calling, fun owing is_owed free =>
        kept.trans (reported.reported owing is_owed free), reported.underway⟩
    · simp only [noteOwed, done]
      refine ⟨reported.told, fun owing is_owed => ?_, reported.calling, fun owing is_owed _ => ?_,
        fun owing is_owed call is_call => ?_⟩
      · obtain ⟨_, _, rfl⟩ := Option.map_eq_some_iff.mp is_owed
        exact valid
      · obtain ⟨_, _, rfl⟩ := Option.map_eq_some_iff.mp is_owed
        exact served
      · rw [free] at is_call
        simp at is_call
  | stopAdvertising =>
    simp only [Serving.step, Option.ite_none_right_eq_some, Option.some.injEq] at step
    obtain ⟨-, rfl⟩ := step
    exact reported.cleared reported.calling
  | servedService =>
    cases step
    rw [noteOwed, reported.read ok]
    exact reported
  | radioChanged number status =>
    obtain ⟨task, -, moved⟩ := Option.bind_eq_some_iff.mp step
    cases moved
    cases status with
    | on =>
      rw [noteOwed, reported.read ok]
      exact reported.same rfl rfl
    | off => exact reported
    | unsupported => exact reported
  | recover number =>
    obtain ⟨task, known, rest⟩ := Option.bind_eq_some_iff.mp step
    obtain ⟨spec, pending, called⟩ := Option.bind_eq_some_iff.mp rest
    have reads : s.pendingOf number = some spec := by simp [pendingOf, known, pending]
    have recovers : note.owed = none ∨ s.pendingOf number = note.owed := ok
    rw [reads] at recovers
    exact reported.recovering recovers called
  | dropWaiting number =>
    obtain ⟨task, -, moved⟩ := Option.bind_eq_some_iff.mp step
    cases moved
    exact reported.same rfl rfl
  | acceptClosed number =>
    obtain ⟨task, -, moved⟩ := Option.bind_eq_some_iff.mp step
    cases moved
    exact reported.same rfl rfl
  | abort number =>
    obtain ⟨task, -, moved⟩ := Option.bind_eq_some_iff.mp step
    cases moved
    exact reported.same rfl rfl

end Reported

/-- In every run whose recoveries register what is owed, and in which nobody
reads `served_service` while they do, it reports the service the application
advertised, and every recovery task of it re-advertises it at a later `On`. -/
theorem run_owed_kept {note : OwedNote} {s : Serving}
    (run : machine.Run Recovers (fun note s i _ => noteOwed note s i) {} note s) : Kept note s := by
  have reported : Reported note s := by
    refine run.invariant (P := Reported) ?_ ?_
    · rintro s rfl
      exact ⟨rfl, by simp, by simp, by simp, by simp⟩
    · intro note s i t _ reported ok step
      exact reported.step ok step
  exact reported.kept

/-- The radio comes back twice, and each `advertise` of the task ends as
given. -/
def powerCycles (first second : List ServingStep) : List ServingStep :=
  let spec : GattServiceSpec := { uuid := ⟨1⟩, characteristics := [] }
  [.serve .datagram spec, .answer none, .answer none, .radioChanged 0 .off, .radioChanged 0 .on, .recover 0] ++ first ++
    [.radioChanged 0 .off, .radioChanged 0 .on, .recover 0] ++ second

theorem not_owed_kept : ¬ ∀ (note : OwedNote) (s : Serving),
    machine.Run (fun _ _ _ => True) (fun note s i _ => noteOwed note s i) {} note s → Kept note s := by
  intro claim
  obtain ⟨note, s, run, lost⟩ := Machine.Run.exists_of_follow machine (fun _ _ _ => True)
    (fun note s i _ => noteOwed note s i) {}
    (fun note s => note.owed.isSome && s.registration.isNone && s.driver.servedService.isNone) rfl
    ((powerCycles [.answer (some "org.bluez.Error.Failed")] []).take 7) (by decide +kernel)
  simp only [Bool.and_eq_true, Option.isSome_iff_exists, Option.isNone_iff_eq_none] at lost
  obtain ⟨⟨⟨spec, is_owed⟩, free⟩, unserved⟩ := lost
  have reported := (claim note s run).reported spec is_owed free
  rw [unserved] at reported
  simp at reported

theorem run_owed_kept_two_cycles : ∃ (note : OwedNote) (s : Serving), note.owed.isSome = true ∧
    s.registration = none ∧ s.driver.applications.length = 3 ∧ Kept note s := by
  obtain ⟨note, s, run, kept⟩ := Machine.Run.exists_of_follow machine Recovers
    (fun note s i _ => noteOwed note s i) {}
    (fun note s => note.owed.isSome && decide (s.registration = none) && decide (s.driver.applications.length = 3)) rfl
    (powerCycles [.answer none, .answer none] [.answer none, .answer none]) (by decide +kernel)
  simp only [Bool.and_eq_true, decide_eq_true_eq] at kept
  exact ⟨note, s, kept.1.1, kept.1.2, kept.2, run_owed_kept run⟩

end Serving

end BleGatt
