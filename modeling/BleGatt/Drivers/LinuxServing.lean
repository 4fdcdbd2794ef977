import BleGatt.Lib.Machine
import BleGatt.Profile.Datagram.Serve

namespace BleGatt

/-- What `LinuxDriver` keeps of the service it serves. A handle stands for
what is registered at BlueZ: dropping it takes the registration back. An
`advertise` gives its lock up at no await: what it waits for comes in steps
between which `served_service` is read. -/
structure LinuxDriver where
  servedService : Option GattServiceSpec := none
  generationCounter : Nat := 0
  advertiseGeneration : Nat := 0
  appHandle : Option GattServiceSpec := none
  advHandle : Option GattServiceSpec := none
  /-- The applications BlueZ was asked to register, in order. -/
  applications : List GattServiceSpec := []
  deriving DecidableEq

namespace LinuxDriver

/-- The call holds the lock and asks BlueZ to register its application. -/
def openRegistration (spec : GattServiceSpec) (d : LinuxDriver) : LinuxDriver :=
  { d with
    servedService := none
    generationCounter := d.generationCounter + 1
    applications := d.applications ++ [spec] }

/-- BlueZ serves the application: its handlers are the current ones. -/
def publishApplication (spec : GattServiceSpec) (d : LinuxDriver) : LinuxDriver :=
  { d with appHandle := some spec, advertiseGeneration := d.generationCounter }

def installAdvertisement (spec : GattServiceSpec) (d : LinuxDriver) : LinuxDriver :=
  { d with advHandle := some spec, servedService := some spec }

/-- `advertise`, up to BlueZ's answer to the application. -/
def beginAdvertise (spec : GattServiceSpec) (d : LinuxDriver) : Except BleError LinuxDriver :=
  match spec.validate with
  | .error err => .error err
  | .ok () => .ok (d.openRegistration spec)

/-- BlueZ answers what `advertise` waits for, the advertisement once its
application is `published`; `refused` is its reason for a refusal. What the call
returns, unless it goes on. -/
def onRegistration (spec : GattServiceSpec) (published : Bool) (refused : Option String) (d : LinuxDriver) :
    LinuxDriver × Option (Except BleError Unit) :=
  match refused with
  | some reason => (d, some (.error (.gatt reason)))
  | none =>
    if published then (d.installAdvertisement spec, some (.ok ()))
    else (d.publishApplication spec, none)

/-- `update_advertisement`; `refused` is BlueZ's reason for taking no new
advertisement. -/
def updateAdvertisement (spec : GattServiceSpec) (refused : Option String) (d : LinuxDriver) :
    LinuxDriver × Except BleError Unit :=
  match spec.validate with
  | .error err => (d, .error err)
  | .ok () =>
    if d.servedService.any fun served => served.sameService spec then
      match refused with
      | none => (d.installAdvertisement spec, .ok ())
      -- the server is kept, but nothing is advertised
      | some reason => ({ d with advHandle := none }, .error (.gatt reason))
    else
      (d, .error (.gatt
        s!"update_advertisement: not serving service {uuidText spec.uuid.uuid} with these characteristics"))

def stopAdvertising (d : LinuxDriver) : LinuxDriver :=
  { d with
    servedService := none
    generationCounter := d.generationCounter + 1
    advertiseGeneration := d.generationCounter + 1
    appHandle := none
    advHandle := none }

/-- Nothing is advertised, nothing is served and nothing will be served
again by a recovery that looks now. -/
structure Idle (d : LinuxDriver) : Prop where
  servedService : d.servedService = none
  appHandle : d.appHandle = none
  advHandle : d.advHandle = none

instance (d : LinuxDriver) : Decidable d.Idle :=
  decidable_of_iff (d.servedService = none ∧ d.appHandle = none ∧ d.advHandle = none)
    ⟨fun ⟨served, app, adv⟩ => ⟨served, app, adv⟩, fun idle => ⟨idle.1, idle.2, idle.3⟩⟩

end LinuxDriver

/-- What a task that serves `service` re-advertises when the radio is back. -/
def GattServiceSpec.recovery (service : GattServiceSpec) (served : Option GattServiceSpec) : Option GattServiceSpec :=
  served.filter fun spec => spec.sameService service

/-- A task that re-advertises its service after a radio loss: the one of
`datagram::serve`, or the one `Peripheral::serve` spawns. -/
inductive RecoveryKind
  | datagram
  | peripheral
  deriving DecidableEq

structure RecoveryTask where
  kind : RecoveryKind
  service : GattServiceSpec
  /-- It read this from `served_service` and is about to advertise it. -/
  pending : Option GattServiceSpec := none
  /-- `accept_closed` is not set (`datagram`), or it was not aborted. -/
  live : Bool := true
  deriving DecidableEq

/-- Who called `advertise`. -/
inductive Advertiser
  /-- The application's `serve`, which spawns the task once its service is
  advertised. -/
  | serve (kind : RecoveryKind)
  | application
  | recovery (task : Nat)
  deriving DecidableEq

/-- The application's own call, not a recovery's. -/
def Advertiser.ofApplication : Advertiser → Bool
  | .serve _ | .application => true
  | .recovery _ => false

/-- The `advertise` that has `advertise_lock`. -/
structure Registration where
  caller : Advertiser
  spec : GattServiceSpec
  /-- BlueZ serves its application; its advertisement is asked for. -/
  published : Bool := false
  deriving DecidableEq

/-- The driver, with the tasks of every service the application served. -/
structure Serving where
  driver : LinuxDriver := {}
  tasks : List RecoveryTask := []
  registration : Option Registration := none
  deriving DecidableEq

inductive ServingStep
  /-- The application's `serve` calls `advertise`, and gets the lock. -/
  | serve (kind : RecoveryKind) (spec : GattServiceSpec)
  | advertise (spec : GattServiceSpec)
  /-- BlueZ answers the `advertise` that has the lock. -/
  | answer (refused : Option String)
  /-- That call is dropped at its await, as aborting its task does. -/
  | dropCall
  | updateAdvertisement (spec : GattServiceSpec) (refused : Option String)
  | stopAdvertising
  /-- Somebody calls `served_service`. -/
  | servedService
  /-- A task takes a `RadioChanged` and, for `On`, reads `served_service`. -/
  | radioChanged (task : Nat) (status : RadioStatus)
  /-- It calls `advertise` with what it read, and gets the lock. -/
  | recover (task : Nat)
  /-- Its call is dropped while it waits for the lock. -/
  | dropWaiting (task : Nat)
  /-- `datagram::serve` hands out no more channels. -/
  | acceptClosed (task : Nat)
  /-- `ServerHandle` is stopped or dropped: its task is aborted, which does
  not end a poll that is running. -/
  | abort (task : Nat)
  deriving DecidableEq

namespace Serving

def setTask (number : Nat) (task : RecoveryTask) (s : Serving) : Serving :=
  { s with tasks := s.tasks.set number task }

/-- The task is through with what it read. -/
def settleTask (number : Nat) (s : Serving) : Serving :=
  { s with tasks := s.tasks.modify number fun task => { task with pending := none } }

/-- A call of `advertise` returned or was dropped; `done` says that it
succeeded. -/
def settle (caller : Advertiser) (spec : GattServiceSpec) (done : Bool) (s : Serving) : Serving :=
  match caller with
  | .serve kind => if done then { s with tasks := s.tasks ++ [{ kind := kind, service := spec }] } else s
  | .application => s
  | .recovery number => s.settleTask number

/-- A valid spec waits for `advertise_lock`. -/
def advertise (caller : Advertiser) (spec : GattServiceSpec) (s : Serving) : Option Serving :=
  match s.driver.beginAdvertise spec with
  | .error _ => some (s.settle caller spec false)
  | .ok driver =>
    if s.registration.isNone then
      some { s with driver := driver, registration := some { caller := caller, spec := spec } }
    else none

def answer (call : Registration) (refused : Option String) (s : Serving) : Serving :=
  match s.driver.onRegistration call.spec call.published refused with
  | (driver, none) => { s with driver := driver, registration := some { call with published := true } }
  | (driver, some result) =>
    { s with driver := driver, registration := none }.settle call.caller call.spec result.toBool

/-- The arm of `RadioChanged` in both tasks. -/
def onRadioChanged (number : Nat) (task : RecoveryTask) (status : RadioStatus) (s : Serving) : Serving :=
  match status with
  | .on => s.setTask number { task with pending := task.service.recovery s.driver.servedService }
  | .off | .unsupported => s

/-- It called `advertise` with what it read, and has not got the lock. -/
def waits (number : Nat) (s : Serving) : Bool :=
  s.registration.all fun call => decide (call.caller ≠ .recovery number)

def step (s : Serving) : ServingStep → Option Serving
  | .serve kind spec => s.advertise (.serve kind) spec
  | .advertise spec => s.advertise .application spec
  | .answer refused => do
    let call ← s.registration
    some (s.answer call refused)
  | .dropCall => do
    let call ← s.registration
    some ({ s with registration := none }.settle call.caller call.spec false)
  | .updateAdvertisement spec refused =>
    if s.registration.isNone then some { s with driver := (s.driver.updateAdvertisement spec refused).1 } else none
  | .stopAdvertising =>
    if s.registration.isNone then some { s with driver := s.driver.stopAdvertising } else none
  | .servedService => some s
  | .radioChanged number status => do
    let task ← s.tasks[number]?.filter fun task => task.live && task.pending.isNone
    some (s.onRadioChanged number task status)
  | .recover number => do
    let task ← s.tasks[number]?
    let spec ← task.pending
    s.advertise (.recovery number) spec
  | .dropWaiting number => do
    let _ ← s.tasks[number]?.filter fun _ => s.waits number
    some (s.settleTask number)
  | .acceptClosed number => do
    let task ← s.tasks[number]?.filter fun task => decide (task.kind = .datagram) && task.pending.isNone
    some (s.setTask number { task with live := false })
  | .abort number => do
    let task ← s.tasks[number]?.filter fun task => decide (task.kind = .peripheral)
    some (s.setTask number { task with live := false })

/-- One driver, over every order of the application's calls, of what its
recovery tasks do and of what BlueZ answers. -/
def machine : Machine Serving ServingStep where
  Init s := s = {}
  step := step

end Serving

/-- `datagram::serve` advertises what the recovery of its service gives. -/
theorem Server.onRadioBack_recovery (cfg : DatagramConfig) (served : Option GattServiceSpec) (s : Server) :
    s.onRadioBack cfg served =
      if s.acceptClosed then s else (cfg.serviceSpec.recovery served).elim s fun spec => s.call (.advertise spec) := by
  unfold onRadioBack GattServiceSpec.recovery
  split
  · rfl
  · cases served.filter fun spec => spec.sameService cfg.serviceSpec <;> rfl

end BleGatt
