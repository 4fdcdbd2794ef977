import BleGatt.Entities.Models
import BleGatt.Lib.FiniteMap
import BleGatt.Lib.Machine
import BleGatt.Lib.TaskList

namespace BleGatt
open Std

/-! The central half of `LinuxDriver`: its dials, the cleanups of the ones
that were abandoned, and everything else that asks BlueZ to disconnect. Each
goes by its number; between two locks, and at each await, others may run. -/

/-- `MAX_CONCURRENT_CLEANUP_DISCONNECTS`. -/
def maxConcurrentCleanupDisconnects : Nat := 4

/-- How far a call of `connect` came. -/
inductive ConnectPhase
  /-- It found no quarantine. -/
  | checked
  /-- It is in `in_flight`, and `settle_discovery` runs. -/
  | settling
  /-- It waits for the lock of its address. -/
  | locking
  | locked
  /-- It found no quarantine again. -/
  | cleared
  /-- It is in `dialed`. -/
  | dialed
  /-- It has its permit and its guard. -/
  | reserved
  /-- `Connect` is issued. -/
  | issued
  /-- BlueZ answered with an error; the guard is not armed. -/
  | refused
  /-- Its guard is about to be dropped unarmed. -/
  | ending
  /-- It timed out or was dropped, with its guard armed. -/
  | abandoned
  /-- The guard removed it from `dialed`. -/
  | forgotten
  /-- The guard is gone, and the lock is next. -/
  | releasing
  /-- `in_flight` is next. -/
  | unlocked
  | over
  deriving DecidableEq

namespace ConnectPhase

/-- Between acceptance and its end. -/
def accepted : ConnectPhase → Bool
  | .checked | .over => false
  | _ => true

/-- It has the lock of its address. -/
def locks : ConnectPhase → Bool
  | .locked | .cleared | .dialed | .reserved | .issued | .refused | .ending | .abandoned | .forgotten | .releasing => true
  | _ => false

/-- It has a permit. -/
def reserves : ConnectPhase → Bool
  | .reserved | .issued | .refused | .ending | .abandoned | .forgotten => true
  | _ => false

end ConnectPhase

structure ConnectCall where
  address : PeerAddress
  phase : ConnectPhase := .checked
  generation : Nat := 0
  deriving DecidableEq

/-- What a call of `Device::disconnect` returns. -/
inductive DisconnectResult
  | ok
  | notConnected
  | notFound
  /-- Any other error, a reply that never came included. -/
  | failed
  /-- Its task ended. -/
  | panicked
  deriving DecidableEq

/-- There is nothing left to clean up. -/
def DisconnectResult.clean : DisconnectResult → Bool
  | .ok | .notConnected | .notFound => true
  | .failed | .panicked => false

/-- Why a cleanup lifts its quarantine. -/
inductive LiftReason
  /-- This call of its own is done. -/
  | clean (call : Nat)
  /-- There is no handle of the device. -/
  | noDevice
  /-- `dialed` has a newer dial. -/
  | newerDial
  deriving DecidableEq

/-- How far the task that a guard spawned came. -/
inductive CleanupPhase
  /-- Before its next call: it waits for the lock, or sleeps. -/
  | locking
  | locked
  /-- It found no newer dial. -/
  | checked
  /-- It waits for its call. A wait that times out is made again. -/
  | waiting (call : Nat)
  | lifting (reason : LiftReason)
  /-- The quarantine is lifted; the permit is next. -/
  | lifted (reason : LiftReason)
  | over (reason : LiftReason)
  deriving DecidableEq

namespace CleanupPhase

def quarantines : CleanupPhase → Bool
  | .locking | .locked | .checked | .waiting _ | .lifting _ => true
  | .lifted _ | .over _ => false

def locks : CleanupPhase → Bool
  | .locked | .checked => true
  | _ => false

def running : CleanupPhase → Bool
  | .over _ => false
  | _ => true

def reason : CleanupPhase → Option LiftReason
  | .lifting reason | .lifted reason | .over reason => some reason
  | _ => none

end CleanupPhase

structure Cleanup where
  address : PeerAddress
  /-- The call of `connect` it is for. -/
  connect : Nat
  phase : CleanupPhase := .locking
  deriving DecidableEq

/-- Who else disconnects. -/
inductive TeardownKind
  /-- `disconnect` of a handle. -/
  | disconnect (session : Nat)
  | disconnectPeer (session : Option Nat)
  /-- `close`, at one of the addresses it found in `dialed`. -/
  | close
  /-- `sweep_leftover_links`, at one device. -/
  | sweep
  deriving DecidableEq

inductive TeardownPhase
  | locking
  | locked
  /-- It waits for the admission lock. -/
  | admitting
  /-- It has all it waits for. -/
  | admitted
  | issued (call : Nat)
  | over
  deriving DecidableEq

def TeardownPhase.locks : TeardownPhase → Bool
  | .locked | .admitting | .admitted | .issued _ => true
  | .locking | .over => false

structure Teardown where
  address : PeerAddress
  kind : TeardownKind
  phase : TeardownPhase := .locking
  deriving DecidableEq

inductive DriverTask
  | connect (number : Nat)
  | cleanup (number : Nat)
  | teardown (number : Nat)
  deriving DecidableEq

/-- A `Disconnect` that was sent to BlueZ. -/
structure DisconnectCall where
  address : PeerAddress
  issuer : DriverTask
  /-- BlueZ is done with it. -/
  resolved : Bool := false
  /-- What its future returned. -/
  result : Option DisconnectResult := none
  deriving DecidableEq

structure LinuxDialer where
  dialed : PeerMap Nat := ∅
  inFlight : List PeerAddress := []
  pendingCleanup : List PeerAddress := []
  cleanupPermits : Nat := maxConcurrentCleanupDisconnects
  nextSession : Nat := 1
  /-- Who has the lock of an address. -/
  dialLock : PeerMap DriverTask := ∅
  servedPeers : PeerMap Nat := ∅
  connects : List ConnectCall := []
  cleanups : List Cleanup := []
  teardowns : List Teardown := []
  disconnects : List DisconnectCall := []

inductive DialStep
  | connect (address : PeerAddress)
  /-- A call of `connect` goes on. -/
  | proceed (number : Nat)
  /-- BlueZ answers its `Connect`. -/
  | answer (number : Nat) (ok : Bool)
  /-- It times out, or its future is dropped: at its `Connect`, or earlier. -/
  | abandon (number : Nat)
  /-- A cleanup goes on; `device` says that its device has a handle. -/
  | cleanUp (number : Nat) (device : Bool)
  | teardown (address : PeerAddress) (kind : TeardownKind)
  /-- A teardown goes on. -/
  | tearDown (number : Nat) (device : Bool)
  /-- Its future is dropped, or its own timeout elapses. -/
  | giveUp (number : Nat)
  /-- The future of a call of `Device::disconnect` returns. -/
  | returns (call : Nat) (result : DisconnectResult)
  /-- BlueZ is done with a `Disconnect`. -/
  | resolve (call : Nat)
  | reportCentralLoss (address : PeerAddress) (generation : Nat)
  /-- The peripheral half admits a peer, or forgets it. -/
  | serve (address : PeerAddress) (session : Option Nat)

namespace LinuxDialer

def setConnect (number : Nat) (call : ConnectCall) (s : LinuxDialer) : LinuxDialer :=
  { s with connects := s.connects.set number call }

def setCleanup (number : Nat) (cleanup : Cleanup) (s : LinuxDialer) : LinuxDialer :=
  { s with cleanups := s.cleanups.set number cleanup }

def setTeardown (number : Nat) (teardown : Teardown) (s : LinuxDialer) : LinuxDialer :=
  { s with teardowns := s.teardowns.set number teardown }

/-- The entry is removed if it is this generation's. -/
def undial (address : PeerAddress) (generation : Nat) (s : LinuxDialer) : LinuxDialer :=
  if s.dialed[address]? = some generation then { s with dialed := s.dialed.erase address } else s

def unlock (address : PeerAddress) (s : LinuxDialer) : LinuxDialer :=
  { s with dialLock := s.dialLock.erase address }

def lock (address : PeerAddress) (task : DriverTask) (s : LinuxDialer) : Option LinuxDialer :=
  if s.dialLock[address]? = none then some { s with dialLock := s.dialLock.insert address task } else none

/-- `connect` up to its first lookup; a call with no device handle, or of a
quarantined peer, ends there. -/
def connect (address : PeerAddress) (s : LinuxDialer) : LinuxDialer :=
  if address ∈ s.pendingCleanup then s else { s with connects := s.connects ++ [{ address := address }] }

/-- `LinuxConnectGuard::drop`, armed, after `dialed`: the quarantine and its
task. -/
def quarantine (number : Nat) (call : ConnectCall) (s : LinuxDialer) : LinuxDialer :=
  { s with
    pendingCleanup := if call.address ∈ s.pendingCleanup then s.pendingCleanup else s.pendingCleanup ++ [call.address]
    cleanups := s.cleanups ++ [{ address := call.address, connect := number }] }

/-- `connect`, from one lock or await to the next. -/
def proceed (number : Nat) (call : ConnectCall) (s : LinuxDialer) : Option LinuxDialer :=
  match call.phase with
  | .checked =>
    if call.address ∈ s.inFlight then some (s.setConnect number { call with phase := .over })
    else some { s.setConnect number { call with phase := .settling } with inFlight := s.inFlight ++ [call.address] }
  | .settling => some (s.setConnect number { call with phase := .locking })
  | .locking => (s.lock call.address (.connect number)).map (setConnect number { call with phase := .locked })
  | .locked =>
    if call.address ∈ s.pendingCleanup then some (s.setConnect number { call with phase := .releasing })
    else some (s.setConnect number { call with phase := .cleared })
  | .cleared =>
    some { s.setConnect number { call with phase := .dialed, generation := s.nextSession } with
      nextSession := s.nextSession + 1
      dialed := s.dialed.insert call.address s.nextSession }
  | .dialed =>
    if s.cleanupPermits = 0 then
      some ((s.undial call.address call.generation).setConnect number { call with phase := .releasing })
    else
      some { s.setConnect number { call with phase := .reserved } with cleanupPermits := s.cleanupPermits - 1 }
  | .reserved => some (s.setConnect number { call with phase := .issued })
  | .issued => none
  | .refused => some ((s.undial call.address call.generation).setConnect number { call with phase := .ending })
  | .ending =>
    some { s.setConnect number { call with phase := .releasing } with cleanupPermits := s.cleanupPermits + 1 }
  | .abandoned => some ((s.undial call.address call.generation).setConnect number { call with phase := .forgotten })
  | .forgotten => some ((s.quarantine number call).setConnect number { call with phase := .releasing })
  | .releasing => some ((s.unlock call.address).setConnect number { call with phase := .unlocked })
  | .unlocked =>
    some { s.setConnect number { call with phase := .over } with inFlight := s.inFlight.erase call.address }
  | .over => none

/-- The future is dropped, or times out. -/
def abandon (number : Nat) (call : ConnectCall) (s : LinuxDialer) : Option LinuxDialer :=
  match call.phase with
  | .settling | .locking => some (s.setConnect number { call with phase := .unlocked })
  | .issued => some (s.setConnect number { call with phase := .abandoned })
  | _ => none

def issueDisconnect (address : PeerAddress) (issuer : DriverTask) (s : LinuxDialer) : LinuxDialer :=
  { s with disconnects := s.disconnects ++ [{ address := address, issuer := issuer }] }

/-- The task that `LinuxConnectGuard::drop` spawns. -/
def cleanUp (number : Nat) (cleanup : Cleanup) (device : Bool) (s : LinuxDialer) : Option LinuxDialer :=
  match cleanup.phase with
  | .locking => (s.lock cleanup.address (.cleanup number)).map (setCleanup number { cleanup with phase := .locked })
  | .locked =>
    if s.dialed[cleanup.address]?.isSome then
      some ((s.unlock cleanup.address).setCleanup number { cleanup with phase := .lifting .newerDial })
    else some (s.setCleanup number { cleanup with phase := .checked })
  | .checked =>
    if device then
      some (((s.issueDisconnect cleanup.address (.cleanup number)).unlock cleanup.address).setCleanup number
        { cleanup with phase := .waiting s.disconnects.length })
    else some ((s.unlock cleanup.address).setCleanup number { cleanup with phase := .lifting .noDevice })
  | .waiting call => do
    let made ← s.disconnects[call]?
    let result ← made.result
    if result.clean then some (s.setCleanup number { cleanup with phase := .lifting (.clean call) })
    else some (s.setCleanup number { cleanup with phase := .locking })
  | .lifting reason =>
    some { s.setCleanup number { cleanup with phase := .lifted reason } with
      pendingCleanup := s.pendingCleanup.erase cleanup.address }
  | .lifted reason =>
    some { s.setCleanup number { cleanup with phase := .over reason } with cleanupPermits := s.cleanupPermits + 1 }
  | .over _ => none

def endTeardown (number : Nat) (teardown : Teardown) (s : LinuxDialer) : LinuxDialer :=
  (if teardown.phase.locks then s.unlock teardown.address else s).setTeardown number { teardown with phase := .over }

/-- What a teardown looks up under the locks. -/
def wanted (teardown : Teardown) (s : LinuxDialer) : Bool :=
  match teardown.kind with
  | .disconnect _ => s.servedPeers[teardown.address]?.isNone
  | .disconnectPeer (some session) => decide (s.servedPeers[teardown.address]? = some session)
  | .disconnectPeer none | .close | .sweep => true

/-- A link that is also served is only reported lost. -/
def leaveLink (teardown : Teardown) (s : LinuxDialer) : LinuxDialer :=
  match teardown.kind with
  | .disconnect session => s.undial teardown.address session
  | _ => s

/-- `disconnect`, `disconnect_peer`, `close` and `sweep_leftover_links`. -/
def tearDown (number : Nat) (teardown : Teardown) (device : Bool) (s : LinuxDialer) : Option LinuxDialer :=
  match teardown.phase with
  | .locking => (s.lock teardown.address (.teardown number)).map (setTeardown number { teardown with phase := .locked })
  | .locked =>
    match teardown.kind with
    | .disconnect session =>
      if s.dialed[teardown.address]? = some session then
        some (s.setTeardown number { teardown with phase := .admitting })
      else some (s.endTeardown number teardown)
    | .disconnectPeer _ => some (s.setTeardown number { teardown with phase := .admitting })
    | .close | .sweep => some (s.setTeardown number { teardown with phase := .admitted })
  | .admitting => some (s.setTeardown number { teardown with phase := .admitted })
  | .admitted =>
    if s.wanted teardown then
      if device then
        some ((s.issueDisconnect teardown.address (.teardown number)).setTeardown number
          { teardown with phase := .issued s.disconnects.length })
      else some (s.endTeardown number teardown)
    else some ((s.leaveLink teardown).endTeardown number teardown)
  | .issued call => do
    let made ← s.disconnects[call]?
    if made.result.isSome then some (s.endTeardown number teardown) else none
  | .over => none

def step (s : LinuxDialer) : DialStep → Option LinuxDialer
  | .connect address => some (s.connect address)
  | .proceed number => do
    let call ← s.connects[number]?
    s.proceed number call
  | .answer number ok => do
    let call ← s.connects[number]?.filter fun call => decide (call.phase = .issued)
    some (s.setConnect number { call with phase := if ok then .ending else .refused })
  | .abandon number => do
    let call ← s.connects[number]?
    s.abandon number call
  | .cleanUp number device => do
    let cleanup ← s.cleanups[number]?
    s.cleanUp number cleanup device
  | .teardown address kind => some { s with teardowns := s.teardowns ++ [{ address := address, kind := kind }] }
  | .tearDown number device => do
    let teardown ← s.teardowns[number]?
    s.tearDown number teardown device
  | .giveUp number => do
    let teardown ← s.teardowns[number]?.filter fun teardown => decide (teardown.phase ≠ .over)
    some (s.endTeardown number teardown)
  | .returns call result => do
    -- a clean result is BlueZ's own answer
    let made ← s.disconnects[call]?.filter fun made => made.result.isNone && (made.resolved || !result.clean)
    some { s with disconnects := s.disconnects.set call { made with result := some result } }
  | .resolve call => do
    let made ← s.disconnects[call]?
    some { s with disconnects := s.disconnects.set call { made with resolved := true } }
  | .reportCentralLoss address generation => some (s.undial address generation)
  | .serve address session =>
    some { s with
      servedPeers := match session with
        | some session => s.servedPeers.insert address session
        | none => s.servedPeers.erase address }

/-- The driver's dials and teardowns, over every order of their steps and of
BlueZ's answers. -/
def machine : Machine LinuxDialer DialStep where
  Init s := s = {}
  step := step

end LinuxDialer

end BleGatt
