import BleGatt.Entities.Models
import BleGatt.Lib.Machine

namespace BleGatt

/-! Discovery on the D-Bus connection of `DiscoveryBus`, with BlueZ at its
other end. A request outlives the future that awaited its reply, and BlueZ may
answer it after what was asked later, as it answers a `StopDiscovery` while an
earlier request is pending. `Discovering` is read on another connection. -/

/-- The kinds of `bluer::Error` that the driver tells apart. -/
inductive ErrorKind
  | inProgress
  /-- `Internal(DBus(name))`: what is no `org.bluez` error. -/
  | internal (name : String)
  /-- `Failed`, `NotReady` and every further kind. -/
  | other
  deriving DecidableEq

structure BluerError where
  kind : ErrorKind
  /-- What `to_string` makes of it. -/
  text : String
  deriving DecidableEq

def noReplyName : String := "org.freedesktop.DBus.Error.NoReply"

def isInProgress (err : BluerError) : Bool := err.kind = .inProgress

def discoveryError (err : BluerError) : BleError :=
  if isInProgress err then .adapterBusy err.text else .adapterUnavailable err.text

/-- `start_proved_not_running`, which is not told which call failed. -/
def startProvedNotRunning (err : BluerError) : Bool :=
  let noReply : Bool := err.kind = .internal noReplyName
  !isInProgress err && !noReply

structure ScanState where
  /-- Scan streams handed out and not yet dropped. -/
  live : Nat := 0
  running : Bool := false

def ScanState.idleRunning (state : ScanState) : Bool := state.live == 0 && state.running

inductive DiscoveryMethod
  | setDiscoveryFilter
  | startDiscovery
  | stopDiscovery
  deriving DecidableEq

/-- Who waits for `op`. -/
inductive DiscoveryCaller
  | beginScan
  /-- `stop_if_idle`, in `settle_discovery` before a dial or in the task of a
  dropped `ScanGuard`. -/
  | stopIfIdle (dials : Bool)
  deriving DecidableEq

/-- A call on the discovery connection, and where in the source it stands. -/
inductive DiscoveryCall
  /-- The first call of `start_discovery`, and whether this is the retry. -/
  | filter (again : Bool)
  /-- The second. -/
  | start (again : Bool)
  /-- The `StopDiscovery` before the retry. -/
  | recover
  /-- The one of `stop_if_idle`. -/
  | stop (dials : Bool)
  deriving DecidableEq

def DiscoveryCall.method : DiscoveryCall → DiscoveryMethod
  | .filter _ => .setDiscoveryFilter
  | .start _ => .startDiscovery
  | .recover | .stop _ => .stopDiscovery

/-- A read of `Discovering`, on the connection of `bluer`. -/
inductive DiscoveryRead
  /-- `begin_scan` confirms that discovery is still on. -/
  | confirm
  /-- `stop_if_idle` does, after its call failed. -/
  | check (dials : Bool)
  deriving DecidableEq

/-- Who has `op`, and what it awaits. -/
inductive DiscoveryOp
  | free
  | reading (read : DiscoveryRead) (answer : Option (Except BluerError Bool))
  /-- The answer is BlueZ's, on its way back once it is there. -/
  | calling (call : DiscoveryCall) (answer : Option (Except BluerError Unit))
  deriving DecidableEq

namespace DiscoveryOp

/-- `begin_scan` has `op`. -/
def beginning : DiscoveryOp → Bool
  | .reading .confirm _ | .calling (.filter _) _ | .calling (.start _) _ | .calling .recover _ => true
  | _ => false

/-- `begin_scan` has marked discovery as running. -/
def marked : DiscoveryOp → Bool
  | .calling (.filter _) _ | .calling (.start _) _ | .calling .recover _ => true
  | _ => false

/-- `stop_if_idle` has `op`, and has sent its `StopDiscovery`. -/
def stopping : DiscoveryOp → Bool
  | .reading (.check _) _ | .calling (.stop _) _ => true
  | _ => false

/-- It has `op` for a `connect`. -/
def dials : DiscoveryOp → Bool
  | .reading (.check dials) _ | .calling (.stop dials) _ => dials
  | _ => false

/-- What BlueZ has yet to answer of it. -/
def unanswered : DiscoveryOp → List DiscoveryMethod
  | .calling call none => [call.method]
  | _ => []

end DiscoveryOp

structure LinuxDiscovery where
  /-- BlueZ has this client in its discovery list. -/
  listed : Bool := false
  /-- It has another one there. -/
  others : Bool := false
  /-- What it has yet to answer and nobody awaits. -/
  abandoned : List DiscoveryMethod := []
  state : ScanState := {}
  op : DiscoveryOp := .free
  waiting : List DiscoveryCaller := []
  /-- What `begin_scan` has returned, oldest first. -/
  begun : List (Except BleError Unit) := []
  /-- How many calls of `connect` went on to dial. -/
  dialled : Nat := 0

inductive DiscoveryStep
  /-- `begin_scan` is called. -/
  | beginScan
  /-- A `ScanGuard` is dropped, inside a runtime or outside one. -/
  | dropScan (runtime : Bool)
  /-- `connect` comes to its `settle_discovery`. -/
  | connect
  /-- One that waits for `op` gets it. -/
  | lock (index : Nat)
  /-- BlueZ answers the call that has `op`. -/
  | answer (result : Except BluerError Unit)
  /-- It answers a request that nobody awaits. -/
  | answerLate (index : Nat) (result : Except BluerError Unit)
  /-- `Discovering` is read, or is not readable. -/
  | read (failed : Option BluerError)
  /-- An answer reaches what has `op`. -/
  | reply
  /-- `DISCOVERY_CALL_TIMEOUT` passes instead. -/
  | timeout (text : String)
  /-- The future that has `op` is dropped, by `DISCOVERY_STOP_TIMEOUT` or by
  its caller. -/
  | cancel (stopTimeout : Bool)
  /-- One that waits for `op` is. -/
  | leave (index : Nat) (stopTimeout : Bool)
  | powerOff
  /-- Other processes scan, or do not. -/
  | otherScans (on : Bool)

namespace LinuxDiscovery

/-- The adapter's property tells of every client. -/
def discovering (s : LinuxDiscovery) : Bool := s.listed || s.others

/-- BlueZ accepts a request, or changes nothing. -/
def handle (method : DiscoveryMethod) (result : Except BluerError Unit) (s : LinuxDiscovery) : LinuxDiscovery :=
  match method, result with
  | .startDiscovery, .ok () => { s with listed := true }
  | .stopDiscovery, .ok () => { s with listed := false }
  | _, _ => s

def call (next : DiscoveryCall) (s : LinuxDiscovery) : LinuxDiscovery := { s with op := .calling next none }

def setRunning (running : Bool) (s : LinuxDiscovery) : LinuxDiscovery :=
  { s with state := { s.state with running := running } }

/-- `op` is released, and a connect that has waited long enough dials. -/
def release (dials : Bool) (s : LinuxDiscovery) : LinuxDiscovery :=
  { s with op := .free, dialled := if dials then s.dialled + 1 else s.dialled }

/-- The end of `begin_scan`, with its guard. -/
def counted (s : LinuxDiscovery) : LinuxDiscovery :=
  { s with op := .free, state := { live := s.state.live + 1, running := true }, begun := s.begun ++ [.ok ()] }

/-- `begin_scan` where discovery is not on. -/
def startOver (s : LinuxDiscovery) : LinuxDiscovery := (s.setRunning true).call (.filter false)

/-- What `begin_scan` makes of a `start_discovery` that failed. -/
def startFailed (again : Bool) (err : BluerError) (s : LinuxDiscovery) : LinuxDiscovery :=
  if isInProgress err && !again then s.call .recover
  else
    let s := if startProvedNotRunning err then s.setRunning false else s
    { s with op := .free, begun := s.begun ++ [.error (discoveryError err)] }

/-- The reply of a call. -/
def receive (done : DiscoveryCall) (result : Except BluerError Unit) (s : LinuxDiscovery) : LinuxDiscovery :=
  match done, result with
  | .filter again, .ok () => s.call (.start again)
  | .start _, .ok () => s.counted
  | .filter again, .error err | .start again, .error err => s.startFailed again err
  | .recover, _ => s.call (.filter true)
  | .stop dials, .ok () => (s.setRunning false).release dials
  | .stop dials, .error _ => { s with op := .reading (.check dials) none }

/-- What was read of `Discovering`. -/
def learn (read : DiscoveryRead) (value : Except BluerError Bool) (s : LinuxDiscovery) : LinuxDiscovery :=
  match read with
  | .confirm => if value.toOption.getD false then s.counted else s.startOver
  | .check dials => if value.toOption.getD true then s.release dials else (s.setRunning false).release dials

/-- `begin_scan` and `stop_if_idle`, once they have `op`. -/
def enter (caller : DiscoveryCaller) (s : LinuxDiscovery) : LinuxDiscovery :=
  match caller with
  | .beginScan => if s.state.running then { s with op := .reading .confirm none } else s.startOver
  | .stopIfIdle dials => if s.state.idleRunning then s.call (.stop dials) else s.release dials

/-- `ScanGuard::drop`. -/
def dropScan (runtime : Bool) (s : LinuxDiscovery) : LinuxDiscovery :=
  let s := { s with state := { s.state with live := s.state.live - 1 } }
  if s.state.idleRunning && runtime then { s with waiting := s.waiting ++ [.stopIfIdle false] } else s

/-- `settle_discovery`, up to its wait for `op`. -/
def connect (s : LinuxDiscovery) : LinuxDiscovery :=
  if s.state.idleRunning then { s with waiting := s.waiting ++ [.stopIfIdle true] }
  else { s with dialled := s.dialled + 1 }

/-- The request stays with BlueZ. -/
def abandon (s : LinuxDiscovery) : LinuxDiscovery := { s with abandoned := s.abandoned ++ s.op.unanswered }

def step (s : LinuxDiscovery) : DiscoveryStep → Option LinuxDiscovery
  | .beginScan => some { s with waiting := s.waiting ++ [.beginScan] }
  | .dropScan runtime => if 0 < s.state.live then some (s.dropScan runtime) else none
  | .connect => some s.connect
  | .lock index =>
    if s.op = .free then
      match s.waiting[index]? with
      | some caller => some (enter caller { s with waiting := s.waiting.eraseIdx index })
      | none => none
    else none
  | .answer result =>
    match s.op with
    | .calling awaited none => some (handle awaited.method result { s with op := .calling awaited (some result) })
    | _ => none
  | .answerLate index result => do
    let method ← s.abandoned[index]?
    some (handle method result { s with abandoned := s.abandoned.eraseIdx index })
  | .read failed =>
    match s.op with
    | .reading read none => some { s with op := .reading read (some (failed.elim (.ok s.discovering) .error)) }
    | _ => none
  | .reply =>
    match s.op with
    | .calling done (some result) => some (s.receive done result)
    | .reading read (some value) => some (s.learn read value)
    | _ => none
  | .timeout text =>
    match s.op with
    | .calling done _ => some (s.abandon.receive done (.error ⟨.internal noReplyName, text⟩))
    | _ => none
  | .cancel stopTimeout =>
    if s.op ≠ .free ∧ (stopTimeout = true → s.op.dials = true) then some (s.abandon.release stopTimeout) else none
  | .leave index stopTimeout =>
    match s.waiting[index]? with
    | some caller =>
      if stopTimeout = true → caller = .stopIfIdle true then
        let s := { s with waiting := s.waiting.eraseIdx index }
        some { s with dialled := if stopTimeout then s.dialled + 1 else s.dialled }
      else none
    | none => none
  | .powerOff => some { s with listed := false, others := false }
  | .otherScans on => some { s with others := on }

/-- BlueZ, the scans and the calls of `connect` in any order, from a new
connection. -/
def machine : Machine LinuxDiscovery DiscoveryStep where
  Init s := s = {}
  step := step

end LinuxDiscovery
end BleGatt
