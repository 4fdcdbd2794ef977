import BleGatt.Entities.Models
import BleGatt.Lib.FiniteMap
import BleGatt.Lib.Machine
import BleGatt.Lib.Reused

namespace BleGatt
open Std

/-! The sessions of the centrals that `BleGattBridge` serves: where one is
given, where it is forgotten, and what Rust is told of it. -/

/-- What the server tells Rust of its centrals. -/
inductive ServerReport
  | onConnected (address : PeerAddress)
  | onServerSubscribed (address : PeerAddress) (session : UInt64)
  | onServerCharacteristicWritten (address : PeerAddress) (characteristic : CharacteristicUuid) (value : Bytes)
      (session : UInt64)
  | onDisconnected (address : PeerAddress)
  deriving DecidableEq

structure NotifyRequest where
  address : PeerAddress
  characteristicUuid : CharacteristicUuid
  value : Bytes
  requestId : UInt64
  deriving DecidableEq

/-- How far a call came that stops or starts the server; `next` are the
characteristics of the start that stops first. -/
inductive ServerCall
  /-- The adapter goes down: the addresses that are still to be reported. -/
  | reporting (addresses : List PeerAddress)
  /-- The generation is increased. -/
  | stopping (next : Option (List CharacteristicUuid))
  /-- Those that were served are forgotten, and reported. -/
  | cleared (served : List PeerAddress) (next : Option (List CharacteristicUuid))
  /-- The server is closed. -/
  | closed (next : Option (List CharacteristicUuid))
  | opening (characteristics : List CharacteristicUuid)
  /-- The generation of the new server is taken. -/
  | renewed (generation : Nat) (characteristics : List CharacteristicUuid)
  | adding (characteristics : List CharacteristicUuid)
  | returned
  deriving DecidableEq

structure SessionServer where
  /-- By its generation. -/
  gattServer : Option Nat := none
  serverGeneration : Nat := 0
  serverCharacteristics : List CharacteristicUuid := []
  subscribedDevices : List (CharacteristicUuid × PeerAddress) := []
  serverSessions : PeerMap UInt64 := ∅
  nextServerSession : UInt64 := 1
  /-- The notifications that were queued, and the centrals that were let go. -/
  queued : List NotifyRequest := []
  cancelled : List PeerAddress := []
  calls : List ServerCall := []
  told : List ServerReport := []

inductive SessionStep
  /-- A callback of the server that was opened as this generation. -/
  | onConnected (generation : Nat) (device : PeerAddress)
  | onDisconnected (generation : Nat) (device : PeerAddress)
  | onDescriptorWriteRequest (generation : Nat) (device : PeerAddress) (characteristic : CharacteristicUuid) (enable : Bool)
  | onCharacteristicWriteRequest (generation : Nat) (device : PeerAddress) (characteristic : CharacteristicUuid) (value : Bytes)
  /-- With what it has assembled, gaps apart. -/
  | onExecuteWrite (generation : Nat) (device : PeerAddress) (assembled : List (CharacteristicUuid × Bytes))
  | notifyCharacteristicTo (request : NotifyRequest) (session : UInt64)
  | disconnectServerPeer (address : PeerAddress) (session : UInt64)
  /-- `STATE_OFF`, or `STATE_TURNING_OFF`. -/
  | radioOff
  | stopAdvertising
  | startAdvertising (characteristics : List CharacteristicUuid)
  /-- A call takes its next step. -/
  | proceed (call : Nat)
  /-- There is no advertiser, or `addService` is refused. -/
  | failAdvertise (call : Nat)

namespace SessionServer

def tell (report : ServerReport) (s : SessionServer) : SessionServer := { s with told := s.told ++ [report] }

/-- `serverSessions.getOrPut`. -/
def session (device : PeerAddress) (s : SessionServer) : UInt64 × SessionServer :=
  match s.serverSessions[device]? with
  | some session => (session, s)
  | none =>
    (s.nextServerSession, { s with
      serverSessions := s.serverSessions.insert device s.nextServerSession
      nextServerSession := s.nextServerSession + 1 })

def isSubscribed (device : PeerAddress) (characteristic : CharacteristicUuid) (s : SessionServer) : Bool :=
  s.subscribedDevices.contains (characteristic, device)

def isSubscribedAnywhere (device : PeerAddress) (s : SessionServer) : Bool :=
  s.subscribedDevices.any fun entry => decide (entry.2 = device)

def onDisconnected (device : PeerAddress) (s : SessionServer) : SessionServer :=
  { s with
    serverSessions := s.serverSessions.erase device
    subscribedDevices := s.subscribedDevices.filter fun entry => decide (entry.2 ≠ device) }.tell (.onDisconnected device)

/-- The disable that is a central's last ends its served session: it is
reported, and the link stays up. -/
def onDescriptorWriteRequest (device : PeerAddress) (characteristic : CharacteristicUuid) (enable : Bool)
    (s : SessionServer) : SessionServer :=
  if enable then
    if s.isSubscribed device characteristic then s
    else
      let (session, s) := { s with subscribedDevices := s.subscribedDevices ++ [(characteristic, device)] }.session device
      s.tell (.onServerSubscribed device session)
  else if s.isSubscribed device characteristic then
    let s := { s with subscribedDevices := s.subscribedDevices.filter fun entry => decide (entry ≠ (characteristic, device)) }
    if s.isSubscribedAnywhere device then s else s.tell (.onDisconnected device)
  else s

def onCharacteristicWriteRequest (device : PeerAddress) (characteristic : CharacteristicUuid) (value : Bytes)
    (s : SessionServer) : SessionServer :=
  let (session, s) := s.session device
  s.tell (.onServerCharacteristicWritten device characteristic value session)

def onExecuteWrite (device : PeerAddress) (assembled : List (CharacteristicUuid × Bytes)) (s : SessionServer) :
    SessionServer :=
  let (session, s) := s.session device
  assembled.foldl (fun s write => s.tell (.onServerCharacteristicWritten device write.1 write.2 session)) s

/-- Both checks of a session: 0 is none. -/
def sessionHolds (address : PeerAddress) (session : UInt64) (s : SessionServer) : Bool :=
  decide (session = 0) || decide (s.serverSessions[address]? = some session)

def notifyCharacteristicTo (request : NotifyRequest) (session : UInt64) (s : SessionServer) : Bool × SessionServer :=
  if s.sessionHolds request.address session && s.gattServer.isSome &&
      decide (request.characteristicUuid ∈ s.serverCharacteristics) &&
      s.isSubscribed request.address request.characteristicUuid then
    (true, { s with queued := s.queued ++ [request] })
  else (false, s)

def disconnectServerPeer (address : PeerAddress) (session : UInt64) (s : SessionServer) : SessionServer :=
  if s.sessionHolds address session then
    let s := { s with serverSessions := s.serverSessions.erase address }
    if s.gattServer.isSome then
      { s with
        subscribedDevices := s.subscribedDevices.filter fun entry => decide (entry.2 ≠ address)
        cancelled := s.cancelled ++ [address] }
    else s
  else s

/-- A callback of a server that was replaced is ignored. -/
def current (generation : Nat) (act : SessionServer → SessionServer) (s : SessionServer) : SessionServer :=
  if s.serverGeneration = generation then act s else s

def served (s : SessionServer) : List PeerAddress := (s.subscribedDevices.map Prod.snd).dedup

/-- The second monitor of `stopAdvertising`. -/
def clearServed (s : SessionServer) : SessionServer :=
  s.served.foldl (fun s device => s.tell (.onDisconnected device))
    { s with queued := [], serverSessions := ∅, subscribedDevices := [] }

/-- What a call does next, and how far it is then. -/
def proceed (s : SessionServer) : ServerCall → Option (SessionServer × ServerCall)
  | .reporting (address :: addresses) => some (s.tell (.onDisconnected address), .reporting addresses)
  | .reporting [] => some ({ s with serverGeneration := s.serverGeneration + 1 }, .stopping none)
  | .stopping next => some (s.clearServed, .cleared s.served next)
  | .cleared served next =>
    let cancelled := if s.gattServer.isSome then served else []
    some ({ s with cancelled := s.cancelled ++ cancelled, gattServer := none }, .closed next)
  | .closed none => some ({ s with serverCharacteristics := [] }, .returned)
  | .closed (some characteristics) => some ({ s with serverCharacteristics := [] }, .opening characteristics)
  | .opening characteristics =>
    some ({ s with serverGeneration := s.serverGeneration + 1 }, .renewed (s.serverGeneration + 1) characteristics)
  | .renewed generation characteristics => some ({ s with gattServer := some generation }, .adding characteristics)
  | .adding (uuid :: rest) => some ({ s with serverCharacteristics := s.serverCharacteristics ++ [uuid] }, .adding rest)
  | .adding [] => some (s, .returned)
  | .returned => none

def step (s : SessionServer) : SessionStep → Option SessionServer
  | .onConnected generation device => some (s.current generation (tell (.onConnected device)))
  | .onDisconnected generation device => some (s.current generation (onDisconnected device))
  | .onDescriptorWriteRequest generation device characteristic enable =>
    some (s.current generation (onDescriptorWriteRequest device characteristic enable))
  | .onCharacteristicWriteRequest generation device characteristic value =>
    some (s.current generation (onCharacteristicWriteRequest device characteristic value))
  | .onExecuteWrite generation device assembled => some (s.current generation (onExecuteWrite device assembled))
  | .notifyCharacteristicTo request session => some (s.notifyCharacteristicTo request session).2
  | .disconnectServerPeer address session => some (s.disconnectServerPeer address session)
  | .radioOff => some { s with calls := s.calls ++ [.reporting s.serverSessions.keys] }
  | .stopAdvertising => some { s with serverGeneration := s.serverGeneration + 1, calls := s.calls ++ [.stopping none] }
  | .startAdvertising characteristics =>
    some { s with
      serverGeneration := s.serverGeneration + 1
      calls := s.calls ++ [.stopping (some characteristics)] }
  | .proceed call => do
    let (s, next) ← s.proceed (← s.calls[call]?)
    some { s with calls := s.calls.set call next }
  | .failAdvertise call =>
    match s.calls[call]? with
    | some (.opening _) | some (.adding []) =>
      some { s with serverGeneration := s.serverGeneration + 1, calls := s.calls.set call (.stopping none) }
    | _ => none

/-- The callbacks of the centrals and the calls of Rust and of the platform,
in any order. -/
def machine : Machine SessionServer SessionStep where
  Init s := s = {}
  step := step

/-- What a step of a call makes of those that linger. -/
def lingeringFrom (h : List PeerAddress) : ServerCall → List PeerAddress
  | .reporting (address :: _) => address :: h
  | .stopping _ => []
  | _ => h

/-- The centrals that Rust has been told are gone and whose session is still
known: they unsubscribed from their last characteristic, or the adapter goes
down and the server has not stopped yet. -/
def lingering (h : List PeerAddress) (s : SessionServer) (label : SessionStep) (t : SessionServer) : List PeerAddress :=
  match label with
  | .onDescriptorWriteRequest generation device characteristic false =>
    if s.serverGeneration = generation ∧ s.isSubscribed device characteristic = true ∧
        t.isSubscribedAnywhere device = false then device :: h
    else h
  | .onDisconnected generation device =>
    if s.serverGeneration = generation then h.filter fun other => decide (other ≠ device) else h
  | .disconnectServerPeer address session =>
    if s.sessionHolds address session then h.filter fun other => decide (other ≠ address) else h
  | .proceed call => s.calls[call]?.elim h (lingeringFrom h)
  | _ => h

/-- The counter has not come round to 0, which stands for no session. -/
def canServe (device : PeerAddress) (s : SessionServer) : Bool :=
  s.serverSessions[device]?.isSome || decide (s.nextServerSession ≠ 0)

/-- A central that Rust was told is gone is not heard of again before its
session is forgotten. -/
def QuietOnceGone (h : List PeerAddress) (s : SessionServer) : SessionStep → Bool
  | .onDescriptorWriteRequest generation device characteristic true =>
    decide (s.serverGeneration ≠ generation) || s.isSubscribed device characteristic ||
      decide (device ∉ h) && s.canServe device
  | .onCharacteristicWriteRequest generation device _ _ =>
    decide (s.serverGeneration ≠ generation) || decide (device ∉ h) && s.canServe device
  | .onExecuteWrite generation device assembled =>
    decide (s.serverGeneration ≠ generation) || (assembled.isEmpty || decide (device ∉ h)) && s.canServe device
  | _ => true

end SessionServer

namespace ServerReport

/-- The session that Rust is given for an address. -/
def Gives : ServerReport → PeerAddress × UInt64 → Prop
  | .onServerSubscribed address session, key => key = (address, session)
  | .onServerCharacteristicWritten address _ _ session, key => key = (address, session)
  | _, _ => False

/-- The sessions of an address are over. -/
def Ends : ServerReport → PeerAddress × UInt64 → Prop
  | .onDisconnected address, key => key.1 = address
  | _, _ => False

end ServerReport
end BleGatt
