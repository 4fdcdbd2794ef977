import BleGatt.Entities.Models
import BleGatt.Lib.FiniteMap
import BleGatt.Lib.Machine
import BleGatt.Lib.Overlay

namespace BleGatt
open Std

/-! The write requests that the GATT server of `BleGattBridge` answers: plain
ones, prepared ones, and the execute that applies or drops what was
prepared. -/

/-- The chunks prepared for one characteristic, by offset. -/
abbrev StagedChunks := ExtTreeMap Nat Bytes

/-- What `onServerCharacteristicWritten` tells Rust. -/
structure ServerWrite where
  address : PeerAddress
  characteristicUuid : CharacteristicUuid
  value : Bytes
  session : UInt64
  deriving DecidableEq

inductive GattStatus
  | success
  | invalidOffset
  deriving DecidableEq

/-- What `sendResponse` is given. -/
structure GattResponse where
  device : PeerAddress
  requestId : Nat
  status : GattStatus
  offset : Nat
  value : Option Bytes
  deriving DecidableEq

structure WriteServer where
  serverGeneration : Nat := 0
  /-- The characteristics of the server, with their values. -/
  serverCharacteristics : ExtTreeMap CharacteristicUuid Bytes := ∅
  /-- By the address and the characteristic its keys are made of. -/
  preparedWrites : PeerMap (ExtTreeMap CharacteristicUuid StagedChunks) := ∅
  serverSessions : PeerMap UInt64 := ∅
  nextServerSession : UInt64 := 1
  written : List ServerWrite := []
  responses : List GattResponse := []

inductive WriteStep
  /-- `startAdvertising`, once the server before is gone. -/
  | startAdvertising (characteristics : List (CharacteristicUuid × Bytes))
  | stopAdvertising
  /-- A callback of the server that was opened as this generation. -/
  | onCharacteristicWriteRequest (generation : Nat) (device : PeerAddress) (requestId : Nat) (characteristic : CharacteristicUuid)
      (preparedWrite responseNeeded : Bool) (offset : Nat) (value : Bytes)
  /-- The keys of a concurrent map come in any order. -/
  | onExecuteWrite (generation : Nat) (device : PeerAddress) (requestId : Nat) (execute : Bool)
      (keys : List CharacteristicUuid)
  | onDisconnected (generation : Nat) (device : PeerAddress)
  /-- `disconnectServerPeer` of a session that is current. -/
  | endSession (address : PeerAddress)
  /-- `closeAllClientGatts`. -/
  | closeAllClientGatts

namespace WriteServer

/-- What a central has prepared. -/
def staged (device : PeerAddress) (s : WriteServer) : ExtTreeMap CharacteristicUuid StagedChunks :=
  s.preparedWrites[device]?.getD ∅

/-- `serverSessions.getOrPut`. -/
def session (device : PeerAddress) (s : WriteServer) : UInt64 × WriteServer :=
  match s.serverSessions[device]? with
  | some session => (session, s)
  | none =>
    (s.nextServerSession, { s with
      serverSessions := s.serverSessions.insert device s.nextServerSession
      nextServerSession := s.nextServerSession + 1 })

def respond (response : GattResponse) (s : WriteServer) : WriteServer := { s with responses := s.responses ++ [response] }

def prepare (device : PeerAddress) (characteristic : CharacteristicUuid) (offset : Nat) (value : Bytes) (s : WriteServer) :
    WriteServer :=
  let chunks := (s.staged device)[characteristic]?.getD ∅
  { s with preparedWrites := s.preparedWrites.insert device ((s.staged device).insert characteristic (chunks.insert offset value)) }

/-- A characteristic is given a value, and Rust is told. -/
def apply (device : PeerAddress) (session : UInt64) (s : WriteServer) (write : CharacteristicUuid × Bytes) : WriteServer :=
  { s with
    serverCharacteristics := s.serverCharacteristics.modify write.1 fun _ => write.2
    written := s.written ++ [⟨device, write.1, write.2, session⟩] }

def onCharacteristicWriteRequest (device : PeerAddress) (requestId : Nat) (characteristic : CharacteristicUuid)
    (preparedWrite responseNeeded : Bool) (offset : Nat) (value : Bytes) (s : WriteServer) : WriteServer :=
  if preparedWrite then
    let s := s.prepare device characteristic offset value
    if responseNeeded then s.respond ⟨device, requestId, .success, offset, some value⟩ else s
  else
    let s := if responseNeeded then s.respond ⟨device, requestId, .success, offset, none⟩ else s
    let (session, s) := s.session device
    s.apply device session (characteristic, value)

/-- Everything is validated and assembled first; `none` is a gap. A
characteristic the server does not have is passed over. -/
def assembled (device : PeerAddress) (s : WriteServer) : List CharacteristicUuid → Option (List (CharacteristicUuid × Bytes))
  | [] => some []
  | uuid :: keys =>
    match (s.staged device)[uuid]? with
    | none => s.assembled device keys
    | some chunks =>
      if s.serverCharacteristics.contains uuid then
        match Overlay.assemble 0 chunks.toList with
        | none => none
        | some value => (s.assembled device keys).map fun writes => (uuid, value) :: writes
      else s.assembled device keys

def onExecuteWrite (device : PeerAddress) (requestId : Nat) (execute : Bool) (keys : List CharacteristicUuid)
    (s : WriteServer) : WriteServer :=
  match if execute then s.assembled device keys else some [] with
  | none => s.respond ⟨device, requestId, .invalidOffset, 0, none⟩
  | some writes =>
    let (session, s) := { s with preparedWrites := s.preparedWrites.erase device }.session device
    (writes.foldl (apply device session) s).respond ⟨device, requestId, .success, 0, none⟩

/-- A callback of a server that was replaced is ignored. -/
def current (generation : Nat) (act : WriteServer → WriteServer) (s : WriteServer) : WriteServer :=
  if s.serverGeneration = generation then act s else s

def step (s : WriteServer) : WriteStep → Option WriteServer
  | .startAdvertising characteristics =>
    some { s with
      serverGeneration := s.serverGeneration + 2
      serverCharacteristics := ExtTreeMap.ofList characteristics compare
      preparedWrites := ∅
      serverSessions := ∅ }
  | .stopAdvertising =>
    some { s with
      serverGeneration := s.serverGeneration + 1
      serverCharacteristics := ∅
      preparedWrites := ∅
      serverSessions := ∅ }
  | .onCharacteristicWriteRequest generation device requestId characteristic preparedWrite responseNeeded offset value =>
    some (s.current generation
      (onCharacteristicWriteRequest device requestId characteristic preparedWrite responseNeeded offset value))
  | .onExecuteWrite generation device requestId execute keys =>
    if keys.Perm (s.staged device).keys then
      some (s.current generation (onExecuteWrite device requestId execute keys))
    else none
  | .onDisconnected generation device =>
    some (s.current generation fun s => { s with
      preparedWrites := s.preparedWrites.erase device
      serverSessions := s.serverSessions.erase device })
  | .endSession address => some { s with serverSessions := s.serverSessions.erase address }
  | .closeAllClientGatts => some { s with preparedWrites := ∅ }

/-- The server under the requests of any centrals. -/
def machine : Machine WriteServer WriteStep where
  Init s := s = {}
  step := step

end WriteServer
end BleGatt
