import BleGatt.Entities.Models
import BleGatt.Lib.Machine
import BleGatt.Lib.TaskList

namespace BleGatt
open Std

/-! The server half of `BleGattBridge`: the queue of notifications, the calls
of `pumpNotifications` that drain it, and the servers that come and go. A
server goes by the generation it was opened with. -/

/-- A queued notification, with what became of it. -/
structure PendingNotify where
  device : PeerAddress
  characteristicUuid : CharacteristicUuid
  value : Bytes
  requestId : UInt64
  /-- The server that was open when it was queued. -/
  server : Nat
  /-- The servers that took it for sending. -/
  sentOn : List Nat := []
  /-- What its own `onNotificationSent` said, counted or ignored. -/
  heard : Option Bool := none
  /-- What `onNotifySent` told Rust, in order. -/
  answers : List Bool := []
  deriving DecidableEq

/-- A running call of `pumpNotifications`. -/
inductive NotifyPump
  /-- At the top of its loop. -/
  | ready
  | took (number : Nat)
  /-- It read `gattServer`. -/
  | loaded (number : Nat) (server : Option Nat)
  /-- The send was not initiated. -/
  | refused (number : Nat)
  | over
  deriving DecidableEq

/-- The notification a call took and is not done with. -/
def NotifyPump.holds : NotifyPump → Option Nat
  | .took number | .loaded number _ | .refused number => some number
  | .ready | .over => none

/-- How far `stopAdvertising` or `startAdvertising` came; `next` are the
characteristics of the start that stops first. -/
inductive Lifecycle
  | steady
  /-- The generation is increased. -/
  | stopping (next : Option (List CharacteristicUuid))
  /-- The pending notifications are failed. -/
  | failed (next : Option (List CharacteristicUuid))
  /-- The server is closed. -/
  | closed (next : Option (List CharacteristicUuid))
  | opening (characteristics : List CharacteristicUuid)
  /-- The generation of the new server is taken. -/
  | renewed (characteristics : List CharacteristicUuid)
  | adding (characteristics : List CharacteristicUuid)
  deriving DecidableEq

structure ServerBridge where
  gattServer : Option Nat := none
  serverGeneration : Nat := 0
  serverCharacteristics : List CharacteristicUuid := []
  subscribedDevices : List (CharacteristicUuid × PeerAddress) := []
  serverSessions : PeerMap UInt64 := ∅
  nextServerSession : UInt64 := 1
  /-- Every notification that was queued, by number. -/
  notifications : List PendingNotify := []
  notifyQueue : List Nat := []
  notifyInFlight : Option Nat := none
  pumps : List NotifyPump := []
  lifecycle : Lifecycle := .steady
  /-- What the platform has still to complete: the server and the number. -/
  outstanding : List (Nat × Nat) := []

inductive ServerStep
  | notifyCharacteristicTo (address : PeerAddress) (characteristic : CharacteristicUuid) (value : Bytes)
      (requestId session : UInt64)
  /-- A call of `pumpNotifications` takes the next notification, if it may. -/
  | take (pump : Nat)
  | load (pump : Nat)
  /-- `initiated` is what `notifyCharacteristicChanged` returns. -/
  | send (pump : Nat) (initiated : Bool)
  | refuse (pump : Nat)
  /-- The callback of the oldest send of a server. -/
  | onNotificationSent (server : Nat) (success : Bool)
  | onDescriptorWriteRequest (server : Nat) (device : PeerAddress) (characteristic : CharacteristicUuid) (enable : Bool)
  | onCharacteristicWriteRequest (server : Nat) (device : PeerAddress)
  /-- `onConnectionStateChange` with `STATE_DISCONNECTED`. -/
  | onDisconnected (server : Nat) (device : PeerAddress)
  | disconnectServerPeer (address : PeerAddress) (session : UInt64)
  | stopAdvertising
  | startAdvertising (characteristics : List CharacteristicUuid)
  /-- The running stop or start takes its next step. -/
  | proceed
  /-- There is no advertiser, or `addService` is refused. -/
  | failAdvertise

namespace ServerBridge

/-- `onNotifySent`. -/
def answer (number : Nat) (success : Bool) (s : ServerBridge) : ServerBridge :=
  { s with notifications := s.notifications.modify number fun item => { item with answers := item.answers ++ [success] } }

def setPump (number : Nat) (pump : NotifyPump) (s : ServerBridge) : ServerBridge :=
  { s with pumps := s.pumps.set number pump }

/-- Someone calls `pumpNotifications`. -/
def pumpNotifications (s : ServerBridge) : ServerBridge := { s with pumps := s.pumps ++ [.ready] }

/-- Both checks of a session: 0 is none. -/
def sessionHolds (address : PeerAddress) (session : UInt64) (s : ServerBridge) : Bool :=
  decide (session = 0) || decide (s.serverSessions[address]? = some session)

/-- The server that would take a notification for this peer. -/
def admits (address : PeerAddress) (characteristic : CharacteristicUuid) (session : UInt64) (s : ServerBridge) :
    Option Nat :=
  if s.sessionHolds address session && decide (characteristic ∈ s.serverCharacteristics) &&
      decide ((characteristic, address) ∈ s.subscribedDevices) then s.gattServer
  else none

def notifyCharacteristicTo (address : PeerAddress) (characteristic : CharacteristicUuid) (value : Bytes)
    (requestId session : UInt64) (s : ServerBridge) : Bool × ServerBridge :=
  match s.admits address characteristic session with
  | none => (false, s)
  | some server =>
    let item : PendingNotify :=
      { device := address, characteristicUuid := characteristic, value := value, requestId := requestId, server := server }
    (true, ({ s with
      notifications := s.notifications ++ [item]
      notifyQueue := s.notifyQueue ++ [s.notifications.length] }).pumpNotifications)

/-- The part of the loop under the monitor. -/
def take (pump : Nat) (s : ServerBridge) : ServerBridge :=
  match s.notifyInFlight, s.notifyQueue with
  | some _, _ => s.setPump pump .over
  | none, [] => s.setPump pump .over
  | none, next :: rest => { s.setPump pump (.took next) with notifyInFlight := some next, notifyQueue := rest }

/-- The send itself: `server` was read before, the characteristic is read
now. -/
def send (pump number : Nat) (server : Option Nat) (initiated : Bool) (s : ServerBridge) : ServerBridge :=
  let characteristic := s.notifications[number]?.map PendingNotify.characteristicUuid
  match server with
  | some server =>
    if initiated && characteristic.any fun uuid => decide (uuid ∈ s.serverCharacteristics) then
      -- `onNotificationSent` resumes the pump
      { s.setPump pump .over with
        notifications := s.notifications.modify number fun item => { item with sentOn := item.sentOn ++ [server] }
        outstanding := s.outstanding ++ [(server, number)] }
    else s.setPump pump (.refused number)
  | none => s.setPump pump (.refused number)

/-- The send was not initiated: it is reported, and the loop goes on. -/
def refuse (pump number : Nat) (s : ServerBridge) : ServerBridge :=
  ({ s with notifyInFlight := none }.answer number false).setPump pump .ready

def onNotificationSent (server number : Nat) (success : Bool) (s : ServerBridge) : ServerBridge :=
  let s := { s with
    outstanding := s.outstanding.erase (server, number)
    notifications := s.notifications.modify number fun item => { item with heard := some success } }
  if s.serverGeneration = server then
    match s.notifyInFlight with
    | none => s.pumpNotifications
    | some completed => ({ s with notifyInFlight := none }.answer completed success).pumpNotifications
  else s

/-- `serverSessions.getOrPut`. -/
def mintSession (device : PeerAddress) (s : ServerBridge) : ServerBridge :=
  match s.serverSessions[device]? with
  | some _ => s
  | none =>
    { s with
      serverSessions := s.serverSessions.insert device s.nextServerSession
      nextServerSession := s.nextServerSession + 1 }

def onDescriptorWriteRequest (device : PeerAddress) (characteristic : CharacteristicUuid) (enable : Bool)
    (s : ServerBridge) : ServerBridge :=
  if enable then
    if decide ((characteristic, device) ∈ s.subscribedDevices) then s
    else { s with subscribedDevices := s.subscribedDevices ++ [(characteristic, device)] }.mintSession device
  else { s with subscribedDevices := s.subscribedDevices.erase (characteristic, device) }

def forgetDevice (device : PeerAddress) (s : ServerBridge) : ServerBridge :=
  { s with
    serverSessions := s.serverSessions.erase device
    subscribedDevices := s.subscribedDevices.filter fun entry => decide (entry.2 ≠ device) }

def disconnectServerPeer (address : PeerAddress) (session : UInt64) (s : ServerBridge) : ServerBridge :=
  if s.sessionHolds address session then
    if s.gattServer.isSome then s.forgetDevice address
    else { s with serverSessions := s.serverSessions.erase address }
  else s

/-- `failPendingNotifications`, and what is forgotten with it. -/
def failPendingNotifications (s : ServerBridge) : ServerBridge :=
  let abandoned := s.notifyQueue ++ s.notifyInFlight.toList
  abandoned.foldl (fun s number => s.answer number false)
    { s with notifyQueue := [], notifyInFlight := none, serverSessions := ∅, subscribedDevices := [] }

/-- `stopAdvertising` up to its second monitor. -/
def beginStop (next : Option (List CharacteristicUuid)) (s : ServerBridge) : ServerBridge :=
  { s with serverGeneration := s.serverGeneration + 1, lifecycle := .stopping next }

/-- One step of the running stop or start. -/
def proceed (s : ServerBridge) : Option ServerBridge :=
  match s.lifecycle with
  | .steady => none
  | .stopping next => some { s.failPendingNotifications with lifecycle := .failed next }
  | .failed next => some { s with gattServer := none, lifecycle := .closed next }
  | .closed none => some { s with serverCharacteristics := [], lifecycle := .steady }
  | .closed (some characteristics) => some { s with serverCharacteristics := [], lifecycle := .opening characteristics }
  | .opening characteristics =>
    some { s with serverGeneration := s.serverGeneration + 1, lifecycle := .renewed characteristics }
  | .renewed characteristics => some { s with gattServer := some s.serverGeneration, lifecycle := .adding characteristics }
  | .adding [] => some { s with lifecycle := .steady }
  | .adding (uuid :: rest) =>
    some { s with serverCharacteristics := s.serverCharacteristics ++ [uuid], lifecycle := .adding rest }

def failAdvertise (s : ServerBridge) : Option ServerBridge :=
  match s.lifecycle with
  | .opening _ | .adding [] => some (s.beginStop none)
  | _ => none

/-- A callback of a server that is not the current one is ignored. -/
def current (server : Nat) (act : ServerBridge → ServerBridge) (s : ServerBridge) : Option ServerBridge :=
  if s.gattServer = some server then some (if s.serverGeneration = server then act s else s) else none

def step (s : ServerBridge) : ServerStep → Option ServerBridge
  | .notifyCharacteristicTo address characteristic value requestId session =>
    some (s.notifyCharacteristicTo address characteristic value requestId session).2
  | .take pump => if s.pumps[pump]? = some .ready then some (s.take pump) else none
  | .load pump =>
    match s.pumps[pump]? with
    | some (.took number) => some (s.setPump pump (.loaded number s.gattServer))
    | _ => none
  | .send pump initiated =>
    match s.pumps[pump]? with
    | some (.loaded number server) => some (s.send pump number server initiated)
    | _ => none
  | .refuse pump =>
    match s.pumps[pump]? with
    | some (.refused number) => some (s.refuse pump number)
    | _ => none
  | .onNotificationSent server success => do
    let oldest ← s.outstanding.find? fun sent => decide (sent.1 = server)
    some (s.onNotificationSent server oldest.2 success)
  | .onDescriptorWriteRequest server device characteristic enable =>
    s.current server (onDescriptorWriteRequest device characteristic enable)
  | .onCharacteristicWriteRequest server device => s.current server (mintSession device)
  | .onDisconnected server device => s.current server (forgetDevice device)
  | .disconnectServerPeer address session => some (s.disconnectServerPeer address session)
  | .stopAdvertising => if s.lifecycle = .steady then some (s.beginStop none) else none
  | .startAdvertising characteristics => if s.lifecycle = .steady then some (s.beginStop (some characteristics)) else none
  | .proceed => s.proceed
  | .failAdvertise => s.failAdvertise

/-- The bridge's server, over every order of its callers' steps, of its
pumps' and of the platform's callbacks. Stops and starts come one after the
other. -/
def machine : Machine ServerBridge ServerStep where
  Init s := s = {}
  step := step

end ServerBridge

end BleGatt
