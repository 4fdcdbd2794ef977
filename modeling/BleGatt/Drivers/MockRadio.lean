import BleGatt.Entities.Models
import BleGatt.Lib.FiniteMap
import BleGatt.Lib.Machine
import BleGatt.Lib.Sectioned

namespace BleGatt
open Std

/-! `LocalRadio`, the simulated radio of the mock driver. Its methods take its
locks one after another, so each is the list of what it does under a lock. The
two stalls it can be armed with are waits between two of these. -/

/-- What a handle names: a session of a central with a peripheral. -/
structure MockGattConnection where
  session : UInt64
  central : PeerAddress
  peripheral : PeerAddress
  deriving DecidableEq

/-- The receiving end of a subscription, by its number in the radio. -/
structure NotifyStream where
  items : List Bytes := []
  dropped : Bool := false
  deriving DecidableEq

structure PeripheralState where
  service : GattServiceSpec
  values : ExtTreeMap CharacteristicUuid Bytes
  /-- The stream of each subscriber. -/
  subscribers : ExtTreeMap CharacteristicUuid (PeerMap Nat)
  manufacturerData : List (UInt16 × Bytes)
  serviceData : List (ServiceUuid × Bytes)
  rssi : Option Int16

structure LocalRadio where
  peripherals : PeerMap PeripheralState := ∅
  /-- The addresses that registered a sender. -/
  eventSenders : List PeerAddress := []
  disconnectLog : List PeerAddress := []
  nextSession : UInt64 := 0
  /-- By central and peripheral. -/
  liveSessions : PeerAddress × PeerAddress → Option UInt64 := fun _ => none
  streams : List NotifyStream := []
  /-- The events that were sent, each to the driver at an address. -/
  sent : List (PeerAddress × GattEvent) := []

inductive CharacteristicProperty
  | readable
  | writable
  | notifiable
  deriving DecidableEq

def CharacteristicProperty.text : CharacteristicProperty → String
  | readable => "readable"
  | writable => "writable"
  | notifiable => "notifiable"

def CharacteristicProperty.has (spec : GattCharacteristicSpec) : CharacteristicProperty → Bool
  | readable => spec.readable
  | writable => spec.writable
  | notifiable => spec.notifiable

inductive RadioReply
  | unit
  | session (session : UInt64)
  | bytes (value : Bytes)
  /-- The stream with this number. -/
  | stream (number : Nat)
  deriving DecidableEq

/-- What is done under one lock, or between two. -/
inductive RadioSection
  | findPeripheral (peer : PeerAddress)
  | emit (address : PeerAddress) (event : GattEvent)
  | takeSession (central peer : PeerAddress)
  | openSession (link : MockGattConnection)
  | putPeripheral (address : PeerAddress) (service : GattServiceSpec)
  | collectServed (address : PeerAddress)
  | removePeripheral (address : PeerAddress)
  /-- The check of `notify_peer`, and that of `disconnect_peer`. -/
  | checkNotify (link : MockGattConnection)
  | checkDisconnect (link : MockGattConnection)
  | send (address peer : PeerAddress) (characteristic : CharacteristicUuid) (value : Bytes)
  | dropSubscriptions (peripheral central : PeerAddress)
  | removeSession (central peripheral : PeerAddress)
  | ensureCurrent (link : MockGattConnection)
  | requireProperty (peripheral : PeerAddress) (characteristic : CharacteristicUuid) (property : CharacteristicProperty)
  | readValue (peripheral : PeerAddress) (characteristic : CharacteristicUuid)
  | storeValue (peripheral : PeerAddress) (characteristic : CharacteristicUuid) (value : Bytes)
  /-- The second check of `subscribe`, its lock held over the insertion. -/
  | insertSubscriber (link : MockGattConnection) (characteristic : CharacteristicUuid)
  | logDisconnect (peripheral : PeerAddress)
  | reply (reply : RadioReply)

abbrev RadioTurn := Sectioned.Turn RadioSection (Except BleError RadioReply)

namespace LocalRadio

def connect (central peer : PeerAddress) : List RadioSection :=
  [.findPeripheral peer, .emit central (.connected peer .central none), .takeSession central peer]

def advertise (address : PeerAddress) (service : GattServiceSpec) : List RadioSection := [.putPeripheral address service]

def stopAdvertising (address : PeerAddress) : List RadioSection := [.collectServed address]

def notifyPeer (address peer : PeerAddress) (session : Option UInt64) (characteristic : CharacteristicUuid)
    (value : Bytes) : List RadioSection :=
  (session.map fun session => RadioSection.checkNotify ⟨session, peer, address⟩).toList ++
    [.send address peer characteristic value]

def disconnectPeer (address peer : PeerAddress) (session : Option UInt64) : List RadioSection :=
  (session.map fun session => RadioSection.checkDisconnect ⟨session, peer, address⟩).toList ++
    [.emit peer (.disconnected address .central none), .emit address (.disconnected peer .peripheral none),
      .dropSubscriptions address peer, .removeSession peer address]

def read (link : MockGattConnection) (characteristic : CharacteristicUuid) : List RadioSection :=
  [.ensureCurrent link, .requireProperty link.peripheral characteristic .readable,
    .readValue link.peripheral characteristic]

/-- Both write types are delivered alike. -/
def writeWithType (link : MockGattConnection) (characteristic : CharacteristicUuid) (value : Bytes) :
    List RadioSection :=
  [.ensureCurrent link, .requireProperty link.peripheral characteristic .writable,
    .storeValue link.peripheral characteristic value,
    .emit link.peripheral (.connected link.central .peripheral (some link.session)),
    .emit link.peripheral (.characteristicWritten link.central characteristic value)]

def subscribe (link : MockGattConnection) (characteristic : CharacteristicUuid) : List RadioSection :=
  [.ensureCurrent link, .requireProperty link.peripheral characteristic .notifiable,
    .insertSubscriber link characteristic]

def disconnect (link : MockGattConnection) : List RadioSection :=
  [.ensureCurrent link, .removeSession link.central link.peripheral, .dropSubscriptions link.peripheral link.central,
    .logDisconnect link.peripheral, .emit link.peripheral (.disconnected link.central .peripheral none),
    .emit link.central (.disconnected link.peripheral .central none)]

/-- Discarded while nobody registered at the address. -/
def emit (address : PeerAddress) (event : GattEvent) (r : LocalRadio) : LocalRadio :=
  if address ∈ r.eventSenders then { r with sent := r.sent ++ [(address, event)] } else r

def dropSubscriptions (peripheral central : PeerAddress) (r : LocalRadio) : LocalRadio :=
  { r with peripherals := r.peripherals.modify peripheral fun state =>
    { state with subscribers := state.subscribers.map fun _ peers => peers.erase central } }

def setSession (central peripheral : PeerAddress) (session : Option UInt64) (r : LocalRadio) : LocalRadio :=
  { r with liveSessions := Function.update r.liveSessions (central, peripheral) session }

/-- The session a handle names is the live one of its pair. -/
def isLive (link : MockGattConnection) (r : LocalRadio) : Bool :=
  decide (r.liveSessions (link.central, link.peripheral) = some link.session)

/-- `served` of `stop_advertising`: every subscriber once. -/
def served (address : PeerAddress) (r : LocalRadio) : List PeerAddress :=
  match r.peripherals[address]? with
  | some state => (state.subscribers.values.flatMap ExtTreeMap.keys).dedup
  | none => []

def requireProperty (peripheral : PeerAddress) (characteristic : CharacteristicUuid) (property : CharacteristicProperty)
    (r : LocalRadio) : Except BleError Unit :=
  match r.peripherals[peripheral]? with
  | none => .error (.notConnected peripheral.addr)
  | some state =>
    match state.service.characteristics.find? fun spec => decide (spec.uuid = characteristic) with
    | none => .error (.gatt s!"unknown characteristic {uuidText characteristic.uuid}")
    | some spec =>
      if property.has spec then .ok ()
      else .error (.gatt s!"characteristic {uuidText characteristic.uuid} is not {property.text}")

/-- The state `advertise` puts in place of the one that was there. -/
def newPeripheral (service : GattServiceSpec) (previous : Option PeripheralState) : PeripheralState where
  service := service
  values := service.characteristics.foldl (fun values spec => values.insert spec.uuid spec.initialValue) ∅
  subscribers := service.characteristics.foldl (fun subscribers spec => subscribers.insert spec.uuid ∅) ∅
  manufacturerData := service.manufacturerData
  serviceData := service.serviceData
  rssi := previous.bind PeripheralState.rssi

/-- `tx.send`: whether the stream still has its receiver. -/
def push (stream : Nat) (value : Bytes) (r : LocalRadio) : Bool × LocalRadio :=
  if (r.streams[stream]?).any fun stream => !stream.dropped then
    (true, { r with streams := r.streams.modify stream fun stream => { stream with items := stream.items ++ [value] } })
  else (false, r)

/-- What `notify_peer` does once its session is checked. -/
def send (address peer : PeerAddress) (characteristic : CharacteristicUuid) (value : Bytes) (r : LocalRadio) :
    Except BleError RadioReply × LocalRadio :=
  match r.peripherals[address]? with
  | none => (.error (.gatt "not advertising"), r)
  | some state =>
    match state.subscribers[characteristic]? with
    | none => (.error (.gatt "unknown characteristic"), r)
    | some peers =>
      match peers[peer]? with
      | none => (.error (.gatt s!"{peer.addr} has no live notify session"), r)
      | some stream =>
        match r.push stream value with
        | (true, r) => (.ok .unit, r)
        | (false, r) => (.error (.gatt s!"{peer.addr} has no live notify session"), r)

/-- What `subscribe` does under both locks: the stream it makes. -/
def insertSubscriber (link : MockGattConnection) (characteristic : CharacteristicUuid) (r : LocalRadio) :
    Except BleError Nat × LocalRadio :=
  if r.isLive link then
    match r.peripherals[link.peripheral]? with
    | none => (.error (.notConnected link.peripheral.addr), r)
    | some state =>
      match state.subscribers[characteristic]? with
      | none => (.error (.gatt "unknown characteristic"), r)
      | some peers =>
        let subscribers := state.subscribers.insert characteristic (peers.insert link.central r.streams.length)
        (.ok r.streams.length, { r with
          streams := r.streams ++ [{}]
          peripherals := r.peripherals.insert link.peripheral { state with subscribers } })
  else (.error (.notConnected link.peripheral.addr), r)

def act (r : LocalRadio) : RadioSection → LocalRadio × RadioTurn
  | .findPeripheral peer =>
    if peer ∈ r.peripherals then (r, .go [])
    else (r, .end_ (.error (.connectFailed peer.addr "peer is not advertising")))
  | .emit address event => (r.emit address event, .go [])
  | .takeSession central peer =>
    ({ r with nextSession := r.nextSession + 1 }, .go [.openSession ⟨r.nextSession, central, peer⟩])
  | .openSession link =>
    (r.setSession link.central link.peripheral (some link.session), .end_ (.ok (.session link.session)))
  | .putPeripheral address service =>
    let state := newPeripheral service r.peripherals[address]?
    ({ r with peripherals := r.peripherals.insert address state }, .go [])
  | .collectServed address =>
    (r, .go (.removePeripheral address :: (r.served address).flatMap fun peer =>
      [.emit address (.disconnected peer .peripheral none), .emit peer (.disconnected address .central none)]))
  | .removePeripheral address => ({ r with peripherals := r.peripherals.erase address }, .go [])
  | .checkNotify link => (r, if r.isLive link then .go [] else .end_ (.error (.notConnected link.central.addr)))
  | .checkDisconnect link => (r, if r.isLive link then .go [] else .end_ (.ok .unit))
  | .send address peer characteristic value =>
    let (result, r) := r.send address peer characteristic value
    (r, .end_ result)
  | .dropSubscriptions peripheral central => (r.dropSubscriptions peripheral central, .go [])
  | .removeSession central peripheral => (r.setSession central peripheral none, .go [])
  | .ensureCurrent link => (r, if r.isLive link then .go [] else .end_ (.error (.notConnected link.peripheral.addr)))
  | .requireProperty peripheral characteristic property =>
    match r.requireProperty peripheral characteristic property with
    | .ok () => (r, .go [])
    | .error e => (r, .end_ (.error e))
  | .readValue peripheral characteristic =>
    match r.peripherals[peripheral]? with
    | none => (r, .end_ (.error (.notConnected peripheral.addr)))
    | some state =>
      match state.values[characteristic]? with
      | some value => (r, .end_ (.ok (.bytes value)))
      | none => (r, .end_ (.error (.gatt "unknown characteristic")))
  | .storeValue peripheral characteristic value =>
    match r.peripherals[peripheral]? with
    | none => (r, .end_ (.error (.notConnected peripheral.addr)))
    | some state =>
      let state := { state with values := state.values.insert characteristic value }
      ({ r with peripherals := r.peripherals.insert peripheral state }, .go [])
  | .insertSubscriber link characteristic =>
    match r.insertSubscriber link characteristic with
    | (.ok stream, r) =>
      (r, .go [.emit link.peripheral (.connected link.central .peripheral (some link.session)), .reply (.stream stream)])
    | (.error e, r) => (r, .end_ (.error e))
  | .logDisconnect peripheral => ({ r with disconnectLog := r.disconnectLog ++ [peripheral] }, .go [])
  | .reply reply => (r, .end_ (.ok reply))

end LocalRadio

inductive RadioRequest
  | connect (central peer : PeerAddress)
  | advertise (address : PeerAddress) (service : GattServiceSpec)
  | stopAdvertising (address : PeerAddress)
  | notifyPeer (address peer : PeerAddress) (session : Option UInt64) (characteristic : CharacteristicUuid) (value : Bytes)
  | disconnectPeer (address peer : PeerAddress) (session : Option UInt64)
  | read (link : MockGattConnection) (characteristic : CharacteristicUuid)
  | writeWithType (link : MockGattConnection) (characteristic : CharacteristicUuid) (value : Bytes)
  | subscribe (link : MockGattConnection) (characteristic : CharacteristicUuid)
  | disconnect (link : MockGattConnection)

def RadioRequest.sections : RadioRequest → List RadioSection
  | connect central peer => LocalRadio.connect central peer
  | advertise address service => LocalRadio.advertise address service
  | stopAdvertising address => LocalRadio.stopAdvertising address
  | notifyPeer address peer session characteristic value => LocalRadio.notifyPeer address peer session characteristic value
  | disconnectPeer address peer session => LocalRadio.disconnectPeer address peer session
  | read link characteristic => LocalRadio.read link characteristic
  | writeWithType link characteristic value => LocalRadio.writeWithType link characteristic value
  | subscribe link characteristic => LocalRadio.subscribe link characteristic
  | disconnect link => LocalRadio.disconnect link

abbrev RadioCall := Sectioned.Call RadioRequest RadioSection (Except BleError RadioReply)

def localRadio : Sectioned LocalRadio RadioRequest RadioSection (Except BleError RadioReply) where
  sections := RadioRequest.sections
  act r section_ := some (r.act section_)
  done := .ok .unit

/-- A radio and the calls it was asked for, numbered as they came. -/
structure MockNetwork where
  radio : LocalRadio := {}
  calls : List RadioCall := []

inductive MockInput
  /-- A driver is created at an address. -/
  | register (address : PeerAddress)
  | begin_ (request : RadioRequest)
  /-- A call goes through its next section. -/
  | proceed (call : Nat)
  | dropStream (stream : Nat)

namespace MockNetwork

def step (s : MockNetwork) : MockInput → Option MockNetwork
  | .register address => some { s with radio := { s.radio with eventSenders := s.radio.eventSenders ++ [address] } }
  | .begin_ request => some { s with calls := localRadio.start request s.calls }
  | .proceed call => (localRadio.proceed s.radio s.calls call).map fun next => { radio := next.1, calls := next.2 }
  | .dropStream stream =>
    some { s with radio := { s.radio with
      streams := s.radio.streams.modify stream fun stream => { stream with dropped := true } } }

def machine : Machine MockNetwork MockInput where
  Init s := s = {}
  step := step

end MockNetwork

end BleGatt
