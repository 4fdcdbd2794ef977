import BleGatt.Drivers.MockClient
import BleGatt.Lib.Broadcast

namespace BleGatt
open Std

/-! `LocalRadio` with all its methods, as `MockNetwork` and the broker call
them: `scan`, `update_advertisement`, `notify`, the registration of an event
sender and `disconnect_all_for` next to those of `RadioRequest`. -/

structure ServiceRadio where
  radio : LocalRadio := {}
  /-- The pairs that ever had a session: every key of `live_sessions` is one. -/
  pairs : List (PeerAddress × PeerAddress) := []
  armedScanFailure : Option String := none
  /-- By address, the channel of the sender registered last. -/
  senders : PeerMap Nat := ∅
  /-- What was sent on each channel. -/
  channels : List (List GattEvent) := []

inductive ServiceReply
  | radio (reply : RadioReply)
  | snapshot (peers : List DiscoveredPeer) (armedFailure : Option String)
  /-- The channel of the sender that was registered. -/
  | channel (number : Nat)

inductive ServiceSection
  | register (address : PeerAddress)
  | radio (section_ : RadioSection)
  | snapshot (requester : PeerAddress) (service : ServiceUuid)
  | takeArmedFailure (peers : List DiscoveredPeer)
  | replaceAdvertisement (address : PeerAddress) (service : GattServiceSpec)
  | notifyAll (address : PeerAddress) (characteristic : CharacteristicUuid) (value : Bytes)
  | collectSessions (address : PeerAddress)

abbrev ServiceTurn := Sectioned.Turn ServiceSection (Except BleError ServiceReply)

/-- The turn of a section of the radio, as one of the service. -/
def RadioSection.lift : RadioTurn → ServiceTurn
  | .go first => .go (first.map .radio)
  | .end_ result => .end_ (result.map .radio)

namespace ServiceRadio

def discovered (address : PeerAddress) (state : PeripheralState) : DiscoveredPeer where
  address := address
  name := state.service.localName
  services := [state.service.uuid]
  manufacturerData := state.manufacturerData
  serviceData := state.serviceData
  rssi := state.rssi

/-- What `scan` finds, in the order of the addresses. -/
def matches_ (requester : PeerAddress) (service : ServiceUuid) (r : LocalRadio) : List DiscoveredPeer :=
  (r.peripherals.toList.filter fun entry => decide (entry.1 ≠ requester ∧ entry.2.service.uuid = service)).map
    fun entry => discovered entry.1 entry.2

/-- The advertisement data is swapped, values and subscribers stay. -/
def updateAdvertisement (address : PeerAddress) (service : GattServiceSpec) (r : LocalRadio) :
    Except BleError RadioReply × LocalRadio :=
  match r.peripherals[address]? with
  | none => (.error (.gatt "not advertising"), r)
  | some state =>
    if state.service.sameService service then
      let state := { state with
        manufacturerData := service.manufacturerData
        serviceData := service.serviceData
        service := service }
      (.ok .unit, { r with peripherals := r.peripherals.insert address state })
    else
      (.error (.gatt s!"not serving service {uuidText service.uuid.uuid} with these characteristics"), r)

/-- One `tx.send` after another; whether any was taken. -/
def notifyEach (value : Bytes) (streams : List Nat) (r : LocalRadio) : Bool × LocalRadio :=
  streams.foldl (fun done stream => ((done.2.push stream value).1 || done.1, (done.2.push stream value).2)) (false, r)

def notify (address : PeerAddress) (characteristic : CharacteristicUuid) (value : Bytes) (r : LocalRadio) :
    Except BleError RadioReply × LocalRadio :=
  match r.peripherals[address]? with
  | none => (.error (.gatt "not advertising"), r)
  | some state =>
    match state.subscribers[characteristic]? with
    | none => (.error (.gatt "unknown characteristic"), r)
    | some peers =>
      match notifyEach value peers.values r with
      | (true, r) => (.ok .unit, r)
      | (false, r) => (.error (.gatt "notify reached no subscriber"), r)

/-- The live sessions of a central, as `disconnect_all_for` collects them. -/
def sessionsOf (address : PeerAddress) (s : ServiceRadio) : List (PeerAddress × PeerAddress) :=
  (s.pairs.filter fun pair => decide (pair.1 = address) && (s.radio.liveSessions pair).isSome).dedup

/-- What one event does to the channels: it goes to the sender at its address. -/
def routeOne (senders : PeerMap Nat) (channels : List (List GattEvent)) (item : PeerAddress × GattEvent) :
    List (List GattEvent) :=
  match senders[item.1]? with
  | some channel => channels.modify channel (· ++ [item.2])
  | none => channels

/-- The radio after a section, and what that section sent passed on. -/
def after (r : LocalRadio) (s : ServiceRadio) : ServiceRadio :=
  { s with radio := r, channels := (r.sent.drop s.radio.sent.length).foldl (routeOne s.senders) s.channels }

def act (s : ServiceRadio) : ServiceSection → ServiceRadio × ServiceTurn
  | .register address =>
    ({ s with
        radio := { s.radio with eventSenders := s.radio.eventSenders ++ [address] }
        senders := s.senders.insert address s.channels.length
        channels := s.channels ++ [[]] },
      .end_ (.ok (.channel s.channels.length)))
  | .radio section_ =>
    let acted := s.radio.act section_
    let pairs := match section_ with
      | .openSession link => s.pairs ++ [(link.central, link.peripheral)]
      | _ => s.pairs
    ({ s.after acted.1 with pairs := pairs }, RadioSection.lift acted.2)
  | .snapshot requester service => (s, .go [.takeArmedFailure (matches_ requester service s.radio)])
  | .takeArmedFailure peers => ({ s with armedScanFailure := none }, .end_ (.ok (.snapshot peers s.armedScanFailure)))
  | .replaceAdvertisement address service =>
    let (result, radio) := updateAdvertisement address service s.radio
    ({ s with radio := radio }, .end_ (result.map .radio))
  | .notifyAll address characteristic value =>
    let (result, radio) := notify address characteristic value s.radio
    ({ s with radio := radio }, .end_ (result.map .radio))
  | .collectSessions address =>
    (s, .go ((s.sessionsOf address).flatMap fun pair =>
      [.radio (.dropSubscriptions pair.2 pair.1), .radio (.removeSession pair.1 pair.2),
        .radio (.emit pair.2 (.disconnected pair.1 .peripheral none)),
        .radio (.emit pair.1 (.disconnected pair.2 .central none))]))

end ServiceRadio

inductive ServiceRequest
  | registerEventsSender (address : PeerAddress)
  | radio (request : RadioRequest)
  | scan (requester : PeerAddress) (service : ServiceUuid)
  | updateAdvertisement (address : PeerAddress) (service : GattServiceSpec)
  | notify (address : PeerAddress) (characteristic : CharacteristicUuid) (value : Bytes)
  | disconnectAllFor (address : PeerAddress)

def ServiceRequest.sections : ServiceRequest → List ServiceSection
  | registerEventsSender address => [.register address]
  | radio request => request.sections.map .radio
  | scan requester service => [.snapshot requester service]
  | updateAdvertisement address service => [.replaceAdvertisement address service]
  | notify address characteristic value => [.notifyAll address characteristic value]
  -- It ignores what `stop_advertising` returns.
  | disconnectAllFor address => (LocalRadio.stopAdvertising address).map .radio ++ [.collectSessions address]

abbrev ServiceCall := Sectioned.Call ServiceRequest ServiceSection (Except BleError ServiceReply)

def mockService : Sectioned ServiceRadio ServiceRequest ServiceSection (Except BleError ServiceReply) where
  sections := ServiceRequest.sections
  act s section_ := some (s.act section_)
  done := .ok (.radio .unit)

/-- The in-process network: a radio and the calls it was asked for, numbered
as they came. -/
structure ServiceNetwork where
  service : ServiceRadio := {}
  calls : List ServiceCall := []

inductive ServiceInput
  | begin_ (request : ServiceRequest)
  | proceed (call : Nat)
  | dropStream (stream : Nat)

namespace ServiceNetwork

def step (s : ServiceNetwork) : ServiceInput → Option ServiceNetwork
  | .begin_ request => some { s with calls := mockService.start request s.calls }
  | .proceed call =>
    (mockService.proceed s.service s.calls call).map fun next => { service := next.1, calls := next.2 }
  | .dropStream stream =>
    some { s with service := { s.service with radio := { s.service.radio with
      streams := s.service.radio.streams.modify stream fun stream => { stream with dropped := true } } } }

def machine : Machine ServiceNetwork ServiceInput where
  Init s := s = {}
  step := step

/-- What a call returned. -/
def result (n : Nat) (s : ServiceNetwork) : Option (Except BleError ServiceReply) :=
  match (s.calls[n]?).map Sectioned.Call.stage with
  | some (.returned result) => some result
  | _ => none

end ServiceNetwork

end BleGatt
