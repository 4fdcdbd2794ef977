import BleGatt.Drivers.MockRadio

namespace BleGatt
open Std

/-! `RemoteClient`, the mock driver's connection to a broker: its calls, the
answers they wait for, and the loop that reads the socket. -/

structure DiscoveredPeer where
  address : PeerAddress
  name : Option String
  services : List ServiceUuid
  manufacturerData : List (UInt16 × Bytes)
  serviceData : List (ServiceUuid × Bytes)
  rssi : Option Int16

inductive WriteType
  | withResponse
  | withoutResponse

inductive WireRequest
  | registerAddress (address : PeerAddress)
  | scan (requester : PeerAddress) (service : ServiceUuid)
  | connect (central peer : PeerAddress)
  | advertise (address : PeerAddress) (service : GattServiceSpec)
  | updateAdvertisement (address : PeerAddress) (service : GattServiceSpec)
  | stopAdvertising (address : PeerAddress)
  | notify (address : PeerAddress) (characteristic : CharacteristicUuid) (value : Bytes)
  | notifyPeer (address peer : PeerAddress) (session : Option UInt64) (characteristic : CharacteristicUuid) (value : Bytes)
  | disconnectPeer (address peer : PeerAddress) (session : Option UInt64)
  | read (link : MockGattConnection) (characteristic : CharacteristicUuid)
  | writeWithType (link : MockGattConnection) (characteristic : CharacteristicUuid) (value : Bytes) (writeType : WriteType)
  | subscribe (link : MockGattConnection) (characteristic : CharacteristicUuid) (subscription : UInt64)
  | disconnect (link : MockGattConnection)

inductive WireResponse
  | unit
  | scanSnapshot (peers : List DiscoveredPeer) (armedFailure : Option String)
  | session (session : UInt64)
  | bytes (value : Bytes)
  | err (error : BleError)

inductive WirePush
  | event (address : PeerAddress) (event : GattEvent)
  | notifyItem (subscription : UInt64) (item : Except BleError Bytes)

inductive Frame
  | req (request : WireRequest)
  | resp (response : WireResponse)
  | push (push : WirePush)

structure Envelope where
  correlationId : UInt64
  frame : Frame

/-- What the receiving end of a call's channel finds. -/
inductive WaiterAnswer
  | response (response : WireResponse)
  /-- The sending end was dropped. -/
  | dropped

/-- The channel a call waits on, by its number in the client. -/
structure Waiter where
  correlation : UInt64
  answer : Option WaiterAnswer := none

inductive ReaderPhase
  | reading
  /-- It is done with the waiters, and has yet to clear the subscriptions. -/
  | closing
  | ended
  deriving DecidableEq

structure RemoteClient where
  nextCorrelation : UInt64 := 1
  nextSubscription : UInt64 := 0
  /-- `PendingState`: the waiter of each correlation id. -/
  calls : ExtTreeMap UInt64 Nat := ∅
  closed : Bool := false
  /-- What was sent to each driver that registered here. -/
  events : PeerMap (List GattEvent) := ∅
  /-- The stream of each subscription. -/
  subscriptions : ExtTreeMap UInt64 Nat := ∅
  outbox : List Envelope := []
  /-- `writer_loop` has ended, and with it the outbox. -/
  writerEnded : Bool := false
  reader : ReaderPhase := .reading
  waiters : List Waiter := []
  /-- What each stream was given. -/
  streams : List (List (Except BleError Bytes)) := []

/-- Whom the result of a `call` goes to. -/
inductive CallOwner
  | caller
  | subscription (id : UInt64) (stream : Nat)
  deriving DecidableEq

inductive ClientSection
  | takeSubscription (link : MockGattConnection) (characteristic : CharacteristicUuid)
  | insertSubscription (id : UInt64) (stream : Nat) (request : WireRequest)
  | takeCorrelation (request : WireRequest) (owner : CallOwner)
  /-- The check of `closed` and the insertion, under one lock. -/
  | register (correlation : UInt64) (waiter : Nat) (request : WireRequest) (owner : CallOwner)
  | send (correlation : UInt64) (waiter : Nat) (request : WireRequest) (owner : CallOwner)
  | forget (correlation : UInt64) (owner : CallOwner)
  | await (correlation : UInt64) (waiter : Nat) (owner : CallOwner)
  | removeSubscription (id : UInt64) (error : BleError)

inductive ClientResult
  | response (result : Except BleError WireResponse)
  | stream (result : Except BleError Nat)
  /-- The future was dropped while it waited. -/
  | cancelled

abbrev ClientTurn := Sectioned.Turn ClientSection ClientResult

namespace RemoteClient

def brokerClosed : BleError := .transport "broker connection closed"

/-- What becomes of the result of a `call`. -/
def conclude : CallOwner → Except BleError WireResponse → ClientTurn
  | .caller, result => .end_ (.response result)
  | .subscription _ stream, .ok .unit => .end_ (.stream (.ok stream))
  | .subscription id _, .ok _ => .go [.removeSubscription id (.transport "unexpected response to Subscribe")]
  | .subscription id _, .error e => .go [.removeSubscription id e]

/-- The sending end of a waiter is used, or dropped. -/
def settle (waiter : Nat) (answer : WaiterAnswer) (c : RemoteClient) : RemoteClient :=
  { c with waiters := c.waiters.modify waiter fun entry => { entry with answer := entry.answer.or (some answer) } }

/-- A sender leaves the map and is dropped. -/
def dropWaiter (correlation : UInt64) (c : RemoteClient) : RemoteClient :=
  match c.calls[correlation]? with
  | some waiter => { c.settle waiter .dropped with calls := c.calls.erase correlation }
  | none => c

/-- `None` of a waiter that is still to be answered. -/
def answered (waiter : Nat) (c : RemoteClient) : Option WaiterAnswer := (c.waiters[waiter]?).bind Waiter.answer

def act (c : RemoteClient) : ClientSection → Option (RemoteClient × ClientTurn)
  | .takeSubscription link characteristic =>
    let id := c.nextSubscription
    let stream := c.streams.length
    some ({ c with nextSubscription := id + 1, streams := c.streams ++ [[]] },
      .go [.insertSubscription id stream (.subscribe link characteristic id)])
  | .insertSubscription id stream request =>
    some ({ c with subscriptions := c.subscriptions.insert id stream }, .go [.takeCorrelation request (.subscription id stream)])
  | .takeCorrelation request owner =>
    let correlation := c.nextCorrelation
    let waiter := c.waiters.length
    some ({ c with nextCorrelation := correlation + 1, waiters := c.waiters ++ [{ correlation := correlation }] },
      .go [.register correlation waiter request owner])
  | .register correlation waiter request owner =>
    if c.closed then some (c, conclude owner (.error brokerClosed))
    else
      let c := c.dropWaiter correlation
      some ({ c with calls := c.calls.insert correlation waiter }, .go [.send correlation waiter request owner])
  | .send correlation waiter request owner =>
    if c.writerEnded then some (c, .go [.forget correlation owner])
    else some ({ c with outbox := c.outbox ++ [⟨correlation, .req request⟩] }, .go [.await correlation waiter owner])
  | .forget correlation owner => some (c.dropWaiter correlation, conclude owner (.error brokerClosed))
  | .await _ waiter owner =>
    match c.answered waiter with
    | none => none
    | some (.response (.err e)) => some (c, conclude owner (.error e))
    | some (.response response) => some (c, conclude owner (.ok response))
    | some .dropped => some (c, conclude owner (.error (.transport "broker connection closed before responding")))
  | .removeSubscription id e =>
    some ({ c with subscriptions := c.subscriptions.erase id }, .end_ (.stream (.error e)))

def toSubscription (id : UInt64) (item : Except BleError Bytes) (c : RemoteClient) : RemoteClient :=
  match c.subscriptions[id]? with
  | some stream => { c with streams := c.streams.modify stream (· ++ [item]) }
  | none => c

/-- What `reader_loop` does with a frame it has read. -/
def onFrame (env : Envelope) (c : RemoteClient) : RemoteClient :=
  match env.frame with
  | .resp response =>
    match c.calls[env.correlationId]? with
    | some waiter => { c.settle waiter (.response response) with calls := c.calls.erase env.correlationId }
    | none => c
  | .push (.event address event) => { c with events := c.events.modify address (· ++ [event]) }
  | .push (.notifyItem id item) => c.toSubscription id item
  | .req _ => c

/-- The end of `reader_loop`, up to where it lets go of the waiters. -/
def close (c : RemoteClient) : RemoteClient :=
  let drained := (c.calls.toList.map Prod.snd).foldl (fun c waiter => c.settle waiter (.response (.err brokerClosed))) c
  { drained with closed := true, calls := ∅, reader := .closing }

/-- The first frame a client sends, with no waiter for it. -/
def registerEventsSender (address : PeerAddress) (c : RemoteClient) : RemoteClient :=
  let c := { c with events := c.events.insert address [] }
  if c.writerEnded then c else { c with outbox := c.outbox ++ [⟨0, .req (.registerAddress address)⟩] }

end RemoteClient

inductive ClientRequest
  | call (request : WireRequest)
  | subscribe (link : MockGattConnection) (characteristic : CharacteristicUuid)

def ClientRequest.sections : ClientRequest → List ClientSection
  | call request => [.takeCorrelation request .caller]
  | subscribe link characteristic => [.takeSubscription link characteristic]

abbrev ClientCall := Sectioned.Call ClientRequest ClientSection ClientResult

def remoteClient : Sectioned RemoteClient ClientRequest ClientSection ClientResult where
  sections := ClientRequest.sections
  act := RemoteClient.act
  done := .cancelled

/-- A client and the calls it was asked for, numbered as they came. -/
structure BrokerLink where
  client : RemoteClient := {}
  calls : List ClientCall := []

inductive BrokerInput
  | registerEventsSender (address : PeerAddress)
  | begin_ (request : ClientRequest)
  /-- A call goes on, if what it waits for is there. -/
  | proceed (call : Nat)
  /-- The future of a call is dropped while it waits for its answer. -/
  | cancel (call : Nat)
  /-- The reader reads a frame, or cannot. -/
  | frame (env : Envelope)
  | readFailed
  /-- The reader clears the subscriptions, and is over. -/
  | clear
  | writeFailed

namespace BrokerLink

def step (s : BrokerLink) : BrokerInput → Option BrokerLink
  | .registerEventsSender address => some { s with client := s.client.registerEventsSender address }
  | .begin_ request => some { s with calls := remoteClient.start request s.calls }
  | .proceed call => (remoteClient.proceed s.client s.calls call).map fun next => { client := next.1, calls := next.2 }
  | .cancel n =>
    match s.calls[n]?, Sectioned.next s.calls n with
    | some call, some (.await _ _ _, _) => some { s with calls := s.calls.set n { call with stage := .returned .cancelled } }
    | _, _ => none
  | .frame env => if s.client.reader = .reading then some { s with client := s.client.onFrame env } else none
  | .readFailed => if s.client.reader = .reading then some { s with client := s.client.close } else none
  | .clear =>
    if s.client.reader = .closing then some { s with client := { s.client with subscriptions := ∅, reader := .ended } } else none
  | .writeFailed => some { s with client := { s.client with writerEnded := true } }

def machine : Machine BrokerLink BrokerInput where
  Init s := s = {}
  step := step

end BrokerLink

end BleGatt
