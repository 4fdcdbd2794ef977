import BleGatt.Drivers.MockService

namespace BleGatt

/-! The broker and its clients: for each connection a loop that reads a request,
dispatches it onto the one radio and queues the response, and tasks that forward
the events and the notifications of that radio. Frames stay in order both ways,
and a connection may break after any of them. -/

namespace WireRequest

/-- What `dispatch` asks of the radio. -/
def dispatched : WireRequest → ServiceRequest
  | registerAddress address => .registerEventsSender address
  | scan requester service => .scan requester service
  | connect central peer => .radio (.connect central peer)
  | advertise address service => .radio (.advertise address service)
  | updateAdvertisement address service => .updateAdvertisement address service
  | stopAdvertising address => .radio (.stopAdvertising address)
  | notify address characteristic value => .notify address characteristic value
  | notifyPeer address peer session characteristic value => .radio (.notifyPeer address peer session characteristic value)
  | disconnectPeer address peer session => .radio (.disconnectPeer address peer session)
  | read link characteristic => .radio (.read link characteristic)
  | writeWithType link characteristic value _ => .radio (.writeWithType link characteristic value)
  | subscribe link characteristic _ => .radio (.subscribe link characteristic)
  | disconnect link => .radio (.disconnect link)

/-- The address a request makes its connection own. -/
def owns : WireRequest → Option PeerAddress
  | registerAddress address => some address
  | _ => none

end WireRequest

/-- The response to what the radio returned. A stream stays with the broker. -/
def respond : Except BleError ServiceReply → WireResponse
  | .error e => .err e
  | .ok (.snapshot peers armedFailure) => .scanSnapshot peers armedFailure
  | .ok (.radio (.session session)) => .session session
  | .ok (.radio (.bytes value)) => .bytes value
  | .ok (.radio .unit) | .ok (.radio (.stream _)) | .ok (.channel _) => .unit

/-- A task that pushes what it receives. -/
inductive Forwarder
  | events (address : PeerAddress) (channel : Nat) (receiver : Receiver GattEvent)
  /-- How many items of the stream it has passed on. -/
  | notify (subscription : UInt64) (stream passed : Nat)
  | stopped

inductive ServingPhase
  | reading
  | dispatching (correlation : UInt64) (request : WireRequest) (call : Nat)
  | responding (correlation : UInt64) (response : WireResponse)
  /-- The connection is over; these addresses are still to be swept. -/
  | closing (addresses : List PeerAddress)
  | sweeping (call : Nat) (addresses : List PeerAddress)

/-- What a client does by itself. Its frames it reads as they were queued for it,
and to register and to subscribe it has methods of their own. -/
def BrokerInput.own : BrokerInput → Bool
  | frame _ | begin_ (.call (.subscribe _ _ _)) | begin_ (.call (.registerAddress _)) => false
  | _ => true

/-- One connection, both ends. -/
structure BrokerConnection where
  link : BrokerLink := {}
  /-- Of each frame in the client's outbox: the call that put it there, with its
  waiter; `none` is a registration. -/
  written : List (Option (Nat × Nat)) := []
  /-- How many of them the broker has read. -/
  read : Nat := 0
  phase : ServingPhase := .reading
  owned : List PeerAddress := []
  forwarders : List Forwarder := []
  /-- All that was queued for the client. -/
  outbox : List Envelope := []
  writerEnded : Bool := false
  /-- How many of these the client has read. -/
  delivered : Nat := 0
  /-- What was dispatched: the place of its frame, and its call on the radio. -/
  served : List (Nat × Nat) := []

namespace BrokerConnection

/-- `outbox.send` of the broker. -/
def queue (env : Envelope) (c : BrokerConnection) : BrokerConnection :=
  if c.writerEnded then c else { c with outbox := c.outbox ++ [env] }

/-- Who puts the frames in the outbox that an input of the client adds. -/
def writerOf (c : BrokerConnection) : BrokerInput → Option (Nat × Nat)
  | .proceed n =>
    match Sectioned.next c.link.calls n with
    | some (.send _ waiter _ _, _) => some (n, waiter)
    | _ => none
  | _ => none

/-- The client goes on by itself. -/
def client (input : BrokerInput) (c : BrokerConnection) : Option BrokerConnection := do
  let link ← c.link.step input
  let new := link.client.outbox.length - c.link.client.outbox.length
  some { c with link := link, written := c.written ++ List.replicate new (c.writerOf input) }

/-- What `dispatch` starts once the radio has returned: a forwarder. -/
def startForwarder (request : WireRequest) (result : Except BleError ServiceReply) : List Forwarder :=
  match request, result with
  | .registerAddress address, .ok (.channel channel) => [.events address channel { start := 0, next := 0 }]
  | .subscribe _ _ subscription, .ok (.radio (.stream stream)) => [.notify subscription stream 0]
  | _, _ => []

def pushEvent (address : PeerAddress) : Received GattEvent → Envelope
  | .item event => ⟨0, .push (.event address event)⟩
  | .lagged lost => ⟨0, .push (.event address (.lagged (UInt64.ofNat lost)))⟩

end BrokerConnection

def LocalRadio.eventChannelCapacity : Nat := 64

structure Broker where
  network : ServiceNetwork := {}
  connections : List BrokerConnection := []

inductive BrokerSystemInput
  /-- A client dials the broker. -/
  | dial
  | client (connection : Nat) (input : BrokerInput)
  /-- The client's reader reads the next frame. -/
  | deliver (connection : Nat)
  /-- `handle_connection` reads the next frame, and dispatches it. -/
  | request (connection : Nat)
  /-- A call on the radio goes through its next section. -/
  | proceed (call : Nat)
  /-- The call of a dispatch has returned. -/
  | finish (connection : Nat)
  | respond (connection : Nat)
  | forward (connection forwarder : Nat)
  /-- `read_frame` fails. -/
  | hangUp (connection : Nat)
  | writerEnds (connection : Nat)
  /-- A forwarder is aborted, or cannot push any more. -/
  | stop (connection forwarder : Nat)
  /-- `disconnect_all_for` of one of the addresses that are owned, in the order of
  a `HashSet`. -/
  | sweep (connection index : Nat)
  | swept (connection : Nat)

namespace Broker

def update (n : Nat) (c : BrokerConnection) (s : Broker) : Broker := { s with connections := s.connections.set n c }

/-- The next read of a forwarder, and what it pushes. -/
def forwarded (service : ServiceRadio) : Forwarder → Option (Forwarder × List Envelope)
  | .events address channel receiver => do
    let sent ← service.channels[channel]?
    let next ← receiver.read LocalRadio.eventChannelCapacity sent
    some (.events address channel next, (next.got.drop receiver.got.length).map (BrokerConnection.pushEvent address))
  | .notify subscription stream passed => do
    let entry ← service.radio.streams[stream]?
    let item ← entry.items[passed]?
    some (.notify subscription stream (passed + 1), [⟨0, .push (.notifyItem subscription (.ok item))⟩])
  | .stopped => none

/-- What the end of a forwarder leaves of its stream. -/
def dropped (network : ServiceNetwork) : Forwarder → Option ServiceNetwork
  | .notify _ stream _ => network.step (.dropStream stream)
  | .events _ _ _ => some network
  | .stopped => none

/-- A forwarder can be stopped once its connection is over, or its outbox. -/
def stoppable (c : BrokerConnection) : Bool :=
  c.writerEnded || match c.phase with
    | .closing _ | .sweeping _ _ => true
    | _ => false

def step (s : Broker) : BrokerSystemInput → Option Broker
  | .dial => some { s with connections := s.connections ++ [{}] }
  | .client n input => do
    let c ← s.connections[n]?
    if input.own then (c.client input).map fun c => s.update n c else none
  | .deliver n => do
    let c ← s.connections[n]?
    let env ← c.outbox[c.delivered]?
    let link ← c.link.step (.frame env)
    some (s.update n { c with link := link, delivered := c.delivered + 1 })
  | .request n => do
    let c ← s.connections[n]?
    match c.phase with
    | .reading =>
      let env ← c.link.client.outbox[c.read]?
      match env.frame with
      | .req request =>
        let network ← s.network.step (.begin_ request.dispatched)
        let c := { c with
          read := c.read + 1
          phase := .dispatching env.correlationId request s.network.calls.length
          owned := c.owned ++ request.owns.toList
          served := c.served ++ [(c.read, s.network.calls.length)] }
        some ({ s with network := network }.update n c)
      -- A well-behaved client only ever sends requests.
      | _ => some (s.update n { c with read := c.read + 1 })
    | _ => none
  | .proceed call => do
    let network ← s.network.step (.proceed call)
    some { s with network := network }
  | .finish n => do
    let c ← s.connections[n]?
    match c.phase with
    | .dispatching correlation request call =>
      let result ← s.network.result call
      some (s.update n { c with
        phase := .responding correlation (BleGatt.respond result)
        forwarders := c.forwarders ++ BrokerConnection.startForwarder request result })
    | _ => none
  | .respond n => do
    let c ← s.connections[n]?
    match c.phase with
    | .responding correlation response =>
      let c := if correlation = 0 then c else c.queue ⟨correlation, .resp response⟩
      some (s.update n { c with phase := .reading })
    | _ => none
  | .forward n i => do
    let c ← s.connections[n]?
    let forwarder ← c.forwarders[i]?
    if c.writerEnded then none
    else
      let (forwarder, pushed) ← forwarded s.network.service forwarder
      some (s.update n { c with forwarders := c.forwarders.set i forwarder, outbox := c.outbox ++ pushed })
  | .hangUp n => do
    let c ← s.connections[n]?
    match c.phase with
    | .reading => some (s.update n { c with phase := .closing c.owned.dedup })
    | _ => none
  | .writerEnds n => do
    let c ← s.connections[n]?
    some (s.update n { c with writerEnded := true })
  | .stop n i => do
    let c ← s.connections[n]?
    let forwarder ← c.forwarders[i]?
    if stoppable c then
      let network ← dropped s.network forwarder
      some ({ s with network := network }.update n { c with forwarders := c.forwarders.set i .stopped })
    else none
  | .sweep n i => do
    let c ← s.connections[n]?
    match c.phase with
    | .closing addresses =>
      let address ← addresses[i]?
      let network ← s.network.step (.begin_ (.disconnectAllFor address))
      some ({ s with network := network }.update n { c with phase := .sweeping s.network.calls.length (addresses.eraseIdx i) })
    | _ => none
  | .swept n => do
    let c ← s.connections[n]?
    match c.phase with
    | .sweeping call rest =>
      let _ ← s.network.result call
      some (s.update n { c with phase := .closing rest })
    | _ => none

def machine : Machine Broker BrokerSystemInput where
  Init s := s = {}
  step := step

end Broker

end BleGatt
