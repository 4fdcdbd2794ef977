import BleGatt.Lib.Machine
import BleGatt.Profile.Datagram.Reassembly

namespace BleGatt
open Std

structure DatagramConfig where
  service : ServiceUuid
  characteristic : CharacteristicUuid
  maxMessageLen : Nat := 1024 * 1024
  reassemblyTimeout : Duration := .ofSecs 30
  maxConcurrentReassemblies : Nat := 4
  inboundQueueDepth : Nat := 32
  fragmentQueueDepth : Nat := 256
  acceptQueueDepth : Nat := 8
  advertisedManufacturerData : List (UInt16 × Bytes) := []
  advertisedLocalName : Option String := none

namespace DatagramConfig

def validate (cfg : DatagramConfig) : Except BleError Unit :=
  if cfg.inboundQueueDepth = 0 then .error (.gatt "inbound_queue_depth must be at least 1")
  else if cfg.fragmentQueueDepth = 0 then .error (.gatt "fragment_queue_depth must be at least 1")
  else if cfg.acceptQueueDepth = 0 then .error (.gatt "accept_queue_depth must be at least 1")
  else .ok ()

def limits (cfg : DatagramConfig) : ReassemblyLimits :=
  { maxMessageLen := cfg.maxMessageLen
    reassemblyTimeout := cfg.reassemblyTimeout
    maxConcurrentReassemblies := cfg.maxConcurrentReassemblies }

def serviceSpec (cfg : DatagramConfig) : GattServiceSpec :=
  { uuid := cfg.service
    characteristics :=
      [{ uuid := cfg.characteristic, readable := true, writable := true, notifiable := true, initialValue := [] }]
    manufacturerData := cfg.advertisedManufacturerData
    localName := cfg.advertisedLocalName }

end DatagramConfig

/-- The configured ceiling, or less where the fragments cannot carry it. -/
def effectiveMaxMessageLen (configured fragmentBudget : Nat) : Nat :=
  min configured (saturatingMul fragmentBudget maxFragments)

/-- The fragment budget of a served peer: what the driver can notify it at
once, or what the smallest ATT MTU leaves. -/
def peripheralBudget (notifyMaxLen : Option Nat) : Nat :=
  ((notifyMaxLen.bind fun len => if fragmentHeaderLen ≤ len then some (len - fragmentHeaderLen) else none).filter
    (0 < ·)).getD (23 - 3 - fragmentHeaderLen)

/-- A `DatagramChannel` of the peripheral role, with the flag and the queues
it shares with `serve`. -/
structure ServedChannel where
  peer : PeerAddress
  session : Option UInt64
  active : Bool := true
  keepPeer : Bool := false
  nextMsgId : UInt32 := 0
  maxMessageLen : Nat
  fragmentBudget : Nat
  /-- The fragments queued for its reassembly. -/
  fragments : List Bytes := []
  /-- `OverflowSignal`: inbound data was dropped. -/
  overflow : Bool := false
  /-- The application has it, or had. -/
  taken : Bool := false
  dropped : Bool := false
  deriving DecidableEq

def ServedChannel.deactivate (channel : ServedChannel) : ServedChannel := { channel with active := false }

def ServedChannel.raiseOverflow (channel : ServedChannel) : ServedChannel := { channel with overflow := true }

/-- Why a send gets no message id. -/
def ServedChannel.refuse (payload : Bytes) (channel : ServedChannel) : Option BleError :=
  let length := payload.length
  let limit := channel.maxMessageLen
  if length > limit then some (.gatt s!"message of {length} bytes exceeds the {limit}-byte limit for this channel")
  else none

/-- A `DatagramSender::send` that got a message id. -/
structure Send where
  channel : Nat
  msgId : UInt32
  /-- The fragments that are still to be notified. -/
  rest : List Bytes
  /-- It holds the lock on the channel's sink. -/
  locked : Bool := false
  /-- What it returned, or that it was cancelled. -/
  result : Option (Except BleError Unit) := none
  cancelled : Bool := false

def Send.over (send : Send) : Bool := send.result.isSome || send.cancelled

/-- A fragment a driver accepted for a peer, of the send of that number. -/
structure Notified where
  send : Nat
  peer : PeerAddress
  session : Option UInt64
  fragment : Bytes

/-- What `serve` holds of the peer in its slot. -/
structure ServedPeer where
  driverSession : Option UInt64
  generation : Nat
  deriving DecidableEq

/-- A served channel was dropped. -/
structure Released where
  peer : PeerAddress
  generation : Nat
  keepPeer : Bool
  deriving DecidableEq

/-- What `serve` asks of its driver. -/
inductive DriverCall
  | disconnectPeer (peer : PeerAddress) (session : Option UInt64)
  | advertise (spec : GattServiceSpec)
  deriving DecidableEq

/-- The task `serve_driver` spawns, with the channels it handed out and what
became of them. A channel goes by its generation, which no two share. -/
structure Server where
  inbound : PeerMap ServedPeer
  nextGeneration : Nat
  acceptClosed : Bool
  /-- The task returned. -/
  ended : Bool
  /-- The releases queued for the task. -/
  releases : List Released
  /-- The channels handed over and not taken yet. -/
  accepts : List Nat
  /-- The application dropped the stream of channels. -/
  streamDropped : Bool
  channels : ExtTreeMap Nat ServedChannel
  /-- Every send that got a message id, in the order they got it. -/
  sends : List Send
  notified : List Notified
  calls : List DriverCall

namespace Server

def setChannel (generation : Nat) (f : ServedChannel → ServedChannel) (s : Server) : Server :=
  { s with channels := s.channels.modify generation f }

def call (driverCall : DriverCall) (s : Server) : Server := { s with calls := s.calls ++ [driverCall] }

def endIf (condition : Bool) (s : Server) : Server := if condition then { s with ended := true } else s

/-- The slot of a peer is free, and its channel sends no more. -/
def vacate (peer : PeerAddress) (served : ServedPeer) (s : Server) : Server :=
  { s with inbound := s.inbound.erase peer }.setChannel served.generation .deactivate

/-- A release of a superseded channel does nothing. -/
def releasePeer (s : Server) (released : Released) : Server :=
  match s.inbound[released.peer]? with
  | none => s
  | some served =>
    if served.generation ≠ released.generation then s
    else if released.keepPeer then s.vacate released.peer served
    else (s.vacate released.peer served).call (.disconnectPeer released.peer served.driverSession)

/-- `Drop for DatagramChannel`. -/
def dropChannel (s : Server) (generation : Nat) : Server :=
  match s.channels[generation]? with
  | none => s
  | some channel =>
    { s.setChannel generation fun channel => { channel with dropped := true } with
      releases := s.releases ++ [⟨channel.peer, generation, channel.keepPeer⟩] }

/-- The channel made for a peer that takes the slot. -/
def newChannel (cfg : DatagramConfig) (peer : PeerAddress) (session : Option UInt64) (notifyMaxLen : Option Nat) :
    ServedChannel :=
  { peer := peer
    session := session
    maxMessageLen := effectiveMaxMessageLen cfg.maxMessageLen (peripheralBudget notifyMaxLen)
    fragmentBudget := peripheralBudget notifyMaxLen }

/-- `Connected` of a central. Drivers repeat it before every write. -/
def onConnected (cfg : DatagramConfig) (peer : PeerAddress) (session : Option UInt64) (notifyMaxLen : Option Nat)
    (s : Server) : Server :=
  let s := s.releases.foldl releasePeer { s with releases := [] }
  if peer ∈ s.inbound then s
  else if s.acceptClosed then s
  else if !s.inbound.isEmpty then s.call (.disconnectPeer peer session)
  else
    let generation := s.nextGeneration
    let s := { s with
      nextGeneration := generation + 1
      channels := s.channels.insert generation (newChannel cfg peer session notifyMaxLen) }
    if s.streamDropped then
      ({ s with acceptClosed := true }.dropChannel generation).endIf s.inbound.isEmpty
    else if s.accepts.length ≥ cfg.acceptQueueDepth then
      (s.call (.disconnectPeer peer session)).dropChannel generation
    else
      { s with
        accepts := s.accepts ++ [generation]
        inbound := s.inbound.insert peer { driverSession := session, generation := generation } }

/-- `queued` is whether the fragment queue took the value in time. -/
def onWritten (cfg : DatagramConfig) (peer : PeerAddress) (characteristic : CharacteristicUuid) (value : Bytes)
    (queued : Bool) (s : Server) : Server :=
  if characteristic ≠ cfg.characteristic then s
  else match s.inbound[peer]? with
    | none => s
    | some served => s.setChannel served.generation fun channel =>
      if channel.dropped then channel
      else if queued then { channel with fragments := channel.fragments ++ [value] }
      else channel.raiseOverflow

/-- The loss is of another session than the one served. -/
def staleLoss (lostSession : Option UInt64) (served : Option ServedPeer) : Bool :=
  match lostSession, served.bind ServedPeer.driverSession with
  | some lost, some current => decide (lost ≠ current)
  | _, _ => false

def onDisconnected (peer : PeerAddress) (lostSession : Option UInt64) (s : Server) : Server :=
  if staleLoss lostSession s.inbound[peer]? then s
  else
    let s := match s.inbound[peer]? with
      | none => s
      | some served => s.vacate peer served
    s.endIf (s.acceptClosed && s.inbound.isEmpty)

/-- One of the events lost may have been a disconnect. -/
def onLagged (s : Server) : Server :=
  let s := s.inbound.toList.foldl (fun s entry =>
    ((s.setChannel entry.2.generation .raiseOverflow).vacate entry.1 entry.2).call
      (.disconnectPeer entry.1 entry.2.driverSession)) s
  s.endIf (s.acceptClosed && s.inbound.isEmpty)

def onRadioLost (s : Server) : Server :=
  let s := s.inbound.toList.foldl (fun s entry => s.setChannel entry.2.generation .deactivate) { s with inbound := ∅ }
  s.endIf s.acceptClosed

/-- `served` is what the driver's `served_service` answers. -/
def onRadioBack (cfg : DatagramConfig) (served : Option GattServiceSpec) (s : Server) : Server :=
  if s.acceptClosed then s
  else match served.filter fun spec => spec.sameService cfg.serviceSpec with
    | none => s
    | some spec => s.call (.advertise spec)

/-- What the driver answers while an event is handled. -/
structure Answers where
  notifyMaxLen : Option Nat := none
  queued : Bool := true
  servedService : Option GattServiceSpec := none

def onEvent (cfg : DatagramConfig) (event : GattEvent) (answers : Answers) (s : Server) : Server :=
  match event with
  | .connected peer .peripheral session => s.onConnected cfg peer session answers.notifyMaxLen
  | .characteristicWritten peer characteristic value => s.onWritten cfg peer characteristic value answers.queued
  | .disconnected peer .peripheral session => s.onDisconnected peer session
  | .lagged _ => s.onLagged
  | .radioChanged .on => s.onRadioBack cfg answers.servedService
  | .radioChanged .off => s.onRadioLost
  | .radioChanged .unsupported => s.onRadioLost
  -- the central role's lifecycle belongs to `connect`
  | .connected _ .central _ => s
  | .disconnected _ .central _ => s

/-- A send holds the lock on the sink of the channel. -/
def locked (generation : Nat) (s : Server) : Bool :=
  s.sends.any fun send => decide (send.channel = generation) && send.locked

/-- `DatagramSender::send` up to its wait for the lock. -/
def startSend (generation : Nat) (payload : Bytes) (channel : ServedChannel) (s : Server) : Server :=
  match channel.refuse payload with
  | some _ => s
  | none =>
    let msgId := channel.nextMsgId
    let send : Send := match split msgId payload channel.fragmentBudget with
      | .error err => { channel := generation, msgId := msgId, rest := [], result := some (.error err) }
      | .ok fragments => { channel := generation, msgId := msgId, rest := fragments }
    { s.setChannel generation fun channel => { channel with nextMsgId := msgId + 1 } with sends := s.sends ++ [send] }

def setSend (number : Nat) (send : Send) (s : Server) : Server := { s with sends := s.sends.set number send }

/-- One fragment of a send, its lock held or taken. `outcome` is what
`notify_peer` answers. -/
def notifyNext (number : Nat) (send : Send) (channel : ServedChannel) (outcome : Except BleError Unit) (s : Server) :
    Option Server :=
  match send.rest with
  | [] => none
  | fragment :: rest =>
    if !channel.active then
      some (s.setSend number { send with locked := false, result := some (.error (.notConnected channel.peer.addr)) })
    else match outcome with
      | .error err => some (s.setSend number { send with locked := false, result := some (.error err) })
      | .ok () =>
        let result : Option (Except BleError Unit) := if rest.isEmpty then some (.ok ()) else none
        let s : Server := { s with notified := s.notified ++ [⟨number, channel.peer, channel.session, fragment⟩] }
        some (s.setSend number { send with rest := rest, locked := !rest.isEmpty, result := result })

end Server

/-- One step of the task, or of the application that serves. -/
inductive ServeStep
  /-- The task saw that the stream of channels is gone. -/
  | closed
  /-- The task took the oldest release. -/
  | release
  | event (event : GattEvent) (answers : Server.Answers)
  | eventsEnded
  /-- The application takes the next channel, or drops the stream. -/
  | take
  | dropStream
  | close (generation : Nat)
  | disconnect (generation : Nat)
  | drop (generation : Nat)
  | send (generation : Nat) (payload : Bytes)
  | notify (number : Nat) (outcome : Except BleError Unit)
  /-- The future of a send is dropped. -/
  | cancel (number : Nat)

namespace Server

/-- A channel the application holds. -/
def held (generation : Nat) (s : Server) : Option ServedChannel :=
  s.channels[generation]?.filter fun channel => channel.taken && !channel.dropped

def step (cfg : DatagramConfig) (s : Server) : ServeStep → Option Server
  | .closed => do
    guard (!s.ended ∧ !s.acceptClosed ∧ s.streamDropped)
    some ({ s with acceptClosed := true }.endIf s.inbound.isEmpty)
  | .release => do
    guard (!s.ended)
    match s.releases with
    | [] => none
    | released :: rest =>
      let s := { s with releases := rest }.releasePeer released
      some (s.endIf (s.acceptClosed && s.inbound.isEmpty))
  | .event event answers => do
    guard (!s.ended)
    some (s.onEvent cfg event answers)
  | .eventsEnded => do
    guard (!s.ended)
    some { s with ended := true }
  | .take => do
    guard (!s.streamDropped)
    match s.accepts with
    | [] => none
    | generation :: rest =>
      some ({ s with accepts := rest }.setChannel generation fun channel => { channel with taken := true })
  | .dropStream => do
    guard (!s.streamDropped)
    some (s.accepts.foldl dropChannel { s with streamDropped := true, accepts := [] })
  | .close generation => do
    let _ ← s.held generation
    guard (!s.locked generation)
    some (s.setChannel generation fun channel => { channel with keepPeer := true })
  | .disconnect generation => do
    let channel ← s.held generation
    guard (!s.locked generation)
    some ((s.setChannel generation .deactivate).call (.disconnectPeer channel.peer channel.session))
  | .drop generation => do
    let _ ← s.held generation
    some (s.dropChannel generation)
  | .send generation payload => do
    -- a `DatagramSender` may outlive its channel
    let channel ← s.channels[generation]?.filter ServedChannel.taken
    some (s.startSend generation payload channel)
  | .notify number outcome => do
    let send ← s.sends[number]?.filter fun send => !send.over
    guard (send.locked ∨ !s.locked send.channel)
    let channel ← s.channels[send.channel]?
    s.notifyNext number send channel outcome
  | .cancel number => do
    let send ← s.sends[number]?.filter fun send => !send.over
    some (s.setSend number { send with locked := false, cancelled := true })

/-- The task once its service is advertised. -/
def start : Server :=
  { inbound := ∅
    nextGeneration := 0
    acceptClosed := false
    ended := false
    releases := []
    accepts := []
    streamDropped := false
    channels := ∅
    sends := []
    notified := []
    calls := [] }

/-- One `serve` of a valid `cfg`, over every order of what the task receives
and what the application does with its channels. -/
def machine (cfg : DatagramConfig) : Machine Server ServeStep where
  Init s := cfg.validate = .ok () ∧ s = start
  step := step cfg

/-- What a step does, and when it is taken. -/
inductive Stepped (cfg : DatagramConfig) (s : Server) : ServeStep → Server → Prop
  | closed (accepting : s.acceptClosed = false) (gone : s.streamDropped = true) :
      Stepped cfg s .closed ({ s with acceptClosed := true }.endIf s.inbound.isEmpty)
  | release {t : Server} {released : Released} {rest : List Released} (queued : s.releases = released :: rest)
      (taken : t = { s with releases := rest }.releasePeer released) :
      Stepped cfg s .release (t.endIf (t.acceptClosed && t.inbound.isEmpty))
  | event (event : GattEvent) (answers : Answers) : Stepped cfg s (.event event answers) (s.onEvent cfg event answers)
  | eventsEnded : Stepped cfg s .eventsEnded { s with ended := true }
  | take {generation : Nat} {rest : List Nat} (queued : s.accepts = generation :: rest) :
      Stepped cfg s .take
        ({ s with accepts := rest }.setChannel generation fun channel => { channel with taken := true })
  | dropStream : Stepped cfg s .dropStream (s.accepts.foldl dropChannel { s with streamDropped := true, accepts := [] })
  | close (generation : Nat) :
      Stepped cfg s (.close generation) (s.setChannel generation fun channel => { channel with keepPeer := true })
  | disconnect {generation : Nat} {channel : ServedChannel} (held : s.held generation = some channel) :
      Stepped cfg s (.disconnect generation)
        ((s.setChannel generation .deactivate).call (.disconnectPeer channel.peer channel.session))
  | drop (generation : Nat) : Stepped cfg s (.drop generation) (s.dropChannel generation)
  | send {generation : Nat} {channel : ServedChannel} (payload : Bytes)
      (known : s.channels[generation]? = some channel) :
      Stepped cfg s (.send generation payload) (s.startSend generation payload channel)
  | notify {s' : Server} {number : Nat} {send : Send} {channel : ServedChannel} (outcome : Except BleError Unit)
      (started : s.sends[number]? = some send) (known : s.channels[send.channel]? = some channel)
      (notified : s.notifyNext number send channel outcome = some s') : Stepped cfg s (.notify number outcome) s'
  | cancel {number : Nat} {send : Send} (started : s.sends[number]? = some send) :
      Stepped cfg s (.cancel number) (s.setSend number { send with locked := false, cancelled := true })

theorem step_cases {cfg : DatagramConfig} {s s' : Server} {label : ServeStep} (step : step cfg s label = some s') :
    Stepped cfg s label s' := by
  unfold Server.step at step
  cases label with
  | closed =>
    simp only [Option.bind_eq_some_iff, Option.bind_eq_bind, Option.guard_eq_some'] at step
    obtain ⟨_, ⟨_, accepting, gone⟩, done⟩ := step
    cases Option.some.inj done
    exact .closed (by simpa using accepting) gone
  | release =>
    simp only [Option.bind_eq_some_iff, Option.bind_eq_bind] at step
    obtain ⟨_, _, done⟩ := step
    split at done
    · simp at done
    · rename_i released rest queued
      cases Option.some.inj done
      exact .release queued rfl
  | event event answers =>
    simp only [Option.bind_eq_some_iff, Option.bind_eq_bind] at step
    obtain ⟨_, _, done⟩ := step
    cases Option.some.inj done
    exact .event event answers
  | eventsEnded =>
    simp only [Option.bind_eq_some_iff, Option.bind_eq_bind] at step
    obtain ⟨_, _, done⟩ := step
    cases Option.some.inj done
    exact .eventsEnded
  | take =>
    simp only [Option.bind_eq_some_iff, Option.bind_eq_bind] at step
    obtain ⟨_, _, done⟩ := step
    split at done
    · simp at done
    · rename_i generation rest queued
      cases Option.some.inj done
      exact .take queued
  | dropStream =>
    simp only [Option.bind_eq_some_iff, Option.bind_eq_bind] at step
    obtain ⟨_, _, done⟩ := step
    cases Option.some.inj done
    exact .dropStream
  | close generation =>
    simp only [Option.bind_eq_some_iff, Option.bind_eq_bind] at step
    obtain ⟨_, _, _, _, done⟩ := step
    cases Option.some.inj done
    exact .close generation
  | disconnect generation =>
    simp only [Option.bind_eq_some_iff, Option.bind_eq_bind] at step
    obtain ⟨channel, held, _, _, done⟩ := step
    cases Option.some.inj done
    exact .disconnect held
  | drop generation =>
    simp only [Option.bind_eq_some_iff, Option.bind_eq_bind] at step
    obtain ⟨_, _, done⟩ := step
    cases Option.some.inj done
    exact .drop generation
  | send generation payload =>
    simp only [Option.bind_eq_some_iff, Option.bind_eq_bind, Option.filter_eq_some_iff] at step
    obtain ⟨channel, ⟨known, _⟩, done⟩ := step
    cases Option.some.inj done
    exact .send payload known
  | notify number outcome =>
    simp only [Option.bind_eq_some_iff, Option.bind_eq_bind, Option.filter_eq_some_iff] at step
    obtain ⟨send, ⟨started, _⟩, _, _, channel, known, notified⟩ := step
    exact .notify outcome started known notified
  | cancel number =>
    simp only [Option.bind_eq_some_iff, Option.bind_eq_bind, Option.filter_eq_some_iff] at step
    obtain ⟨send, ⟨started, _⟩, done⟩ := step
    cases Option.some.inj done
    exact .cancel started

end Server

end BleGatt
