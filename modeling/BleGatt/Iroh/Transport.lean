import BleGatt.Entities.Models
import BleGatt.Lib.Machine
import BleGatt.Lib.TaskList

namespace BleGatt.Iroh
open Std

/-! iroh over datagram channels: the links to each address, what their queues
carry, and what iroh's connections taught about the addresses. Every link and
every connection is a task; they meet in the maps of `BleGattTransport`, each
behind its own lock. -/

abbrev EndpointId := Nat

def linkQueueDepth : Nat := 64

def redialYield : Duration := .ofSecs 30

/-- Ten milliseconds. -/
def drainedCheckInterval : Duration := 10000000

def isQuicInitial (packet : Bytes) : Bool := packet.head?.any fun byte => byte &&& 0x80 != 0

/-- What a link's queue carries: a packet, or the signal of a `close_sent`. -/
inductive Outgoing
  | packet (number : Nat)
  | barrier (number : Nat)
  deriving DecidableEq

/-- What became of a packet. -/
inductive PacketFate
  | queued
  /-- It was passed to the channel's `send`. -/
  | sent
  | dropped (at_ : Instant)
  deriving DecidableEq

structure QueuedPacket where
  link : Nat
  bytes : Bytes
  fate : PacketFate := .queued
  deriving DecidableEq

structure Barrier where
  link : Nat
  /-- How many packets there were before it. -/
  mark : Nat
  reached : Bool := false
  deriving DecidableEq

/-- How far a link came. -/
inductive LinkPhase
  /-- `attach` cleared `answered`; `links` is next. -/
  | attaching
  /-- It is in `links`; its closer is next. -/
  | attached
  /-- `send` put it in `links`; its closer is next. -/
  | dialQueued
  | dialing
  /-- The dial failed, or was cancelled; its closer is next. -/
  | failing
  /-- `remove_link` is next. -/
  | removing
  /-- `run_link` has the channel; its releaser is next. -/
  | starting
  /-- At the `select!`. -/
  | running
  /-- It took a release permit. -/
  | noticed
  /-- Its release timer went off. -/
  | fired
  /-- Its loop ended; its closer is next. -/
  | ending
  /-- Its releaser is next. -/
  | unlisted
  | disconnecting
  /-- `links` and `learned` are next. -/
  | finishing
  | over
  deriving DecidableEq

namespace LinkPhase

/-- Its dial is pending. -/
def dials : LinkPhase → Bool
  | .dialQueued | .dialing => true
  | _ => false

/-- Its loop has not ended. -/
def runs : LinkPhase → Bool
  | .attached | .starting | .running | .noticed | .fired => true
  | _ => false

/-- Its send task was spawned. It goes on after the loop until the abort stops
it. -/
def sends : LinkPhase → Bool
  | .starting | .running | .noticed | .fired | .ending | .unlisted | .disconnecting | .finishing | .over => true
  | _ => false

def hasCloser : LinkPhase → Bool
  | .dialing | .failing | .starting | .running | .noticed | .fired | .ending => true
  | _ => false

def hasReleaser : LinkPhase → Bool
  | .running | .noticed | .fired | .ending | .unlisted => true
  | _ => false

/-- Nothing leaves its queue any more. -/
def ended : LinkPhase → Bool
  | .failing | .removing | .ending | .unlisted | .disconnecting | .finishing | .over => true
  | _ => false

end LinkPhase

structure LinkTask where
  address : PeerAddress
  role : Role
  phase : LinkPhase
  closePermit : Bool := false
  releasePermit : Bool := false
  releaseArmed : Bool := false
  /-- A close cancelled its dial. -/
  cancelled : Bool := false
  closedHere : Bool := false
  closedByApplication : Bool := false
  releasedHere : Bool := false
  /-- A connection recorded at its address was forgotten while it had its
  releaser. -/
  forgotten : Bool := false
  outbound : List Outgoing := []
  toSend : List Outgoing := []
  /-- Barriers that wait for room in `to_send`. -/
  parked : List Nat := []
  /-- A packet is in the channel's `send`. -/
  sending : Bool := false
  /-- The send task is gone: a `send` failed, or it was aborted. -/
  sendEnded : Bool := false
  deriving DecidableEq

def LinkTask.ended (task : LinkTask) : Bool := task.sendEnded || task.phase.ended

/-- Why the loop of a link ends, its release apart. -/
inductive LinkEnd
  | idle
  | closedByApplication
  | sendEnded
  /-- The channel ended, or nobody takes what it receives. -/
  | channelEnded
  deriving DecidableEq

structure Learned where
  endpoint : EndpointId
  connections : Finset Nat := ∅
  /-- Those of them that are not closing. -/
  open_ : Finset Nat := ∅
  ended : Finset Nat := ∅
  deriving DecidableEq

/-- How far the task that `after_handshake` spawns came. -/
inductive ConnectionPhase
  | established
  /-- Its close started. -/
  | closing
  /-- It is not in `open` any more. -/
  | marked
  /-- `close_sent`, until its CONNECTION_CLOSE is counted. -/
  | building
  | built
  /-- It has its addresses. -/
  | found
  /-- It has the links, and waits for a barrier on each. -/
  | barring
  | barred
  /-- A packet was dropped since. -/
  | lossy
  /-- `forget_connection` is next. -/
  | forgetting
  /-- These addresses are to be released. -/
  | releasing (released : List PeerAddress)
  | draining
  | over
  deriving DecidableEq

structure IrohConnection where
  endpoint : EndpointId
  phase : ConnectionPhase := .established
  /-- Every address it used. -/
  used : List PeerAddress := []
  /-- When its close started. -/
  closed : Instant := 0
  /-- When the hooks saw that. -/
  closing : Instant := 0
  /-- How many packets there were when its CONNECTION_CLOSE was counted. -/
  built : Option Nat := none
  drained : Bool := false
  addresses : List PeerAddress := []
  /-- The links that have no barrier of it yet. -/
  links : List Nat := []
  barrier : Option Nat := none
  /-- What `close_sent` returned. -/
  sent : Option Bool := none
  deriving DecidableEq

/-- The instant from which on a dropped packet counts. -/
def IrohConnection.since (connection : IrohConnection) : Instant :=
  if drainedCheckInterval ≤ connection.closing then connection.closing - drainedCheckInterval else connection.closing

structure Transport where
  now : Instant := 0
  dialer : Bool := true
  links : PeerMap Nat := ∅
  dropped : PeerMap Instant := ∅
  peers : ExtTreeMap EndpointId PeerAddress := ∅
  retired : PeerMap EndpointId := ∅
  learned : PeerMap Learned := ∅
  answered : PeerMap (Option Instant) := ∅
  tasks : List LinkTask := []
  packets : List QueuedPacket := []
  barriers : List Barrier := []
  connections : List IrohConnection := []

inductive TransportStep
  | attach (address : PeerAddress) (role : Role)
  /-- `Sender::send`; `room` says that the queue took the packet. -/
  | send (address : PeerAddress) (packet : Bytes) (room : Bool)
  | closeLink (address : PeerAddress)
  | setPeerAddress (endpoint : EndpointId) (address : PeerAddress)
  | forgetPeer (endpoint : EndpointId)
  | tick (elapsed : Duration)
  /-- A link goes on. -/
  | proceed (link : Nat)
  | dialed (link : Nat) (ok : Bool)
  | cancel (link : Nat)
  | notice (link : Nat)
  | fire (link : Nat)
  | endLink (link : Nat) (cause : LinkEnd)
  /-- The loop takes what is next in `outbound`; `room` says that `to_send`
  took it. -/
  | forward (link : Nat) (room : Bool)
  | unpark (link : Nat) (barrier : Nat)
  /-- The send task takes what is next in `to_send`. -/
  | takeOut (link : Nat)
  /-- The channel's `send` returns. -/
  | sent (link : Nat) (ok : Bool)
  /-- The abort of the send task takes effect. -/
  | abort (link : Nat)
  | handshake (endpoint : EndpointId)
  | learn (connection : Nat) (address : PeerAddress)
  | close (connection : Nat)
  /-- Its close reason is read. -/
  | reason (connection : Nat) (byPeer : Bool)
  /-- noq builds its CONNECTION_CLOSE, and hands it to the transport. -/
  | build (connection : Nat)
  | drain (connection : Nat)
  /-- A connection's task goes on. -/
  | hook (connection : Nat)
  /-- It drained while `close_sent` waited for its barriers. -/
  | abandonBarriers (connection : Nat)

namespace Transport

def setTask (number : Nat) (task : LinkTask) (s : Transport) : Transport :=
  { s with tasks := s.tasks.set number task }

def setConnection (number : Nat) (connection : IrohConnection) (s : Transport) : Transport :=
  { s with connections := s.connections.set number connection }

def setFate (number : Nat) (fate : PacketFate) (s : Transport) : Transport :=
  { s with packets := s.packets.modify number fun packet => { packet with fate := fate } }

/-- `in_use`. -/
def inUse (address : PeerAddress) (s : Transport) : Bool :=
  s.learned[address]?.any fun learned => decide (learned.connections ≠ ∅)

def onlyEnded (address : PeerAddress) (s : Transport) : Bool :=
  s.learned[address]?.any fun learned => decide (learned.connections = ∅ ∧ learned.ended ≠ ∅)

/-- Some endpoint's current address. -/
def setByCaller (address : PeerAddress) (s : Transport) : Bool :=
  s.peers.toList.any fun entry => decide (entry.2 = address)

/-- `addresses_of`. -/
def addressesOf (endpoint : EndpointId) (s : Transport) : List PeerAddress :=
  let set := (s.retired.filter fun _ owner => decide (owner = endpoint)).keys ++ s.peers[endpoint]?.toList
  set ++ (s.learned.filter fun address learned => decide (learned.endpoint = endpoint ∧ address ∉ set)).keys

/-- `attach`, up to `answered`. -/
def attach (address : PeerAddress) (role : Role) (s : Transport) : Transport :=
  { s with
    answered := s.answered.erase address
    tasks := s.tasks ++ [{ address := address, role := role, phase := .attaching }] }

/-- `send` with no link finds no reason not to dial. -/
def mayDial (address : PeerAddress) (packet : Bytes) (s : Transport) : Bool :=
  s.retired[address]?.isNone && (isQuicInitial packet || !s.onlyEnded address) &&
    (match s.answered[address]? with
      | none => true
      | some dropped => s.setByCaller address && !dropped.any fun dropped => decide (s.now - dropped < redialYield)) &&
    s.dialer

/-- A new link, its packet in its queue. -/
def startDial (address : PeerAddress) (packet : Bytes) (s : Transport) : Transport :=
  { s with
    links := s.links.insert address s.tasks.length
    packets := s.packets ++ [{ link := s.tasks.length, bytes := packet }]
    tasks := s.tasks ++
      [{ address := address, role := .central, phase := .dialQueued, outbound := [.packet s.packets.length] }] }

def dialOnSend (address : PeerAddress) (packet : Bytes) (s : Transport) : Transport :=
  if s.mayDial address packet then s.startDial address packet else s

/-- Calls of `close_sent` that wait for room in a link's queue. -/
def barriersWaiting (link : Nat) (s : Transport) : Nat :=
  s.connections.countP fun connection =>
    decide (connection.phase = .barring ∧ connection.barrier = none ∧ connection.links.head? = some link)

/-- The packet waits behind all that the link has queued. -/
def queuePacket (link : Nat) (task : LinkTask) (packet : Bytes) (s : Transport) : Transport :=
  { s.setTask link { task with outbound := task.outbound ++ [.packet s.packets.length] } with
    packets := s.packets ++ [{ link := link, bytes := packet }] }

def dropPacket (link : Nat) (task : LinkTask) (packet : Bytes) (s : Transport) : Transport :=
  { s with
    dropped := s.dropped.insert task.address s.now
    packets := s.packets ++ [{ link := link, bytes := packet, fate := .dropped s.now }] }

/-- `Sender::send`. It has the lock of `links` up to the dial. -/
def send (address : PeerAddress) (packet : Bytes) (room : Bool) (s : Transport) : Option Transport :=
  match s.links[address]? with
  | none => some (s.dialOnSend address packet)
  | some link => do
    let task ← s.tasks[link]?
    if task.phase = .over then some ({ s with links := s.links.erase address }.dialOnSend address packet)
    else if room then
      if task.outbound.length < linkQueueDepth then some (s.queuePacket link task packet) else none
    else if linkQueueDepth ≤ task.outbound.length + s.barriersWaiting link then some (s.dropPacket link task packet)
    else none

/-- `close_link`. -/
def closeLink (address : PeerAddress) (s : Transport) : Transport :=
  { s with
    tasks := s.tasks.map fun task =>
      if task.address = address ∧ task.phase.hasCloser then { task with closePermit := true } else task }

def setPeerAddress (endpoint : EndpointId) (address : PeerAddress) (s : Transport) : Transport :=
  let peers := s.peers.insert endpoint address
  let retired := s.retired.erase address
  { s with
    peers := peers
    retired := match s.peers[endpoint]? with
      | some old => if peers.toList.any fun entry => decide (entry.2 = old) then retired else retired.insert old endpoint
      | none => retired }

def forgetPeer (endpoint : EndpointId) (s : Transport) : Transport :=
  let peers := s.peers.erase endpoint
  { s with
    peers := peers
    retired := match s.peers[endpoint]? with
      | some old =>
        if peers.toList.any fun entry => decide (entry.2 = old) then s.retired else s.retired.insert old endpoint
      | none => s.retired }

/-- The end of `run_link`: what the link leaves of its address. -/
def finishLink (number : Nat) (task : LinkTask) (s : Transport) : Transport :=
  let ended := s.setTask number { task with phase := .over }
  if s.links[task.address]? = some number then
    let allClosing := s.learned[task.address]?.any fun learned => decide (learned.open_ = ∅)
    let dropped := if !task.closedHere && !allClosing then some s.now else none
    { ended with
      answered := if task.role = .peripheral then s.answered.insert task.address dropped else s.answered
      links := s.links.erase task.address
      learned :=
        if s.learned[task.address]?.any fun learned => decide (learned.connections = ∅ ∧ learned.ended = ∅) then
          s.learned.erase task.address
        else s.learned }
  else ended

/-- `remove_link`, and the end of the dial. -/
def removeLink (number : Nat) (task : LinkTask) (s : Transport) : Transport :=
  { s.setTask number { task with phase := .over } with
    links := if s.links[task.address]? = some number then s.links.erase task.address else s.links }

/-- A link, from one lock or await to the next. -/
def proceed (number : Nat) (task : LinkTask) (s : Transport) : Option Transport :=
  match task.phase with
  | .attaching =>
    some { s.setTask number { task with phase := .attached } with links := s.links.insert task.address number }
  | .attached => some (s.setTask number { task with phase := .starting })
  | .dialQueued => some (s.setTask number { task with phase := .dialing })
  | .failing => some (s.setTask number { task with phase := .removing })
  | .removing => some (s.removeLink number task)
  | .starting => some (s.setTask number { task with phase := .running })
  | .noticed =>
    some (s.setTask number
      { task with phase := .running, releaseArmed := if s.inUse task.address then task.releaseArmed else true })
  | .fired =>
    if s.inUse task.address then some (s.setTask number { task with phase := .running, releaseArmed := false })
    else some (s.setTask number { task with phase := .ending, closedHere := true, releasedHere := true })
  | .ending => some (s.setTask number { task with phase := .unlisted })
  | .unlisted => some (s.setTask number { task with phase := .disconnecting })
  | .disconnecting => some (s.setTask number { task with phase := .finishing })
  | .finishing => some (s.finishLink number task)
  | .dialing | .running | .over => none

def dialed (number : Nat) (task : LinkTask) (ok : Bool) (s : Transport) : Transport :=
  if ok then { s.setTask number { task with phase := .starting } with answered := s.answered.erase task.address }
  else s.setTask number { task with phase := .failing }

/-- What the loop finds ready. -/
def endLink (number : Nat) (task : LinkTask) (cause : LinkEnd) (s : Transport) : Option Transport :=
  match cause with
  | .idle => some (s.setTask number { task with phase := .ending, closedHere := true })
  | .closedByApplication =>
    if task.closePermit then
      some (s.setTask number
        { task with phase := .ending, closedHere := true, closedByApplication := true, closePermit := false })
    else none
  | .sendEnded => if task.sendEnded then some (s.setTask number { task with phase := .ending }) else none
  | .channelEnded => some (s.setTask number { task with phase := .ending })

/-- What the loop does with the next of its queue. -/
def forward (number : Nat) (task : LinkTask) (room : Bool) (s : Transport) : Option Transport :=
  match task.outbound with
  | [] => none
  | next :: rest =>
    if task.sendEnded then some (s.setTask number { task with outbound := rest, phase := .ending })
    else if room then
      if task.toSend.length < linkQueueDepth then
        some (s.setTask number { task with outbound := rest, toSend := task.toSend ++ [next] })
      else none
    else if linkQueueDepth ≤ task.toSend.length + task.parked.length then
      match next with
      | .packet packet =>
        some { (s.setTask number { task with outbound := rest }).setFate packet (.dropped s.now) with
          dropped := s.dropped.insert task.address s.now }
      | .barrier barrier => some (s.setTask number { task with outbound := rest, parked := task.parked ++ [barrier] })
    else none

/-- The send task. -/
def takeOut (number : Nat) (task : LinkTask) (s : Transport) : Option Transport :=
  match task.toSend with
  | [] => none
  | .packet packet :: rest =>
    some ((s.setTask number { task with toSend := rest, sending := true }).setFate packet .sent)
  | .barrier barrier :: rest =>
    some { s.setTask number { task with toSend := rest } with
      barriers := s.barriers.modify barrier fun barrier => { barrier with reached := true } }

/-- `learn`. -/
def learn (endpoint : EndpointId) (connection : Nat) (address : PeerAddress) (s : Transport) : Transport :=
  let known := match s.learned[address]? with
    -- a private address another device now uses
    | some learned => if learned.endpoint = endpoint then learned else { endpoint := endpoint }
    | none => { endpoint := endpoint }
  { s with
    learned := s.learned.insert address
      { known with open_ := insert connection known.open_, connections := insert connection known.connections } }

def connectionClosing (connection : Nat) (s : Transport) : Transport :=
  { s with learned := s.learned.map fun _ learned => { learned with open_ := learned.open_.erase connection } }

/-- The addresses whose last connection it is. -/
def releasedBy (connection : Nat) (s : Transport) : List PeerAddress :=
  (s.learned.filter fun _ learned =>
    decide (connection ∈ learned.connections ∧ learned.connections.erase connection = ∅)).keys

/-- `forget_connection`, under the lock of `learned`. -/
def forgetConnection (connection : Nat) (s : Transport) : Transport :=
  { s with
    learned := s.learned.map fun _ learned =>
      if connection ∈ learned.connections then
        { learned with
          connections := learned.connections.erase connection
          ended := insert connection learned.ended }
      else learned
    tasks := s.tasks.map fun task =>
      if task.phase.hasReleaser ∧ s.learned[task.address]?.any fun learned => decide (connection ∈ learned.connections)
      then { task with forgotten := true }
      else task }

/-- `forget_connection`, under the lock of `releasers`. -/
def releaseLinks (released : List PeerAddress) (s : Transport) : Transport :=
  { s with
    tasks := s.tasks.map fun task =>
      if task.phase.hasReleaser ∧ task.address ∈ released then { task with releasePermit := true } else task }

def connectionDrained (connection : Nat) (s : Transport) : Transport :=
  { s with
    learned := s.learned.filterMap fun address learned =>
      let ended := learned.ended.erase connection
      if learned.connections ≠ ∅ ∨ ended ≠ ∅ ∨ address ∈ s.links then some { learned with ended := ended } else none }

/-- The channel that would signal the barrier is gone. -/
def barrierLost (number : Nat) (barrier : Barrier) (s : Transport) : Bool :=
  s.tasks[barrier.link]?.all fun task =>
    if .barrier number ∈ task.outbound then decide (task.phase = .over) else task.sendEnded

/-- `close_sent` on its next link: a barrier is queued, or was answered. -/
def bar (number : Nat) (connection : IrohConnection) (s : Transport) : Option Transport :=
  match connection.barrier, connection.links with
  | some waiting, links => do
    let barrier ← s.barriers[waiting]?
    if barrier.reached || s.barrierLost waiting barrier then
      some (s.setConnection number { connection with barrier := none, links := links.tail })
    else none
  | none, link :: rest => do
    let task ← s.tasks[link]?
    if task.phase = .over then some (s.setConnection number { connection with links := rest })
    else if task.outbound.length < linkQueueDepth then
      some { (s.setTask link { task with outbound := task.outbound ++ [.barrier s.barriers.length] }).setConnection number
          { connection with barrier := some s.barriers.length } with
        barriers := s.barriers ++ [{ link := link, mark := s.packets.length }] }
    else none
  | none, [] => some (s.setConnection number { connection with phase := .barred })

/-- A connection's task, from one lock or await to the next. -/
def hook (number : Nat) (connection : IrohConnection) (s : Transport) : Option Transport :=
  match connection.phase with
  | .established | .marked => none
  | .closing => some ((s.connectionClosing number).setConnection number { connection with phase := .marked })
  | .building =>
    if connection.drained then
      some (s.setConnection number { connection with phase := .forgetting, sent := some false })
    else if connection.built.isSome then some (s.setConnection number { connection with phase := .built })
    else none
  | .built =>
    some (s.setConnection number { connection with
      phase := .found
      addresses := (s.learned.filter fun _ learned => decide (number ∈ learned.connections)).keys })
  | .found =>
    some (s.setConnection number { connection with
      phase := .barring
      links := connection.addresses.filterMap fun address => s.links[address]?
      barrier := none })
  | .barring => s.bar number connection
  | .barred =>
    if connection.addresses.any fun address => s.dropped[address]?.any fun at_ => decide (connection.since ≤ at_) then
      some (s.setConnection number { connection with phase := .lossy })
    else some (s.setConnection number { connection with phase := .forgetting, sent := some true })
  | .lossy =>
    if connection.drained then
      some (s.setConnection number { connection with phase := .forgetting, sent := some false })
    else none
  | .forgetting =>
    some ((s.forgetConnection number).setConnection number
      { connection with phase := .releasing (s.releasedBy number) })
  | .releasing released => some ((s.releaseLinks released).setConnection number { connection with phase := .draining })
  | .draining =>
    if connection.drained then
      some ((s.connectionDrained number).setConnection number { connection with phase := .over })
    else none
  | .over => none

def step (s : Transport) : TransportStep → Option Transport
  | .attach address role => some (s.attach address role)
  | .send address packet room => s.send address packet room
  | .closeLink address => some (s.closeLink address)
  | .setPeerAddress endpoint address => some (s.setPeerAddress endpoint address)
  | .forgetPeer endpoint => some (s.forgetPeer endpoint)
  | .tick elapsed => some { s with now := s.now + elapsed }
  | .proceed link => do
    let task ← s.tasks[link]?
    s.proceed link task
  | .dialed link ok => do
    let task ← s.tasks[link]?.filter fun task => decide (task.phase = .dialing)
    some (s.dialed link task ok)
  | .cancel link => do
    let task ← s.tasks[link]?.filter fun task => decide (task.phase = .dialing) && task.closePermit
    some (s.setTask link { task with phase := .failing, cancelled := true, closePermit := false })
  | .notice link => do
    let task ← s.tasks[link]?.filter fun task => decide (task.phase = .running) && task.releasePermit
    some (s.setTask link { task with phase := .noticed, releasePermit := false })
  | .fire link => do
    let task ← s.tasks[link]?.filter fun task => decide (task.phase = .running) && task.releaseArmed
    some (s.setTask link { task with phase := .fired })
  | .endLink link cause => do
    let task ← s.tasks[link]?.filter fun task => decide (task.phase = .running)
    s.endLink link task cause
  | .forward link room => do
    let task ← s.tasks[link]?.filter fun task => decide (task.phase = .running)
    s.forward link task room
  | .unpark link barrier => do
    let task ← s.tasks[link]?.filter fun task =>
      task.phase.sends && !task.sendEnded && decide (barrier ∈ task.parked ∧ task.toSend.length < linkQueueDepth)
    some (s.setTask link
      { task with parked := task.parked.erase barrier, toSend := task.toSend ++ [.barrier barrier] })
  | .takeOut link => do
    let task ← s.tasks[link]?.filter fun task => task.phase.sends && !task.sendEnded && !task.sending
    s.takeOut link task
  | .sent link ok => do
    let task ← s.tasks[link]?.filter fun task => task.phase.sends && task.sending
    some (s.setTask link { task with sending := false, sendEnded := !ok })
  | .abort link => do
    let task ← s.tasks[link]?.filter fun task => task.phase.sends && task.phase.ended && !task.sendEnded
    some (s.setTask link { task with sending := false, sendEnded := true })
  | .handshake endpoint => some { s with connections := s.connections ++ [{ endpoint := endpoint }] }
  | .learn number address => do
    let connection ← s.connections[number]?.filter fun connection => decide (connection.phase = .established)
    some ((s.learn connection.endpoint number address).setConnection number
      { connection with used := connection.used ++ [address] })
  | .close number => do
    let connection ← s.connections[number]?.filter fun connection => decide (connection.phase = .established)
    some (s.setConnection number { connection with phase := .closing, closed := s.now })
  | .reason number byPeer => do
    let connection ← s.connections[number]?.filter fun connection => decide (connection.phase = .marked)
    some (s.setConnection number { connection with
      phase := if byPeer then .forgetting else .building
      closing := s.now })
  | .build number => do
    let connection ← s.connections[number]?.filter fun connection => connection.built.isNone
    some (s.setConnection number { connection with built := some s.packets.length })
  | .drain number => do
    let connection ← s.connections[number]?
    some (s.setConnection number { connection with drained := true })
  | .hook number => do
    let connection ← s.connections[number]?
    s.hook number connection
  | .abandonBarriers number => do
    let connection ← s.connections[number]?.filter fun connection =>
      decide (connection.phase = .barring) && connection.drained
    some (s.setConnection number { connection with phase := .forgetting, sent := some false })

/-- The transport with its links and iroh's connections, over every order of
their steps. -/
def machine : Machine Transport TransportStep where
  Init s := ∃ dialer, s = { dialer := dialer }
  step := step

end Transport

end BleGatt.Iroh
