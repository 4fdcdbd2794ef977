import BleGatt.Connection.LinkState
import BleGatt.Lib.Machine

namespace BleGatt
open Std

def serveRetryDelay : Duration := .ofSecs 2

/-- The identity two peers of a pair compare the same way to decide who dials. -/
structure LinkId where
  id : String
  deriving DecidableEq

inductive LinkRole
  /-- Dials and accepts; of each pair, the side with the lower id dials. -/
  | symmetric (localId : LinkId)
  | dialOnly
  | acceptOnly
  deriving DecidableEq

/-- Redial ladder for the dialer, and inbound-link deadline for the acceptor. -/
structure RetryBudget where
  /-- Backoff before each successive redial. The last entry repeats. -/
  backoff : List Duration := [.ofSecs 1, .ofSecs 2, .ofSecs 4, .ofSecs 8, .ofSecs 30]
  giveUpAfter : Duration := .ofSecs 60
  acceptorDeadline : Duration := .ofSecs 60

/-- The part of the configuration that decides what the worker does. Its
datagram part only reaches the tasks the worker spawns. -/
structure PeerLinkConfig where
  role : LinkRole
  retryBudget : RetryBudget := {}
  maxLinks : Nat := 4

inductive PeerStatus
  | untracked
  | unavailable
  | queued
  | connecting
  | connected
  | waiting
  | gaveUp
  deriving DecidableEq, Repr

/-- A task of the worker's runtime, as an `AbortHandle` names it. -/
abbrev TaskId := Nat

/-- What the worker reads of a `DatagramChannel` it is handed. -/
structure Channel where
  peer : PeerAddress
  maxMessageLen : Nat
  deriving DecidableEq

/-- `channel` is the pump task the `PeerChannel` handle talks to. -/
inductive PeerLinkEvent
  | up (peer : PeerAddress) (maxMessageLen : Nat) (channel : TaskId)
  | down (peer : PeerAddress)
  | status (peer : PeerAddress) (status : PeerStatus)
  | radioChanged (status : RadioStatus)
  deriving DecidableEq

structure LiveLink where
  gen : Nat
  pump : TaskId
  deriving DecidableEq, Repr

/-- Per-tracked-peer state the worker owns. -/
structure Peer where
  central : CentralLink := .new
  peripheral : PeripheralLink := .new
  dials : Bool
  tryingSince : Option Instant := none
  attempts : Nat := 0
  retryAt : Option Instant := none
  gaveUp : Bool := false
  link : Option LiveLink := none
  dialTask : Option TaskId := none
  deriving DecidableEq, Repr

/-- A running `datagram::connect` task. -/
structure DialTask where
  peer : PeerAddress
  session : Session

/-- A message of `conn_rx`. `task` is the attempt that sent it; the worker
never sees it. -/
structure DialResult where
  task : TaskId
  peer : PeerAddress
  session : Session
  result : Except BleError Channel

/-- A running pump task. -/
structure Pump where
  peer : PeerAddress
  gen : Nat

/-- A message of `linkgone_rx`. `pump` is the task that sent it; the worker
never sees it. -/
structure LinkGone where
  pump : TaskId
  peer : PeerAddress
  gen : Nat

/-- The worker, with the part of its runtime it exchanges messages with: the
tasks it spawned that still run, and the messages they left in its queues. -/
structure Worker where
  peers : PeerMap Peer
  radio : RadioState
  /-- What `PeerLink::status` and `PeerLink::radio` report. -/
  status : PeerMap PeerStatus
  radioStatus : RadioStatus
  /-- Everything sent on `events_tx`, oldest first. -/
  events : List PeerLinkEvent
  /-- A `u64` in the source: it is not exhausted by any run. -/
  nextLinkGen : Nat
  serving : Bool
  serveRetryAt : Option Instant
  nextTask : TaskId
  dialTasks : ExtTreeMap TaskId DialTask
  connRx : List DialResult
  pumps : ExtTreeMap TaskId Pump
  linkgoneRx : List LinkGone
  clock : Instant
  /-- A branch of `select!` has run and `pump_dials` is next. -/
  pumpDue : Bool

namespace PeerLinkConfig

/-- Whether this role ever accepts an inbound link. -/
def accepts (cfg : PeerLinkConfig) : Bool := cfg.role != .dialOnly

/-- Whether this side is the designated dialer for the pair. -/
def dials (cfg : PeerLinkConfig) (peerId : LinkId) : Bool :=
  match cfg.role with
  | .dialOnly => true
  | .acceptOnly => false
  | .symmetric localId => localId.id < peerId.id

/-- `assess_radio`, given what the driver answers. `unsupported` is only
concluded against a usable radio. -/
def assessRadio (cfg : PeerLinkConfig) (status : RadioStatus) (caps : CapabilityReport) : RadioStatus :=
  match status with
  | .on =>
    let ok := match cfg.role with
      | .dialOnly => caps.central
      | .acceptOnly => caps.peripheral
      | .symmetric _ => caps.central
    if ok then .on else .unsupported
  | other => other

end PeerLinkConfig

namespace Peer

/-- The entry `on_track` inserts. A dialer's clock starts at its first dial. -/
def track (dials : Bool) (now : Instant) : Peer :=
  { dials := dials, tryingSince := if dials then none else some now }

/-- The peer's slot is taken: linked, or being dialled. -/
def committed (p : Peer) : Bool := p.link.isSome || p.central.isDialing

def retry (now : Instant) (p : Peer) : Peer :=
  { p with
    gaveUp := false
    attempts := 0
    retryAt := none
    tryingSince := if p.dials then none else some now }

/-- The dial task `clear_stale_dial` aborts. -/
def staleDial (p : Peer) : Option TaskId := if p.central.isDialing then none else p.dialTask

def clearStaleDial (p : Peer) : Peer := if p.central.isDialing then p else { p with dialTask := none }

def centralApply (event : CentralEvent) (now : Instant) (p : Peer) : Peer :=
  { p with central := (p.central.apply event now).1 }

def peripheralApply (event : PeripheralEvent) (now : Instant) (p : Peer) : Peer :=
  { p with peripheral := (p.peripheral.apply event now).1 }

def radioLost (now : Instant) (p : Peer) : Peer :=
  { ((p.centralApply .radioLost now).peripheralApply .radioLost now).clearStaleDial with
    link := none
    gaveUp := false
    attempts := 0
    retryAt := none
    tryingSince := if p.dials then none else some now }

def radioBack (now : Instant) (p : Peer) : Peer :=
  (p.centralApply .radioBack now).peripheralApply .radioBack now

/-- The give-up deadline of this peer. -/
def deadline (cfg : PeerLinkConfig) (p : Peer) : Duration :=
  if p.dials then cfg.retryBudget.giveUpAfter else cfg.retryBudget.acceptorDeadline

/-- The second half of `on_tick`: the give-up clock, which runs only while
there is a chance of connecting. -/
def giveUpWhenSpent (cfg : PeerLinkConfig) (radio : RadioState) (now : Instant) (p : Peer) : Peer :=
  if !radio.usable || p.link.isSome || p.gaveUp then p
  else match p.tryingSince with
    | some since => if now - since ≥ p.deadline cfg then { p with gaveUp := true, retryAt := none } else p
    | none => p

def tick (cfg : PeerLinkConfig) (radio : RadioState) (now : Instant) (p : Peer) : Peer :=
  (p.centralApply .tick now).clearStaleDial.giveUpWhenSpent cfg radio now

/-- The peer may be dialled now, slots permitting. -/
def candidate (now : Instant) (p : Peer) : Bool :=
  !(p.link.isSome || p.gaveUp || !p.dials || !p.central.mayDial) && !p.retryAt.any (now < ·)

def dialStarted (session : Session) (task : TaskId) (now : Instant) (p : Peer) : Peer :=
  { p.centralApply (.dialStarted session) now with
    attempts := p.attempts + 1
    tryingSince := p.tryingSince <|> some now
    dialTask := some task }

/-- The backoff the ladder has for a peer after `attempts` dials. -/
def backoffEntry (cfg : PeerLinkConfig) (attempts : Nat) : Option Duration :=
  cfg.retryBudget.backoff[min (attempts - 1) (cfg.retryBudget.backoff.length - 1)]?

/-- `none` when the addition overflows, which panics the worker thread. -/
def applyBackoff (cfg : PeerLinkConfig) (now : Instant) (p : Peer) : Option Peer :=
  let since := p.tryingSince.getD now
  let p := { p with tryingSince := some since }
  if now - since ≥ cfg.retryBudget.giveUpAfter then
    some { p with gaveUp := true, retryAt := none }
  else
    match backoffEntry cfg p.attempts with
    | none => some { p with gaveUp := true }
    | some backoff => do
      let at_ ← Instant.plus now backoff
      some { p with retryAt := some at_ }

/-- A dial result with the peer's session arrived and its task is over. -/
def dialSucceeded (now : Instant) (p : Peer) : Peer :=
  { p with dialTask := none }.centralApply .dialSucceeded now

def dialFailed (cfg : PeerLinkConfig) (now : Instant) (p : Peer) : Option Peer :=
  ({ p with dialTask := none }.centralApply .dialFailed now).applyBackoff cfg now

/-- The entry once the dialled channel is installed as `link`. -/
def dialLinked (link : LiveLink) (p : Peer) : Peer :=
  { p with attempts := 0, tryingSince := none, retryAt := none, link := some link }

/-- The entry once an inbound channel is installed as `link`. -/
def accepted (session : Session) (link : LiveLink) (now : Instant) (p : Peer) : Peer :=
  { (p.peripheralApply (.centralConnected session) now).peripheralApply .centralSubscribed now with
    gaveUp := false
    tryingSince := none
    retryAt := none
    link := some link }

def linkGone (now : Instant) (p : Peer) : Peer :=
  { ({ p with link := none }.centralApply .linkDropped now).peripheralApply .centralDropped now with
    tryingSince := some now
    attempts := 0
    retryAt := none }

end Peer

/-- The status a consumer is shown for a peer. -/
def project (p : Peer) (radio : RadioState) (overCap : Bool) : PeerStatus :=
  if !radio.usable then .unavailable
  else if p.link.isSome then .connected
  else if p.gaveUp then .gaveUp
  else if p.retryAt.isSome then .waiting
  else if overCap && p.dials then .queued
  else .connecting

namespace Worker

def committed (peers : PeerMap Peer) : Nat := FiniteMap.count Peer.committed peers

def send (event : PeerLinkEvent) (w : Worker) : Worker := { w with events := w.events ++ [event] }

def publishStatus (peer : PeerAddress) (status : PeerStatus) (w : Worker) : Worker :=
  let previous := w.status[peer]?
  match status with
  | .untracked =>
    let w := { w with status := w.status.erase peer }
    if previous.isSome then w.send (.status peer status) else w
  | status =>
    let w := { w with status := w.status.insert peer status }
    if previous ≠ some status then w.send (.status peer status) else w

def refreshAllStatus (cfg : PeerLinkConfig) (w : Worker) : Worker :=
  let overCap := decide (committed w.peers ≥ cfg.maxLinks)
  w.peers.toList.foldl (fun w entry => w.publishStatus entry.1 (project entry.2 w.radio overCap)) w

def refreshStatus (cfg : PeerLinkConfig) (peer : PeerAddress) (w : Worker) : Worker :=
  match w.peers[peer]? with
  | some p => w.publishStatus peer (project p w.radio (committed w.peers ≥ cfg.maxLinks))
  | none => w

/-- Aborting a task that is over does nothing: what it sent stays queued. -/
def abortDials (tasks : List TaskId) (w : Worker) : Worker :=
  { w with dialTasks := w.dialTasks.filter fun task _ => !tasks.contains task }

def abortPumps (tasks : List TaskId) (w : Worker) : Worker :=
  { w with pumps := w.pumps.filter fun task _ => !tasks.contains task }

def tearDown (p : Peer) (w : Worker) : Worker :=
  (w.abortPumps (p.link.map LiveLink.pump).toList).abortDials p.dialTask.toList

def onTrack (cfg : PeerLinkConfig) (peer : PeerAddress) (peerId : LinkId) (now : Instant) (w : Worker) :
    Worker :=
  let peers := if peer ∈ w.peers then w.peers else w.peers.insert peer (.track (cfg.dials peerId) now)
  { w with peers := peers }.refreshStatus cfg peer

def onUntrack (peer : PeerAddress) (w : Worker) : Worker :=
  let w := match w.peers[peer]? with
    | none => w
    | some p =>
      let w := { w with peers := w.peers.erase peer }.tearDown p
      if p.link.isSome then w.send (.down peer) else w
  w.publishStatus peer .untracked

def onRetry (peer : PeerAddress) (now : Instant) (w : Worker) : Worker :=
  { w with peers := w.peers.modify peer (.retry now) }

/-- The `InvalidateAllLinks` branch of `on_driver_event`. -/
def invalidateAllLinks (now : Instant) (w : Worker) : Worker :=
  let entries := w.peers.toList
  let aborted := (w.abortDials (entries.filterMap fun entry => entry.2.dialTask)).abortPumps
    (entries.filterMap fun entry => entry.2.link.map LiveLink.pump)
  { aborted with
    peers := w.peers.map fun _ p => p.radioLost now
    events := w.events ++ (entries.filter fun entry => entry.2.link.isSome).map fun entry => .down entry.1 }

/-- The event of the radio machine a reported status stands for. -/
def radioEvent : RadioStatus → RadioEvent
  | .on => .poweredOn
  | .off => .poweredOff
  | .unsupported => .noAdapter

def onRadioChanged (status : RadioStatus) (now : Instant) (w : Worker) : Worker :=
  let moved := w.radio.apply (radioEvent status) now
  let w := { w with radio := moved.1, radioStatus := status }.send (.radioChanged status)
  let w := if moved.2.isEmpty then w else w.invalidateAllLinks now
  if w.radio.usable then { w with peers := w.peers.map fun _ p => p.radioBack now } else w

/-- A late central-role loss, when no link is held for the peer. -/
def onDisconnected (peer : PeerAddress) (now : Instant) (w : Worker) : Worker :=
  { w with peers := w.peers.modify peer fun p =>
      if p.link.isNone then p.centralApply .linkDropped now else p }

/-- The `events.next()` branch of `run`. `probe` and `caps` are what the driver
answers when a radio reported on is assessed again. -/
def onDriverEvent (cfg : PeerLinkConfig) (event : GattEvent) (probe : RadioStatus) (caps : CapabilityReport)
    (now : Instant) (w : Worker) : Worker :=
  let wasUsable := w.radio.usable
  let event := match event with
    | .radioChanged .on => GattEvent.radioChanged (cfg.assessRadio probe caps)
    | other => other
  let w := match event with
    | .radioChanged status => w.onRadioChanged status now
    | .disconnected peer .central _ => w.onDisconnected peer now
    | _ => w
  if cfg.accepts && wasUsable && !w.radio.usable then
    { w with serving := false, serveRetryAt := none }
  else w

/-- `alloc_link_gen` and the spawn of `start_pump`. -/
def startPump (peer : PeerAddress) (w : Worker) : LiveLink × Worker :=
  let link := { gen := w.nextLinkGen + 1, pump := w.nextTask }
  (link, { w with
    nextLinkGen := link.gen
    nextTask := w.nextTask + 1
    pumps := w.pumps.insert link.pump { peer := peer, gen := link.gen } })

def onDialResult (cfg : PeerLinkConfig) (message : DialResult) (now : Instant) (w : Worker) : Option Worker :=
  match w.peers[message.peer]? with
  | none => some w
  | some p =>
    if p.central.session ≠ some message.session then some w
    else match message.result with
      | .ok channel =>
        let p := p.dialSucceeded now
        if !p.central.isConnected then
          some { w with peers := w.peers.insert message.peer p }
        else
          let (link, w) := w.startPump message.peer
          some ({ w with peers := w.peers.insert message.peer (p.dialLinked link) }.send
            (.up message.peer channel.maxMessageLen link.pump))
      | .error _ => do
        let p ← p.dialFailed cfg now
        some { w with peers := w.peers.insert message.peer p }

/-- `elapsed` is what `now.elapsed()` reads, in nanoseconds. -/
def onInbound (cfg : PeerLinkConfig) (channel : Channel) (elapsed : Duration) (now : Instant) (w : Worker) :
    Worker :=
  let overCap := decide (committed w.peers ≥ cfg.maxLinks)
  match w.peers[channel.peer]? with
  | none => w
  | some p =>
    if p.dials || p.link.isSome || overCap || !w.radio.usable then w
    else
      let (link, w) := w.startPump channel.peer
      let p := p.accepted (UInt64.ofNat elapsed) link now
      { w with peers := w.peers.insert channel.peer p }.send (.up channel.peer channel.maxMessageLen link.pump)

def onLinkGone (message : LinkGone) (now : Instant) (w : Worker) : Worker :=
  match w.peers[message.peer]? with
  | none => w
  | some p =>
    match p.link with
    | none => w
    | some link =>
      if link.gen ≠ message.gen then w
      else { w with peers := w.peers.insert message.peer (p.linkGone now) }.send (.down message.peer)

def onTick (cfg : PeerLinkConfig) (now : Instant) (w : Worker) : Worker :=
  let ticked := w.peers.map fun _ p => p.centralApply .tick now
  let w := w.abortDials (ticked.toList.filterMap fun entry => entry.2.staleDial)
  { w with peers := w.peers.map fun _ p => p.tick cfg w.radio now }

/-- `pump_dials` on its way through the candidates. -/
structure Pumping where
  worker : Worker
  budget : Nat
  nextSession : Session

/-- One candidate of `pump_dials`: skipped, or dialled in a new task. -/
def dialCandidate (now : Instant) (s : Pumping) (peer : PeerAddress) : Pumping :=
  match s.worker.peers[peer]? with
  | none => s
  | some p =>
    if !p.candidate now then s
    else if s.budget = 0 then s
    else
      let session := s.nextSession + 1
      let task := s.worker.nextTask
      { worker := { s.worker with
          peers := s.worker.peers.insert peer (p.dialStarted session task now)
          dialTasks := s.worker.dialTasks.insert task { peer := peer, session := session }
          nextTask := task + 1 }
        budget := s.budget - 1
        nextSession := session }

/-- `elapsed` is what `now.elapsed()` reads just after `now`, in nanoseconds;
the sessions of this round count on from it. The candidates are the tracked
peers in address order, the order of the map. -/
def pumpDials (cfg : PeerLinkConfig) (now : Instant) (elapsed : Duration) (w : Worker) : Worker :=
  if !w.radio.usable then w
  else
    let budget := cfg.maxLinks - committed w.peers
    (w.peers.keys.foldl (dialCandidate now) ⟨w, budget, UInt64.ofNat elapsed⟩).worker

/-- The deadlines `next_wake` considers for one peer. -/
def peerWakes (cfg : PeerLinkConfig) (radio : RadioState) (now : Instant) (p : Peer) : Option (List Duration) :=
  if p.link.isSome || p.gaveUp then some []
  else do
    let retry := p.retryAt.toList.map (· - now)
    let giveUp ← match radio.usable, p.tryingSince with
      | true, some since => do
        let at_ ← Instant.plus since (p.deadline cfg)
        some [at_ - now]
      | _, _ => some []
    some (retry ++ giveUp)

/-- The instant `run` sleeps until. The outer `none` is a panic. -/
def nextWake (cfg : PeerLinkConfig) (now base : Instant) (w : Worker) : Option Instant := do
  let wakes ← w.peers.toList.mapM fun entry => peerWakes cfg w.radio now entry.2
  let all := wakes.flatten ++ w.serveRetryAt.toList.map (· - now)
  match all.min? with
  | some earliest => Instant.plus base earliest
  | none => Instant.plus base (.ofSecs 3600)

/-- The restart of the inbound server at the top of the loop. -/
def restartServe (cfg : PeerLinkConfig) (now : Instant) (w : Worker) : Worker :=
  if cfg.accepts && w.radio.usable && !w.serving && w.serveRetryAt.all (· ≤ now) then
    { w with serving := true, serveRetryAt := none }
  else w

end Worker

/-- What one pass of the worker's `select!` picked. -/
inductive Input
  | track (peer : PeerAddress) (peerId : LinkId)
  | untrack (peer : PeerAddress)
  | retry (peer : PeerAddress)
  | discover
  | driverEvent (event : GattEvent) (probe : RadioStatus) (caps : CapabilityReport)
  /-- The oldest message of `conn_rx`. -/
  | dialResult
  | inbound (channel : Channel) (elapsed : Duration)
  /-- The oldest message of `linkgone_rx`. -/
  | linkGone
  /-- The interval, or the sleep until the next deadline. -/
  | tick
  | serveEnded

/-- One step of the worker thread, with the clock readings it takes. -/
inductive Label
  /-- The top of the loop, read at `top` and `base`, and one branch of
  `select!`, read at `now`. -/
  | select (top base : Instant) (input : Input) (now : Instant)
  /-- `pump_dials` and `refresh_all_status`, which end every pass. -/
  | pump (now : Instant) (elapsed : Duration)
  /-- A dial task ends and queues its result. -/
  | dialFinished (task : TaskId) (result : Except BleError Channel)
  /-- A pump task ends and queues its `linkgone`. -/
  | pumpEnded (task : TaskId)

namespace Worker

/-- The branch of `select!` that `input` picks. `none` when its queue is
empty, or when the worker thread panics. -/
def handle (cfg : PeerLinkConfig) (input : Input) (now : Instant) (w : Worker) : Option Worker :=
  match input with
  | .track peer peerId => some (w.onTrack cfg peer peerId now)
  | .untrack peer => some (w.onUntrack peer)
  | .retry peer => some (w.onRetry peer now)
  | .discover => some w
  | .driverEvent event probe caps => some (w.onDriverEvent cfg event probe caps now)
  | .dialResult =>
    match w.connRx with
    | [] => none
    | message :: rest => { w with connRx := rest }.onDialResult cfg message now
  | .inbound channel elapsed => some (w.onInbound cfg channel elapsed now)
  | .linkGone =>
    match w.linkgoneRx with
    | [] => none
    | message :: rest => some ({ w with linkgoneRx := rest }.onLinkGone message now)
  | .tick => some (w.onTick cfg now)
  | .serveEnded => do
    let at_ ← Instant.plus now serveRetryDelay
    if w.serving then some { w with serving := false, serveRetryAt := some at_ } else none

def step (cfg : PeerLinkConfig) (w : Worker) (label : Label) : Option Worker :=
  match label with
  | .select top base input now => do
    guard (!w.pumpDue ∧ w.clock ≤ top ∧ top ≤ base ∧ base ≤ now)
    let w := w.restartServe cfg top
    let _ ← w.nextWake cfg top base
    { w with clock := now, pumpDue := true }.handle cfg input now
  | .pump now elapsed => do
    guard (w.pumpDue ∧ w.clock ≤ now)
    some ({ w with clock := now + elapsed, pumpDue := false }.pumpDials cfg now elapsed |>.refreshAllStatus cfg)
  | .dialFinished task result => do
    guard (!w.pumpDue)
    let dial ← w.dialTasks[task]?
    some { w with
      dialTasks := w.dialTasks.erase task
      connRx := w.connRx ++ [⟨task, dial.peer, dial.session, result⟩] }
  | .pumpEnded task => do
    guard (!w.pumpDue)
    let pump ← w.pumps[task]?
    some { w with
      pumps := w.pumps.erase task
      linkgoneRx := w.linkgoneRx ++ [⟨task, pump.peer, pump.gen⟩] }

/-- The worker once its driver is acquired and its radio assessed. -/
def start (cfg : PeerLinkConfig) (initial : RadioStatus) (clock : Instant) : Worker :=
  let radio := match initial with
    | .on => RadioState.on
    | .off => .off
    | .unsupported => .unsupported
  { peers := ∅
    radio := radio
    status := ∅
    radioStatus := initial
    events := [.radioChanged initial]
    nextLinkGen := 0
    serving := cfg.accepts && radio.usable
    serveRetryAt := none
    nextTask := 0
    dialTasks := ∅
    connRx := []
    pumps := ∅
    linkgoneRx := []
    clock := clock
    pumpDue := false }

/-- The worker of `cfg` from its start to its shutdown, over every order in
which commands, driver events and its own tasks' messages can reach it. -/
def machine (cfg : PeerLinkConfig) : Machine Worker Label where
  Init w := ∃ initial clock, w = start cfg initial clock
  step := step cfg

end Worker

end BleGatt
