import BleGatt.Entities.Models
import BleGatt.Lib.Machine

namespace BleGatt
open Std

/-! The client half of `AndroidDriver`: how `connect` takes the slot of an
address, what Kotlin's callbacks do to it, and the handles it returns. -/

/-- `REDIAL_GAP`. -/
def redialGap : Duration := 1500000000

/-- What `connections` holds of an address. A waiter is told by the request,
or the call, that waits. -/
structure ConnectionState where
  session : UInt64 := 0
  live : Bool := false
  /-- The `connect` that waits for `onConnected`. -/
  connectedTx : Option Nat := none
  readTx : Option UInt64 := none
  writeTx : Option UInt64 := none
  subscribeTx : ExtTreeMap CharacteristicUuid UInt64 := ∅
  notifyTx : ExtTreeMap CharacteristicUuid UInt64 := ∅
  /-- The handle that waits for its `disconnect`. -/
  disconnectedTx : Option Nat := none

/-- The sending half of the channel a `connect` waits on. -/
inductive Sender
  | pending
  | sent
  | dropped
  deriving DecidableEq

inductive DialPhase
  /-- It waits out the gap after the last disconnect. -/
  | called (wakeAt : Instant)
  /-- It took the slot and calls Kotlin. -/
  | claimed
  /-- It awaits `connected_rx`, its guard armed. -/
  | waiting
  /-- Its guard is dropped, and closes the platform's connection. -/
  | closing
  /-- Its guard is about to clear the slot. -/
  | clearing
  | over
  deriving DecidableEq

/-- A call of `connect`. -/
structure Dial where
  address : PeerAddress
  phase : DialPhase
  /-- The session it minted. -/
  session : Option UInt64 := none
  sender : Sender := .pending
  error : Option BleError := none
  deriving DecidableEq

structure AndroidGattConnection where
  address : PeerAddress
  session : Option UInt64
  /-- The `connect` that returned it. -/
  dial : Nat
  deriving DecidableEq

inductive GattOperation
  | read
  | write
  | subscribe (characteristic : CharacteristicUuid)
  | disconnect
  deriving DecidableEq

/-- A waiter goes: its callback came, or the guard of its operation was
dropped. -/
inductive WaiterRelease
  | read (requestId : UInt64)
  | write (requestId : UInt64)
  | subscribed (characteristic : CharacteristicUuid) (requestId : UInt64)
  | subscription (characteristic : CharacteristicUuid) (requestId : UInt64)

/-- How the call of Kotlin's `connect` ends. -/
inductive DialOutcome
  | failed (err : BleError)
  /-- There is no adapter: Kotlin reports the link as gone. -/
  | noAdapter
  | dialled

/-- The client half of `Inner`. Dials and handles go by their number. -/
structure AndroidClient where
  now : Instant
  nextOpId : UInt64
  connections : PeerMap ConnectionState
  clientDisconnectedAt : PeerMap Instant
  /-- Kotlin's `connectedGatts`: of which dial the platform's connection is. -/
  connectedGatts : PeerMap Nat
  dials : List Dial
  handles : List AndroidGattConnection

inductive AndroidStep
  | elapse (time : Duration)
  | call (address : PeerAddress)
  | claim (number : Nat)
  | dialled (number : Nat) (outcome : DialOutcome)
  | resume (number : Nat)
  /-- The future of a dial is dropped. -/
  | cancel (number : Nat)
  /-- A guard calls Kotlin's `closeConnection`, if it can. -/
  | closeConnection (number : Nat) (attached : Bool)
  | clearPending (number : Nat)
  | onConnected (address : PeerAddress)
  | onDisconnected (address : PeerAddress)
  | radioOff
  /-- Kotlin lets its connection go: a callback ended it, or the receiver of
  the radio's state did. -/
  | forget (address : PeerAddress)
  | operate (number : Nat) (operation : GattOperation)
  | release (address : PeerAddress) (release : WaiterRelease)

namespace WaiterRelease

/-- Each is released by its own request only. -/
def apply : WaiterRelease → ConnectionState → ConnectionState
  | .read requestId, state => if state.readTx = some requestId then { state with readTx := none } else state
  | .write requestId, state => if state.writeTx = some requestId then { state with writeTx := none } else state
  | .subscribed characteristic requestId, state =>
    if state.subscribeTx[characteristic]? = some requestId then
      { state with subscribeTx := state.subscribeTx.erase characteristic }
    else state
  | .subscription characteristic requestId, state =>
    let state :=
      if state.subscribeTx[characteristic]? = some requestId then
        { state with subscribeTx := state.subscribeTx.erase characteristic }
      else state
    if state.notifyTx[characteristic]? = some requestId then
      { state with notifyTx := state.notifyTx.erase characteristic }
    else state

end WaiterRelease

/-- The waiter an operation installs. `number` is that of its handle. -/
def GattOperation.install (operation : GattOperation) (address : PeerAddress) (requestId : UInt64) (number : Nat)
    (state : ConnectionState) : Except BleError ConnectionState :=
  match operation with
  | .read =>
    if state.readTx.isSome then .error (.gatt s!"a read from {address.addr} is already in progress")
    else .ok { state with readTx := some requestId }
  | .write => .ok { state with writeTx := some requestId }
  | .subscribe characteristic =>
    .ok { state with
      subscribeTx := state.subscribeTx.insert characteristic requestId
      notifyTx := state.notifyTx.insert characteristic requestId }
  | .disconnect => .ok { state with disconnectedTx := some number }

/-- Whose the connection is, and how far it got. -/
def ConnectionState.owner (state : ConnectionState) : UInt64 × Bool × Option Nat :=
  (state.session, state.live, state.connectedTx)

namespace AndroidClient

def setDial (number : Nat) (dial : Dial) (s : AndroidClient) : AndroidClient :=
  { s with dials := s.dials.set number dial }

def setSender (number : Nat) (sender : Sender) (s : AndroidClient) : AndroidClient :=
  { s with dials := s.dials.modify number fun dial => { dial with sender := sender } }

/-- A sender taken out of its slot is used, or dropped: then its `connect`
fails. -/
def resolve (tx : Option Nat) (sender : Sender) (s : AndroidClient) : AndroidClient :=
  match tx with
  | none => s
  | some number => s.setSender number sender

/-- Drop a failed connect attempt's slot, and the whole entry if nothing
else is using it. -/
def clearPendingConnect (address : PeerAddress) (s : AndroidClient) : AndroidClient :=
  match s.connections[address]? with
  | none => s
  | some state =>
    let s := s.resolve state.connectedTx .dropped
    if state.disconnectedTx.isNone && state.notifyTx.isEmpty then
      { s with connections := s.connections.erase address }
    else
      { s with connections := s.connections.insert address { state with connectedTx := none, live := false } }

/-- `connect` up to its wait for `REDIAL_GAP`. -/
def call (address : PeerAddress) (s : AndroidClient) : AndroidClient :=
  let wakeAt := match s.clientDisconnectedAt[address]? with
    | none => s.now
    | some at_ => max s.now (at_ + redialGap)
  { s with dials := s.dials ++ [{ address := address, phase := .called wakeAt }] }

def refuse (number : Nat) (dial : Dial) (reason : String) (s : AndroidClient) : AndroidClient :=
  s.setDial number { dial with phase := .over, error := some (.connectFailed dial.address.addr reason) }

/-- `connect` takes the slot of its address, and mints its session. -/
def accept (number : Nat) (dial : Dial) (s : AndroidClient) : AndroidClient :=
  let state := s.connections[dial.address]?.getD {}
  let session := s.nextOpId
  { s.setDial number { dial with phase := .claimed, session := some session } with
    nextOpId := session + 1
    connections := s.connections.insert dial.address { state with session := session, connectedTx := some number } }

def claim (number : Nat) (dial : Dial) (s : AndroidClient) : AndroidClient :=
  let state := s.connections[dial.address]?.getD {}
  if state.connectedTx.isSome then s.refuse number dial "a connection to this peer is already in progress"
  else if state.live then s.refuse number dial "a connection to this peer is already open"
  else s.accept number dial

def onConnected (address : PeerAddress) (s : AndroidClient) : AndroidClient :=
  let state := s.connections[address]?.getD {}
  { s.resolve state.connectedTx .sent with
    connections := s.connections.insert address { state with live := true, connectedTx := none } }

def onDisconnected (address : PeerAddress) (s : AndroidClient) : AndroidClient :=
  let s := { s with clientDisconnectedAt := s.clientDisconnectedAt.insert address s.now }
  match s.connections[address]? with
  | none => s
  | some state => { s.resolve state.connectedTx .dropped with connections := s.connections.erase address }

/-- `onRadioState`: every entry is drained. -/
def radioOff (s : AndroidClient) : AndroidClient :=
  s.connections.toList.foldl (fun s entry => s.resolve entry.2.connectedTx .dropped) { s with connections := ∅ }

/-- The call of Kotlin's `connect` returned. -/
def dialled (number : Nat) (dial : Dial) (outcome : DialOutcome) (s : AndroidClient) : AndroidClient :=
  match outcome with
  | .failed err => (s.setDial number { dial with phase := .over, error := some err }).clearPendingConnect dial.address
  | .noAdapter => (s.setDial number { dial with phase := .waiting }).onDisconnected dial.address
  | .dialled =>
    { s.setDial number { dial with phase := .waiting } with
      connectedGatts := s.connectedGatts.insert dial.address number }

/-- `connect` returns its handle. -/
def deliver (number : Nat) (dial : Dial) (s : AndroidClient) : AndroidClient :=
  let session := s.connections[dial.address]?.map ConnectionState.session
  { s.setDial number { dial with phase := .over } with
    handles := s.handles ++ [{ address := dial.address, session := session, dial := number }] }

/-- `connect` fails, and drops its guard. -/
def abandon (number : Nat) (dial : Dial) (s : AndroidClient) : AndroidClient :=
  let err : BleError := .connectFailed dial.address.addr "disconnected before connection completed"
  s.setDial number { dial with phase := .closing, error := some err }

/-- `connect` after its wait for `connected_rx`. -/
def resume (number : Nat) (dial : Dial) (s : AndroidClient) : Option AndroidClient :=
  match dial.sender with
  | .pending => none
  | .sent => some (s.deliver number dial)
  | .dropped => some (s.abandon number dial)

/-- The guard has Kotlin close the connection. -/
def close (number : Nat) (dial : Dial) (attached : Bool) (s : AndroidClient) : AndroidClient :=
  { s.setDial number { dial with phase := .clearing } with
    connectedGatts := if attached then s.connectedGatts.erase dial.address else s.connectedGatts }

/-- Refuse to act if this handle no longer owns the address. -/
def withSession (handle : AndroidGattConnection) (install : ConnectionState → Except BleError ConnectionState)
    (s : AndroidClient) : Except BleError AndroidClient :=
  match s.connections[handle.address]? with
  | none => .error (.notConnected handle.address.addr)
  | some state =>
    -- a handle with no session predates session tracking
    if handle.session.any fun mine => decide (mine ≠ state.session) then .error (.notConnected handle.address.addr)
    else (install state).map fun state => { s with connections := s.connections.insert handle.address state }

/-- An operation of a handle up to its call of Kotlin, and its error if it
comes no further. -/
def operate (number : Nat) (handle : AndroidGattConnection) (operation : GattOperation) (s : AndroidClient) :
    Except BleError Unit × AndroidClient :=
  let requestId := s.nextOpId
  let s := if operation = .disconnect then s else { s with nextOpId := requestId + 1 }
  match s.withSession handle (operation.install handle.address requestId number) with
  | .error err => (.error err, s)
  | .ok s' => (.ok (), s')

def step (s : AndroidClient) : AndroidStep → Option AndroidClient
  | .elapse time => some { s with now := s.now + time }
  | .call address => some (s.call address)
  | .claim number => do
    let dial ← s.dials[number]?
    match dial.phase with
    | .called wakeAt => if wakeAt ≤ s.now then some (s.claim number dial) else none
    | _ => none
  | .dialled number outcome => do
    let dial ← s.dials[number]?.filter fun dial => decide (dial.phase = .claimed)
    some (s.dialled number dial outcome)
  | .resume number => do
    let dial ← s.dials[number]?.filter fun dial => decide (dial.phase = .waiting)
    s.resume number dial
  | .cancel number => do
    let dial ← s.dials[number]?
    match dial.phase with
    | .called _ => some (s.setDial number { dial with phase := .over })
    | .waiting => some (s.setDial number { dial with phase := .closing })
    | _ => none
  | .closeConnection number attached => do
    let dial ← s.dials[number]?.filter fun dial => decide (dial.phase = .closing)
    some (s.close number dial attached)
  | .clearPending number => do
    let dial ← s.dials[number]?.filter fun dial => decide (dial.phase = .clearing)
    some ((s.setDial number { dial with phase := .over }).clearPendingConnect dial.address)
  | .onConnected address => some (s.onConnected address)
  | .onDisconnected address => some (s.onDisconnected address)
  | .radioOff => some s.radioOff
  | .forget address => some { s with connectedGatts := s.connectedGatts.erase address }
  | .operate number operation => do
    let handle ← s.handles[number]?
    some (s.operate number handle operation).2
  | .release address release => some { s with connections := s.connections.modify address release.apply }

def start (now : Instant) : AndroidClient :=
  { now := now
    nextOpId := 1
    connections := ∅
    clientDisconnectedAt := ∅
    connectedGatts := ∅
    dials := []
    handles := [] }

/-- The driver's connects, over every order of their steps, Kotlin's
callbacks and the operations of the handles. -/
def machine : Machine AndroidClient AndroidStep where
  Init s := ∃ now, s = start now
  step := step

/-- The `connect` that has the slot of an address. -/
def slot (address : PeerAddress) (s : AndroidClient) : Option Nat :=
  s.connections[address]?.bind ConnectionState.connectedTx

/-- A `connect` to the address would be accepted. -/
def isFree (address : PeerAddress) (s : AndroidClient) : Bool :=
  s.connections[address]?.all fun state => state.connectedTx.isNone && !state.live

section Lookup

variable {s : AndroidClient} {number n : Nat} {dial old : Dial}

theorem setDial_getElem? (here : s.dials[number]? = some old) :
    (s.setDial number dial).dials[n]? = if n = number then some dial else s.dials[n]? := by
  have bound : number < s.dials.length := (List.getElem?_eq_some_iff.mp here).1
  unfold setDial
  rw [List.getElem?_set]
  by_cases same : n = number
  · rw [if_pos same.symm, if_pos bound, if_pos same]
  · rw [if_neg (Ne.symm same), if_neg same]

theorem setSender_getElem? (sender : Sender) :
    (s.setSender number sender).dials[n]? =
      if n = number then s.dials[n]?.map fun dial => { dial with sender := sender } else s.dials[n]? := by
  unfold setSender
  rw [List.getElem?_modify]
  by_cases same : n = number
  · simp [same]
  · simp [same, Ne.symm same]

theorem call_getElem? {address : PeerAddress} (there : (s.call address).dials[n]? = some dial) :
    s.dials[n]? = some dial ∨
      n = s.dials.length ∧ ∃ wakeAt, dial = { address := address, phase := .called wakeAt } := by
  unfold call at there
  rcases Nat.lt_trichotomy n s.dials.length with before | here | after
  · rw [List.getElem?_append_left before] at there
    exact .inl there
  · subst here
    simp only [List.getElem?_concat_length, Option.some.injEq] at there
    exact .inr ⟨rfl, _, there.symm⟩
  · rw [List.getElem?_eq_none (by simp; omega)] at there
    simp at there

end Lookup

/-- What `resolve` leaves alone. -/
structure SameRest (s s' : AndroidClient) : Prop where
  count : s'.dials.length = s.dials.length
  connections : s'.connections = s.connections
  gatts : s'.connectedGatts = s.connectedGatts
  handles : s'.handles = s.handles

theorem SameRest.trans {s s' s'' : AndroidClient} (after : SameRest s' s'') (before : SameRest s s') :
    SameRest s s'' :=
  ⟨after.count.trans before.count, after.connections.trans before.connections, after.gatts.trans before.gatts,
    after.handles.trans before.handles⟩

theorem resolve_getElem? {s : AndroidClient} {tx : Option Nat} {sender : Sender} {n : Nat} {dial' : Dial}
    (there : (s.resolve tx sender).dials[n]? = some dial') :
    s.dials[n]? = some dial' ∨
      tx = some n ∧ ∃ dial, s.dials[n]? = some dial ∧ dial' = { dial with sender := sender } := by
  cases tx with
  | none => exact .inl there
  | some number =>
    unfold resolve at there
    dsimp only at there
    rw [setSender_getElem?] at there
    split at there
    · rename_i same
      obtain ⟨dial, here, rfl⟩ := Option.map_eq_some_iff.mp there
      exact .inr ⟨congrArg some same.symm, dial, here, rfl⟩
    · exact .inl there

theorem resolve_rest {s : AndroidClient} (tx : Option Nat) (sender : Sender) :
    SameRest s (s.resolve tx sender) := by
  cases tx with
  | none => exact ⟨rfl, rfl, rfl, rfl⟩
  | some number => exact ⟨List.length_modify .., rfl, rfl, rfl⟩

theorem clearPendingConnect_others {s : AndroidClient} {address q : PeerAddress} (other : q ≠ address) :
    (s.clearPendingConnect address).connections[q]? = s.connections[q]? := by
  unfold clearPendingConnect
  split
  · rfl
  · rename_i state _
    have rest := resolve_rest (s := s) state.connectedTx .dropped
    dsimp only
    split
    · dsimp only
      rw [rest.connections, FiniteMap.getElem?_erase, if_neg other]
    · dsimp only
      rw [rest.connections, FiniteMap.getElem?_insert, if_neg other]

theorem onDisconnected_others {s : AndroidClient} {address q : PeerAddress} (other : q ≠ address) :
    (s.onDisconnected address).connections[q]? = s.connections[q]? := by
  unfold onDisconnected
  dsimp only
  split
  · rfl
  · dsimp only
    rw [FiniteMap.getElem?_erase, if_neg other]

theorem onConnected_others {s : AndroidClient} {address q : PeerAddress} (other : q ≠ address) :
    (s.onConnected address).connections[q]? = s.connections[q]? := by
  unfold onConnected
  dsimp only
  rw [FiniteMap.getElem?_insert, if_neg other]

/-- What a step does. -/
inductive Stepped (s : AndroidClient) : AndroidStep → AndroidClient → Prop
  | elapse (time : Duration) : Stepped s (.elapse time) { s with now := s.now + time }
  | call (address : PeerAddress) : Stepped s (.call address) (s.call address)
  | refused {number : Nat} {dial : Dial} {wakeAt : Instant} (reason : String) (here : s.dials[number]? = some dial)
      (phase : dial.phase = .called wakeAt) (taken : s.isFree dial.address = false) :
      Stepped s (.claim number) (s.refuse number dial reason)
  | accepted {number : Nat} {dial : Dial} {wakeAt : Instant} (here : s.dials[number]? = some dial)
      (phase : dial.phase = .called wakeAt) (free : s.isFree dial.address = true) :
      Stepped s (.claim number) (s.accept number dial)
  | dialled {number : Nat} {dial : Dial} (outcome : DialOutcome) (here : s.dials[number]? = some dial)
      (phase : dial.phase = .claimed) : Stepped s (.dialled number outcome) (s.dialled number dial outcome)
  | delivered {number : Nat} {dial : Dial} (here : s.dials[number]? = some dial) (phase : dial.phase = .waiting)
      (sent : dial.sender = .sent) : Stepped s (.resume number) (s.deliver number dial)
  | abandoned {number : Nat} {dial : Dial} (here : s.dials[number]? = some dial) (phase : dial.phase = .waiting)
      (dropped : dial.sender = .dropped) : Stepped s (.resume number) (s.abandon number dial)
  | uncalled {number : Nat} {dial : Dial} {wakeAt : Instant} (here : s.dials[number]? = some dial)
      (phase : dial.phase = .called wakeAt) : Stepped s (.cancel number) (s.setDial number { dial with phase := .over })
  | cancelled {number : Nat} {dial : Dial} (here : s.dials[number]? = some dial) (phase : dial.phase = .waiting) :
      Stepped s (.cancel number) (s.setDial number { dial with phase := .closing })
  | closed {number : Nat} {dial : Dial} (attached : Bool) (here : s.dials[number]? = some dial)
      (phase : dial.phase = .closing) : Stepped s (.closeConnection number attached) (s.close number dial attached)
  | cleared {number : Nat} {dial : Dial} (here : s.dials[number]? = some dial) (phase : dial.phase = .clearing) :
      Stepped s (.clearPending number)
        ((s.setDial number { dial with phase := .over }).clearPendingConnect dial.address)
  | onConnected (address : PeerAddress) : Stepped s (.onConnected address) (s.onConnected address)
  | onDisconnected (address : PeerAddress) : Stepped s (.onDisconnected address) (s.onDisconnected address)
  | radioOff : Stepped s .radioOff s.radioOff
  | forget (address : PeerAddress) :
      Stepped s (.forget address) { s with connectedGatts := s.connectedGatts.erase address }
  | operate {number : Nat} {handle : AndroidGattConnection} (operation : GattOperation)
      (here : s.handles[number]? = some handle) :
      Stepped s (.operate number operation) (s.operate number handle operation).2
  | release (address : PeerAddress) (release : WaiterRelease) :
      Stepped s (.release address release) { s with connections := s.connections.modify address release.apply }

theorem claim_cases (number : Nat) (dial : Dial) (s : AndroidClient) :
    s.isFree dial.address = true ∧ s.claim number dial = s.accept number dial ∨
      s.isFree dial.address = false ∧ ∃ reason, s.claim number dial = s.refuse number dial reason := by
  unfold claim isFree
  cases at_address : s.connections[dial.address]? with
  | none => simp
  | some state =>
    cases connecting : state.connectedTx with
    | some other =>
      refine .inr ⟨by simp [connecting], "a connection to this peer is already in progress", ?_⟩
      simp [connecting]
    | none =>
      cases live : state.live with
      | true =>
        refine .inr ⟨by simp [live], "a connection to this peer is already open", ?_⟩
        simp [connecting, live]
      | false => simp [connecting, live]

theorem step_cases {s s' : AndroidClient} {label : AndroidStep} (step : s.step label = some s') :
    Stepped s label s' := by
  unfold AndroidClient.step at step
  cases label with
  | elapse time =>
    cases Option.some.inj step
    exact .elapse time
  | call address =>
    cases Option.some.inj step
    exact .call address
  | claim number =>
    simp only [Option.bind_eq_some_iff, Option.bind_eq_bind] at step
    obtain ⟨dial, here, done⟩ := step
    split at done
    · rename_i wakeAt phase
      split at done
      · cases Option.some.inj done
        rcases claim_cases number dial s with ⟨free, accepted⟩ | ⟨taken, reason, refused⟩
        · rw [accepted]
          exact .accepted here phase free
        · rw [refused]
          exact .refused reason here phase taken
      · simp at done
    · simp at done
  | dialled number outcome =>
    simp only [Option.bind_eq_some_iff, Option.bind_eq_bind, Option.filter_eq_some_iff, decide_eq_true_eq] at step
    obtain ⟨dial, ⟨here, phase⟩, done⟩ := step
    cases Option.some.inj done
    exact .dialled outcome here phase
  | resume number =>
    simp only [Option.bind_eq_some_iff, Option.bind_eq_bind, Option.filter_eq_some_iff, decide_eq_true_eq] at step
    obtain ⟨dial, ⟨here, phase⟩, done⟩ := step
    unfold resume at done
    split at done
    · simp at done
    · rename_i sent
      cases Option.some.inj done
      exact .delivered here phase sent
    · rename_i dropped
      cases Option.some.inj done
      exact .abandoned here phase dropped
  | cancel number =>
    simp only [Option.bind_eq_some_iff, Option.bind_eq_bind] at step
    obtain ⟨dial, here, done⟩ := step
    split at done
    · rename_i phase
      cases Option.some.inj done
      exact .uncalled here phase
    · rename_i phase
      cases Option.some.inj done
      exact .cancelled here phase
    · simp at done
  | closeConnection number attached =>
    simp only [Option.bind_eq_some_iff, Option.bind_eq_bind, Option.filter_eq_some_iff, decide_eq_true_eq] at step
    obtain ⟨dial, ⟨here, phase⟩, done⟩ := step
    cases Option.some.inj done
    exact .closed attached here phase
  | clearPending number =>
    simp only [Option.bind_eq_some_iff, Option.bind_eq_bind, Option.filter_eq_some_iff, decide_eq_true_eq] at step
    obtain ⟨dial, ⟨here, phase⟩, done⟩ := step
    cases Option.some.inj done
    exact .cleared here phase
  | onConnected address =>
    cases Option.some.inj step
    exact .onConnected address
  | onDisconnected address =>
    cases Option.some.inj step
    exact .onDisconnected address
  | radioOff =>
    cases Option.some.inj step
    exact .radioOff
  | forget address =>
    cases Option.some.inj step
    exact .forget address
  | operate number operation =>
    simp only [Option.bind_eq_some_iff, Option.bind_eq_bind] at step
    obtain ⟨handle, here, done⟩ := step
    cases Option.some.inj done
    exact .operate operation here
  | release address release =>
    cases Option.some.inj step
    exact .release address release

end AndroidClient

end BleGatt
