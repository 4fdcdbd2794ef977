import BleGatt.Entities.Models

namespace BleGatt

/-- Minted by the caller for each connection to a peer, so that an event of
an earlier one can be recognised as stale. -/
abbrev Session := UInt64

/-- How long a dial may run before it is abandoned. -/
def dialWindow : Duration := .ofSecs 20

/-- How long the platform may take to confirm a `disconnect()`. -/
def disconnectWindow : Duration := .ofSecs 5

/-- How long one abandoned-dial cleanup attempt may run before its retry. -/
def drainWindow : Duration := .ofSecs 10

inductive RadioState
  | off
  | on
  | unsupported
  deriving DecidableEq, Repr

inductive RadioEvent
  | poweredOn
  | poweredOff
  | noAdapter
  deriving DecidableEq, Repr

inductive RadioEffect
  | invalidateAllLinks
  deriving DecidableEq, Repr

namespace RadioState

def usable : RadioState → Bool
  | on => true
  | _ => false

/-- `_now` is unused: this machine has no deadlines. -/
def apply (radio : RadioState) (event : RadioEvent) (_now : Instant) : RadioState × List RadioEffect :=
  match radio, event with
  | on, .poweredOff => (off, [.invalidateAllLinks])
  | on, .noAdapter => (unsupported, [.invalidateAllLinks])
  | off, .poweredOn => (on, [])
  | off, .noAdapter => (unsupported, [])
  | unsupported, .poweredOn => (on, [])
  | unsupported, _ => (unsupported, [])
  | state, _ => (state, [])

/-- Every link is invalidated exactly when the radio stops being usable. -/
theorem apply_effects (radio : RadioState) (event : RadioEvent) (now : Instant) :
    ((radio.apply event now).2 = [] ↔ (radio.usable = true → (radio.apply event now).1.usable = true)) := by
  cases radio <;> cases event <;> simp [apply, usable]

end RadioState

/-- One peer's central-role link. A platform connection exists iff the state
is `connected` or `disconnecting`. -/
inductive CentralLink
  | idle
  /-- An outbound `connect()` is issued; the platform has not confirmed. -/
  | dialing (since : Instant) (session : Session)
  | connected (session : Session)
  /-- A `disconnect()` is issued; the platform has not confirmed. -/
  | disconnecting (since : Instant) (session : Session)
  /-- An abandoned dial's cleanup disconnect is running. -/
  | draining (since : Instant)
  /-- The radio is down. Left only by `radioBack`. -/
  | radioOff
  deriving DecidableEq, Repr

inductive CentralEvent
  | dialStarted (session : Session)
  | dialSucceeded
  | dialFailed
  | disconnectRequested
  | linkDropped
  | disconnectConfirmed
  | cleanupStarted
  | cleanupConfirmed
  | radioLost
  | radioBack
  | tick
  deriving DecidableEq, Repr

/-- Close the platform handle for this peer; with `emitDisconnected` also
report the loss to the consumer. -/
structure TearDown where
  emitDisconnected : Bool
  deriving DecidableEq, Repr

namespace CentralLink

def new : CentralLink := idle

def hasConnection : CentralLink → Bool
  | connected _ | disconnecting _ _ => true
  | _ => false

/-- Broader than `hasConnection`: a half-open dial and a cleanup disconnect
need closing too. -/
def holdsResource : CentralLink → Bool
  | idle | radioOff => false
  | _ => true

def mayDial : CentralLink → Bool
  | idle => true
  | _ => false

/-- `matches!(central, CentralLink::Dialing { .. })`. -/
def isDialing : CentralLink → Bool
  | dialing _ _ => true
  | _ => false

/-- `matches!(central, CentralLink::Connected { .. })`. -/
def isConnected : CentralLink → Bool
  | connected _ => true
  | _ => false

def session : CentralLink → Option Session
  | dialing _ session | connected session | disconnecting _ session => some session
  | _ => none

/-- The pure transition. A pair no case names is a no-op by design: events
race transitions that already moved past them. -/
def apply (link : CentralLink) (event : CentralEvent) (now : Instant) : CentralLink × List TearDown :=
  match link, event with
  | state, .radioLost =>
    let effects :=
      if state.hasConnection then [⟨true⟩]
      else if state.holdsResource then [⟨false⟩]
      else []
    (radioOff, effects)
  | radioOff, .radioBack => (idle, [])
  | idle, .dialStarted session => (dialing now session, [])
  | dialing _ session, .dialSucceeded => (connected session, [])
  | dialing _ _, .dialFailed => (idle, [⟨false⟩])
  | dialing since session, .tick =>
    if now - since ≥ dialWindow then (idle, [⟨false⟩]) else (dialing since session, [])
  | connected session, .disconnectRequested => (disconnecting now session, [])
  | connected _, .linkDropped => (idle, [⟨true⟩])
  | disconnecting _ _, .disconnectConfirmed => (idle, [])
  | disconnecting since session, .tick =>
    if now - since ≥ disconnectWindow then (idle, [⟨true⟩]) else (disconnecting since session, [])
  | idle, .cleanupStarted => (draining now, [])
  | dialing _ _, .cleanupStarted => (draining now, [])
  | draining _, .cleanupConfirmed => (idle, [])
  | draining since, .tick =>
    -- the cleanup attempt timed out: stay quarantined and re-arm the window
    if now - since ≥ drainWindow then (draining now, [⟨false⟩]) else (draining since, [])
  | state, _ => (state, [])

section Transitions
variable (link : CentralLink) (now : Instant)

/-! Where each event leads, from any state. -/

@[simp] theorem apply_radioLost : (link.apply .radioLost now).1 = radioOff := by
  cases link <;> rfl

@[simp] theorem apply_radioBack :
    (link.apply .radioBack now).1 = if link = radioOff then idle else link := by
  cases link <;> rfl

@[simp] theorem apply_dialStarted (session : Session) :
    (idle.apply (.dialStarted session) now).1 = dialing now session := rfl

@[simp] theorem apply_dialSucceeded :
    (link.apply .dialSucceeded now).1 = match link with
      | dialing _ session => connected session
      | state => state := by
  cases link <;> rfl

@[simp] theorem apply_dialFailed :
    (link.apply .dialFailed now).1 = if link.isDialing then idle else link := by
  cases link <;> rfl

@[simp] theorem apply_linkDropped :
    (link.apply .linkDropped now).1 = if link.isConnected then idle else link := by
  cases link <;> rfl

@[simp] theorem apply_tick_idle : (idle.apply .tick now).1 = idle := rfl

@[simp] theorem apply_tick_connected (session : Session) :
    ((connected session).apply .tick now).1 = connected session := rfl

@[simp] theorem apply_tick_radioOff : (radioOff.apply .tick now).1 = radioOff := rfl

@[simp] theorem apply_tick_dialing (since : Instant) (session : Session) :
    ((dialing since session).apply .tick now).1 =
      if now - since ≥ dialWindow then idle else dialing since session :=
  apply_ite Prod.fst _ _ _

end Transitions

end CentralLink

/-- One remote central's attachment to our GATT server. The server holds a
slot for it iff the state is `accepted`, `serving` or `disconnecting`. -/
inductive PeripheralLink
  | absent
  /-- Connected, but not subscribed yet. -/
  | accepted (session : Session)
  | serving (session : Session)
  | disconnecting (since : Instant) (session : Session)
  | radioOff
  deriving DecidableEq, Repr

inductive PeripheralEvent
  | centralConnected (session : Session)
  | centralSubscribed
  | centralUnsubscribed
  | centralDropped
  | disconnectRequested
  | disconnectConfirmed
  | radioLost
  | radioBack
  | tick
  deriving DecidableEq, Repr

namespace PeripheralLink

def new : PeripheralLink := absent

def holdsSlot : PeripheralLink → Bool
  | accepted _ | serving _ | disconnecting _ _ => true
  | _ => false

/-- `matches!(peripheral, PeripheralLink::Serving { .. })`. -/
def isServing : PeripheralLink → Bool
  | serving _ => true
  | _ => false

def session : PeripheralLink → Option Session
  | accepted session | serving session | disconnecting _ session => some session
  | _ => none

def apply (link : PeripheralLink) (event : PeripheralEvent) (now : Instant) :
    PeripheralLink × List TearDown :=
  match link, event with
  | state, .radioLost => (radioOff, if state.holdsSlot then [⟨true⟩] else [])
  | radioOff, .radioBack => (absent, [])
  -- a fresh `centralConnected` supersedes the session it finds
  | absent, .centralConnected session => (accepted session, [])
  | accepted _, .centralConnected session => (accepted session, [])
  | serving _, .centralConnected session => (accepted session, [])
  | accepted session, .centralSubscribed => (serving session, [])
  | serving _, .centralUnsubscribed => (absent, [⟨true⟩])
  | serving _, .centralDropped => (absent, [⟨true⟩])
  | accepted _, .centralUnsubscribed => (absent, [⟨true⟩])
  | accepted _, .centralDropped => (absent, [⟨true⟩])
  | accepted session, .disconnectRequested => (disconnecting now session, [])
  | serving session, .disconnectRequested => (disconnecting now session, [])
  | disconnecting _ _, .disconnectConfirmed => (absent, [])
  | disconnecting _ _, .centralDropped => (absent, [⟨true⟩])
  | disconnecting since session, .tick =>
    if now - since ≥ disconnectWindow then (absent, [⟨true⟩]) else (disconnecting since session, [])
  | state, _ => (state, [])

section Transitions
variable (link : PeripheralLink) (now : Instant)

@[simp] theorem apply_radioLost : (link.apply .radioLost now).1 = radioOff := by
  cases link <;> rfl

@[simp] theorem apply_radioBack :
    (link.apply .radioBack now).1 = if link = radioOff then absent else link := by
  cases link <;> rfl

/-- What `on_inbound` applies to an entry without an attachment. -/
@[simp] theorem apply_accepted (session : Session) :
    ((absent.apply (.centralConnected session) now).1.apply .centralSubscribed now).1 = serving session := rfl

@[simp] theorem apply_dropped_absent : (absent.apply .centralDropped now).1 = absent := rfl

@[simp] theorem apply_dropped_serving (session : Session) :
    ((serving session).apply .centralDropped now).1 = absent := rfl

@[simp] theorem apply_dropped_radioOff : (radioOff.apply .centralDropped now).1 = radioOff := rfl

end Transitions

end PeripheralLink

end BleGatt
