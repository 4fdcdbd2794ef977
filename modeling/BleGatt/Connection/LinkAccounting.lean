import BleGatt.Connection.LinkState
import BleGatt.Lib.Trace

namespace BleGatt
open Transition

/-! What the link state machines account for over whole runs, at any clock. -/

/-- How often a consumer is told of a loss. -/
def emitted {σ ι : Type} (t : Transition σ ι TearDown) : Nat := t.outputs.countP TearDown.emitDisconnected

namespace CentralLink

def act (link : CentralLink) (input : CentralEvent × Instant) : CentralLink × List TearDown := link.apply input.1 input.2

/-- `matches!(central, CentralLink::Disconnecting { .. })`. -/
def isDisconnecting : CentralLink → Bool
  | disconnecting _ _ => true
  | _ => false

abbrev Step := Transition CentralLink (CentralEvent × Instant) TearDown

def becameConnected (t : Step) : Bool := !t.before.isConnected && t.after.isConnected

/-- A `DisconnectConfirmed` that left `Disconnecting`. -/
def confirms (t : Step) : Bool :=
  decide (t.input.1 = .disconnectConfirmed) && t.before.isDisconnecting && !t.after.isDisconnecting

/-- Every link that became connected is reported lost, confirmed or still
there, and no resource is let go of without a teardown. -/
structure Accounted (inputs : List (CentralEvent × Instant)) : Prop where
  links : ((trace act new inputs).map emitted).sum + (trace act new inputs).countP confirms +
    (final act new inputs).hasConnection.toNat = (trace act new inputs).countP becameConnected
  closed : ∀ t ∈ trace act new inputs, t.before.holdsResource = true → t.after.holdsResource = false →
    t.input.1 ≠ .disconnectConfirmed → t.input.1 ≠ .cleanupConfirmed → t.outputs ≠ []

/-- What an event can do. -/
inductive Does (now : Instant) : CentralLink → CentralEvent → CentralLink → List TearDown → Prop
  | stays (link : CentralLink) (event : CentralEvent) : Does now link event link []
  | lost (link : CentralLink) (connected : link.hasConnection = true) : Does now link .radioLost radioOff [⟨true⟩]
  | halfOpen (link : CentralLink) (unconnected : link.hasConnection = false) : Does now link .radioLost radioOff [⟨false⟩]
  | nothing (link : CentralLink) (free : link.holdsResource = false) : Does now link .radioLost radioOff []
  | back : Does now radioOff .radioBack idle []
  | dialled (session : Session) : Does now idle (.dialStarted session) (dialing now session) []
  | succeeded (since : Instant) (session : Session) : Does now (dialing since session) .dialSucceeded (connected session) []
  | failed (since : Instant) (session : Session) (event : CentralEvent) : Does now (dialing since session) event idle [⟨false⟩]
  | requested (session : Session) : Does now (connected session) .disconnectRequested (disconnecting now session) []
  | dropped (session : Session) : Does now (connected session) .linkDropped idle [⟨true⟩]
  | confirmed (since : Instant) (session : Session) : Does now (disconnecting since session) .disconnectConfirmed idle []
  | timedOut (since : Instant) (session : Session) : Does now (disconnecting since session) .tick idle [⟨true⟩]
  | cleaning (link : CentralLink) (unconnected : link.hasConnection = false) :
      Does now link .cleanupStarted (draining now) []
  | cleaned (since : Instant) : Does now (draining since) .cleanupConfirmed idle []
  | retried (since : Instant) : Does now (draining since) .tick (draining now) [⟨false⟩]

theorem apply_does (link : CentralLink) (event : CentralEvent) (now : Instant) :
    Does now link event (link.apply event now).1 (link.apply event now).2 := by
  cases link with
  | idle =>
    cases event with
    | radioLost => exact .nothing _ rfl
    | dialStarted session => exact .dialled session
    | cleanupStarted => exact .cleaning _ rfl
    | _ => exact .stays _ _
  | dialing since session =>
    cases event with
    | radioLost => exact .halfOpen _ rfl
    | dialSucceeded => exact .succeeded since session
    | dialFailed => exact .failed since session _
    | cleanupStarted => exact .cleaning _ rfl
    | tick =>
      show Does now _ _ (ite _ _ _ : CentralLink × List TearDown).1 (ite _ _ _ : CentralLink × List TearDown).2
      split
      · exact .failed since session _
      · exact .stays _ _
    | _ => exact .stays _ _
  | connected session =>
    cases event with
    | radioLost => exact .lost _ rfl
    | disconnectRequested => exact .requested session
    | linkDropped => exact .dropped session
    | _ => exact .stays _ _
  | disconnecting since session =>
    cases event with
    | radioLost => exact .lost _ rfl
    | disconnectConfirmed => exact .confirmed since session
    | tick =>
      show Does now _ _ (ite _ _ _ : CentralLink × List TearDown).1 (ite _ _ _ : CentralLink × List TearDown).2
      split
      · exact .timedOut since session
      · exact .stays _ _
    | _ => exact .stays _ _
  | draining since =>
    cases event with
    | radioLost => exact .halfOpen _ rfl
    | cleanupConfirmed => exact .cleaned since
    | tick =>
      show Does now _ _ (ite _ _ _ : CentralLink × List TearDown).1 (ite _ _ _ : CentralLink × List TearDown).2
      split
      · exact .retried since
      · exact .stays _ _
    | _ => exact .stays _ _
  | radioOff =>
    cases event with
    | radioLost => exact .nothing _ rfl
    | radioBack => exact .back
    | _ => exact .stays _ _

theorem Does.balance {now : Instant} {t : Step} (does : Does now t.before t.input.1 t.after t.outputs) :
    t.before.hasConnection.toNat + (becameConnected t).toNat =
      emitted t + (confirms t).toNat + t.after.hasConnection.toNat := by
  obtain ⟨before, ⟨event, at_⟩, outputs, after⟩ := t
  dsimp only [becameConnected, emitted, confirms] at does ⊢
  cases does with
  | stays =>
    cases before <;> simp [isConnected, isDisconnecting, hasConnection]
  | lost _ connected =>
    rw [connected]
    simp [isConnected, hasConnection]
  | halfOpen _ unconnected | cleaning _ unconnected =>
    rw [unconnected]
    simp [isConnected, hasConnection]
  | nothing _ free =>
    have unconnected : before.hasConnection = false := by
      cases before <;> simp [holdsResource] at free <;> rfl
    rw [unconnected]
    simp [isConnected, hasConnection]
  | _ => simp [isConnected, isDisconnecting, hasConnection]

theorem Does.closed {now : Instant} {link next : CentralLink} {event : CentralEvent} {effects : List TearDown}
    (does : Does now link event next effects) (held : link.holdsResource = true) (free : next.holdsResource = false)
    (unconfirmed : event ≠ .disconnectConfirmed) (uncleaned : event ≠ .cleanupConfirmed) : effects ≠ [] := by
  cases does with
  | stays => simp [held] at free
  | nothing link empty => simp [held] at empty
  | confirmed => exact absurd rfl unconfirmed
  | cleaned => exact absurd rfl uncleaned
  | back => simp [holdsResource] at held
  | dialled | succeeded | requested | cleaning => simp [holdsResource] at free
  | lost | halfOpen | failed | dropped | timedOut | retried => simp

theorem accounted (inputs : List (CentralEvent × Instant)) : Accounted inputs := by
  refine ⟨?_, forall_mem_trace fun link input => (apply_does link input.1 input.2).closed⟩
  have balanced := @balance _ _ _ act new inputs (fun link => link.hasConnection.toNat) (fun t => (becameConnected t).toNat)
    (fun t => emitted t + (confirms t).toNat) fun link input =>
      Does.balance (t := of act link input) (apply_does link input.1 input.2)
  have start : new.hasConnection.toNat = 0 := rfl
  rw [sum_map_toNat becameConnected, start, List.sum_map_add, sum_map_toNat confirms] at balanced
  omega

end CentralLink

namespace PeripheralLink

def act (link : PeripheralLink) (input : PeripheralEvent × Instant) : PeripheralLink × List TearDown :=
  link.apply input.1 input.2

/-- `matches!(peripheral, PeripheralLink::Disconnecting { .. })`. -/
def isDisconnecting : PeripheralLink → Bool
  | disconnecting _ _ => true
  | _ => false

abbrev Step := Transition PeripheralLink (PeripheralEvent × Instant) TearDown

/-- A slot is acquired from `Absent`. -/
def acquired (t : Step) : Bool := decide (t.before = absent) && t.after.holdsSlot

def confirms (t : Step) : Bool :=
  decide (t.input.1 = .disconnectConfirmed) && t.before.isDisconnecting && !t.after.isDisconnecting

/-- The session of a `CentralConnected` that was accepted. -/
def accepts (t : Step) : Option Session :=
  match t.input.1, t.after with
  | .centralConnected session, accepted _ => some session
  | _, _ => none

/-- Every slot that was acquired is reported lost, confirmed or still held,
and the slot that is held is the one of the last central accepted. -/
structure Accounted (inputs : List (PeripheralEvent × Instant)) : Prop where
  slots : ((trace act new inputs).map emitted).sum + (trace act new inputs).countP confirms +
    (final act new inputs).holdsSlot.toNat = (trace act new inputs).countP acquired
  session : (final act new inputs).holdsSlot = true →
    (final act new inputs).session = ((trace act new inputs).filterMap accepts).getLast?

/-- What an event can do. -/
inductive Does (now : Instant) : PeripheralLink → PeripheralEvent → PeripheralLink → List TearDown → Prop
  | stays (link : PeripheralLink) (event : PeripheralEvent) (refused : ∀ session, event = .centralConnected session →
      link = radioOff ∨ link.isDisconnecting = true) : Does now link event link []
  | lost (link : PeripheralLink) (held : link.holdsSlot = true) : Does now link .radioLost radioOff [⟨true⟩]
  | nothing (link : PeripheralLink) (free : link.holdsSlot = false) : Does now link .radioLost radioOff []
  | back : Does now radioOff .radioBack absent []
  | connected (session : Session) : Does now absent (.centralConnected session) (accepted session) []
  | superseded (link : PeripheralLink) (session : Session) (held : link.holdsSlot = true) :
      Does now link (.centralConnected session) (accepted session) []
  | subscribed (session : Session) : Does now (accepted session) .centralSubscribed (serving session) []
  /-- It is gone, or does not let go in time. -/
  | gone (link : PeripheralLink) (event : PeripheralEvent) (held : link.holdsSlot = true)
      (other : ∀ session, event ≠ .centralConnected session) (unconfirmed : event ≠ .disconnectConfirmed) :
      Does now link event absent [⟨true⟩]
  | requested (link : PeripheralLink) (session : Session) (held : link.session = some session)
      (connected : link.isDisconnecting = false) : Does now link .disconnectRequested (disconnecting now session) []
  | confirmed (since : Instant) (session : Session) : Does now (disconnecting since session) .disconnectConfirmed absent []

theorem apply_does (link : PeripheralLink) (event : PeripheralEvent) (now : Instant) :
    Does now link event (link.apply event now).1 (link.apply event now).2 := by
  cases link with
  | absent =>
    cases event with
    | radioLost => exact .nothing _ rfl
    | centralConnected session => exact .connected session
    | _ => exact .stays _ _ (by simp)
  | accepted session =>
    cases event with
    | radioLost => exact .lost _ rfl
    | centralConnected session => exact .superseded _ session rfl
    | centralSubscribed => exact .subscribed session
    | centralUnsubscribed => exact .gone _ _ rfl (by simp) (by simp)
    | centralDropped => exact .gone _ _ rfl (by simp) (by simp)
    | disconnectRequested => exact .requested _ session rfl rfl
    | _ => exact .stays _ _ (by simp)
  | serving session =>
    cases event with
    | radioLost => exact .lost _ rfl
    | centralConnected session => exact .superseded _ session rfl
    | centralUnsubscribed => exact .gone _ _ rfl (by simp) (by simp)
    | centralDropped => exact .gone _ _ rfl (by simp) (by simp)
    | disconnectRequested => exact .requested _ session rfl rfl
    | _ => exact .stays _ _ (by simp)
  | disconnecting since session =>
    cases event with
    | radioLost => exact .lost _ rfl
    | disconnectConfirmed => exact .confirmed since session
    | centralDropped => exact .gone _ _ rfl (by simp) (by simp)
    | tick =>
      show Does now _ _ (ite _ _ _ : PeripheralLink × List TearDown).1 (ite _ _ _ : PeripheralLink × List TearDown).2
      split
      · exact .gone _ _ rfl (by simp) (by simp)
      · exact .stays _ _ (by simp)
    | _ => exact .stays _ _ fun _ _ => .inr rfl
  | radioOff =>
    cases event with
    | radioLost => exact .nothing _ rfl
    | radioBack => exact .back
    | _ => exact .stays _ _ fun _ _ => .inl rfl

theorem Does.balance {now : Instant} {t : Step} (does : Does now t.before t.input.1 t.after t.outputs) :
    t.before.holdsSlot.toNat + (acquired t).toNat = emitted t + (confirms t).toNat + t.after.holdsSlot.toNat := by
  obtain ⟨before, ⟨event, at_⟩, outputs, after⟩ := t
  dsimp only [acquired, emitted, confirms] at does ⊢
  cases does with
  | stays =>
    cases before <;> simp [isDisconnecting, holdsSlot]
  | lost _ held =>
    rw [held]
    simp [holdsSlot]
  | nothing _ free =>
    rw [free]
    simp [holdsSlot]
  | superseded _ _ held =>
    have other : before ≠ absent := by
      rintro rfl
      simp [holdsSlot] at held
    rw [held]
    simp [other, holdsSlot]
  | gone _ _ held _ unconfirmed =>
    rw [held]
    simp [unconfirmed, holdsSlot]
  | requested _ session held =>
    have slot : before.holdsSlot = true := by
      cases before <;> simp [PeripheralLink.session] at held <;> rfl
    have other : before ≠ absent := by
      rintro rfl
      simp [holdsSlot] at slot
    rw [slot]
    simp [other, holdsSlot]
  | _ => simp [isDisconnecting, holdsSlot]

/-- A session comes from the central that is accepted. -/
theorem Does.session {now : Instant} {t : Step} (does : Does now t.before t.input.1 t.after t.outputs) {last : Option Session}
    (before : t.before.holdsSlot = true → t.before.session = last) (held : t.after.holdsSlot = true) :
    t.after.session = (accepts t).or last := by
  obtain ⟨link, ⟨event, at_⟩, outputs, after⟩ := t
  dsimp only at does before held ⊢
  cases does with
  | stays _ _ refused =>
    have none_ : accepts ⟨link, (event, at_), [], link⟩ = none := by
      cases event with
      | centralConnected session =>
        obtain rfl | disconnecting := refused session rfl
        · rfl
        · cases link with
          | disconnecting => rfl
          | _ => simp [isDisconnecting] at disconnecting
      | _ => rfl
    rw [none_, Option.none_or]
    exact before held
  | lost | nothing | back | gone | confirmed => simp [holdsSlot] at held
  | connected | superseded => rfl
  | subscribed session => exact before rfl
  | requested _ session own => exact own.symm.trans (before (by cases link <;> simp [PeripheralLink.session] at own <;> rfl))

theorem accounted (inputs : List (PeripheralEvent × Instant)) : Accounted inputs := by
  have balanced := @balance _ _ _ act new inputs (fun link => link.holdsSlot.toNat) (fun t => (acquired t).toNat)
    (fun t => emitted t + (confirms t).toNat) fun link input =>
      Does.balance (t := of act link input) (apply_does link input.1 input.2)
  have start : new.holdsSlot.toNat = 0 := rfl
  rw [sum_map_toNat acquired, start, List.sum_map_add, sum_map_toNat confirms] at balanced
  refine ⟨by omega, ?_⟩
  clear balanced
  induction inputs using List.reverseRecOn with
  | nil => simp [final, new, holdsSlot]
  | append_singleton inputs input ih =>
    rw [trace_concat, final_concat, List.filterMap_append]
    intro held
    have last := Does.session (t := of act (final act new inputs) input) (apply_does _ input.1 input.2) ih held
    rw [List.getLast?_append]
    cases taken : accepts (of act (final act new inputs) input) with
    | none =>
      rw [taken] at last
      rw [List.filterMap_cons_none taken]
      exact last
    | some session =>
      rw [taken] at last
      rw [List.filterMap_cons_some taken]
      exact last

end PeripheralLink

/-- Every link and every slot is accounted for, over any events at any clock. -/
theorem links_accounted (central : List (CentralEvent × Instant)) (peripheral : List (PeripheralEvent × Instant)) :
    CentralLink.Accounted central ∧ PeripheralLink.Accounted peripheral :=
  ⟨CentralLink.accounted central, PeripheralLink.accounted peripheral⟩

end BleGatt
