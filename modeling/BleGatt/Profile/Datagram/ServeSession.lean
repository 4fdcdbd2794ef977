import BleGatt.Profile.Datagram.ServeSlot

namespace BleGatt
open Std

/-! Which connection of a peer the channel in the slot belongs to. -/

/-- The step may change who is in the slot. -/
def ServeStep.swaps : ServeStep → Bool
  | .release => true
  | .event (.connected _ .peripheral _) _ => true
  | .event (.disconnected _ .peripheral _) _ => true
  | .event (.lagged _) _ => true
  | .event (.radioChanged .off) _ => true
  | .event (.radioChanged .unsupported) _ => true
  | _ => false

namespace Server

/-- What the task was told of the connections of its centrals. -/
structure Sessions where
  /-- The session of the last `Connected`. A write is of that session, since
  drivers repeat `Connected` before each. -/
  latest : PeerAddress → Option UInt64
  /-- The session that is due the slot. -/
  due : PeerAddress → Option UInt64
  /-- The sessions whose `Disconnected` was handled. -/
  lost : List (PeerAddress × UInt64)

def Sessions.none : Sessions := ⟨fun _ => .none, fun _ => .none, []⟩

/-- The slot has a session of the peer. -/
def serves (peer : PeerAddress) (session : UInt64) (s : Server) : Bool :=
  s.inbound[peer]?.any fun served => decide (served.driverSession = some session)

/-- A session has the slot, or can get it: no other peer is in it, and a
channel can be handed over. -/
def offers (cfg : DatagramConfig) (peer : PeerAddress) (session : UInt64) (s : Server) : Bool :=
  s.serves peer session || ((s.inbound.isEmpty || decide (peer ∈ s.inbound)) && !s.acceptClosed && !s.streamDropped &&
    decide (s.accepts.length < cfg.acceptQueueDepth))

/-- A session that was due stays so, but where its channel was released. -/
def stillDue (due : PeerAddress → Option UInt64) (s s' : Server) (peer : PeerAddress) : Option UInt64 :=
  if peer ∈ s.inbound ∧ peer ∉ s'.inbound then none else due peer

def hear (cfg : DatagramConfig) (seen : Sessions) (s : Server) (label : ServeStep) (s' : Server) : Sessions :=
  match label with
  | .event (.connected peer .peripheral none) _ =>
    { seen with
      latest := Function.update seen.latest peer none
      due := stillDue seen.due s s.drained }
  | .event (.connected peer .peripheral (some session)) _ =>
    { seen with
      latest := Function.update seen.latest peer (some session)
      due := Function.update (stillDue seen.due s s.drained) peer
        (if s.drained.offers cfg peer session then some session else none) }
  | .event (.disconnected peer .peripheral none) _ => { seen with due := Function.update seen.due peer none }
  | .event (.disconnected peer .peripheral (some session)) _ =>
    { seen with
      due := if seen.due peer = some session then Function.update seen.due peer none else seen.due
      lost := (peer, session) :: seen.lost }
  | .event (.lagged _) _ => { seen with due := fun _ => none }
  | .event (.radioChanged .off) _ => { seen with due := fun _ => none }
  | .event (.radioChanged .unsupported) _ => { seen with due := fun _ => none }
  | .release => { seen with due := stillDue seen.due s s' }
  | _ => seen

/-- No connection of a peer comes while an older one of it has the slot. -/
def oneSession (s : Server) : ServeStep → Bool
  | .event (.connected peer .peripheral (some session)) _ =>
    s.drained.inbound[peer]?.all fun served => decide (served.driverSession = some session)
  | _ => true

/-- The channel in the slot is of the connection its peer has. -/
structure SessionBound (cfg : DatagramConfig) (seen : Sessions) (s : Server) : Prop where
  delivered : ∀ peer characteristic value answers s',
    step cfg s (.event (.characteristicWritten peer characteristic value) answers) = some s' →
    ∀ (g : Nat) channel channel', s.channels[g]? = some channel → s'.channels[g]? = some channel' →
      channel'.fragments ≠ channel.fragments → channel.peer = peer ∧
        ∀ s1 s2, channel.session = some s1 → seen.latest peer = some s2 → s1 = s2
  serves : ∀ peer s1 s2, s1 ≠ s2 → seen.due peer = some s2 → (peer, s1) ∈ seen.lost →
    (∀ (q : PeerAddress) served, s.inbound[q]? = some served →
      q = peer ∧ (served.driverSession = some s1 ∨ served.driverSession = some s2)) →
    s.serves peer s2 = true

theorem serves_iff {s : Server} {peer : PeerAddress} {session : UInt64} :
    s.serves peer session = true ↔ ∃ served, s.inbound[peer]? = some served ∧ served.driverSession = some session := by
  unfold serves
  rw [Option.any_eq_true]
  simp only [decide_eq_true_eq]

/-- The slot's entries only go. -/
theorem serves_of_eases {s s' : Server} (eased : Eases s s') {peer : PeerAddress} {session : UInt64}
    (before : s.serves peer session = true) (holder : peer ∈ s'.inbound) : s'.serves peer session = true := by
  rw [serves_iff] at before ⊢
  obtain ⟨served, at_peer, same⟩ := before
  rw [ExtTreeMap.mem_iff_isSome_getElem?, Option.isSome_iff_exists] at holder
  obtain ⟨served', at_peer'⟩ := holder
  obtain rfl := Option.some.inj ((eased.inbound peer served' at_peer').symm.trans at_peer)
  exact ⟨served', at_peer', same⟩

theorem mem_of_serves {s : Server} {peer : PeerAddress} {session : UInt64} (served : s.serves peer session = true) :
    peer ∈ s.inbound := by
  obtain ⟨entry, at_peer, _⟩ := serves_iff.mp served
  rw [ExtTreeMap.mem_iff_isSome_getElem?, at_peer]
  rfl

theorem serves_of_stillDue {due : PeerAddress → Option UInt64} {s s' : Server} (eased : Eases s s')
    {peer : PeerAddress} {session : UInt64} (before : due peer = some session → s.serves peer session = true)
    (owed : stillDue due s s' peer = some session) : s'.serves peer session = true := by
  unfold stillDue at owed
  split at owed
  · simp at owed
  · rename_i kept
    have served := before owed
    refine serves_of_eases eased served ?_
    by_contra gone
    exact kept ⟨mem_of_serves served, gone⟩

theorem foldl_dropChannel_inbound (generations : List Nat) (s : Server) :
    (generations.foldl dropChannel s).inbound = s.inbound := by
  induction generations generalizing s with
  | nil => rfl
  | cons generation generations ih => exact (ih _).trans (dropChannel_rest s generation).1

theorem onEvent_inbound {cfg : DatagramConfig} {event : GattEvent} {answers : Answers}
    (keeps : (ServeStep.event event answers).swaps = false) (s : Server) :
    (s.onEvent cfg event answers).inbound = s.inbound := by
  unfold onEvent
  split
  · simp [ServeStep.swaps] at keeps
  · unfold onWritten
    split
    · rfl
    · split <;> rfl
  · simp [ServeStep.swaps] at keeps
  · simp [ServeStep.swaps] at keeps
  · unfold onRadioBack
    split
    · rfl
    · split <;> rfl
  · simp [ServeStep.swaps] at keeps
  · simp [ServeStep.swaps] at keeps
  · rfl
  · rfl

theorem startSend_inbound (generation : Nat) (payload : Bytes) (channel : ServedChannel) (s : Server) :
    (s.startSend generation payload channel).inbound = s.inbound := by
  unfold startSend
  split <;> rfl

theorem notifyNext_inbound {s s' : Server} {number : Nat} {send : Send} {channel : ServedChannel}
    {outcome : Except BleError Unit} (notified : s.notifyNext number send channel outcome = some s') :
    s'.inbound = s.inbound := by
  unfold notifyNext at notified
  split at notified
  · simp at notified
  · split at notified
    · cases Option.some.inj notified
      rfl
    · split at notified
      · cases Option.some.inj notified
        rfl
      · cases Option.some.inj notified
        rfl

theorem step_inbound {cfg : DatagramConfig} {s s' : Server} {label : ServeStep} (keeps : label.swaps = false)
    (step : step cfg s label = some s') : s'.inbound = s.inbound := by
  cases step_cases step with
  | release _ _ => simp [ServeStep.swaps] at keeps
  | closed _ _ => exact (endIf_rest _ _).1
  | event event answers => exact onEvent_inbound keeps s
  | eventsEnded => rfl
  | take _ => rfl
  | dropStream => exact foldl_dropChannel_inbound _ _
  | close generation => rfl
  | disconnect _ => rfl
  | drop generation => exact (dropChannel_rest s generation).1
  | send payload _ => exact startSend_inbound _ payload _ s
  | notify _ _ _ notified => exact notifyNext_inbound notified
  | cancel _ => rfl

/-- A session that is due has the slot, and the slot has the last one heard of. -/
structure Bound (seen : Sessions) (s : Server) : Prop where
  latest : ∀ (peer : PeerAddress) served s1 s2, s.inbound[peer]? = some served → served.driverSession = some s1 →
    seen.latest peer = some s2 → s1 = s2
  due : ∀ peer session, seen.due peer = some session → s.serves peer session = true

namespace Bound

variable {cfg : DatagramConfig} {seen : Sessions} {s s' : Server}

theorem latest_eases (bound : Bound seen s) (eased : Eases s s') {peer : PeerAddress} {served : ServedPeer}
    {s1 s2 : UInt64} (at_peer : s'.inbound[peer]? = some served) (session : served.driverSession = some s1)
    (latest : seen.latest peer = some s2) : s1 = s2 :=
  bound.latest peer served s1 s2 (eased.inbound peer served at_peer) session latest

/-- A `Connected` of session `heard`, of no other connection than the slot's. -/
theorem arrival_latest (bound : Bound seen s) {peer : PeerAddress} {heard : Option UInt64}
    (same : ∀ session served, heard = some session → s.inbound[peer]? = some served →
      served.driverSession = some session)
    (arrived : Arrival cfg peer heard s s') {q : PeerAddress} {served : ServedPeer} {s1 s2 : UInt64}
    (at_q : s'.inbound[q]? = some served) (session : served.driverSession = some s1)
    (latest : Function.update seen.latest peer heard q = some s2) : s1 = s2 := by
  have before : s.inbound[q]? = some served → s1 = s2 := by
    intro at_q
    by_cases own : q = peer
    · subst own
      rw [Function.update_self] at latest
      exact Option.some.inj (session.symm.trans (same s2 served latest at_q))
    · rw [Function.update_of_ne own] at latest
      exact bound.latest q served s1 s2 at_q session latest
  cases arrived with
  | served _ => exact before at_q
  | ignored _ _ => exact before at_q
  | refused _ _ inbound _ _ => exact before (inbound ▸ at_q)
  | closed _ _ _ _ inbound _ => exact before (inbound ▸ at_q)
  | accepted _ _ _ _ =>
    unfold Server.opened at at_q
    dsimp only at at_q
    rw [FiniteMap.getElem?_insert] at at_q
    split at at_q
    · rename_i own
      subst own
      rw [Function.update_self] at latest
      obtain rfl := Option.some.inj at_q
      exact Option.some.inj (session.symm.trans latest)
    · exact before at_q

theorem serves_arrival {peer : PeerAddress} {heard : Option UInt64} (arrived : Arrival cfg peer heard s s')
    {q : PeerAddress} {session : UInt64} (before : s.serves q session = true) : s'.serves q session = true := by
  have kept : s'.inbound = s.inbound → s'.serves q session = true := by
    intro inbound
    unfold serves
    rw [inbound]
    exact before
  cases arrived with
  | served _ => exact before
  | ignored _ _ => exact before
  | refused _ _ inbound _ _ => exact kept inbound
  | closed _ _ _ _ inbound _ => exact kept inbound
  | accepted free _ _ _ =>
    have holder := mem_of_serves before
    rw [ExtTreeMap.isEmpty_iff.mp free] at holder
    simp at holder

/-- The session that comes gets the slot it was offered. -/
theorem serves_arrived {peer : PeerAddress} {session : UInt64}
    (same : ∀ served, s.inbound[peer]? = some served → served.driverSession = some session)
    (arrived : Arrival cfg peer (some session) s s') (offered : s.offers cfg peer session = true) :
    s'.serves peer session = true := by
  have holds : peer ∈ s.inbound → s.serves peer session = true := by
    intro holder
    rw [ExtTreeMap.mem_iff_isSome_getElem?, Option.isSome_iff_exists] at holder
    obtain ⟨served, at_peer⟩ := holder
    exact serves_iff.mpr ⟨served, at_peer, same served at_peer⟩
  unfold offers at offered
  simp only [Bool.or_eq_true, Bool.and_eq_true, Bool.not_eq_true', decide_eq_true_eq] at offered
  cases arrived with
  | served holder => exact holds holder
  | ignored absent shut =>
    rcases offered with held | ⟨⟨⟨_, accepting⟩, _⟩, _⟩
    · exact absurd (mem_of_serves held) absent
    · rw [shut] at accepting
      simp at accepting
  | refused refused _ _ _ _ =>
    obtain ⟨absent, _, full⟩ := refused
    rcases offered with held | ⟨⟨⟨free, _⟩, _⟩, room⟩
    · exact absurd (mem_of_serves held) absent
    · rcases full with taken | ⟨_, full⟩
      · rcases free with free | holder
        · rw [free] at taken
          simp at taken
        · exact absurd holder absent
      · omega
  | closed free _ gone _ _ _ =>
    rcases offered with held | ⟨⟨_, stream⟩, _⟩
    · have holder := mem_of_serves held
      rw [ExtTreeMap.isEmpty_iff.mp free] at holder
      simp at holder
    · rw [gone] at stream
      simp at stream
  | accepted _ _ _ _ =>
    refine serves_iff.mpr ⟨{ driverSession := some session, generation := s.nextGeneration }, ?_, rfl⟩
    unfold Server.opened
    dsimp only
    rw [FiniteMap.getElem?_insert, if_pos rfl]

theorem connected (bound : Bound seen s) {peer : PeerAddress} {heard : Option UInt64} {answers : Answers}
    (only : oneSession s (.event (.connected peer .peripheral heard) answers) = true)
    (arrived : Arrival cfg peer heard s.drained s') :
    Bound (hear cfg seen s (.event (.connected peer .peripheral heard) answers) s') s' := by
  have drained : Bound { seen with due := stillDue seen.due s s.drained } s.drained := by
    refine ⟨fun q served s1 s2 at_q => bound.latest_eases (.drained s) at_q, fun q session owed => ?_⟩
    exact serves_of_stillDue (.drained s) (bound.due q session) owed
  cases heard with
  | none =>
    refine ⟨fun q served s1 s2 => ?_, fun q session owed => ?_⟩
    · exact drained.arrival_latest (fun _ _ heard => absurd heard (by simp)) arrived
    · exact serves_arrival arrived (drained.due q session owed)
  | some current =>
    have same : ∀ served, s.drained.inbound[peer]? = some served → served.driverSession = some current := by
      intro served at_peer
      unfold oneSession at only
      dsimp only at only
      rw [at_peer] at only
      exact of_decide_eq_true only
    refine ⟨fun q served s1 s2 => drained.arrival_latest ?_ arrived, fun q session owed => ?_⟩
    · intro session served heard at_peer
      exact (same served at_peer).trans heard
    · unfold hear at owed
      dsimp only at owed
      by_cases own : q = peer
      · subst own
        rw [Function.update_self] at owed
        split at owed
        · rename_i offered
          obtain rfl := Option.some.inj owed
          exact serves_arrived same arrived offered
        · simp at owed
      · rw [Function.update_of_ne own] at owed
        exact serves_arrival arrived (drained.due q session owed)

theorem serves_disconnected_other {peer q : PeerAddress} (lost : Option UInt64) (other : q ≠ peer) {session : UInt64}
    (before : s.serves q session = true) : (s.onDisconnected peer lost).serves q session = true := by
  refine serves_of_eases (.onDisconnected peer lost s) before ?_
  have holder := mem_of_serves before
  unfold onDisconnected
  split
  · exact holder
  · rw [(endIf_rest _ _).1]
    split
    · exact holder
    · rw [ExtTreeMap.mem_iff_isSome_getElem?] at holder ⊢
      unfold vacate setChannel
      dsimp only
      rw [FiniteMap.getElem?_erase, if_neg other]
      exact holder

/-- The loss of another session leaves the one in the slot alone. -/
theorem onDisconnected_stale {peer : PeerAddress} {lost session : UInt64} (other : lost ≠ session)
    (before : s.serves peer session = true) : s.onDisconnected peer (some lost) = s := by
  obtain ⟨served, at_peer, same⟩ := serves_iff.mp before
  unfold onDisconnected
  rw [if_pos]
  rw [at_peer]
  unfold staleLoss
  rw [Option.bind_some, same]
  exact decide_eq_true other

theorem disconnected (bound : Bound seen s) (peer : PeerAddress) (lost : Option UInt64) (answers : Answers) :
    Bound (hear cfg seen s (.event (.disconnected peer .peripheral lost) answers) (s.onDisconnected peer lost))
      (s.onDisconnected peer lost) := by
  have eased := Eases.onDisconnected peer lost s
  have others : ∀ q session, q ≠ peer → seen.due q = some session →
      (s.onDisconnected peer lost).serves q session = true := by
    intro q session other owed
    exact serves_disconnected_other lost other (bound.due q session owed)
  cases lost with
  | none =>
    refine ⟨fun q served s1 s2 => bound.latest_eases eased, fun q session owed => ?_⟩
    unfold hear at owed
    dsimp only at owed
    by_cases own : q = peer
    · subst own
      rw [Function.update_self] at owed
      simp at owed
    · rw [Function.update_of_ne own] at owed
      exact others q session own owed
  | some lost =>
    refine ⟨fun q served s1 s2 => bound.latest_eases eased, fun q session owed => ?_⟩
    unfold hear at owed
    dsimp only at owed
    by_cases own : q = peer
    · subst own
      split at owed
      · rw [Function.update_self] at owed
        simp at owed
      · rename_i other
        have held := bound.due q session owed
        have stale : lost ≠ session := by
          rintro rfl
          exact other owed
        rw [onDisconnected_stale stale held]
        exact held
    · refine others q session own ?_
      split at owed
      · rw [Function.update_of_ne own] at owed
        exact owed
      · exact owed

/-- A step that leaves the slot as it was. -/
theorem of_inbound (bound : Bound seen s) (inbound : s'.inbound = s.inbound) : Bound seen s' := by
  refine ⟨fun q served s1 s2 at_q => bound.latest q served s1 s2 (inbound ▸ at_q), fun q session owed => ?_⟩
  unfold serves
  rw [inbound]
  exact bound.due q session owed

/-- A step after which no session is due. -/
theorem of_none_due (bound : Bound seen s) (eased : Eases s s') : Bound { seen with due := fun _ => none } s' :=
  ⟨fun _ _ _ _ => bound.latest_eases eased, fun _ _ owed => absurd owed (by simp)⟩

theorem hear_of_not_swaps {label : ServeStep} (keeps : label.swaps = false) : hear cfg seen s label s' = seen := by
  unfold hear
  split
  all_goals first | rfl | simp [ServeStep.swaps] at keeps

theorem step (bound : Bound seen s) {label : ServeStep} (only : oneSession s label = true)
    (step : Server.step cfg s label = some s') : Bound (hear cfg seen s label s') s' := by
  cases swaps : label.swaps with
  | false =>
    rw [hear_of_not_swaps swaps]
    exact bound.of_inbound (step_inbound swaps step)
  | true =>
    unfold ServeStep.swaps at swaps
    split at swaps
    · refine ⟨fun q served s1 s2 => bound.latest_eases (step_eases rfl step), fun q session owed => ?_⟩
      exact serves_of_stillDue (step_eases rfl step) (bound.due q session) owed
    · obtain rfl := step_event step
      exact bound.connected only (onConnected_arrival cfg _ _ _ s)
    · obtain rfl := step_event step
      exact bound.disconnected _ _ _
    · obtain rfl := step_event step
      exact bound.of_none_due (.onLagged s)
    · obtain rfl := step_event step
      exact bound.of_none_due (.onRadioLost s)
    · obtain rfl := step_event step
      exact bound.of_none_due (.onRadioLost s)
    · simp at swaps

theorem run (run : (machine cfg).Run (fun _ s label => oneSession s label = true) (hear cfg) .none seen s) :
    Bound seen s := by
  refine Machine.Run.invariant (P := Bound) ?_ ?_ run
  · rintro s ⟨_, rfl⟩
    refine ⟨fun peer served s1 s2 at_peer => ?_, fun peer session owed => ?_⟩
    · simp [Server.start] at at_peer
    · simp [Sessions.none] at owed
  · intro seen s label s' _ bound only taken
    exact bound.step only taken

end Bound

/-- A written value goes to the channel in the slot of its peer. -/
theorem written_channel {cfg : DatagramConfig} {s s' : Server} {peer : PeerAddress}
    {characteristic : CharacteristicUuid} {value : Bytes} {answers : Answers}
    (step : step cfg s (.event (.characteristicWritten peer characteristic value) answers) = some s') {g : Nat}
    {channel channel' : ServedChannel} (before : s.channels[g]? = some channel)
    (after : s'.channels[g]? = some channel')
    (delivered : channel'.fragments ≠ channel.fragments) :
    ∃ served, s.inbound[peer]? = some served ∧ served.generation = g := by
  have untouched : s.channels[g]? = some channel' →
      ∃ served, s.inbound[peer]? = some served ∧ served.generation = g := by
    intro after
    obtain rfl := Option.some.inj (before.symm.trans after)
    exact absurd rfl delivered
  obtain rfl := step_event step
  unfold onEvent onWritten at after
  dsimp only at after
  split at after
  · exact untouched after
  · split at after
    · exact untouched after
    · rename_i served at_peer
      unfold setChannel at after
      dsimp only at after
      rw [FiniteMap.getElem?_modify] at after
      split at after
      · rename_i same
        exact ⟨served, at_peer, same.symm⟩
      · exact untouched after

theorem run_session_bound {cfg : DatagramConfig} {seen : Sessions} {s : Server}
    (run : (machine cfg).Run (fun _ s label => oneSession s label = true) (hear cfg) .none seen s) :
    SessionBound cfg seen s := by
  have bound := Bound.run run
  obtain ⟨handed, handing⟩ := run.reach.run handOut []
  have slotted := Slotted.run handing
  refine ⟨?_, fun peer s1 s2 _ owed _ _ => bound.due peer s2 owed⟩
  intro peer characteristic value answers s' step g channel channel' before after delivered
  obtain ⟨served, at_peer, rfl⟩ := written_channel step before after delivered
  obtain ⟨_, known, found, own, session⟩ := slotted.known peer served at_peer
  obtain rfl := Option.some.inj (before.symm.trans found)
  refine ⟨own, fun s1 s2 bound_to latest => ?_⟩
  exact bound.latest peer served s1 s2 at_peer (session ▸ bound_to) latest

/-- A central is lost, comes again as another session, and its first loss is
reported once more. -/
def reconnection : List ServeStep :=
  let a : PeerAddress := ⟨"a"⟩
  [.event (.connected a .peripheral (some 1)) {}, .take, .event (.characteristicWritten a ⟨1⟩ [7]) {},
    .event (.disconnected a .peripheral (some 1)) {}, .event (.connected a .peripheral (some 2)) {}, .take,
    .event (.disconnected a .peripheral (some 1)) {}]

theorem run_session_bound_reconnection : ∃ seen s, SessionBound { service := ⟨0⟩, characteristic := ⟨1⟩ } seen s ∧
    seen.due ⟨"a"⟩ = some 2 ∧ (⟨"a"⟩, 1) ∈ seen.lost ∧ s.serves ⟨"a"⟩ 2 = true := by
  obtain ⟨seen, s, run, kept⟩ := Machine.Run.exists_of_follow (machine { service := ⟨0⟩, characteristic := ⟨1⟩ })
    (fun _ s label => oneSession s label = true) (hear { service := ⟨0⟩, characteristic := ⟨1⟩ }) .none
    (fun seen s => decide (seen.due ⟨"a"⟩ = some 2) && decide ((⟨"a"⟩, 1) ∈ seen.lost) && s.serves ⟨"a"⟩ 2)
    ⟨rfl, rfl⟩ reconnection (by decide +kernel)
  simp only [Bool.and_eq_true, decide_eq_true_eq] at kept
  exact ⟨seen, s, run_session_bound run, kept.1.1, kept.1.2, kept.2⟩

/-- The second session of a central comes before the first is lost. -/
def overlap : List ServeStep :=
  let a : PeerAddress := ⟨"a"⟩
  [.event (.connected a .peripheral (some 1)) {}, .take, .event (.connected a .peripheral (some 2)) {}]

/-- The last session of `peer` writes into the channel of the session `old`. -/
def misdelivers (cfg : DatagramConfig) (peer : PeerAddress) (old new : UInt64) (seen : Sessions) (s : Server) : Bool :=
  decide (seen.latest peer = some new) &&
    s.channels[0]?.any fun channel : ServedChannel => decide (channel.session = some old) &&
      (step cfg s (.event (.characteristicWritten peer cfg.characteristic [7]) {})).any fun s' =>
        s'.channels[0]?.any fun channel' : ServedChannel => decide (channel'.fragments ≠ channel.fragments)

/-- What the second session writes goes into the channel of the first. -/
theorem not_session_bound : ¬ ∀ (cfg : DatagramConfig) (seen : Sessions) (s : Server),
    (machine cfg).Run (fun _ _ _ => True) (hear cfg) .none seen s → SessionBound cfg seen s := by
  intro claim
  obtain ⟨seen, s, run, bad⟩ := Machine.Run.exists_of_follow (machine { service := ⟨0⟩, characteristic := ⟨1⟩ })
    (fun _ _ _ => True) (hear { service := ⟨0⟩, characteristic := ⟨1⟩ }) .none
    (misdelivers { service := ⟨0⟩, characteristic := ⟨1⟩ } ⟨"a"⟩ 1 2) ⟨rfl, rfl⟩ overlap (by decide +kernel)
  simp only [misdelivers, Bool.and_eq_true, decide_eq_true_eq, Option.any_eq_true] at bad
  obtain ⟨latest, channel, before, session, s', step, channel', after, delivered⟩ := bad
  have bound := (claim _ seen s run).delivered _ _ _ _ s' step 0 channel channel' before after delivered
  exact absurd (bound.2 1 2 session latest) (by decide)

/-- And once the first is lost the slot is free, so that the second is not served. -/
example : ((machine { service := ⟨0⟩, characteristic := ⟨1⟩ }).follow (fun _ _ _ => True)
    (hear { service := ⟨0⟩, characteristic := ⟨1⟩ }) (.none, start)
    (overlap ++ [.event (.disconnected ⟨"a"⟩ .peripheral (some 1)) {}])).any (fun (seen, s) =>
      decide (seen.due ⟨"a"⟩ = some 2) && decide ((⟨"a"⟩, 1) ∈ seen.lost) && s.inbound.isEmpty) = true := by
  decide +kernel

end Server

end BleGatt
