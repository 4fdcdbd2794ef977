import BleGatt.Connection.PeerStep

namespace BleGatt
open Std

def CentralLink.Resting (radio : RadioState) (link : CentralLink) : Prop :=
  link = .idle ∨ link = .radioOff ∧ radio.usable = false

def PeripheralLink.Resting (radio : RadioState) (link : PeripheralLink) : Prop :=
  link = .absent ∨ link = .radioOff ∧ radio.usable = false

/-- The entries that occur: what the two machines say of the link and of the
dial task. A disconnect or a cleanup never runs under the worker. -/
inductive Peer.Shape (radio : RadioState) (p : Peer) : Prop
  | resting : p.central.Resting radio → p.peripheral.Resting radio → p.link = none → p.dialTask = none →
      Shape radio p
  | dialing {since session} : p.dials = true → p.central = .dialing since session →
      p.peripheral.Resting radio → p.link = none → p.dialTask.isSome → Shape radio p
  | connected {session} : p.dials = true → p.central = .connected session → p.peripheral.Resting radio →
      p.link.isSome → p.dialTask = none → Shape radio p
  | serving {session} : p.dials = false → p.central.Resting radio → p.peripheral = .serving session →
      p.link.isSome → p.dialTask = none → Shape radio p

section Resting
variable {radio : RadioState} {central : CentralLink} {peripheral : PeripheralLink} {now : Instant}

theorem CentralLink.Resting.not_dialing (rest : central.Resting radio) : central.isDialing = false := by
  obtain rfl | ⟨rfl, _⟩ := rest <;> rfl

theorem CentralLink.Resting.not_connected (rest : central.Resting radio) : central.isConnected = false := by
  obtain rfl | ⟨rfl, _⟩ := rest <;> rfl

theorem CentralLink.Resting.session (rest : central.Resting radio) : central.session = none := by
  obtain rfl | ⟨rfl, _⟩ := rest <;> rfl

theorem CentralLink.Resting.tick (rest : central.Resting radio) : (central.apply .tick now).1 = central := by
  obtain rfl | ⟨rfl, _⟩ := rest <;> rfl

theorem CentralLink.Resting.back (rest : central.Resting radio) : (central.apply .radioBack now).1 = .idle := by
  obtain rfl | ⟨rfl, _⟩ := rest <;> rfl

theorem CentralLink.Resting.linkDropped (rest : central.Resting radio) :
    (central.apply .linkDropped now).1 = central := by
  obtain rfl | ⟨rfl, _⟩ := rest <;> rfl

theorem CentralLink.Resting.weaken {after : RadioState} (rest : central.Resting radio)
    (off : after.usable = false) : central.Resting after :=
  rest.imp_right fun down => ⟨down.1, off⟩

theorem PeripheralLink.Resting.not_serving (rest : peripheral.Resting radio) : peripheral.isServing = false := by
  obtain rfl | ⟨rfl, _⟩ := rest <;> rfl

theorem PeripheralLink.Resting.back (rest : peripheral.Resting radio) :
    (peripheral.apply .radioBack now).1 = .absent := by
  obtain rfl | ⟨rfl, _⟩ := rest <;> rfl

theorem PeripheralLink.Resting.centralDropped (rest : peripheral.Resting radio) :
    (peripheral.apply .centralDropped now).1 = peripheral := by
  obtain rfl | ⟨rfl, _⟩ := rest <;> rfl

theorem PeripheralLink.Resting.weaken {after : RadioState} (rest : peripheral.Resting radio)
    (off : after.usable = false) : peripheral.Resting after :=
  rest.imp_right fun down => ⟨down.1, off⟩

end Resting

section Committed
variable {p : Peer} {before after : RadioState} {now : Instant}

theorem Peer.committed_of_radioBack (held : (p.radioBack now).committed = true) : p.committed = true := by
  revert held
  cases central : p.central <;>
    simp [committed, Peer.radioBack, centralApply, peripheralApply, central, CentralLink.isDialing]

theorem Peer.not_committed_radioLost : (p.radioLost now).committed = false := by
  simp [committed, Peer.radioLost, clearStaleDial, centralApply, peripheralApply, CentralLink.isDialing]

theorem Peer.committed_of_radioChanged (held : (p.radioChanged before after now).committed = true) :
    p.committed = true := by
  unfold radioChanged at held
  cases on : after.usable with
  | true => exact committed_of_radioBack (by simpa [on] using held)
  | false =>
    cases was : before.usable with
    | true => simp [on, was, not_committed_radioLost] at held
    | false => simpa [on, was] using held

/-- No event but `dialStarted` takes a machine to `Dialing`. -/
theorem CentralLink.isDialing_of_apply {link : CentralLink} {event : CentralEvent} {now : Instant}
    (other : ∀ session, event ≠ .dialStarted session) (after : (link.apply event now).1.isDialing = true) :
    link.isDialing = true := by
  have windows : ∀ (c : Prop) [Decidable c] (a b : CentralLink × List TearDown), a.1.isDialing = false →
      b.1.isDialing = false → (if c then a else b).1.isDialing = false := by
    intro c _ a b ha hb
    split <;> assumption
  cases link with
  | dialing _ _ => rfl
  | idle => cases event <;> first | exact absurd rfl (other _) | exact after
  | connected _ => cases event <;> exact after
  | disconnecting _ _ =>
    cases event <;> first | exact after | exact (windows _ _ _ rfl rfl).symm.trans after
  | draining _ =>
    cases event <;> first | exact after | exact (windows _ _ _ rfl rfl).symm.trans after
  | radioOff => cases event <;> exact after

theorem CentralLink.not_dialing_of_apply {link : CentralLink} (event : CentralEvent)
    (other : ∀ session, event ≠ .dialStarted session) (before : link.isDialing = false) :
    (link.apply event now).1.isDialing = false := by
  by_contra dialing
  rw [isDialing_of_apply other (by simpa using dialing)] at before
  exact Bool.noConfusion before

theorem Peer.committed_of_apply (p' : Peer) (event : CentralEvent) (link : p'.link = p.link)
    (central : p'.central = (p.central.apply event now).1) (other : ∀ session, event ≠ .dialStarted session)
    (held : p'.committed = true) : p.committed = true := by
  simp only [committed, Bool.or_eq_true] at held ⊢
  rw [link, central] at held
  exact held.imp_right (CentralLink.isDialing_of_apply other)

end Committed

namespace Peer.Shape

variable {radio after : RadioState} {p : Peer} {now : Instant}

theorem track (dials : Bool) : (Peer.track dials now).Shape radio := .resting (.inl rfl) (.inl rfl) rfl rfl

theorem retry (shape : p.Shape radio) : (p.retry now).Shape radio := by
  cases shape with
  | resting central peripheral link task => exact .resting central peripheral link task
  | dialing dials central peripheral link task => exact .dialing dials central peripheral link task
  | connected dials central peripheral link task => exact .connected dials central peripheral link task
  | serving dials central peripheral link task => exact .serving dials central peripheral link task

theorem radioBack (shape : p.Shape radio) : (p.radioBack now).Shape after := by
  have central_kept : p.central ≠ .radioOff → (p.radioBack now).central = p.central := by
    intro up
    simp [Peer.radioBack, centralApply, peripheralApply, up]
  cases shape with
  | resting central peripheral link task =>
    exact .resting (.inl central.back) (.inl peripheral.back) link task
  | dialing dials central peripheral link task =>
    have kept := central_kept (by rw [central]; simp)
    exact .dialing dials (kept.trans central) (.inl peripheral.back) link task
  | connected dials central peripheral link task =>
    have kept := central_kept (by rw [central]; simp)
    exact .connected dials (kept.trans central) (.inl peripheral.back) link task
  | serving dials central peripheral link task =>
    have kept : (p.radioBack now).peripheral = p.peripheral := by
      simp [Peer.radioBack, centralApply, peripheralApply, peripheral]
    exact .serving dials (.inl central.back) (kept.trans peripheral) link task

theorem radioLost (off : after.usable = false) : (p.radioLost now).Shape after := by
  refine .resting (.inr ⟨?_, off⟩) (.inr ⟨?_, off⟩) rfl ?_
  · simp [Peer.radioLost, clearStaleDial, centralApply, peripheralApply, CentralLink.isDialing]
  · simp [Peer.radioLost, clearStaleDial, centralApply, peripheralApply, CentralLink.isDialing]
  · simp [Peer.radioLost, clearStaleDial, centralApply, peripheralApply, CentralLink.isDialing]

theorem weaken (shape : p.Shape radio) (off : after.usable = false) : p.Shape after := by
  cases shape with
  | resting central peripheral link task =>
    exact .resting (central.weaken off) (peripheral.weaken off) link task
  | dialing dials central peripheral link task => exact .dialing dials central (peripheral.weaken off) link task
  | connected dials central peripheral link task =>
    exact .connected dials central (peripheral.weaken off) link task
  | serving dials central peripheral link task => exact .serving dials (central.weaken off) peripheral link task

theorem radioChanged (shape : p.Shape radio) : (p.radioChanged radio after now).Shape after := by
  unfold Peer.radioChanged
  cases on : after.usable with
  | true => simpa using shape.radioBack
  | false =>
    cases radio.usable with
    | true => simpa using radioLost on
    | false => simpa using shape.weaken on

theorem lateLoss (shape : p.Shape radio) (unlinked : p.link = none) :
    (p.centralApply .linkDropped now).Shape radio := by
  have kept : p.central.isConnected = false → (p.centralApply .linkDropped now).central = p.central := by
    intro apart
    simp [centralApply, apart]
  cases shape with
  | resting central peripheral link task =>
    exact .resting (by rwa [kept central.not_connected]) peripheral link task
  | dialing dials central peripheral link task =>
    exact .dialing dials ((kept (by rw [central]; rfl)).trans central) peripheral link task
  | connected _ _ _ link _ => simp [unlinked] at link
  | serving _ _ _ link _ => simp [unlinked] at link

/-- A session is held while dialling and while connected only. -/
theorem of_session (shape : p.Shape radio) {session : Session} (current : p.central.session = some session) :
    p.dials = true ∧ p.peripheral.Resting radio ∧
      ((∃ since, p.central = .dialing since session) ∧ p.link = none ∧ p.dialTask.isSome ∨
        p.central = .connected session ∧ p.link.isSome ∧ p.dialTask = none) := by
  cases shape with
  | resting central _ _ _ => simp [central.session] at current
  | dialing dials central peripheral link task =>
    rw [central] at current
    cases current
    exact ⟨dials, peripheral, .inl ⟨⟨_, central⟩, link, task⟩⟩
  | connected dials central peripheral link task =>
    rw [central] at current
    cases current
    exact ⟨dials, peripheral, .inr ⟨central, link, task⟩⟩
  | serving _ central _ _ _ => simp [central.session] at current

theorem dialSucceeded_central (shape : p.Shape radio) {session : Session}
    (current : p.central.session = some session) : (p.dialSucceeded now).central = .connected session := by
  obtain ⟨_, _, ⟨⟨since, central⟩, _⟩ | ⟨central, _⟩⟩ := shape.of_session current
  · simp [dialSucceeded, centralApply, central]
  · simp [dialSucceeded, centralApply, central]

theorem dialLinked (shape : p.Shape radio) {session : Session} (current : p.central.session = some session)
    (link : LiveLink) : ((p.dialSucceeded now).dialLinked link).Shape radio := by
  obtain ⟨dials, peripheral, _⟩ := shape.of_session current
  exact .connected dials (shape.dialSucceeded_central current) peripheral rfl rfl

theorem dialFailed {cfg : PeerLinkConfig} {p' : Peer} (shape : p.Shape radio) {session : Session}
    (current : p.central.session = some session) (failed : p.dialFailed cfg now = some p') :
    p'.Shape radio := by
  obtain ⟨central', peripheral', dials', link', task'⟩ := dialFailed_kept failed
  obtain ⟨dials, peripheral, ⟨⟨since, central⟩, link, task⟩ | ⟨central, link, task⟩⟩ := shape.of_session current
  · refine .resting (.inl ?_) (peripheral' ▸ peripheral) (link'.trans link) task'
    rw [central', central]; rfl
  · have kept : p'.central = .connected session := by
      rw [central', central]; rfl
    exact .connected (dials'.trans dials) kept (peripheral' ▸ peripheral) (link' ▸ link) task'

theorem accepted (shape : p.Shape radio) (accepts : p.dials = false) (unlinked : p.link = none)
    (usable : radio.usable) (session : Session) (link : LiveLink) : (p.accepted session link now).Shape radio := by
  cases shape with
  | resting central peripheral _ task =>
    obtain absent | ⟨_, off⟩ := peripheral
    · have serving : (p.accepted session link now).peripheral = .serving session := by
        simp [Peer.accepted, peripheralApply, absent]
      exact .serving accepts central serving rfl task
    · simp [usable] at off
  | dialing dials _ _ _ _ => simp [accepts] at dials
  | connected dials _ _ _ _ => simp [accepts] at dials
  | serving _ _ _ link _ => simp [unlinked] at link

theorem linkGone (shape : p.Shape radio) (linked : p.link.isSome) : (p.linkGone now).Shape radio := by
  cases shape with
  | resting _ _ link _ => simp [link] at linked
  | dialing _ _ _ link _ => simp [link] at linked
  | connected dials central peripheral link task =>
    refine .resting (.inl ?_) ?_ rfl task
    · simp [Peer.linkGone, centralApply, peripheralApply, central, CentralLink.isConnected]
    · have kept : (p.linkGone now).peripheral = p.peripheral := peripheral.centralDropped
      rwa [kept]
  | serving dials central peripheral link task =>
    have kept : (p.linkGone now).central = p.central := central.linkDropped
    refine .resting (by rwa [kept]) (.inl ?_) rfl task
    simp [Peer.linkGone, centralApply, peripheralApply, peripheral]

theorem tick {cfg : PeerLinkConfig} (shape : p.Shape radio) : (p.tick cfg radio now).Shape radio := by
  obtain ⟨central', peripheral', dials', link', task'⟩ := tick_kept cfg radio now p
  cases shape with
  | resting central peripheral link task =>
    rw [central.tick] at central'
    refine .resting (by rwa [central']) (by rwa [peripheral']) (by rwa [link']) ?_
    rw [task', task, ite_self]
  | dialing dials central peripheral link task =>
    rw [central, CentralLink.apply_tick_dialing] at central'
    split at central'
    · refine .resting (.inl central') (by rwa [peripheral']) (by rwa [link']) ?_
      rw [task', central']; rfl
    · refine .dialing (by rwa [dials']) central' (by rwa [peripheral']) (by rwa [link']) ?_
      rwa [task', central']
  | connected dials central peripheral link task =>
    rw [central, CentralLink.apply_tick_connected] at central'
    refine .connected (by rwa [dials']) central' (by rwa [peripheral']) (by rwa [link']) ?_
    rw [task', task, ite_self]
  | serving dials central peripheral link task =>
    rw [central.tick] at central'
    refine .serving (by rwa [dials']) (by rwa [central']) (peripheral'.trans peripheral) (by rwa [link']) ?_
    rw [task', task, ite_self]

theorem dialStarted (shape : p.Shape radio) (ready : p.candidate now) (session : Session) (task : TaskId) :
    (p.dialStarted session task now).Shape radio := by
  obtain ⟨unlinked, _, dials, idle, _⟩ := candidate_iff.mp ready
  cases shape with
  | resting _ peripheral link _ => exact .dialing dials (dialStarted_central idle) peripheral link rfl
  | dialing _ central _ _ _ => simp [idle] at central
  | connected _ central _ _ _ => simp [idle] at central
  | serving _ _ _ link _ => simp [unlinked] at link

end Peer.Shape

namespace Links

variable {cfg : PeerLinkConfig} {l l' : Links} {label : Label} {a : PeerAddress} {after : RadioState}
  {e e' : Option Peer} {sent : List Edge}

theorem PeerStep.shape (step : PeerStep cfg l a label after e sent e') (before : ∀ p ∈ e, p.Shape l.radio) :
    ∀ p ∈ e', p.Shape after := by
  intro q at_q
  cases step with
  | kept _ => exact before q at_q
  | tracked =>
    cases at_q
    exact .track _
  | untracked => simp at at_q
  | retried =>
    cases at_q
    exact (before _ rfl).retry
  | radio =>
    obtain ⟨p, at_p, rfl⟩ := Option.map_eq_some_iff.mp at_q
    exact (before p at_p).radioChanged
  | lateLoss unlinked =>
    cases at_q
    exact (before _ rfl).lateLoss unlinked
  | dialUnlinked _ _ current _ unlinked =>
    -- a result with the current session always leaves the peer connected
    rw [(before _ rfl).dialSucceeded_central current] at unlinked
    simp [CentralLink.isConnected] at unlinked
  | dialLinked _ _ current _ _ =>
    cases at_q
    exact (before _ rfl).dialLinked current _
  | dialFailed _ _ current _ failed =>
    cases at_q
    exact (before _ rfl).dialFailed current failed
  | accepted _ accepts unlinked usable =>
    cases at_q
    exact (before _ rfl).accepted accepts unlinked usable _ _
  | linkGone _ _ linked _ =>
    cases at_q
    exact (before _ rfl).linkGone (by rw [linked]; rfl)
  | ticked =>
    cases at_q
    exact (before _ rfl).tick
  | dialled _ ready _ =>
    cases at_q
    exact (before _ rfl).dialStarted ready _ _

/-- Only a dial or an inbound link commits a peer that was not committed. -/
theorem PeerStep.committed (step : PeerStep cfg l a label after e sent e') (shape : ∀ p ∈ e, p.Shape l.radio)
    (held : e'.any Peer.committed) : e.any Peer.committed ∨ (∃ now elapsed, label = .pump now elapsed) ∨
      ∃ top base channel elapsed now, label = .select top base (.inbound channel elapsed) now ∧ channel.peer = a := by
  cases step with
  | kept _ => exact .inl held
  | tracked => simp [Peer.committed, Peer.track, CentralLink.new, CentralLink.isDialing] at held
  | untracked => simp at held
  | retried => exact .inl held
  | radio =>
    refine .inl ?_
    cases e with
    | none => simp at held
    | some p => exact Peer.committed_of_radioChanged held
  | @lateLoss _ _ _ _ _ now p _ =>
    exact .inl (Peer.committed_of_apply (p.centralApply .linkDropped now) .linkDropped rfl rfl (by simp) held)
  | @dialUnlinked _ _ now _ _ p _ _ _ _ _ _ =>
    exact .inl (Peer.committed_of_apply (p.dialSucceeded now) .dialSucceeded rfl rfl (by simp) held)
  | dialLinked _ _ current _ _ =>
    obtain ⟨_, _, ⟨⟨since, central⟩, _⟩ | ⟨_, linked, _⟩⟩ := (shape _ rfl).of_session current
    · exact .inl (by simp [Peer.committed, central, CentralLink.isDialing])
    · exact .inl (by simp [Peer.committed, linked])
  | dialFailed _ _ _ _ failed =>
    obtain ⟨central', _, _, link', _⟩ := Peer.dialFailed_kept failed
    exact .inl (Peer.committed_of_apply _ .dialFailed link' central' (by simp) held)
  | accepted at_a _ _ _ => exact .inr (.inr ⟨_, _, _, _, _, rfl, at_a⟩)
  | linkGone _ _ linked _ => exact .inl (by simp [Peer.committed, linked])
  | ticked =>
    obtain ⟨central', _, _, link', _⟩ := Peer.tick_kept cfg l.radio _ _
    exact .inl (Peer.committed_of_apply _ .tick link' central' (by simp) held)
  | dialled _ _ _ => exact .inr (.inl ⟨_, _, rfl⟩)

end Links

/-- Every entry has a shape that occurs, in every reachable state. -/
theorem Worker.reach_shape {cfg : PeerLinkConfig} {w : Worker} (reach : (machine cfg).Reach w)
    {a : PeerAddress} {p : Peer} (known : w.peers[a]? = some p) : p.Shape w.radio :=
  reach_entry (fun step before => step.shape before) reach known

/-- A step within the cap keeps within it. -/
theorem Links.Change.committed_le {cfg : PeerLinkConfig} {l l' : Links} {label : Label}
    (change : Change cfg l label l') (shape : ∀ (a : PeerAddress) (p : Peer), l.peers[a]? = some p → p.Shape l.radio)
    (before : Worker.committed l.peers ≤ cfg.maxLinks) : Worker.committed l'.peers ≤ cfg.maxLinks := by
  have held_before : (∀ now elapsed, label ≠ .pump now elapsed) →
      ∀ a, (∀ top base channel elapsed now, label = .select top base (.inbound channel elapsed) now → channel.peer ≠ a) →
      FiniteMap.Holds Peer.committed l'.peers a → FiniteMap.Holds Peer.committed l.peers a := by
    rintro no_pump a elsewhere ⟨q, at_q, held⟩
    obtain ⟨sent, entry, _⟩ := change.peerStep a
    obtain committed | ⟨now, elapsed, pump⟩ | ⟨_, _, _, _, _, inbound, here⟩ :=
      entry.committed (shape a) (by simp [at_q, held])
    · simpa [FiniteMap.Holds, Option.any_eq_true] using committed
    · exact absurd pump (no_pump _ _)
    · exact absurd here (elsewhere _ _ _ _ _ inbound)
  cases change with
  | pump dialling => exact dialling.committed_le before
  | @accepted _ _ channel _ _ _ known accepts unlinked room usable =>
    refine (FiniteMap.count_le_succ channel.peer fun a apart => held_before (by simp) a ?_).trans room
    rintro _ _ _ _ _ ⟨⟩ here
    exact apart here.symm
  | quiet quiet => exact before
  | _ => exact (FiniteMap.count_le_of_imp fun a => held_before (by simp) a (by simp)).trans before

theorem Worker.reach_committed_le {cfg : PeerLinkConfig} {w : Worker} (reach : (machine cfg).Reach w) :
    committed w.peers ≤ cfg.maxLinks := by
  induction reach with
  | start first =>
    obtain ⟨initial, clock, rfl⟩ := first
    exact Nat.zero_le _
  | next previous step ih => exact (step_change step).committed_le (fun _ _ known => reach_shape previous known) ih

/-- The cap and the structure of the links, in every reachable state. The two
counts are over both directions. -/
theorem Worker.reach_cap_and_structure {cfg : PeerLinkConfig} {w : Worker} (reach : (machine cfg).Reach w) :
    FiniteMap.count (fun p : Peer => p.link.isSome) w.peers +
        FiniteMap.count (fun p : Peer => p.central.isDialing) w.peers ≤ cfg.maxLinks ∧
      ∀ (a : PeerAddress) (p : Peer), w.peers[a]? = some p →
        (p.link.isSome ↔ p.dials = true ∧ p.central.isConnected ∨ p.dials = false ∧ p.peripheral.isServing) ∧
        (p.dialTask.isSome ↔ p.central.isDialing) ∧
        (w.radio.usable → p.central ≠ .radioOff ∧ p.peripheral ≠ .radioOff) := by
  refine ⟨?_, fun a p known => ?_⟩
  · refine (FiniteMap.count_add_le fun a p known linked => ?_).trans (reach_committed_le reach)
    cases reach_shape reach known with
    | resting central _ _ _ => exact central.not_dialing
    | dialing _ _ _ link _ => simp [link] at linked
    | connected _ central _ _ _ => rw [central]; rfl
    | serving _ central _ _ _ => exact central.not_dialing
  · have up : ∀ {link : CentralLink}, link.Resting w.radio → w.radio.usable → link ≠ .radioOff := by
      rintro _ (rfl | ⟨rfl, off⟩) usable
      · simp
      · simp [usable] at off
    have up' : ∀ {link : PeripheralLink}, link.Resting w.radio → w.radio.usable → link ≠ .radioOff := by
      rintro _ (rfl | ⟨rfl, off⟩) usable
      · simp
      · simp [usable] at off
    cases reach_shape reach known with
    | resting central peripheral link task =>
      refine ⟨?_, ?_, fun usable => ⟨up central usable, up' peripheral usable⟩⟩
      · simp [link, central.not_connected, peripheral.not_serving]
      · simp [task, central.not_dialing]
    | dialing dials central peripheral link task =>
      refine ⟨?_, ?_, fun usable => ⟨by rw [central]; simp, up' peripheral usable⟩⟩
      · simp [link, dials, central, CentralLink.isConnected]
      · simp [task, central, CentralLink.isDialing]
    | connected dials central peripheral link task =>
      refine ⟨?_, ?_, fun usable => ⟨by rw [central]; simp, up' peripheral usable⟩⟩
      · simp [link, dials, central, CentralLink.isConnected]
      · simp [task, central, CentralLink.isDialing]
    | serving dials central peripheral link task =>
      refine ⟨?_, ?_, fun usable => ⟨up central usable, by rw [peripheral]; simp⟩⟩
      · simp [link, dials, peripheral, PeripheralLink.isServing]
      · simp [task, central.not_dialing]

/-- One slot and two peers to dial: the second waits. -/
theorem Worker.reach_cap_and_structure_one_slot :
    ∃ w : Worker, FiniteMap.count (fun p : Peer => p.central.isDialing) w.peers = 1 ∧ w.peers.size = 2 ∧
      FiniteMap.count (fun p : Peer => p.link.isSome) w.peers +
        FiniteMap.count (fun p : Peer => p.central.isDialing) w.peers ≤ 1 := by
  obtain ⟨w, reach, dialling⟩ := Machine.Reach.exists_of_follow (machine { role := .dialOnly, maxLinks := 1 })
    (fun w => FiniteMap.count (fun p : Peer => p.central.isDialing) w.peers == 1 && w.peers.size == 2) ⟨.on, 0, rfl⟩
    [.select 0 0 (.track ⟨"a"⟩ ⟨"a"⟩) 0, .pump 0 0, .select 0 0 (.track ⟨"b"⟩ ⟨"b"⟩) 0, .pump 0 0]
    (by decide +kernel)
  simp only [Bool.and_eq_true, beq_iff_eq] at dialling
  exact ⟨w, dialling.1, dialling.2, (reach_cap_and_structure reach).1⟩

end BleGatt
