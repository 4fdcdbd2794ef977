import BleGatt.Connection.LinkCap

namespace BleGatt
open Std

theorem project_ne_untracked (p : Peer) (radio : RadioState) (overCap : Bool) :
    project p radio overCap ≠ .untracked := by
  unfold project
  split_ifs <;> simp

theorem project_waiting {p : Peer} {radio : RadioState} {overCap : Bool}
    (shown : project p radio overCap = .waiting) : p.link = none ∧ p.gaveUp = false ∧ p.retryAt.isSome := by
  unfold project at shown
  split_ifs at shown with off linked spent backing
  exact ⟨by simpa using linked, by simpa using spent, backing⟩

theorem project_connecting {p : Peer} {radio : RadioState} (usable : radio.usable) (unlinked : p.link = none)
    (alive : p.gaveUp = false) (ready : p.retryAt = none) : project p radio false = .connecting := by
  simp [project, usable, unlinked, alive, ready]

section Shape
variable {radio : RadioState} {p : Peer}

theorem Peer.Shape.unlinked_of_dialing (shape : p.Shape radio) (dialing : p.central.isDialing) : p.link = none := by
  cases shape with
  | resting _ _ link _ => exact link
  | dialing _ _ _ link _ => exact link
  | connected _ central _ _ _ => simp [central, CentralLink.isDialing] at dialing
  | serving _ central _ _ _ => simp [central.not_dialing] at dialing

theorem Peer.Shape.task_of_idle (shape : p.Shape radio) (idle : p.central.isDialing = false) : p.dialTask = none := by
  cases shape with
  | resting _ _ _ task => exact task
  | dialing _ central _ _ _ => simp [central, CentralLink.isDialing] at idle
  | connected _ _ _ _ task => exact task
  | serving _ _ _ _ task => exact task

end Shape

/-- Only `Track` and `Untrack` change which peers have an entry. -/
theorem Links.PeerStep.isSome {cfg : PeerLinkConfig} {l : Links} {a : PeerAddress} {label : Label}
    {after : RadioState} {e e' : Option Peer} {sent : List Edge} (step : PeerStep cfg l a label after e sent e')
    (untracked : ∀ top base peer peerId now, label ≠ .select top base (.track peer peerId) now)
    (kept : ∀ top base peer now, label ≠ .select top base (.untrack peer) now) : e'.isSome = e.isSome := by
  cases step with
  | tracked => exact absurd rfl (untracked _ _ _ _ _)
  | untracked => exact absurd rfl (kept _ _ _ _)
  | radio => cases e <;> rfl
  | _ => rfl

namespace Worker

section Publish
variable (cfg : PeerLinkConfig) (w : Worker)

theorem status_publishStatus (peer : PeerAddress) {status : PeerStatus} (tracked : status ≠ .untracked)
    (a : PeerAddress) : (w.publishStatus peer status).status[a]? = if a = peer then some status else w.status[a]? := by
  have inserted : (w.publishStatus peer status).status = w.status.insert peer status := by
    unfold publishStatus send
    cases status
    case untracked => exact absurd rfl tracked
    all_goals (dsimp only; split <;> rfl)
  rw [inserted, FiniteMap.getElem?_insert]

theorem status_unpublish (peer a : PeerAddress) :
    (w.publishStatus peer .untracked).status[a]? = if a = peer then none else w.status[a]? := by
  have erased : (w.publishStatus peer .untracked).status = w.status.erase peer := by
    unfold publishStatus send
    dsimp only
    split <;> rfl
  rw [erased, FiniteMap.getElem?_erase]

@[simp] theorem radio_publishStatus (peer : PeerAddress) (status : PeerStatus) :
    (w.publishStatus peer status).radio = w.radio := by
  have same := congrArg Links.radio (links_publishStatus peer status w)
  exact same

@[simp] theorem pumpDue_publishStatus (peer : PeerAddress) (status : PeerStatus) :
    (w.publishStatus peer status).pumpDue = w.pumpDue := by
  unfold publishStatus send
  split <;> (dsimp only; split) <;> rfl

/-- The status of a peer once the entries of a list are published, of which
only `p` can be its own. -/
theorem status_publishAll {a : PeerAddress} {p : Peer} (entries : List (PeerAddress × Peer)) (overCap : Bool)
    (own : ∀ q, (a, q) ∈ entries → q = p) :
    (entries.foldl (fun w entry => w.publishStatus entry.1 (project entry.2 w.radio overCap)) w).status[a]? =
      if (a, p) ∈ entries then some (project p w.radio overCap) else w.status[a]? := by
  induction entries generalizing w with
  | nil => simp
  | cons entry entries ih =>
    obtain ⟨peer, q⟩ := entry
    rw [List.foldl_cons, ih _ fun q member => own q (List.mem_cons_of_mem _ member), radio_publishStatus,
      status_publishStatus w peer (project_ne_untracked q w.radio overCap)]
    by_cases here : a = peer
    · subst here
      obtain rfl := own q List.mem_cons_self
      simp
    · simp [here]

/-- What the end of a pass publishes. -/
theorem status_refreshAllStatus (a : PeerAddress) :
    (w.refreshAllStatus cfg).status[a]? = match w.peers[a]? with
      | some p => some (project p w.radio (committed w.peers ≥ cfg.maxLinks))
      | none => w.status[a]? := by
  have listed : ∀ q, (a, q) ∈ w.peers.toList ↔ w.peers[a]? = some q := fun q =>
    ExtTreeMap.mem_toList_iff_getElem?_eq_some
  unfold refreshAllStatus
  cases known : w.peers[a]? with
  | none =>
    rw [status_publishAll (p := Peer.track false 0)]
    · simp [listed, known]
    · intro q member
      simp [listed, known] at member
  | some p =>
    rw [status_publishAll (p := p)]
    · simp [listed, known]
    · intro q member
      rw [listed, known] at member
      exact (Option.some.inj member).symm

end Publish

/-- The status map has an entry for exactly the tracked peers. -/
def StatusOfTracked (w : Worker) : Prop := ∀ a : PeerAddress, w.status[a]?.isSome = w.peers[a]?.isSome

section Tracked
variable {cfg : PeerLinkConfig} {w w' : Worker}

theorem StatusOfTracked.onTrack (exact_ : StatusOfTracked w) (peer : PeerAddress) (peerId : LinkId) (now : Instant) :
    StatusOfTracked (w.onTrack cfg peer peerId now) := by
  let v : Worker :=
    { w with peers := if peer ∈ w.peers then w.peers else w.peers.insert peer (.track (cfg.dials peerId) now) }
  have here : ∃ p, v.peers[peer]? = some p := by
    by_cases known : peer ∈ w.peers
    · rw [ExtTreeMap.mem_iff_isSome_getElem?, Option.isSome_iff_exists] at known
      simp only [v]
      split
      · exact known
      · exact ⟨_, ExtTreeMap.getElem?_insert_self⟩
    · exact ⟨.track (cfg.dials peerId) now, by simp [v, known]⟩
  have elsewhere : ∀ a, a ≠ peer → v.peers[a]? = w.peers[a]? := by
    intro a apart
    simp only [v]
    split
    · rfl
    · rw [FiniteMap.getElem?_insert, if_neg apart]
  obtain ⟨p, here⟩ := here
  have published : w.onTrack cfg peer peerId now =
      v.publishStatus peer (project p v.radio (committed v.peers ≥ cfg.maxLinks)) := by
    change v.refreshStatus cfg peer = _
    unfold refreshStatus
    rw [here]
  intro a
  have peers : (w.onTrack cfg peer peerId now).peers = v.peers := by
    rw [published]
    exact congrArg Links.peers (links_publishStatus peer _ v)
  rw [peers, published, status_publishStatus v peer (project_ne_untracked _ _ _)]
  split
  · rename_i same
    rw [same, here]; rfl
  · rename_i apart
    rw [elsewhere a apart]
    exact exact_ a

theorem StatusOfTracked.onUntrack (exact_ : StatusOfTracked w) (peer : PeerAddress) :
    StatusOfTracked (w.onUntrack peer) := by
  have removed : ∀ v : Worker, (v.publishStatus peer .untracked).peers = v.peers := fun v =>
    congrArg Links.peers (links_publishStatus peer .untracked v)
  intro a
  unfold Worker.onUntrack
  rw [status_unpublish, removed]
  cases known : w.peers[peer]? with
  | none =>
    split
    · rename_i same
      rw [same, known]; rfl
    · exact exact_ a
  | some p =>
    have erased : ∀ v : Worker, v.peers = w.peers.erase peer → v.status = w.status →
        (if a = peer then none else v.status[a]?).isSome = v.peers[a]?.isSome := by
      intro v peers status
      rw [peers, status, FiniteMap.getElem?_erase]
      split
      · rfl
      · exact exact_ a
    refine erased _ ?_ ?_ <;> (dsimp only; split <;> rfl)

/-- What a handler of a pass leaves alone: the status map and the end of the
pass, which publishes. -/
structure Unpublished (w w' : Worker) : Prop where
  status : w'.status = w.status
  pumpDue : w'.pumpDue = w.pumpDue

theorem onDriverEvent_unpublished (event : GattEvent) (probe : RadioStatus) (caps : CapabilityReport)
    (now : Instant) (w : Worker) : Unpublished w (w.onDriverEvent cfg event probe caps now) := by
  have radio : ∀ status, Unpublished w (w.onRadioChanged status now) := by
    intro status
    unfold onRadioChanged send
    dsimp only
    split <;> split <;> exact ⟨rfl, rfl⟩
  unfold onDriverEvent
  dsimp only
  split <;> split <;> first | exact ⟨rfl, rfl⟩ | exact ⟨(radio _).status, (radio _).pumpDue⟩

/-- A handler other than those of `Track` and `Untrack` publishes nothing. -/
theorem handle_unpublished {input : Input} {now : Instant} (handled : w.handle cfg input now = some w')
    (untracked : ∀ peer peerId, input ≠ .track peer peerId) (kept : ∀ peer, input ≠ .untrack peer) :
    Unpublished w w' := by
  cases input with
  | track peer peerId => exact absurd rfl (untracked peer peerId)
  | untrack peer => exact absurd rfl (kept peer)
  | retry peer => cases Option.some.inj handled; exact ⟨rfl, rfl⟩
  | discover => cases Option.some.inj handled; exact ⟨rfl, rfl⟩
  | driverEvent event probe caps =>
    cases Option.some.inj handled
    exact onDriverEvent_unpublished event probe caps now w
  | dialResult =>
    dsimp only [handle] at handled
    split at handled
    · simp at handled
    · unfold onDialResult at handled
      split at handled
      · cases Option.some.inj handled; exact ⟨rfl, rfl⟩
      · split at handled
        · cases Option.some.inj handled; exact ⟨rfl, rfl⟩
        · split at handled
          · dsimp only at handled
            split at handled <;> (cases Option.some.inj handled; exact ⟨rfl, rfl⟩)
          · obtain ⟨_, _, eq⟩ := Option.bind_eq_some_iff.mp handled
            cases Option.some.inj eq; exact ⟨rfl, rfl⟩
  | inbound channel elapsed =>
    cases Option.some.inj handled
    unfold onInbound
    dsimp only
    split
    · exact ⟨rfl, rfl⟩
    · split <;> exact ⟨rfl, rfl⟩
  | linkGone =>
    dsimp only [handle] at handled
    split at handled
    · simp at handled
    · cases Option.some.inj handled
      unfold onLinkGone
      split
      · exact ⟨rfl, rfl⟩
      · split
        · exact ⟨rfl, rfl⟩
        · split <;> exact ⟨rfl, rfl⟩
  | tick => cases Option.some.inj handled; exact ⟨rfl, rfl⟩
  | serveEnded =>
    dsimp only [handle] at handled
    obtain ⟨_, _, restarted⟩ := Option.bind_eq_some_iff.mp handled
    split at restarted
    · cases Option.some.inj restarted; exact ⟨rfl, rfl⟩
    · simp at restarted

theorem handle_pumpDue {input : Input} {now : Instant} (handled : w.handle cfg input now = some w') :
    w'.pumpDue = w.pumpDue := by
  cases input with
  | track peer peerId =>
    cases Option.some.inj handled
    unfold Worker.onTrack refreshStatus
    dsimp only
    split
    · exact pumpDue_publishStatus _ _ _
    · rfl
  | untrack peer =>
    cases Option.some.inj handled
    unfold Worker.onUntrack
    rw [pumpDue_publishStatus]
    split
    · rfl
    · dsimp only; split <;> rfl
  | _ => exact (handle_unpublished handled (by simp) (by simp)).pumpDue

/-- A branch of `select!` runs on the state the top of the loop left. -/
theorem select_handled {top base now : Instant} {input : Input}
    (step : step cfg w (.select top base input now) = some w') :
    ∃ v : Worker, v.peers = w.peers ∧ v.status = w.status ∧ v.pumpDue = true ∧ v.handle cfg input now = some w' := by
  have restarted : (w.restartServe cfg top).peers = w.peers ∧ (w.restartServe cfg top).status = w.status := by
    unfold restartServe
    split <;> exact ⟨rfl, rfl⟩
  cases step_cases step with
  | select _ _ handled =>
    exact ⟨{ w.restartServe cfg top with clock := now, pumpDue := true }, restarted.1, restarted.2, rfl, handled⟩

theorem pumpDials_unpublished (now : Instant) (elapsed : Duration) (w : Worker) :
    Unpublished w (w.pumpDials cfg now elapsed) := by
  have candidate : ∀ (s : Pumping) (peer : PeerAddress),
      Unpublished s.worker (dialCandidate now s peer).worker := by
    intro s peer
    unfold dialCandidate
    split
    · exact ⟨rfl, rfl⟩
    · split
      · exact ⟨rfl, rfl⟩
      · split <;> exact ⟨rfl, rfl⟩
  have fold : ∀ (keys : List PeerAddress) (s : Pumping),
      Unpublished s.worker (keys.foldl (dialCandidate now) s).worker := by
    intro keys
    induction keys with
    | nil => intro s; exact ⟨rfl, rfl⟩
    | cons key keys ih =>
      intro s
      have later := ih (dialCandidate now s key)
      exact ⟨later.status.trans (candidate s key).status, later.pumpDue.trans (candidate s key).pumpDue⟩
  unfold pumpDials
  split
  · exact ⟨rfl, rfl⟩
  · exact fold _ ⟨w, _, _⟩

/-- The end of a pass publishes the state `pump_dials` leaves. -/
theorem pump_published {now : Instant} {elapsed : Duration} (step : step cfg w (.pump now elapsed) = some w') :
    ∃ v : Worker, Links.Dialling cfg now elapsed w.links (w.links.dialled cfg now) v.links ∧
      Unpublished { w with pumpDue := false } v ∧ w' = v.refreshAllStatus cfg := by
  have dialling := pumpDials_dialling cfg now elapsed { w with clock := now + elapsed, pumpDue := false }
  have unpublished : Unpublished { w with clock := now + elapsed, pumpDue := false }
      ({ w with clock := now + elapsed, pumpDue := false }.pumpDials cfg now elapsed) :=
    pumpDials_unpublished now elapsed _
  cases step_cases step
  exact ⟨_, dialling, ⟨unpublished.status, unpublished.pumpDue⟩, rfl⟩

/-- The status map follows the tracked peers at every step. -/
theorem StatusOfTracked.step {label : Label} (exact_ : StatusOfTracked w) (step : step cfg w label = some w') :
    StatusOfTracked w' := by
  have same_peers : (∀ top base peer peerId now, label ≠ .select top base (.track peer peerId) now) →
      (∀ top base peer now, label ≠ .select top base (.untrack peer) now) →
      ∀ a : PeerAddress, w'.peers[a]?.isSome = w.peers[a]?.isSome := by
    intro untracked kept a
    obtain ⟨sent, entry, _⟩ := (step_change step).peerStep a
    exact entry.isSome untracked kept
  cases label with
  | select top base input now =>
    obtain ⟨v, peers, status, _, handled⟩ := select_handled step
    have exact_v : StatusOfTracked v := fun a => by rw [peers, status]; exact exact_ a
    cases input with
    | track peer peerId =>
      cases Option.some.inj handled
      exact exact_v.onTrack peer peerId now
    | untrack peer =>
      cases Option.some.inj handled
      exact exact_v.onUntrack peer
    | _ =>
      have unpublished := handle_unpublished handled (by simp) (by simp)
      intro a
      rw [unpublished.status, status, same_peers (by simp) (by simp)]
      exact exact_ a
  | pump now elapsed =>
    obtain ⟨v, _, unpublished, rfl⟩ := pump_published step
    intro a
    have tracked := (exact_ a).trans (same_peers (by simp) (by simp) a).symm
    have peers : (v.refreshAllStatus cfg).peers = v.peers := congrArg Links.peers (links_refreshAllStatus cfg v)
    rw [peers] at tracked ⊢
    rw [status_refreshAllStatus]
    cases known : v.peers[a]? with
    | none =>
      rw [known] at tracked
      rw [unpublished.status]
      exact tracked
    | some p => rfl
  | dialFinished task result =>
    intro a
    rw [same_peers (by simp) (by simp)]
    cases step_cases step
    exact exact_ a
  | pumpEnded task =>
    intro a
    rw [same_peers (by simp) (by simp)]
    cases step_cases step
    exact exact_ a

theorem reach_statusOfTracked (reach : (machine cfg).Reach w) : StatusOfTracked w := by
  refine reach.invariant ?_ ?_
  · rintro _ ⟨initial, clock, rfl⟩ a
    simp [start]
  · intro v label v' _ exact_ step
    exact exact_.step step

end Tracked

/-- What the statuses published at the end of a pass, which read the clock at
`read`, say of the dials. -/
structure StatusHonest (read : Instant) (w : Worker) : Prop where
  /-- Only a peer that is not being dialled, and whose backoff is not over,
  waits. -/
  waiting : ∀ (a : PeerAddress) (p : Peer), w.peers[a]? = some p → w.status[a]? = some .waiting →
    p.central.isDialing = false ∧ p.dialTask = none ∧ ∃ at_, p.retryAt = some at_ ∧ read < at_
  connecting : ∀ (a : PeerAddress) (p : Peer), w.peers[a]? = some p → p.central.isDialing → p.gaveUp = false →
    w.status[a]? = some .connecting

end Worker

/-- A peer without a link that has not given up backs off only until a later
instant than `now`, and is not being dialled meanwhile. -/
def Peer.waitsAhead (now : Instant) (p : Peer) : Bool :=
  p.link.isSome || p.gaveUp || p.retryAt.all fun at_ => decide (now < at_) && !p.central.isDialing

namespace Worker

/-- The candidates of this pass leave a slot free. -/
def slotSpare (cfg : PeerLinkConfig) (now : Instant) (w : Worker) : Bool :=
  decide (committed w.peers + (w.peers.keys.filter (w.links.ready now)).length < cfg.maxLinks)

/-- No peer that has not given up is being dialled, nor can be in this pass. -/
def undialled (cfg : PeerLinkConfig) (now : Instant) (w : Worker) : Bool :=
  w.peers.toList.all fun entry => (!entry.2.central.isDialing || entry.2.gaveUp) &&
    (!entry.2.candidate now || decide (cfg.maxLinks ≤ committed w.peers))

/-- The states whose pass ends with honest statuses. -/
def statusAhead (cfg : PeerLinkConfig) (now : Instant) (w : Worker) : Bool :=
  !w.radio.usable ||
    (w.peers.toList.all fun entry => entry.2.waitsAhead now) && (w.slotSpare cfg now || w.undialled cfg now)

section Honest
variable {cfg : PeerLinkConfig} {w w' : Worker} {now : Instant}

theorem committed_dialling {elapsed : Duration} {l l' : Links} {peers : List PeerAddress}
    (dialling : Links.Dialling cfg now elapsed l peers l') : committed l'.peers ≤ committed l.peers + peers.length := by
  induction dialling with
  | start => exact Nat.le_refl _
  | @next peers mid peer p _ _ _ _ _ ih =>
    calc committed (mid.dial peer p _ now).peers
        ≤ committed mid.peers + 1 := committed_dialStarted_le _ _
      _ ≤ committed l.peers + peers.length + 1 := Nat.add_le_add_right ih 1
      _ = committed l.peers + (peers ++ [peer]).length := by rw [List.length_append, List.length_singleton, Nat.add_assoc]

/-- An entry after the dials of the pass: as it was, or a candidate that is
now being dialled. -/
theorem entry_ahead {elapsed : Duration} {v : Worker} {a : PeerAddress} {p : Peer}
    (dialling : Links.Dialling cfg now elapsed w.links (w.links.dialled cfg now) v.links)
    (known : v.peers[a]? = some p) : w.peers[a]? = some p ∨
      ∃ q session task, w.peers[a]? = some q ∧ q.candidate now ∧ a ∈ w.links.dialled cfg now ∧
        p = q.dialStarted session task now := by
  obtain ⟨_, kept⟩ | ⟨q, index, at_index, before, ready, started⟩ := dialling.entry a
  · exact .inl (kept.symm.trans known)
  · exact .inr ⟨q, Links.mint elapsed index, w.links.nextTask + index, before, ready,
      List.mem_of_getElem? at_index, Option.some.inj (known.symm.trans started)⟩

theorem waitsAhead_of_listed {a : PeerAddress} {p : Peer}
    (ahead : w.peers.toList.all fun entry => entry.2.waitsAhead now) (known : w.peers[a]? = some p)
    (unlinked : p.link = none) (alive : p.gaveUp = false) :
    ∀ at_ ∈ p.retryAt, now < at_ ∧ p.central.isDialing = false := by
  have listed := List.all_eq_true.mp ahead (a, p) (ExtTreeMap.mem_toList_iff_getElem?_eq_some.mpr known)
  simp only [Peer.waitsAhead, unlinked, alive, Option.isSome_none, Bool.false_or] at listed
  intro at_ member
  rw [member] at listed
  simpa using listed

/-- A peer that is dialled, or being dialled and alive, still leaves a slot
free at the end of the pass. -/
theorem spare_ahead {elapsed : Duration} {v : Worker} {a : PeerAddress} {p : Peer}
    (usable : w.radio.usable) (spare : w.slotSpare cfg now || w.undialled cfg now)
    (dialling : Links.Dialling cfg now elapsed w.links (w.links.dialled cfg now) v.links)
    (known : w.peers[a]? = some p)
    (busy : p.central.isDialing = true ∧ p.gaveUp = false ∨ p.candidate now = true ∧ a ∈ w.links.dialled cfg now) :
    committed v.peers < cfg.maxLinks := by
  have counted : (w.links.dialled cfg now).length ≤ (w.peers.keys.filter (w.links.ready now)).length := by
    unfold Links.dialled
    rw [if_pos (show w.links.radio.usable = true from usable)]
    exact List.length_take_le' _ _
  rcases Bool.or_eq_true_iff.mp spare with free | idle
  · have room := of_decide_eq_true free
    have grown : committed v.peers ≤ committed w.peers + _ := committed_dialling dialling
    omega
  · have listed := List.all_eq_true.mp idle (a, p) (ExtTreeMap.mem_toList_iff_getElem?_eq_some.mpr known)
    simp only [Bool.and_eq_true, Bool.or_eq_true, Bool.not_eq_true', decide_eq_true_eq] at listed
    obtain ⟨undialled, full⟩ := listed
    rcases busy with ⟨dialing, alive⟩ | ⟨ready, member⟩
    · simp [dialing, alive] at undialled
    · -- a full link table dials nobody
      rcases full with stopped | full
      · simp [ready] at stopped
      · have none_dialled : w.links.dialled cfg now = [] := by
          unfold Links.dialled
          have budget : cfg.maxLinks - committed w.links.peers = 0 := Nat.sub_eq_zero_of_le full
          rw [budget, List.take_zero, ite_self]
        simp [none_dialled] at member

theorem pump_honest {elapsed : Duration} (reach : (machine cfg).Reach w)
    (step : step cfg w (.pump now elapsed) = some w') (ahead : w.statusAhead cfg now)
    (usable : w'.radio.usable) : StatusHonest now w' := by
  obtain ⟨v, dialling, _, rfl⟩ := pump_published step
  have peers : (v.refreshAllStatus cfg).peers = v.peers := congrArg Links.peers (links_refreshAllStatus cfg v)
  have radio : (v.refreshAllStatus cfg).radio = v.radio := congrArg Links.radio (links_refreshAllStatus cfg v)
  rw [radio] at usable
  have on : w.radio.usable := by
    have kept : v.radio = w.radio := dialling.frame.radio
    rwa [kept] at usable
  simp only [statusAhead, on, Bool.not_true, Bool.false_or, Bool.and_eq_true] at ahead
  obtain ⟨waits, spare⟩ := ahead
  -- neither a backoff that is over nor a dial under one
  have backing : ∀ (a : PeerAddress) (p : Peer), v.peers[a]? = some p → p.link = none → p.gaveUp = false →
      ∀ at_ ∈ p.retryAt, now < at_ ∧ p.central.isDialing = false := by
    intro a p known unlinked alive at_ member
    rcases entry_ahead dialling known with before | ⟨q, session, task, before, ready, _, rfl⟩
    · exact waitsAhead_of_listed waits before unlinked alive at_ member
    · obtain ⟨_, alive, _, _, due⟩ := Peer.candidate_iff.mp ready
      obtain ⟨later, _⟩ := waitsAhead_of_listed waits before unlinked alive at_ member
      exact absurd (due at_ member) (Nat.not_le_of_lt later)
  have ended : (machine cfg).step w (.pump now elapsed) = some (v.refreshAllStatus cfg) := step
  have shape : ∀ {a : PeerAddress} {p : Peer}, v.peers[a]? = some p → p.Shape (v.refreshAllStatus cfg).radio :=
    fun known => reach_shape (reach.next ended) (peers.symm ▸ known)
  constructor
  · intro a p known shown
    rw [peers] at known
    rw [status_refreshAllStatus, known, Option.some.injEq] at shown
    obtain ⟨unlinked, alive, set⟩ := project_waiting shown
    obtain ⟨at_, retryAt⟩ := Option.isSome_iff_exists.mp set
    obtain ⟨later, idle⟩ := backing a p known unlinked alive at_ retryAt
    exact ⟨idle, (shape known).task_of_idle idle, at_, retryAt, later⟩
  · intro a p known dialing alive
    rw [peers] at known
    have unlinked := (shape known).unlinked_of_dialing dialing
    have unset : p.retryAt = none := by
      cases set : p.retryAt with
      | none => rfl
      | some at_ =>
        have idle := (backing a p known unlinked alive at_ set).2
        rw [dialing] at idle
        exact absurd idle Bool.noConfusion
    have spared : committed v.peers < cfg.maxLinks := by
      rcases entry_ahead dialling known with before | ⟨q, session, task, before, ready, dialled, rfl⟩
      · exact spare_ahead on spare dialling before (.inl ⟨dialing, alive⟩)
      · exact spare_ahead on spare dialling before (.inr ⟨ready, dialled⟩)
    rw [status_refreshAllStatus, known]
    have under : decide (committed v.peers ≥ cfg.maxLinks) = false := decide_eq_false (Nat.not_le_of_lt spared)
    simp only [under, project_connecting usable unlinked alive unset]

/-- A pass that ends with honest statuses, or any other step. -/
def HonestPass (cfg : PeerLinkConfig) (w : Worker) : Label → Prop
  | .pump now _ => w.statusAhead cfg now = true
  | _ => True

instance (cfg : PeerLinkConfig) (w : Worker) : (label : Label) → Decidable (HonestPass cfg w label)
  | .pump now _ => inferInstanceAs (Decidable (w.statusAhead cfg now = true))
  | .select _ _ _ _ => isTrue trivial
  | .dialFinished _ _ => isTrue trivial
  | .pumpEnded _ => isTrue trivial

/-- When the last pass read the clock for its dials. -/
def noteRead (read : Instant) : Label → Instant
  | .pump now _ => now
  | _ => read

theorem StatusHonest.of_same {read : Instant} (honest : StatusHonest read w) (peers : w'.peers = w.peers)
    (status : w'.status = w.status) : StatusHonest read w' := by
  constructor
  · rw [peers, status]
    exact honest.waiting
  · rw [peers, status]
    exact honest.connecting

theorem run_statusHonest {read : Instant}
    (run : (machine cfg).Run (fun _ w label => HonestPass cfg w label) (fun read _ label _ => noteRead read label)
      0 read w) (between : w.pumpDue = false) (usable : w.radio.usable) : StatusHonest read w := by
  refine run.invariant (P := fun read w => w.pumpDue = false → w.radio.usable → StatusHonest read w) ?_ ?_ between usable
  · rintro _ ⟨initial, clock, rfl⟩ _ _
    constructor <;> (intro a p known; simp [start] at known)
  · intro read w label w' run honest ok step ended usable
    have stepped : Stepped cfg w label w' := step_cases step
    cases label with
    | select top base input now =>
      obtain ⟨v, _, _, due, handled⟩ := select_handled step
      rw [handle_pumpDue handled, due] at ended
      exact absurd ended Bool.noConfusion
    | pump now elapsed => exact pump_honest run.reach step ok usable
    | dialFinished task result =>
      cases stepped
      exact (honest ended usable).of_same rfl rfl
    | pumpEnded task =>
      cases stepped
      exact (honest ended usable).of_same rfl rfl

end Honest

/-- One command of `idle_until_shutdown`, the loop of a worker without a
driver. It has no peers: it tracks what it publishes. -/
def idleStep (w : Worker) : Input → Option Worker
  | .track peer _ => some (w.publishStatus peer .unavailable)
  | .untrack _ => some w
  | .retry _ => some w
  | .discover => some w
  | _ => none

/-- The idle loop, from where `run` enters it. -/
def idleMachine (cfg : PeerLinkConfig) : Machine Worker Input where
  Init w := ∃ clock, w = start cfg .unsupported clock
  step := idleStep

/-- The peers whose last `Track` was not followed by an `Untrack`. -/
def noteTracked (tracked : List PeerAddress) : Input → List PeerAddress
  | .track peer _ => peer :: tracked
  | .untrack peer => tracked.filter (· ≠ peer)
  | _ => tracked

/-- No tracked peer is untracked. -/
def UntracksNone (tracked : List PeerAddress) : Input → Prop
  | .untrack peer => peer ∉ tracked
  | _ => True

instance (tracked : List PeerAddress) : (input : Input) → Decidable (UntracksNone tracked input)
  | .untrack peer => inferInstanceAs (Decidable (peer ∉ tracked))
  | .track _ _ | .retry _ | .discover | .driverEvent _ _ _ | .dialResult | .inbound _ _ | .linkGone | .tick
  | .serveEnded => isTrue trivial

theorem run_idle_status {cfg : PeerLinkConfig} {tracked : List PeerAddress} {w : Worker}
    (run : (idleMachine cfg).Run (fun tracked _ input => UntracksNone tracked input)
      (fun tracked _ input _ => noteTracked tracked input) [] tracked w) (a : PeerAddress) :
    a ∈ w.status ↔ a ∈ tracked := by
  refine run.invariant (P := fun tracked w => ∀ a, a ∈ w.status ↔ a ∈ tracked) ?_ ?_ a
  · rintro _ ⟨clock, rfl⟩ a
    simp [start]
  · intro tracked w input w' _ same ok step a
    cases input with
    | track peer peerId =>
      cases Option.some.inj step
      rw [ExtTreeMap.mem_iff_isSome_getElem?, status_publishStatus w peer (by decide)]
      by_cases here : a = peer
      · simp [here, noteTracked]
      · rw [if_neg here, ← ExtTreeMap.mem_iff_isSome_getElem?, same a]
        simp [noteTracked, here]
    | untrack peer =>
      cases Option.some.inj step
      have kept : noteTracked tracked (.untrack peer) = tracked := by
        refine List.filter_eq_self.mpr fun b member => ?_
        simpa using fun here : b = peer => ok (here ▸ member)
      rw [kept]
      exact same a
    | retry peer => cases Option.some.inj step; exact same a
    | discover => cases Option.some.inj step; exact same a
    | driverEvent | dialResult | inbound | linkGone | tick | serveEnded => simp [idleMachine, idleStep] at step

/-- The runs of the worker that meet `Ok` show honest statuses at the end of
each pass. -/
def HonestPasses (cfg : PeerLinkConfig) (Ok : Worker → Label → Prop) : Prop :=
  ∀ read w, (machine cfg).Run (fun _ w label => Ok w label) (fun read _ label _ => noteRead read label) 0 read w →
    w.pumpDue = false → w.radio.usable → StatusHonest read w

/-- The runs of the idle loop that meet `Ok` show the tracked peers. -/
def IdleExact (cfg : PeerLinkConfig) (Ok : List PeerAddress → Input → Prop) : Prop :=
  ∀ tracked w, (idleMachine cfg).Run (fun tracked _ input => Ok tracked input)
    (fun tracked _ input _ => noteTracked tracked input) [] tracked w → ∀ a, a ∈ w.status ↔ a ∈ tracked

/-- The statuses of both loops. The running worker's are of exactly the
tracked peers in every reachable state. -/
theorem status_honest (cfg : PeerLinkConfig) :
    (∀ w, (machine cfg).Reach w → ∀ a : PeerAddress, a ∈ w.status ↔ a ∈ w.peers) ∧
      HonestPasses cfg (HonestPass cfg) ∧ IdleExact cfg UntracksNone := by
  refine ⟨fun w reach a => ?_, fun read w run between usable => run_statusHonest run between usable,
    fun tracked w run a => run_idle_status run a⟩
  rw [ExtTreeMap.mem_iff_isSome_getElem?, ExtTreeMap.mem_iff_isSome_getElem?, reach_statusOfTracked reach a]

/-- The first dial of a peer fails, and it is dialled again at `later`. -/
def secondDial (later : Instant) : List Label :=
  [.select 0 0 (.track ⟨"a"⟩ ⟨"a"⟩) 0, .pump 0 0, .dialFinished 0 (.error (.connectFailed "a" "no answer")),
    .select 0 0 .dialResult 0, .pump 0 0, .select later later .tick later, .pump later 0]

/-- A peer that is dialled again is shown waiting, and without a driver no
peer is ever untracked. -/
theorem not_status_honest : (¬ ∀ cfg, HonestPasses cfg fun _ _ => True) ∧ ¬ ∀ cfg, IdleExact cfg fun _ _ => True := by
  constructor
  · intro claim
    obtain ⟨read, w, run, shown⟩ := Machine.Run.exists_of_follow (machine { role := .dialOnly }) (fun _ _ _ => True)
      (fun read _ label _ => noteRead read label) 0
      (fun _ w => !w.pumpDue && w.radio.usable && decide (w.status[(⟨"a"⟩ : PeerAddress)]? = some .waiting) &&
        w.peers[(⟨"a"⟩ : PeerAddress)]?.any fun p => p.central.isDialing) ⟨.on, 0, rfl⟩
      (secondDial (Duration.ofSecs 1)) (by decide +kernel)
    simp only [Bool.and_eq_true, Bool.not_eq_true', decide_eq_true_eq, Option.any_eq_true] at shown
    obtain ⟨⟨⟨between, usable⟩, waiting⟩, p, known, dialing⟩ := shown
    have idle := ((claim { role := .dialOnly } read w run between usable).waiting _ p known waiting).1
    rw [dialing] at idle
    exact Bool.noConfusion idle
  · intro claim
    obtain ⟨tracked, w, run, shown⟩ := Machine.Run.exists_of_follow (idleMachine { role := .dialOnly })
      (fun _ _ _ => True) (fun tracked _ input _ => noteTracked tracked input) []
      (fun tracked w => w.status.contains (⟨"a"⟩ : PeerAddress) && decide ((⟨"a"⟩ : PeerAddress) ∉ tracked)) ⟨0, rfl⟩
      [.track ⟨"a"⟩ ⟨"a"⟩, .untrack ⟨"a"⟩] (by decide +kernel)
    simp only [Bool.and_eq_true, decide_eq_true_eq] at shown
    exact shown.2 ((claim { role := .dialOnly } tracked w run ⟨"a"⟩).mp (ExtTreeMap.mem_iff_contains.mpr shown.1))

/-- A first dial, with slots left, shows connecting. -/
theorem status_honest_first_dial : ∃ (read : Instant) (w : Worker),
    (w.peers[(⟨"a"⟩ : PeerAddress)]?.any fun p => p.central.isDialing) = true ∧ StatusHonest read w ∧
      ((⟨"a"⟩ : PeerAddress) ∈ w.status ↔ (⟨"a"⟩ : PeerAddress) ∈ w.peers) := by
  obtain ⟨read, w, run, shown⟩ := Machine.Run.exists_of_follow (machine { role := .dialOnly })
    (fun _ w label => HonestPass { role := .dialOnly } w label) (fun read _ label _ => noteRead read label) 0
    (fun _ w => !w.pumpDue && w.radio.usable &&
      w.peers[(⟨"a"⟩ : PeerAddress)]?.any fun p => p.central.isDialing) ⟨.on, 0, rfl⟩
    ((secondDial (Duration.ofSecs 1)).take 2) (by decide +kernel)
  simp only [Bool.and_eq_true, Bool.not_eq_true'] at shown
  exact ⟨read, w, shown.2, (status_honest _).2.1 read w run shown.1.1 shown.1.2,
    (status_honest { role := .dialOnly }).1 w run.reach ⟨"a"⟩⟩

end Worker

end BleGatt
