import BleGatt.Connection.PeerLinkSteps

namespace BleGatt
open Std

namespace Peer

theorem candidate_iff {now : Instant} {p : Peer} : p.candidate now = true ↔
    p.link = none ∧ p.gaveUp = false ∧ p.dials = true ∧ p.central = .idle ∧ ∀ due ∈ p.retryAt, due ≤ now := by
  have idle : p.central.mayDial = true ↔ p.central = .idle := by
    cases p.central <;> simp [CentralLink.mayDial]
  cases retry : p.retryAt <;> simp [candidate, idle, retry, and_assoc]

theorem dialStarted_central {now : Instant} {p : Peer} {session : Session} {task : TaskId}
    (idle : p.central = .idle) : (p.dialStarted session task now).central = .dialing now session := by
  unfold dialStarted centralApply
  rw [idle]
  rfl

theorem candidate_dialStarted {now : Instant} {p : Peer} {session : Session} {task : TaskId}
    (ready : p.candidate now = true) : (p.dialStarted session task now).candidate now = false := by
  have dialing : (p.dialStarted session task now).central = _ := dialStarted_central (candidate_iff.mp ready).2.2.2.1
  simp [candidate, dialing, CentralLink.mayDial]

/-- What a failed dial leaves of an entry; the rest is the backoff. -/
theorem dialFailed_kept {cfg : PeerLinkConfig} {now : Instant} {p p' : Peer}
    (failed : p.dialFailed cfg now = some p') :
    p'.central = (p.central.apply .dialFailed now).1 ∧ p'.peripheral = p.peripheral ∧ p'.dials = p.dials ∧
      p'.link = p.link ∧ p'.dialTask = none := by
  unfold dialFailed applyBackoff at failed
  dsimp only at failed
  split at failed
  · cases Option.some.inj failed
    exact ⟨rfl, rfl, rfl, rfl, rfl⟩
  · split at failed
    · cases Option.some.inj failed
      exact ⟨rfl, rfl, rfl, rfl, rfl⟩
    · obtain ⟨due, _, eq⟩ := Option.bind_eq_some_iff.mp failed
      cases Option.some.inj eq
      exact ⟨rfl, rfl, rfl, rfl, rfl⟩

theorem giveUpWhenSpent_cases (cfg : PeerLinkConfig) (radio : RadioState) (now : Instant) (p : Peer) :
    p.giveUpWhenSpent cfg radio now = p ∨
      p.giveUpWhenSpent cfg radio now = { p with gaveUp := true, retryAt := none } ∧
        radio.usable ∧ p.link = none ∧ ∃ since, p.tryingSince = some since ∧ now - since ≥ p.deadline cfg := by
  unfold giveUpWhenSpent
  split
  · exact .inl rfl
  · rename_i running
    simp only [Bool.or_eq_true, Bool.not_eq_true', not_or, Bool.not_eq_false, Bool.not_eq_true,
      Option.isSome_eq_false_iff, Option.isNone_iff_eq_none] at running
    split
    · rename_i since trying
      split
      · rename_i spent
        exact .inr ⟨rfl, running.1.1, running.1.2, since, trying, spent⟩
      · exact .inl rfl
    · exact .inl rfl

theorem giveUpWhenSpent_spent {cfg : PeerLinkConfig} {radio : RadioState} {now since : Instant} {p : Peer}
    (usable : radio.usable) (unlinked : p.link = none) (running : p.tryingSince = some since)
    (spent : now - since ≥ p.deadline cfg) : (p.giveUpWhenSpent cfg radio now).gaveUp = true := by
  unfold giveUpWhenSpent
  cases marked : p.gaveUp <;> simp [usable, unlinked, running, spent, marked]

/-- What a tick does to an entry, the give-up clock apart. -/
theorem tick_kept (cfg : PeerLinkConfig) (radio : RadioState) (now : Instant) (p : Peer) :
    (p.tick cfg radio now).central = (p.central.apply .tick now).1 ∧
      (p.tick cfg radio now).peripheral = p.peripheral ∧ (p.tick cfg radio now).dials = p.dials ∧
      (p.tick cfg radio now).link = p.link ∧
      (p.tick cfg radio now).dialTask = if (p.tick cfg radio now).central.isDialing then p.dialTask else none := by
  unfold tick
  obtain same | ⟨spent, _⟩ := (p.centralApply .tick now).clearStaleDial.giveUpWhenSpent_cases cfg radio now
  · rw [same]
    unfold clearStaleDial
    split <;> simp_all [centralApply]
  · rw [spent]
    unfold clearStaleDial
    split <;> simp_all [centralApply]

theorem radioLost_dials (now : Instant) (p : Peer) : (p.radioLost now).dials = p.dials := by
  simp [radioLost, clearStaleDial, centralApply, peripheralApply, CentralLink.isDialing]

/-- An entry under a radio report: lost with the radio, back with it, or left. -/
theorem radioChanged_cases (before after : RadioState) (now : Instant) (p : Peer) :
    (before.usable = true ∧ after.usable = false) ∧ p.radioChanged before after now = p.radioLost now ∨
      ¬(before.usable = true ∧ after.usable = false) ∧
        (p.radioChanged before after now = p.radioBack now ∨ p.radioChanged before after now = p) := by
  unfold radioChanged
  cases before.usable <;> cases after.usable <;> simp

theorem radioChanged_link (before after : RadioState) (now : Instant) (p : Peer) :
    (p.radioChanged before after now).link = none ∨ (p.radioChanged before after now).link = p.link := by
  obtain ⟨_, eq⟩ | ⟨_, eq | eq⟩ := radioChanged_cases before after now p
  · exact .inl (by rw [eq]; rfl)
  · exact .inr (by rw [eq]; rfl)
  · exact .inr (by rw [eq])

theorem backoffEntry_eq_none {cfg : PeerLinkConfig} {attempts : Nat} :
    backoffEntry cfg attempts = none ↔ cfg.retryBudget.backoff = [] := by
  unfold backoffEntry
  rw [List.getElem?_eq_none_iff]
  constructor
  · intro past
    have bound := Nat.min_le_right (attempts - 1) (cfg.retryBudget.backoff.length - 1)
    exact List.length_eq_zero_iff.mp (by omega)
  · intro empty
    simp [empty]

/-- What `apply_backoff` decides after a failed dial. -/
theorem dialFailed_backoff {cfg : PeerLinkConfig} {now : Instant} {p p' : Peer}
    (failed : p.dialFailed cfg now = some p') :
    p'.tryingSince = some (p.tryingSince.getD now) ∧ p'.attempts = p.attempts ∧
      (now - p.tryingSince.getD now ≥ cfg.retryBudget.giveUpAfter ∧ p'.gaveUp = true ∧ p'.retryAt = none ∨
        now - p.tryingSince.getD now < cfg.retryBudget.giveUpAfter ∧
          (cfg.retryBudget.backoff = [] ∧ p'.gaveUp = true ∨
            ∃ backoff, backoffEntry cfg p.attempts = some backoff ∧ p'.gaveUp = p.gaveUp ∧
              p'.retryAt = some (now + backoff))) := by
  unfold dialFailed applyBackoff at failed
  dsimp only at failed
  split at failed
  · rename_i spent
    cases Option.some.inj failed
    exact ⟨rfl, rfl, .inl ⟨spent, rfl, rfl⟩⟩
  · rename_i left
    split at failed
    · rename_i empty
      cases Option.some.inj failed
      exact ⟨rfl, rfl, .inr ⟨Nat.lt_of_not_le left, .inl ⟨backoffEntry_eq_none.mp empty, rfl⟩⟩⟩
    · rename_i backoff entry
      obtain ⟨due, at_due, eq⟩ := Option.bind_eq_some_iff.mp failed
      cases Option.some.inj eq
      obtain ⟨_, rfl⟩ := Instant.plus_eq_some.mp at_due
      exact ⟨rfl, rfl, .inr ⟨Nat.lt_of_not_le left, .inr ⟨backoff, entry, rfl, rfl⟩⟩⟩

theorem clearStaleDial_kept (p : Peer) :
    p.clearStaleDial.tryingSince = p.tryingSince ∧ p.clearStaleDial.attempts = p.attempts ∧
      p.clearStaleDial.gaveUp = p.gaveUp ∧ p.clearStaleDial.retryAt = p.retryAt ∧
      p.clearStaleDial.link = p.link ∧ p.clearStaleDial.dials = p.dials := by
  unfold clearStaleDial
  split <;> simp

/-- What a tick does to the redial fields of an entry. -/
theorem tick_giveUp (cfg : PeerLinkConfig) (radio : RadioState) (now : Instant) (p : Peer) :
    (p.tick cfg radio now).tryingSince = p.tryingSince ∧ (p.tick cfg radio now).attempts = p.attempts ∧
      ((p.tick cfg radio now).gaveUp = p.gaveUp ∧ (p.tick cfg radio now).retryAt = p.retryAt ∨
        (p.tick cfg radio now).gaveUp = true ∧ radio.usable ∧ p.link = none ∧
          ∃ since, p.tryingSince = some since ∧ now - since ≥ p.deadline cfg) := by
  obtain ⟨trying, attempts, gaveUp, retryAt, link, dials⟩ := (p.centralApply .tick now).clearStaleDial_kept
  unfold tick
  obtain same | ⟨spent, usable, unlinked, since, at_since, expired⟩ :=
    (p.centralApply .tick now).clearStaleDial.giveUpWhenSpent_cases cfg radio now
  · rw [same]
    exact ⟨trying, attempts, .inl ⟨gaveUp, retryAt⟩⟩
  · rw [spent]
    refine ⟨trying, attempts, .inr ⟨rfl, usable, link.symm.trans unlinked, since, trying.symm.trans at_since, ?_⟩⟩
    unfold deadline at expired ⊢
    rwa [dials] at expired

theorem tick_gives_up {cfg : PeerLinkConfig} {radio : RadioState} {now since : Instant} {p : Peer}
    (usable : radio.usable) (unlinked : p.link = none) (running : p.tryingSince = some since)
    (spent : now - since ≥ p.deadline cfg) : (p.tick cfg radio now).gaveUp = true := by
  obtain ⟨trying, _, _, _, link, dials⟩ := (p.centralApply .tick now).clearStaleDial_kept
  refine giveUpWhenSpent_spent usable (link.trans unlinked) (trying.trans running) ?_
  unfold deadline at spent ⊢
  rwa [dials]

end Peer

/-- The step is a `Retry` of this peer. -/
def Label.retries (a : PeerAddress) : Label → Bool
  | .select _ _ (.retry peer) _ => peer == a
  | _ => false

theorem Label.not_retries {a : PeerAddress} {label : Label}
    (other : ∀ top base now, label ≠ .select top base (.retry a) now) : label.retries a = false := by
  unfold Label.retries
  split
  · rename_i top base peer now
    refine beq_eq_false_iff_ne.mpr ?_
    rintro rfl
    exact other top base now rfl
  · rfl

namespace Links

/-- Of what consumers were told, what concerns one peer. -/
def edgesFor (peer : PeerAddress) (edges : List (PeerAddress × Edge)) : List Edge :=
  (edges.filter fun entry => decide (entry.1 = peer)).map Prod.snd

/-- The edges a consumer has been told of one peer, oldest first. -/
def edgesOf (peer : PeerAddress) (l : Links) : List Edge := edgesFor peer l.edges

section Edges
variable {peer : PeerAddress}

theorem edgesFor_append (edges sent : List (PeerAddress × Edge)) :
    edgesFor peer (edges ++ sent) = edgesFor peer edges ++ edgesFor peer sent := by
  simp only [edgesFor, List.filter_append, List.map_append]

theorem edgesFor_map_self (sent : List Edge) : edgesFor peer (sent.map (Prod.mk peer)) = sent := by
  induction sent with
  | nil => rfl
  | cons edge sent ih => simpa [edgesFor] using ih

theorem edgesFor_map_other {a : PeerAddress} (apart : peer ≠ a) (sent : List Edge) :
    edgesFor peer (sent.map (Prod.mk a)) = [] := by
  have other : a ≠ peer := fun same => apart same.symm
  simp [edgesFor, other]

/-- The `Down`s of a radio loss: one for each peer that holds a link. -/
theorem edgesFor_downs (peers : PeerMap Peer) :
    edgesFor peer ((peers.toList.filter fun entry => entry.2.link.isSome).map fun entry => (entry.1, Edge.down)) =
      if peers[peer]?.any fun p => p.link.isSome then [.down] else [] := by
  have swap : (peers.toList.filter fun entry => entry.2.link.isSome).filter
        (fun entry : PeerAddress × Peer => decide (entry.1 = peer)) =
      (peers[peer]?.map (Prod.mk peer)).toList.filter fun entry => entry.2.link.isSome := by
    rw [← FiniteMap.filter_key_toList, List.filter_filter, List.filter_filter]
    simp only [Bool.and_comm]
  unfold edgesFor
  rw [List.filter_map, List.map_map]
  change List.map (fun _ => Edge.down) (List.filter (fun entry : PeerAddress × Peer => decide (entry.1 = peer)) _) = _
  rw [swap]
  cases peers[peer]? with
  | none => rfl
  | some p => cases linked : p.link.isSome <;> simp [linked]

end Edges

/-- What a round of `pump_dials` leaves alone. -/
structure Frame (l l' : Links) : Prop where
  radio : l'.radio = l.radio
  nextLinkGen : l'.nextLinkGen = l.nextLinkGen
  connRx : l'.connRx = l.connRx
  pumps : l'.pumps = l.pumps
  linkgoneRx : l'.linkgoneRx = l.linkgoneRx
  edges : l'.edges = l.edges

namespace Dialling

variable {cfg : PeerLinkConfig} {now : Instant} {elapsed : Duration} {l l' : Links} {peers : List PeerAddress}

theorem frame (dialling : Dialling cfg now elapsed l peers l') : Frame l l' := by
  induction dialling with
  | start => exact ⟨rfl, rfl, rfl, rfl, rfl, rfl⟩
  | next _ _ _ _ _ ih => exact ⟨ih.radio, ih.nextLinkGen, ih.connRx, ih.pumps, ih.linkgoneRx, ih.edges⟩

theorem nextTask (dialling : Dialling cfg now elapsed l peers l') :
    l'.nextTask = l.nextTask + peers.length := by
  induction dialling with
  | start => rfl
  | next _ _ _ _ _ ih =>
    change _ + 1 = _
    rw [ih, List.length_append, List.length_singleton, Nat.add_assoc]

theorem committed_le (dialling : Dialling cfg now elapsed l peers l')
    (before : Worker.committed l.peers ≤ cfg.maxLinks) : Worker.committed l'.peers ≤ cfg.maxLinks := by
  induction dialling with
  | start => exact before
  | next _ _ _ room _ _ => exact (Worker.committed_dialStarted_le _ _).trans room

theorem usable (dialling : Dialling cfg now elapsed l peers l') (some_dialled : peers ≠ []) :
    l.radio.usable := by
  cases dialling with
  | start => exact absurd rfl some_dialled
  | next previous _ _ _ on => exact previous.frame.radio ▸ on

/-- What one round does to each entry: it is left, or it is dialled once. -/
theorem entry (dialling : Dialling cfg now elapsed l peers l') (a : PeerAddress) :
    (a ∉ peers ∧ l'.peers[a]? = l.peers[a]?) ∨
    ∃ p index, peers[index]? = some a ∧ l.peers[a]? = some p ∧ p.candidate now ∧
      l'.peers[a]? = some (p.dialStarted (mint elapsed index) (l.nextTask + index) now) := by
  induction dialling with
  | start => exact .inl ⟨List.not_mem_nil, rfl⟩
  | @next peers mid peer p previous known candidate room usable ih =>
    by_cases same : a = peer
    · subst same
      obtain ⟨_, before⟩ | ⟨q, index, _, _, ready, now_dialling⟩ := ih
      · refine .inr ⟨p, peers.length, by simp, before ▸ known, candidate, ?_⟩
        change (mid.peers.insert a _)[a]? = _
        rw [FiniteMap.getElem?_insert, if_pos rfl, previous.nextTask]
      · -- a dialled peer is not a candidate any more
        cases known.symm.trans now_dialling
        rw [Peer.candidate_dialStarted ready] at candidate
        exact absurd candidate Bool.false_ne_true
    · have kept : (mid.dial peer p (mint elapsed peers.length) now).peers[a]? = mid.peers[a]? := by
        change (mid.peers.insert peer _)[a]? = _
        rw [FiniteMap.getElem?_insert, if_neg same]
      rw [kept]
      obtain ⟨absent, before⟩ | ⟨q, index, at_index, before, ready, now_dialling⟩ := ih
      · refine .inl ⟨?_, before⟩
        simp [absent, same]
      · refine .inr ⟨q, index, ?_, before, ready, now_dialling⟩
        rw [List.getElem?_append_left (List.getElem?_eq_some_iff.mp at_index).1, at_index]

end Dialling

/-- What a step can do to the entry of `peer`, with the edges it sends for it.
`after` is the radio after the step. -/
inductive PeerStep (cfg : PeerLinkConfig) (l : Links) (peer : PeerAddress) :
    Label → RadioState → Option Peer → List Edge → Option Peer → Prop
  | kept {label e} : (∀ top base now, label = .select top base (.retry peer) now → e = none) →
      PeerStep cfg l peer label l.radio e [] e
  | tracked {top base peerId now} :
      PeerStep cfg l peer (.select top base (.track peer peerId) now) l.radio none []
        (some (.track (cfg.dials peerId) now))
  | untracked {top base now p} :
      PeerStep cfg l peer (.select top base (.untrack peer) now) l.radio (some p)
        (if p.link.isSome then [.down] else []) none
  | retried {top base now p} :
      PeerStep cfg l peer (.select top base (.retry peer) now) l.radio (some p) [] (some (p.retry now))
  | radio {top base status probe caps now after e} :
      PeerStep cfg l peer (.select top base (.driverEvent (.radioChanged status) probe caps) now) after e
        (if l.radio.usable && !after.usable && e.any fun p => p.link.isSome then [.down] else [])
        (e.map (Peer.radioChanged l.radio after now))
  | lateLoss {top base session probe caps now p} : p.link = none →
      PeerStep cfg l peer (.select top base (.driverEvent (.disconnected peer .central session) probe caps) now)
        l.radio (some p) [] (some (p.centralApply .linkDropped now))
  | dialUnlinked {top base now message rest p channel} : l.connRx = message :: rest → message.peer = peer →
      p.central.session = some message.session → message.result = .ok channel →
      (p.dialSucceeded now).central.isConnected = false →
      PeerStep cfg l peer (.select top base .dialResult now) l.radio (some p) [] (some (p.dialSucceeded now))
  | dialLinked {top base now message rest p channel} : l.connRx = message :: rest → message.peer = peer →
      p.central.session = some message.session → message.result = .ok channel →
      (p.dialSucceeded now).central.isConnected →
      PeerStep cfg l peer (.select top base .dialResult now) l.radio (some p) [.up]
        (some ((p.dialSucceeded now).dialLinked ⟨l.nextLinkGen + 1, l.nextTask⟩))
  | dialFailed {top base now message rest p p' err} : l.connRx = message :: rest → message.peer = peer →
      p.central.session = some message.session → message.result = .error err → p.dialFailed cfg now = some p' →
      PeerStep cfg l peer (.select top base .dialResult now) l.radio (some p) [] (some p')
  | accepted {top base channel elapsed now p} : channel.peer = peer → p.dials = false → p.link = none →
      l.radio.usable →
      PeerStep cfg l peer (.select top base (.inbound channel elapsed) now) l.radio (some p) [.up]
        (some (p.accepted (UInt64.ofNat elapsed) ⟨l.nextLinkGen + 1, l.nextTask⟩ now))
  | linkGone {top base now message rest p link} : l.linkgoneRx = message :: rest → message.peer = peer →
      p.link = some link → link.gen = message.gen →
      PeerStep cfg l peer (.select top base .linkGone now) l.radio (some p) [.down] (some (p.linkGone now))
  | ticked {top base now p} :
      PeerStep cfg l peer (.select top base .tick now) l.radio (some p) [] (some (p.tick cfg l.radio now))
  | dialled {now elapsed index task p} : (l.dialled cfg now)[index]? = some peer → p.candidate now →
      l.radio.usable →
      PeerStep cfg l peer (.pump now elapsed) l.radio (some p) []
        (some (p.dialStarted (mint elapsed index) task now))

/-- A step that touches one entry only is the step of that entry, and leaves
every other. -/
theorem peerStep_update {cfg : PeerLinkConfig} {l l' : Links} {label : Label}
    (a : PeerAddress) (sent : List Edge) (peer : PeerAddress)
    (radio : l'.radio = l.radio) (told : l'.edges = l.edges ++ sent.map (Prod.mk a))
    (others : ∀ b, b ≠ a → l'.peers[b]? = l.peers[b]?)
    (retries : ∀ b top base now, label = .select top base (.retry b) now → b = a)
    (here : PeerStep cfg l a label l.radio l.peers[a]? sent l'.peers[a]?) :
    ∃ sent, PeerStep cfg l peer label l'.radio l.peers[peer]? sent l'.peers[peer]? ∧
      l'.edgesOf peer = l.edgesOf peer ++ sent := by
  rw [radio]
  unfold edgesOf
  rw [told, edgesFor_append]
  by_cases same : peer = a
  · subst same
    exact ⟨sent, here, by rw [edgesFor_map_self]⟩
  · refine ⟨[], ?_, by rw [edgesFor_map_other same]⟩
    rw [others peer same]
    exact .kept fun top base now retried => absurd (retries _ _ _ _ retried) same

theorem peerStep_radio {cfg : PeerLinkConfig} {l : Links} {peer : PeerAddress} {top base now : Instant}
    {status probe : RadioStatus} {caps : CapabilityReport} (radio : RadioState) :
    PeerStep cfg l peer (.select top base (.driverEvent (.radioChanged status) probe caps) now) radio l.peers[peer]?
      (if l.radio.usable && !radio.usable && l.peers[peer]?.any fun p => p.link.isSome then [.down] else [])
      (l.peers.map fun _ p => p.radioChanged l.radio radio now)[peer]? := by
  rw [ExtTreeMap.getElem?_map]
  exact .radio

/-- A step changes each entry in one of the ways of `PeerStep`. -/
theorem Change.peerStep {cfg : PeerLinkConfig} {l l' : Links} {label : Label} (change : Change cfg l label l')
    (peer : PeerAddress) :
    ∃ sent, PeerStep cfg l peer label l'.radio l.peers[peer]? sent l'.peers[peer]? ∧
      l'.edgesOf peer = l.edgesOf peer ++ sent := by
  have elsewhere : ∀ {a : PeerAddress} {p : Peer} (b : PeerAddress), b ≠ a →
      (l.peers.insert a p)[b]? = l.peers[b]? := fun b apart => by rw [FiniteMap.getElem?_insert, if_neg apart]
  have here : ∀ {a : PeerAddress} {p : Peer}, (l.peers.insert a p)[a]? = some p := by
    intro a p
    rw [FiniteMap.getElem?_insert, if_pos rfl]
  have unchanged : ∀ l' : Links, l'.radio = l.radio → l'.edges = l.edges → l'.peers = l.peers →
      (∀ top base now, label ≠ .select top base (.retry peer) now) →
      ∃ sent, PeerStep cfg l peer label l'.radio l.peers[peer]? sent l'.peers[peer]? ∧
        l'.edgesOf peer = l.edgesOf peer ++ sent := by
    intro l' radio edges peers other
    rw [radio, peers, edgesOf, edges]
    exact ⟨[], .kept fun top base now retried => absurd retried (other top base now), (List.append_nil _).symm⟩
  cases change with
  | quiet quiet => exact unchanged l rfl rfl rfl (by rintro _ _ _ rfl; exact quiet)
  | track absent =>
    refine peerStep_update _ [] peer rfl (List.append_nil _).symm elsewhere ?_ ?_
    · rintro _ _ _ _ ⟨⟩
    · rw [here, FiniteMap.not_mem_iff.mp absent]
      exact .tracked
  | @untrack _ _ a _ p known =>
    refine peerStep_update a (if p.link.isSome then [.down] else []) peer rfl ?_ ?_ ?_ ?_
    · cases p.link <;> rfl
    · intro b apart
      rw [FiniteMap.getElem?_erase, if_neg apart]
    · rintro _ _ _ _ ⟨⟩
    · rw [FiniteMap.getElem?_erase, if_pos rfl, known]
      exact .untracked
  | @retry _ _ a now =>
    cases known : l.peers[a]? with
    | none =>
      refine peerStep_update a [] peer rfl (List.append_nil _).symm ?_ ?_ ?_
      · intro b apart
        rw [FiniteMap.getElem?_modify, if_neg apart]
      · rintro _ _ _ _ ⟨⟩; rfl
      · rw [FiniteMap.getElem?_modify, if_pos rfl, known]
        exact .kept fun _ _ _ _ => rfl
    | some p =>
      refine peerStep_update a [] peer rfl (List.append_nil _).symm ?_ ?_ ?_
      · intro b apart
        rw [FiniteMap.getElem?_modify, if_neg apart]
      · rintro _ _ _ _ ⟨⟩; rfl
      · rw [FiniteMap.getElem?_modify, if_pos rfl, known]
        exact .retried
  | @radioKept _ _ _ _ _ now radio kept =>
    have silent : (l.radio.usable && !radio.usable) = false := by
      cases on : l.radio.usable
      · rfl
      · rw [kept on]; rfl
    refine ⟨_, peerStep_radio radio, ?_⟩
    rw [silent, Bool.false_and, if_neg Bool.false_ne_true, List.append_nil]
    rfl
  | @radioLost _ _ _ _ _ now radio usable lost =>
    refine ⟨_, peerStep_radio radio, ?_⟩
    unfold edgesOf
    rw [edgesFor_append, edgesFor_downs, usable, lost]
    rfl
  | @lateLoss _ _ a _ _ _ now =>
    have others : ∀ b, b ≠ a → (l.peers.modify a fun p =>
        if p.link.isNone then p.centralApply .linkDropped now else p)[b]? = l.peers[b]? := by
      intro b apart
      rw [FiniteMap.getElem?_modify, if_neg apart]
    refine peerStep_update a [] peer rfl (List.append_nil _).symm others ?_ ?_
    · rintro _ _ _ _ ⟨⟩
    · rw [FiniteMap.getElem?_modify, if_pos rfl]
      cases known : l.peers[a]? with
      | none => exact .kept fun _ _ _ _ => rfl
      | some p =>
        cases unlinked : p.link with
        | none => simpa [unlinked] using PeerStep.lateLoss unlinked
        | some link => simpa [unlinked] using PeerStep.kept (by simp)
  | dialStale queued stale => exact unchanged _ rfl rfl rfl (by rintro _ _ _ ⟨⟩)
  | dialUnlinked queued known current result unlinked =>
    refine peerStep_update _ [] peer rfl (List.append_nil _).symm elsewhere ?_ ?_
    · rintro _ _ _ _ ⟨⟩
    · rw [here, known]
      exact .dialUnlinked queued rfl current result unlinked
  | dialLinked queued known current result linked =>
    refine peerStep_update _ [.up] peer rfl rfl elsewhere ?_ ?_
    · rintro _ _ _ _ ⟨⟩
    · rw [known]
      change PeerStep _ _ _ _ _ _ _ (l.peers.insert _ _)[_]?
      rw [here]
      exact .dialLinked queued rfl current result linked
  | dialFailed queued known current result failed =>
    refine peerStep_update _ [] peer rfl (List.append_nil _).symm elsewhere ?_ ?_
    · rintro _ _ _ _ ⟨⟩
    · rw [here, known]
      exact .dialFailed queued rfl current result failed
  | accepted known accepts unlinked cap usable =>
    refine peerStep_update _ [.up] peer rfl rfl elsewhere ?_ ?_
    · rintro _ _ _ _ ⟨⟩
    · rw [known]
      change PeerStep _ _ _ _ _ _ _ (l.peers.insert _ _)[_]?
      rw [here]
      exact .accepted rfl accepts unlinked usable
  | linkGoneStale queued stale => exact unchanged _ rfl rfl rfl (by rintro _ _ _ ⟨⟩)
  | linkGone queued known linked current =>
    refine peerStep_update _ [.down] peer rfl rfl elsewhere ?_ ?_
    · rintro _ _ _ _ ⟨⟩
    · rw [here, known]
      exact .linkGone queued rfl linked current
  | tick =>
    refine ⟨[], ?_, (List.append_nil _).symm⟩
    rw [ExtTreeMap.getElem?_map]
    cases l.peers[peer]? with
    | none => exact .kept fun _ _ _ _ => rfl
    | some p => exact .ticked
  | pump dialling =>
    have frame := dialling.frame
    rw [frame.radio, edgesOf, frame.edges]
    refine ⟨[], ?_, (List.append_nil _).symm⟩
    obtain ⟨_, left⟩ | ⟨p, index, at_index, known, ready, dialled⟩ := dialling.entry peer
    · rw [left]
      exact .kept (by rintro _ _ _ ⟨⟩)
    · rw [known, dialled]
      exact .dialled at_index ready (dialling.usable (List.ne_nil_of_mem (List.mem_of_getElem? at_index)))
  | dialFinished running => exact unchanged _ rfl rfl rfl (by rintro _ _ _ ⟨⟩)
  | pumpEnded running => exact unchanged _ rfl rfl rfl (by rintro _ _ _ ⟨⟩)

end Links

/-- What no step of an entry breaks holds of every entry ever reached. -/
theorem Worker.reach_entry {cfg : PeerLinkConfig} {P : RadioState → Peer → Prop}
    (keep : ∀ {l : Links} {a : PeerAddress} {label after e sent e'},
      Links.PeerStep cfg l a label after e sent e' → (∀ p ∈ e, P l.radio p) → ∀ p ∈ e', P after p)
    {w : Worker} (reach : (machine cfg).Reach w) {a : PeerAddress} {p : Peer} (known : w.peers[a]? = some p) :
    P w.radio p := by
  induction reach generalizing a p with
  | start first =>
    obtain ⟨initial, clock, rfl⟩ := first
    simp [Worker.start] at known
  | next _ step ih =>
    obtain ⟨sent, entry, _⟩ := (step_change step).peerStep a
    exact keep entry (fun q before => ih before) p known

end BleGatt
