import BleGatt.Connection.PeerLink

namespace BleGatt
open Std

/-- What a consumer learns of a link: that it is up, or that it ended. -/
inductive Edge
  | up
  | down
  deriving DecidableEq, Repr

def PeerLinkEvent.edge : PeerLinkEvent → Option (PeerAddress × Edge)
  | up peer _ _ => some (peer, .up)
  | down peer => some (peer, .down)
  | _ => none

section Edge
variable (peer : PeerAddress)

@[simp] theorem PeerLinkEvent.edge_up (len : Nat) (task : TaskId) : (up peer len task).edge = some (peer, .up) := rfl

@[simp] theorem PeerLinkEvent.edge_down : (down peer).edge = some (peer, .down) := rfl

@[simp] theorem PeerLinkEvent.edge_status (status : PeerStatus) : (PeerLinkEvent.status peer status).edge = none := rfl

@[simp] theorem PeerLinkEvent.edge_radioChanged (status : RadioStatus) : (radioChanged status).edge = none := rfl

end Edge

/-- What `on_driver_event` does to one entry when the radio goes from
`before` to `after`. -/
def Peer.radioChanged (before after : RadioState) (now : Instant) (p : Peer) : Peer :=
  let p := if before.usable && !after.usable then p.radioLost now else p
  if after.usable then p.radioBack now else p

/-- The part of the worker its links depend on: all of it but the published
statuses, the inbound server, the clock and the place in the loop. -/
structure Links where
  peers : PeerMap Peer
  radio : RadioState
  nextLinkGen : Nat
  nextTask : TaskId
  dialTasks : ExtTreeMap TaskId DialTask
  connRx : List DialResult
  pumps : ExtTreeMap TaskId Pump
  linkgoneRx : List LinkGone
  edges : List (PeerAddress × Edge)

namespace Links

/-- `start_pump` for `peer` with the entry and the `Up` that come with it. -/
def install (peer : PeerAddress) (entry : LiveLink → Peer) (l : Links) : Links :=
  let link : LiveLink := { gen := l.nextLinkGen + 1, pump := l.nextTask }
  { l with
    peers := l.peers.insert peer (entry link)
    nextLinkGen := link.gen
    nextTask := l.nextTask + 1
    pumps := l.pumps.insert link.pump { peer := peer, gen := link.gen }
    edges := l.edges ++ [(peer, .up)] }

/-- The dial of one candidate by `pump_dials`. -/
def dial (peer : PeerAddress) (p : Peer) (session : Session) (now : Instant) (l : Links) : Links :=
  { l with
    peers := l.peers.insert peer (p.dialStarted session l.nextTask now)
    dialTasks := l.dialTasks.insert l.nextTask { peer := peer, session := session }
    nextTask := l.nextTask + 1 }

/-- The peer is tracked and a candidate for a dial. -/
def ready (now : Instant) (l : Links) (peer : PeerAddress) : Bool := l.peers[peer]?.any (Peer.candidate now)

/-- The peers one `pump_dials` dials, in order: the first candidates there is
a slot for. -/
def dialled (cfg : PeerLinkConfig) (now : Instant) (l : Links) : List PeerAddress :=
  if l.radio.usable then (l.peers.keys.filter (l.ready now)).take (cfg.maxLinks - Worker.committed l.peers)
  else []

/-- The session of the peer that one `pump_dials` dials after `index` others. -/
def mint (elapsed : Duration) (index : Nat) : Session := UInt64.ofNat (elapsed + index + 1)

theorem mint_zero (elapsed : Duration) : UInt64.ofNat elapsed + 1 = mint elapsed 0 := by
  rw [mint, Nat.add_zero, UInt64.ofNat_add]; rfl

theorem mint_succ (elapsed : Duration) (index : Nat) : mint elapsed index + 1 = mint elapsed (index + 1) := by
  rw [mint, mint, ← Nat.add_assoc, UInt64.ofNat_add (elapsed + index + 1) 1]; rfl

/-- One `pump_dials` once it has dialled the peers of the list. -/
inductive Dialling (cfg : PeerLinkConfig) (now : Instant) (elapsed : Duration) (l : Links) :
    List PeerAddress → Links → Prop
  | start : Dialling cfg now elapsed l [] l
  | next {peers l' peer p} : Dialling cfg now elapsed l peers l' → l'.peers[peer]? = some p →
      p.candidate now → Worker.committed l'.peers < cfg.maxLinks → l'.radio.usable →
      Dialling cfg now elapsed l (peers ++ [peer]) (l'.dial peer p (mint elapsed peers.length) now)

/-- The steps that leave every peer, link, task and queue as it is. -/
def Quiet (l : Links) : Label → Prop
  | .select _ _ (.track peer _) _ => peer ∈ l.peers
  | .select _ _ (.untrack peer) _ => peer ∉ l.peers
  | .select _ _ .discover _ => True
  | .select _ _ (.driverEvent (.radioChanged _) _ _) _ => False
  | .select _ _ (.driverEvent (.disconnected _ .central _) _ _) _ => False
  | .select _ _ (.driverEvent _ _ _) _ => True
  | .select _ _ (.inbound _ _) _ => True
  | .select _ _ .serveEnded _ => True
  | _ => False

/-- Everything a step of the worker can do to its links. The guards are those
of the source, so that a later proof never unfolds a handler again. -/
inductive Change (cfg : PeerLinkConfig) (l : Links) : Label → Links → Prop
  | quiet {label} : Quiet l label → Change cfg l label l
  | track {top base peer peerId now} : peer ∉ l.peers →
      Change cfg l (.select top base (.track peer peerId) now)
        { l with peers := l.peers.insert peer (.track (cfg.dials peerId) now) }
  | untrack {top base peer now p} : l.peers[peer]? = some p →
      Change cfg l (.select top base (.untrack peer) now)
        { l with
          peers := l.peers.erase peer
          pumps := l.pumps.filter fun task _ => !(p.link.map LiveLink.pump).toList.contains task
          dialTasks := l.dialTasks.filter fun task _ => !p.dialTask.toList.contains task
          edges := l.edges ++ if p.link.isSome then [(peer, .down)] else [] }
  | retry {top base peer now} :
      Change cfg l (.select top base (.retry peer) now) { l with peers := l.peers.modify peer (.retry now) }
  | radioKept {top base status probe caps now radio} : (l.radio.usable → radio.usable) →
      Change cfg l (.select top base (.driverEvent (.radioChanged status) probe caps) now)
        { l with
          radio := radio
          peers := l.peers.map fun _ p => p.radioChanged l.radio radio now }
  | radioLost {top base status probe caps now radio} : l.radio.usable → radio.usable = false →
      Change cfg l (.select top base (.driverEvent (.radioChanged status) probe caps) now)
        { l with
          radio := radio
          peers := l.peers.map fun _ p => p.radioChanged l.radio radio now
          dialTasks := l.dialTasks.filter fun task _ =>
            !(l.peers.toList.filterMap fun entry => entry.2.dialTask).contains task
          pumps := l.pumps.filter fun task _ =>
            !(l.peers.toList.filterMap fun entry => entry.2.link.map LiveLink.pump).contains task
          edges := l.edges ++
            (l.peers.toList.filter fun entry => entry.2.link.isSome).map fun entry => (entry.1, .down) }
  | lateLoss {top base peer session probe caps now} :
      Change cfg l (.select top base (.driverEvent (.disconnected peer .central session) probe caps) now)
        { l with peers := l.peers.modify peer fun p =>
            if p.link.isNone then p.centralApply .linkDropped now else p }
  /-- A result whose session is not the peer's current one is discarded. -/
  | dialStale {top base now message rest} : l.connRx = message :: rest →
      (∀ p, l.peers[message.peer]? = some p → p.central.session ≠ some message.session) →
      Change cfg l (.select top base .dialResult now) { l with connRx := rest }
  | dialUnlinked {top base now message rest p channel} : l.connRx = message :: rest →
      l.peers[message.peer]? = some p → p.central.session = some message.session →
      message.result = .ok channel → (p.dialSucceeded now).central.isConnected = false →
      Change cfg l (.select top base .dialResult now)
        { l with connRx := rest, peers := l.peers.insert message.peer (p.dialSucceeded now) }
  | dialLinked {top base now message rest p channel} : l.connRx = message :: rest →
      l.peers[message.peer]? = some p → p.central.session = some message.session →
      message.result = .ok channel → (p.dialSucceeded now).central.isConnected →
      Change cfg l (.select top base .dialResult now)
        ({ l with connRx := rest }.install message.peer (p.dialSucceeded now).dialLinked)
  | dialFailed {top base now message rest p p' err} : l.connRx = message :: rest →
      l.peers[message.peer]? = some p → p.central.session = some message.session →
      message.result = .error err → p.dialFailed cfg now = some p' →
      Change cfg l (.select top base .dialResult now)
        { l with connRx := rest, peers := l.peers.insert message.peer p' }
  | accepted {top base channel elapsed now p} : l.peers[channel.peer]? = some p →
      p.dials = false → p.link = none → Worker.committed l.peers < cfg.maxLinks → l.radio.usable →
      Change cfg l (.select top base (.inbound channel elapsed) now)
        (l.install channel.peer fun link => p.accepted (UInt64.ofNat elapsed) link now)
  /-- A `linkgone` of a pump the peer no longer holds is ignored. -/
  | linkGoneStale {top base now message rest} : l.linkgoneRx = message :: rest →
      (∀ p link, l.peers[message.peer]? = some p → p.link = some link → link.gen ≠ message.gen) →
      Change cfg l (.select top base .linkGone now) { l with linkgoneRx := rest }
  | linkGone {top base now message rest p link} : l.linkgoneRx = message :: rest →
      l.peers[message.peer]? = some p → p.link = some link → link.gen = message.gen →
      Change cfg l (.select top base .linkGone now)
        { l with
          linkgoneRx := rest
          peers := l.peers.insert message.peer (p.linkGone now)
          edges := l.edges ++ [(message.peer, .down)] }
  | tick {top base now} :
      Change cfg l (.select top base .tick now)
        { l with
          peers := l.peers.map fun _ p => p.tick cfg l.radio now
          dialTasks := l.dialTasks.filter fun task _ =>
            !((l.peers.map fun _ p => p.centralApply .tick now).toList.filterMap
              fun entry => entry.2.staleDial).contains task }
  | pump {now elapsed l'} : Dialling cfg now elapsed l (l.dialled cfg now) l' →
      Change cfg l (.pump now elapsed) l'
  | dialFinished {task result dial} : l.dialTasks[task]? = some dial →
      Change cfg l (.dialFinished task result)
        { l with
          dialTasks := l.dialTasks.erase task
          connRx := l.connRx ++ [⟨task, dial.peer, dial.session, result⟩] }
  | pumpEnded {task pump} : l.pumps[task]? = some pump →
      Change cfg l (.pumpEnded task)
        { l with
          pumps := l.pumps.erase task
          linkgoneRx := l.linkgoneRx ++ [⟨task, pump.peer, pump.gen⟩] }

end Links

namespace Worker

def links (w : Worker) : Links where
  peers := w.peers
  radio := w.radio
  nextLinkGen := w.nextLinkGen
  nextTask := w.nextTask
  dialTasks := w.dialTasks
  connRx := w.connRx
  pumps := w.pumps
  linkgoneRx := w.linkgoneRx
  edges := w.events.filterMap PeerLinkEvent.edge

@[simp] theorem links_send_status (peer : PeerAddress) (status : PeerStatus) (w : Worker) :
    (w.send (.status peer status)).links = w.links := by
  simp [send, links]

@[simp] theorem links_publishStatus (peer : PeerAddress) (status : PeerStatus) (w : Worker) :
    (w.publishStatus peer status).links = w.links := by
  unfold publishStatus
  split <;> (dsimp only; split)
  · exact links_send_status _ _ _
  · rfl
  · exact links_send_status _ _ _
  · rfl

@[simp] theorem links_refreshStatus (cfg : PeerLinkConfig) (peer : PeerAddress) (w : Worker) :
    (w.refreshStatus cfg peer).links = w.links := by
  unfold refreshStatus
  split
  · exact links_publishStatus _ _ _
  · rfl

@[simp] theorem links_refreshAllStatus (cfg : PeerLinkConfig) (w : Worker) :
    (w.refreshAllStatus cfg).links = w.links := by
  have fold : ∀ (entries : List (PeerAddress × Peer)) (overCap : Bool) (v : Worker),
      (entries.foldl (fun w entry => w.publishStatus entry.1 (project entry.2 w.radio overCap)) v).links =
        v.links := by
    intro entries overCap
    induction entries with
    | nil => intro v; rfl
    | cons entry entries ih => intro v; rw [List.foldl_cons, ih, links_publishStatus]
  exact fold _ _ w

@[simp] theorem links_restartServe (cfg : PeerLinkConfig) (now : Instant) (w : Worker) :
    (w.restartServe cfg now).links = w.links := by
  unfold restartServe
  split <;> rfl

theorem onTrack_change (cfg : PeerLinkConfig) {top base now : Instant} {peer : PeerAddress} {peerId : LinkId}
    (w : Worker) :
    Links.Change cfg w.links (.select top base (.track peer peerId) now)
      (w.onTrack cfg peer peerId now).links := by
  unfold onTrack
  rw [links_refreshStatus]
  by_cases known : peer ∈ w.peers
  · rw [if_pos known]
    exact .quiet known
  · rw [if_neg known]
    exact .track known

theorem onUntrack_change (cfg : PeerLinkConfig) {top base now : Instant} {peer : PeerAddress} (w : Worker) :
    Links.Change cfg w.links (.select top base (.untrack peer) now) (w.onUntrack peer).links := by
  unfold onUntrack
  rw [links_publishStatus]
  split
  · rename_i gone
    exact .quiet (FiniteMap.not_mem_iff.mpr gone)
  · rename_i p known
    have change : Links.Change cfg w.links (.select top base (.untrack peer) now) _ := .untrack known
    dsimp only
    split <;> rename_i linked
    · rw [if_pos linked] at change
      simpa [links, send, tearDown, abortDials, abortPumps] using change
    · rw [if_neg linked, List.append_nil] at change
      exact change

theorem onRadioChanged_change (cfg : PeerLinkConfig) {top base now : Instant} {reported status : RadioStatus}
    {probe : RadioStatus} {caps : CapabilityReport} (w : Worker) :
    Links.Change cfg w.links (.select top base (.driverEvent (.radioChanged reported) probe caps) now)
      (w.onRadioChanged status now).links := by
  unfold onRadioChanged
  have effects := RadioState.apply_effects w.radio (radioEvent status) now
  generalize w.radio.apply (radioEvent status) now = moved at effects ⊢
  obtain ⟨radio, sent⟩ := moved
  by_cases kept : w.radio.usable = true → radio.usable = true
  · have change : Links.Change cfg w.links
        (.select top base (.driverEvent (.radioChanged reported) probe caps) now) _ := .radioKept kept
    obtain rfl : sent = [] := effects.mpr kept
    clear effects
    by_cases usable : radio.usable = true
    · simpa [links, send, List.filterMap_cons, Peer.radioChanged, usable] using change
    · have before : w.radio.usable = false := by
        by_contra on
        exact usable (kept (by simpa using on))
      simpa [links, send, List.filterMap_cons, Peer.radioChanged, usable, before] using change
  · have lost : w.radio.usable = true ∧ radio.usable = false := by simpa using kept
    have change : Links.Change cfg w.links
        (.select top base (.driverEvent (.radioChanged reported) probe caps) now) _ := .radioLost lost.1 lost.2
    have some_effect : sent.isEmpty = false := by
      cases sent with
      | nil => exact absurd (effects.mp rfl) kept
      | cons _ _ => rfl
    simpa [links, send, List.filterMap_cons, Peer.radioChanged, lost.1, lost.2, some_effect, invalidateAllLinks,
      abortDials, abortPumps, List.filterMap_map, Function.comp_def] using change

theorem onDriverEvent_change (cfg : PeerLinkConfig) {top base now : Instant} (event : GattEvent)
    (probe : RadioStatus) (caps : CapabilityReport) (w : Worker) :
    Links.Change cfg w.links (.select top base (.driverEvent event probe caps) now)
      (w.onDriverEvent cfg event probe caps now).links := by
  have stopServing : ∀ (c : Prop) [Decidable c] (v : Worker),
      (if c then { v with serving := false, serveRetryAt := none } else v).links = v.links := by
    intro c _ v
    split <;> rfl
  unfold onDriverEvent
  dsimp only
  rw [stopServing]
  cases event with
  | radioChanged status => cases status <;> exact onRadioChanged_change cfg w
  | disconnected peer role session =>
    cases role with
    | central => exact .lateLoss
    | peripheral => exact .quiet trivial
  | connected _ _ _ => exact .quiet trivial
  | characteristicWritten _ _ _ => exact .quiet trivial
  | lagged _ => exact .quiet trivial

theorem onDialResult_change (cfg : PeerLinkConfig) {top base now : Instant} {message : DialResult}
    {rest : List DialResult} {w w' : Worker} (queued : w.connRx = message :: rest)
    (handled : { w with connRx := rest }.onDialResult cfg message now = some w') :
    Links.Change cfg w.links (.select top base .dialResult now) w'.links := by
  unfold onDialResult at handled
  split at handled
  · rename_i gone
    cases Option.some.inj handled
    exact .dialStale queued fun p known => by simp_all [links]
  · rename_i p known
    split at handled
    · rename_i stale
      cases Option.some.inj handled
      refine .dialStale queued fun p' known' => ?_
      cases known.symm.trans known'
      exact stale
    · rename_i current
      rw [not_not] at current
      split at handled
      · rename_i channel result
        dsimp only at handled
        split at handled
        · rename_i unlinked
          cases Option.some.inj handled
          exact .dialUnlinked queued known current result (by simpa using unlinked)
        · rename_i linked
          cases Option.some.inj handled
          have change : Links.Change cfg w.links (.select top base .dialResult now) _ :=
            .dialLinked queued known current result (by simpa using linked)
          simpa [startPump, send, links, Links.install] using change
      · rename_i err result
        obtain ⟨p', failed, eq⟩ := Option.bind_eq_some_iff.mp handled
        cases Option.some.inj eq
        exact .dialFailed queued known current result failed

theorem onInbound_change (cfg : PeerLinkConfig) {top base now : Instant} (channel : Channel)
    (elapsed : Duration) (w : Worker) :
    Links.Change cfg w.links (.select top base (.inbound channel elapsed) now)
      (w.onInbound cfg channel elapsed now).links := by
  unfold onInbound
  dsimp only
  split
  · exact .quiet trivial
  · rename_i p known
    split
    · exact .quiet trivial
    · rename_i free
      simp only [Bool.or_eq_true, decide_eq_true_eq, Bool.not_eq_true', not_or, Bool.not_eq_true,
        Option.isSome_eq_false_iff, Option.isNone_iff_eq_none, Bool.not_eq_false] at free
      obtain ⟨⟨⟨accepts, unlinked⟩, cap⟩, usable⟩ := free
      have change : Links.Change cfg w.links (.select top base (.inbound channel elapsed) now) _ :=
        .accepted known accepts unlinked (Nat.lt_of_not_le cap) usable
      simpa [startPump, send, links, Links.install] using change

theorem onLinkGone_change (cfg : PeerLinkConfig) {top base now : Instant} {message : LinkGone}
    {rest : List LinkGone} {w : Worker} (queued : w.linkgoneRx = message :: rest) :
    Links.Change cfg w.links (.select top base .linkGone now)
      ({ w with linkgoneRx := rest }.onLinkGone message now).links := by
  unfold onLinkGone
  split
  · rename_i gone
    exact .linkGoneStale queued fun p link known => by simp_all [links]
  · rename_i p known
    split
    · rename_i unlinked
      exact .linkGoneStale queued fun p' link known' linked => by simp_all [links]
    · rename_i link linked
      split
      · rename_i stale
        exact .linkGoneStale queued fun p' link known' linked => by simp_all [links]
      · rename_i current
        have change : Links.Change cfg w.links (.select top base .linkGone now) _ :=
          .linkGone queued known linked (by simpa using current)
        simpa [links, send] using change

theorem handle_change (cfg : PeerLinkConfig) {top base now : Instant} {input : Input} {w w' : Worker}
    (handled : w.handle cfg input now = some w') :
    Links.Change cfg w.links (.select top base input now) w'.links := by
  cases input with
  | track peer peerId =>
    cases Option.some.inj handled
    exact onTrack_change cfg w
  | untrack peer =>
    cases Option.some.inj handled
    exact onUntrack_change cfg w
  | retry peer =>
    cases Option.some.inj handled
    exact .retry
  | discover =>
    cases Option.some.inj handled
    exact .quiet trivial
  | driverEvent event probe caps =>
    cases Option.some.inj handled
    exact onDriverEvent_change cfg event probe caps w
  | dialResult =>
    dsimp only [handle] at handled
    split at handled
    · simp at handled
    · rename_i message rest queued
      exact onDialResult_change cfg queued handled
  | inbound channel elapsed =>
    cases Option.some.inj handled
    exact onInbound_change cfg channel elapsed w
  | linkGone =>
    dsimp only [handle] at handled
    split at handled
    · simp at handled
    · rename_i message rest queued
      cases Option.some.inj handled
      exact onLinkGone_change cfg queued
  | tick =>
    cases Option.some.inj handled
    exact .tick
  | serveEnded =>
    dsimp only [handle] at handled
    obtain ⟨_, _, restarted⟩ := Option.bind_eq_some_iff.mp handled
    split at restarted
    · cases Option.some.inj restarted
      exact .quiet trivial
    · simp at restarted

theorem committed_dialStarted_le {peers : PeerMap Peer} (peer : PeerAddress) (p : Peer) :
    committed (peers.insert peer p) ≤ committed peers + 1 := by
  refine FiniteMap.count_le_succ peer ?_
  rintro other apart ⟨q, known, held⟩
  rw [FiniteMap.getElem?_insert, if_neg apart] at known
  exact ⟨q, known, held⟩

/-- What is left of a `pump_dials` that has dialled the peers of `done`. -/
theorem dialCandidates_dialling {cfg : PeerLinkConfig} {now : Instant} {elapsed : Duration} {l : Links}
    {keys : List PeerAddress} {s : Pumping} {done : List PeerAddress} (nodup : keys.Nodup)
    (usable : s.worker.radio.usable) (slots : s.budget ≤ cfg.maxLinks - committed s.worker.peers)
    (minted : s.nextSession + 1 = Links.mint elapsed done.length)
    (before : ∀ key ∈ keys, s.worker.peers[key]? = l.peers[key]?)
    (dialling : Links.Dialling cfg now elapsed l done s.worker.links) :
    Links.Dialling cfg now elapsed l (done ++ (keys.filter (l.ready now)).take s.budget)
      (keys.foldl (dialCandidate now) s).worker.links := by
  induction keys generalizing s done with
  | nil => simpa using dialling
  | cons key keys ih =>
    obtain ⟨fresh, nodup⟩ := List.nodup_cons.mp nodup
    have known := before key List.mem_cons_self
    have others : ∀ other ∈ keys, s.worker.peers[other]? = l.peers[other]? := fun other member =>
      before other (List.mem_cons_of_mem _ member)
    rw [List.foldl_cons]
    by_cases ready : l.ready now key = true
    · obtain ⟨p, tracked, candidate⟩ := (Option.any_eq_true _ _).mp ready
      rw [List.filter_cons_of_pos ready]
      obtain ⟨w, budget, session⟩ := s
      dsimp only at usable slots minted known others dialling
      cases budget with
      | zero =>
        have skipped : dialCandidate now ⟨w, 0, session⟩ key = ⟨w, 0, session⟩ := by
          simp [dialCandidate, known, tracked, candidate]
        rw [skipped]
        simpa using ih (s := ⟨w, 0, session⟩) nodup usable slots minted others dialling
      | succ budget =>
        have room : committed w.peers < cfg.maxLinks := by omega
        have grown : committed (w.peers.insert key (p.dialStarted (session + 1) w.nextTask now)) ≤ _ :=
          committed_dialStarted_le key _
        have next := dialling.next (known.trans tracked) candidate room usable
        rw [← minted] at next
        have dialled : dialCandidate now ⟨w, budget + 1, session⟩ key =
            ⟨{ w with
              peers := w.peers.insert key (p.dialStarted (session + 1) w.nextTask now)
              dialTasks := w.dialTasks.insert w.nextTask { peer := key, session := session + 1 }
              nextTask := w.nextTask + 1 }, budget, session + 1⟩ := by
          simp [dialCandidate, known, tracked, candidate]
        rw [dialled, List.take_succ_cons, List.append_cons]
        refine ih (s := ⟨_, budget, session + 1⟩) nodup usable ?_ ?_ ?_ next
        · dsimp only; omega
        · rw [List.length_append, List.length_singleton, minted]
          exact Links.mint_succ _ _
        · intro other member
          have apart : other ≠ key := fun same => fresh (same ▸ member)
          rw [FiniteMap.getElem?_insert, if_neg apart, others other member]
    · have skipped : dialCandidate now s key = s := by
        unfold dialCandidate
        cases tracked : s.worker.peers[key]? with
        | none => rfl
        | some p =>
          have waits : p.candidate now = false := by
            simpa [Links.ready, ← known, tracked] using ready
          simp [waits]
      rw [skipped, List.filter_cons_of_neg ready]
      exact ih nodup usable slots minted others dialling

theorem pumpDials_dialling (cfg : PeerLinkConfig) (now : Instant) (elapsed : Duration) (w : Worker) :
    Links.Dialling cfg now elapsed w.links (w.links.dialled cfg now) (w.pumpDials cfg now elapsed).links := by
  unfold pumpDials Links.dialled
  cases usable : w.radio.usable with
  | false => simpa [links, usable] using Links.Dialling.start
  | true =>
    have first : Links.Dialling cfg now elapsed w.links [] w.links := .start
    have round := dialCandidates_dialling (s := ⟨w, cfg.maxLinks - committed w.peers, UInt64.ofNat elapsed⟩)
      w.peers.nodup_keys usable (Nat.le_refl _) (Links.mint_zero elapsed) (fun _ _ => rfl) first
    simpa [links, usable] using round

/-- What a step does, and what it checks of the clock and of the place in the
loop. -/
inductive Stepped (cfg : PeerLinkConfig) (w : Worker) : Label → Worker → Prop
  | select {top base now : Instant} {input : Input} {w' : Worker} (between : w.pumpDue = false)
      (order : w.clock ≤ top ∧ top ≤ base ∧ base ≤ now)
      (handled : { w.restartServe cfg top with clock := now, pumpDue := true }.handle cfg input now = some w') :
      Stepped cfg w (.select top base input now) w'
  | pump {now : Instant} {elapsed : Duration} (due : w.pumpDue = true) (order : w.clock ≤ now) :
      Stepped cfg w (.pump now elapsed)
        ({ w with clock := now + elapsed, pumpDue := false }.pumpDials cfg now elapsed |>.refreshAllStatus cfg)
  | dialFinished {task : TaskId} {dial : DialTask} (result : Except BleError Channel)
      (running : w.dialTasks[task]? = some dial) :
      Stepped cfg w (.dialFinished task result) { w with
        dialTasks := w.dialTasks.erase task
        connRx := w.connRx ++ [⟨task, dial.peer, dial.session, result⟩] }
  | pumpEnded {task : TaskId} {pump : Pump} (running : w.pumps[task]? = some pump) :
      Stepped cfg w (.pumpEnded task) { w with
        pumps := w.pumps.erase task
        linkgoneRx := w.linkgoneRx ++ [⟨task, pump.peer, pump.gen⟩] }

theorem step_cases {cfg : PeerLinkConfig} {w w' : Worker} {label : Label} (step : step cfg w label = some w') :
    Stepped cfg w label w' := by
  unfold Worker.step at step
  cases label with
  | select top base input now =>
    simp only [Option.bind_eq_some_iff, Option.bind_eq_bind, Option.guard_eq_some', Bool.not_eq_true'] at step
    obtain ⟨_, ⟨between, order⟩, _, _, handled⟩ := step
    exact .select between order handled
  | pump now elapsed =>
    simp only [Option.bind_eq_some_iff, Option.bind_eq_bind, Option.guard_eq_some'] at step
    obtain ⟨_, ⟨due, order⟩, done⟩ := step
    cases Option.some.inj done
    exact .pump due order
  | dialFinished task result =>
    simp only [Option.bind_eq_some_iff, Option.bind_eq_bind] at step
    obtain ⟨_, _, dial, running, done⟩ := step
    cases Option.some.inj done
    exact .dialFinished result running
  | pumpEnded task =>
    simp only [Option.bind_eq_some_iff, Option.bind_eq_bind] at step
    obtain ⟨_, _, pump, running, done⟩ := step
    cases Option.some.inj done
    exact .pumpEnded running

/-- What a step does to the links. -/
theorem step_change {cfg : PeerLinkConfig} {w w' : Worker} {label : Label} (step : step cfg w label = some w') :
    Links.Change cfg w.links label w'.links := by
  cases step_cases step with
  | @select top base now input _ _ _ handled =>
    have change : Links.Change cfg _ (.select top base input now) _ := handle_change cfg handled
    exact links_restartServe cfg top w ▸ change
  | @pump now elapsed _ _ =>
    rw [links_refreshAllStatus]
    exact .pump (pumpDials_dialling cfg now elapsed { w with clock := now + elapsed, pumpDue := false })
  | dialFinished _ running => exact .dialFinished running
  | pumpEnded running => exact .pumpEnded running

section Clock

/-! No handler writes the clock, so that it reads what the step read last, and
only the inbound server's own branches touch it. -/

/-- The clock, and the inbound server. -/
def server (w : Worker) : Instant × Bool × Option Instant := (w.clock, w.serving, w.serveRetryAt)

@[simp] theorem server_publishStatus (peer : PeerAddress) (status : PeerStatus) (w : Worker) :
    (w.publishStatus peer status).server = w.server := by
  unfold publishStatus send
  split <;> (dsimp only; split) <;> rfl

@[simp] theorem server_refreshStatus (cfg : PeerLinkConfig) (peer : PeerAddress) (w : Worker) :
    (w.refreshStatus cfg peer).server = w.server := by
  unfold refreshStatus
  split
  · exact server_publishStatus _ _ _
  · rfl

theorem server_refreshAllStatus (cfg : PeerLinkConfig) (w : Worker) : (w.refreshAllStatus cfg).server = w.server := by
  have fold : ∀ (entries : List (PeerAddress × Peer)) (overCap : Bool) (v : Worker),
      (entries.foldl (fun w entry => w.publishStatus entry.1 (project entry.2 w.radio overCap)) v).server =
        v.server := by
    intro entries overCap
    induction entries with
    | nil => intro v; rfl
    | cons entry entries ih => intro v; rw [List.foldl_cons, ih, server_publishStatus]
  exact fold _ _ w

theorem server_onDriverEvent (cfg : PeerLinkConfig) (event : GattEvent) (probe : RadioStatus)
    (caps : CapabilityReport) (now : Instant) (w : Worker) :
    (w.onDriverEvent cfg event probe caps now).server =
      if cfg.accepts && w.radio.usable && !(w.onDriverEvent cfg event probe caps now).radio.usable then
        (w.clock, false, none)
      else w.server := by
  have radio : ∀ status, (w.onRadioChanged status now).server = w.server := by
    intro status
    unfold onRadioChanged send
    dsimp only
    split <;> split <;> rfl
  have settled : ∀ v : Worker, v.server = w.server →
      (if cfg.accepts && w.radio.usable && !v.radio.usable then { v with serving := false, serveRetryAt := none }
        else v).server =
      if cfg.accepts && w.radio.usable && !(if cfg.accepts && w.radio.usable && !v.radio.usable then
          { v with serving := false, serveRetryAt := none } else v).radio.usable then (w.clock, false, none)
      else w.server := by
    intro v same
    by_cases down : (cfg.accepts && w.radio.usable && !v.radio.usable) = true
    · rw [if_pos down, if_pos down]
      exact congrArg (fun server => (server.1, false, none)) same
    · rw [if_neg down, if_neg down]
      exact same
  refine settled _ ?_
  split <;> first | rfl | exact radio _

theorem server_pumpDials (cfg : PeerLinkConfig) (now : Instant) (elapsed : Duration) (w : Worker) :
    (w.pumpDials cfg now elapsed).server = w.server := by
  have candidate : ∀ (s : Pumping) (peer : PeerAddress),
      (dialCandidate now s peer).worker.server = s.worker.server := by
    intro s peer
    unfold dialCandidate
    split
    · rfl
    · split
      · rfl
      · split <;> rfl
  have fold : ∀ (keys : List PeerAddress) (s : Pumping),
      (keys.foldl (dialCandidate now) s).worker.server = s.worker.server := by
    intro keys
    induction keys with
    | nil => intro s; rfl
    | cons key keys ih => intro s; rw [List.foldl_cons, ih, candidate]
  unfold pumpDials
  split
  · rfl
  · exact fold _ _

/-- The branches of `select!` that are not the inbound server's. -/
theorem server_handle {cfg : PeerLinkConfig} {input : Input} {now : Instant} {w w' : Worker}
    (handled : w.handle cfg input now = some w') : w'.server = w.server ∨
      (∃ event probe caps, input = .driverEvent event probe caps ∧ w' = w.onDriverEvent cfg event probe caps now) ∨
      input = .serveEnded ∧ w.serving = true ∧
        ∃ at_, w' = { w with serving := false, serveRetryAt := some at_ } := by
  cases input with
  | track peer peerId =>
    cases Option.some.inj handled
    exact .inl (server_refreshStatus _ _ _)
  | untrack peer =>
    cases Option.some.inj handled
    refine .inl ?_
    unfold onUntrack
    rw [server_publishStatus]
    split
    · rfl
    · dsimp only; split <;> rfl
  | retry peer => cases Option.some.inj handled; exact .inl rfl
  | discover => cases Option.some.inj handled; exact .inl rfl
  | driverEvent event probe caps =>
    cases Option.some.inj handled
    exact .inr (.inl ⟨event, probe, caps, rfl, rfl⟩)
  | dialResult =>
    refine .inl ?_
    dsimp only [handle] at handled
    split at handled
    · simp at handled
    · unfold onDialResult at handled
      split at handled
      · cases Option.some.inj handled; rfl
      · split at handled
        · cases Option.some.inj handled; rfl
        · split at handled
          · dsimp only at handled
            split at handled <;> (cases Option.some.inj handled; rfl)
          · obtain ⟨_, _, eq⟩ := Option.bind_eq_some_iff.mp handled
            cases Option.some.inj eq; rfl
  | inbound channel elapsed =>
    cases Option.some.inj handled
    refine .inl ?_
    unfold onInbound
    dsimp only
    split
    · rfl
    · split <;> rfl
  | linkGone =>
    refine .inl ?_
    dsimp only [handle] at handled
    split at handled
    · simp at handled
    · cases Option.some.inj handled
      unfold onLinkGone
      split
      · rfl
      · split
        · rfl
        · split <;> rfl
  | tick => cases Option.some.inj handled; exact .inl rfl
  | serveEnded =>
    dsimp only [handle] at handled
    obtain ⟨at_, _, restarted⟩ := Option.bind_eq_some_iff.mp handled
    split at restarted
    · rename_i serving
      cases Option.some.inj restarted
      exact .inr (.inr ⟨rfl, serving, at_, rfl⟩)
    · simp at restarted

theorem clock_handle {cfg : PeerLinkConfig} {input : Input} {now : Instant} {w w' : Worker}
    (handled : w.handle cfg input now = some w') : w'.clock = w.clock := by
  obtain same | ⟨event, probe, caps, _, rfl⟩ | ⟨_, _, at_, rfl⟩ := server_handle handled
  · exact congrArg Prod.fst same
  · have server := congrArg Prod.fst (server_onDriverEvent cfg event probe caps now w)
    split at server <;> exact server
  · rfl

/-- The clock never runs back, and a branch of `select!` reads it last. -/
theorem step_clock {cfg : PeerLinkConfig} {w w' : Worker} {label : Label} (step : step cfg w label = some w') :
    w.clock ≤ w'.clock ∧ (∀ top base input now, label = .select top base input now → w'.clock = now) ∧
      ∀ now elapsed, label = .pump now elapsed → w.clock ≤ now := by
  cases step_cases step with
  | @select _ _ now _ _ _ order handled =>
    have read : w'.clock = now := clock_handle handled
    refine ⟨read ▸ order.1.trans (order.2.1.trans order.2.2), ?_, by simp⟩
    rintro _ _ _ _ ⟨⟩
    exact read
  | @pump now elapsed _ order =>
    have read := congrArg Prod.fst ((server_refreshAllStatus cfg _).trans
      (server_pumpDials cfg now elapsed { w with clock := now + elapsed, pumpDue := false }))
    refine ⟨(order.trans (Nat.le_add_right now elapsed)).trans_eq read.symm, by simp, ?_⟩
    rintro _ _ ⟨⟩
    exact order
  | dialFinished _ _ => exact ⟨Nat.le_refl _, by simp, by simp⟩
  | pumpEnded _ => exact ⟨Nat.le_refl _, by simp, by simp⟩

end Clock

end Worker

end BleGatt
