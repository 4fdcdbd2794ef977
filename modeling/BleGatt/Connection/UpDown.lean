import BleGatt.Connection.DialSession

namespace BleGatt
open Std

/-! The `Up` and `Down` events of one peer, along whole runs. -/

/-- Starts with `Up` and then strictly alternates. -/
def Alternates (edges : List Edge) : Prop := edges.IsChain (· ≠ ·) ∧ edges.head? ≠ some .down

/-- The link of an entry that may be absent. -/
def linkOf (e : Option Peer) : Option LiveLink := e.bind Peer.link

/-- What a step sends of a peer whose link it takes from `link` to `link'`. -/
inductive EdgeLaw (tracked : Bool) (link link' : Option LiveLink) : List Edge → Prop
  | silent : link' = link → EdgeLaw tracked link link' []
  | up : tracked = true → link = none → link'.isSome → EdgeLaw tracked link link' [.up]
  | down : link.isSome → link' = none → EdgeLaw tracked link link' [.down]

/-- The last thing a consumer was told of a peer is what holds of its link. -/
theorem EdgeLaw.alternates {tracked : Bool} {link link' : Option LiveLink} {edges sent : List Edge}
    (law : EdgeLaw tracked link link' sent) (before : Alternates edges ∧ (edges.getLast? = some .up ↔ link.isSome)) :
    Alternates (edges ++ sent) ∧ ((edges ++ sent).getLast? = some .up ↔ link'.isSome) := by
  obtain ⟨⟨chain, head⟩, last⟩ := before
  have head_kept : ∀ edge : Edge, (edges = [] → edge = .up) → (edges ++ [edge]).head? ≠ some .down := by
    intro edge first
    cases edges with
    | nil => simp [first rfl]
    | cons _ _ => simpa using head
  have chained : ∀ edge : Edge, edges.getLast? ≠ some edge → (edges ++ [edge]).IsChain (· ≠ ·) := by
    intro edge apart
    refine List.isChain_append.mpr ⟨chain, by simp, ?_⟩
    rintro x at_last y at_head rfl
    cases Option.some.inj at_head
    exact apart at_last
  cases law with
  | silent same =>
    rw [List.append_nil, same]
    exact ⟨⟨chain, head⟩, last⟩
  | up _ unlinked linked =>
    have not_up : edges.getLast? ≠ some .up := by
      rw [ne_eq, last, unlinked]
      simp
    exact ⟨⟨chained .up not_up, head_kept .up fun _ => rfl⟩, by simp [linked]⟩
  | down linked ended =>
    have was_up := last.mpr linked
    refine ⟨⟨chained .down (by simp [was_up]), head_kept .down ?_⟩, by simp [ended]⟩
    rintro rfl
    simp at was_up

namespace Links

variable {cfg : PeerLinkConfig} {l l' : Links} {a : PeerAddress} {label : Label} {after : RadioState}
  {e e' : Option Peer} {sent : List Edge} {attempts : List DialAttempt}

/-- A result that links its peer finds no link there. -/
theorem Attempts.unlinked (ties : Attempts attempts l) {message : DialResult} {rest : List DialResult} {p : Peer}
    (queued : l.connRx = message :: rest) (known : l.peers[message.peer]? = some p)
    (current : p.central.session = some message.session) (shape : p.Shape l.radio) : p.link = none := by
  obtain ⟨_, _, ⟨_, unlinked, _⟩ | ⟨_, _, ended⟩⟩ := shape.of_session current
  · exact unlinked
  · have own := (ties.queued message (queued ▸ List.mem_cons_self)).2.2 p known current
    simp [own] at ended

theorem PeerStep.edge_law (step : PeerStep cfg l a label after e sent e') (entry : l.peers[a]? = e)
    (shape : ∀ p ∈ e, p.Shape l.radio) (ties : Attempts attempts l) :
    EdgeLaw e.isSome (linkOf e) (linkOf e') sent := by
  cases step with
  | kept _ => exact .silent rfl
  | tracked => exact .silent rfl
  | @untracked _ _ _ p =>
    cases linked : p.link with
    | none => exact .silent linked.symm
    | some link => exact .down (by simp [linkOf, linked]) rfl
  | retried => exact .silent rfl
  | @radio _ _ _ _ _ now _ _ =>
    cases e with
    | none => simpa using EdgeLaw.silent rfl
    | some p =>
      obtain ⟨⟨on, off⟩, eq⟩ | ⟨kept, same⟩ := Peer.radioChanged_cases l.radio after now p
      · rw [Option.map_some, eq]
        have told : (l.radio.usable && !after.usable && (some p).any fun p => p.link.isSome) = p.link.isSome := by
          simp [on, off]
        rw [told]
        cases linked : p.link with
        | none => exact .silent linked.symm
        | some link => exact .down (by simp [linkOf, linked]) rfl
      · have silent : (l.radio.usable && !after.usable) = false := by simpa using kept
        rw [silent]
        obtain eq | eq := same <;> rw [Option.map_some, eq] <;> exact .silent rfl
  | lateLoss _ => exact .silent rfl
  | dialUnlinked _ _ _ _ _ => exact .silent rfl
  | dialLinked queued here current _ _ =>
    exact .up rfl (ties.unlinked queued (here ▸ entry) current (shape _ rfl)) rfl
  | dialFailed _ _ _ _ failed =>
    obtain ⟨_, _, _, link, _⟩ := Peer.dialFailed_kept failed
    exact .silent link
  | accepted _ _ unlinked _ => exact .up rfl unlinked rfl
  | linkGone _ _ linked _ => exact .down (by simp [linkOf, linked]) rfl
  | ticked => exact .silent (Peer.tick_kept cfg l.radio _ _).2.2.2.1
  | dialled _ _ _ => exact .silent rfl

/-- A link a step leaves is the one from before it, or the pump of this step. -/
theorem PeerStep.installed (step : PeerStep cfg l a label after e sent e') {link : LiveLink}
    (linked : linkOf e' = some link) : linkOf e = some link ∨ link.pump = l.nextTask := by
  cases step with
  | kept _ => exact .inl linked
  | tracked => simp [linkOf, Peer.track] at linked
  | untracked => simp [linkOf] at linked
  | retried => exact .inl linked
  | @radio _ _ _ _ _ now _ _ =>
    obtain ⟨p', mapped, held⟩ := Option.bind_eq_some_iff.mp linked
    obtain ⟨p, rfl, rfl⟩ := Option.map_eq_some_iff.mp mapped
    obtain ended | kept := Peer.radioChanged_link l.radio after now p
    · simp [ended] at held
    · exact .inl (kept.symm.trans held)
  | lateLoss _ => exact .inl linked
  | dialUnlinked _ _ _ _ _ => exact .inl linked
  | dialLinked _ _ _ _ _ =>
    cases linked
    exact .inr rfl
  | dialFailed _ _ _ _ failed => exact .inl ((Peer.dialFailed_kept failed).2.2.2.1.symm.trans linked)
  | accepted _ _ _ _ =>
    cases linked
    exact .inr rfl
  | linkGone _ _ _ _ => simp [linkOf, Peer.linkGone, Peer.centralApply, Peer.peripheralApply] at linked
  | ticked => exact .inl ((Peer.tick_kept cfg l.radio _ _).2.2.2.1.symm.trans linked)
  | dialled _ _ _ => exact .inl linked

/-- The pump and the generation of a link, wherever a trace of it is left: its
pump task, the notification that task queued, or the entry itself. -/
def Minted (l : Links) (pump : TaskId) (gen : Nat) : Prop :=
  (∃ peer, l.pumps[pump]? = some ⟨peer, gen⟩) ∨ (∃ m ∈ l.linkgoneRx, m.pump = pump ∧ m.gen = gen) ∨
    ∃ (a : PeerAddress) (p : Peer), l.peers[a]? = some p ∧ p.link = some ⟨gen, pump⟩

/-- A generation belongs to one pump, and none of them is one still to come. -/
structure Generations (l : Links) : Prop where
  spawned : ∀ pump gen, l.Minted pump gen → pump < l.nextTask
  bound : ∀ pump gen, l.Minted pump gen → gen ≤ l.nextLinkGen
  unique : ∀ pump pump' gen, l.Minted pump gen → l.Minted pump' gen → pump = pump'

/-- Every link after a step is one of the same peer from before it. -/
def KeepsLinks (l l' : Links) : Prop :=
  ∀ (a : PeerAddress) (p' : Peer) (link : LiveLink), l'.peers[a]? = some p' → p'.link = some link →
    ∃ p, l.peers[a]? = some p ∧ p.link = some link

theorem KeepsLinks.insert {peer : PeerAddress} {p : Peer} {link : Option LiveLink} (known : linkOf l.peers[peer]? = link)
    (kept : p.link = none ∨ p.link = link) (peers : l'.peers = l.peers.insert peer p) : KeepsLinks l l' := by
  intro a p' held at_a linked
  rw [peers, FiniteMap.getElem?_insert] at at_a
  split at at_a
  · rename_i same
    cases at_a
    obtain none_left | old := kept
    · simp [none_left] at linked
    · subst same
      rw [old, ← known] at linked
      exact Option.bind_eq_some_iff.mp linked
  · exact ⟨p', at_a, linked⟩

theorem KeepsLinks.map {f : Peer → Peer} (kept : ∀ p, (f p).link = none ∨ (f p).link = p.link)
    (peers : l'.peers = l.peers.map fun _ p => f p) : KeepsLinks l l' := by
  intro a p' held at_a linked
  rw [peers, ExtTreeMap.getElem?_map] at at_a
  obtain ⟨p, known, rfl⟩ := Option.map_eq_some_iff.mp at_a
  obtain none_left | old := kept p
  · simp [none_left] at linked
  · exact ⟨p, known, old ▸ linked⟩

theorem Minted.before {pump : TaskId} {gen : Nat} (minted : l'.Minted pump gen)
    (pumps : ∀ (t : TaskId) (x : Pump), l'.pumps[t]? = some x → l.pumps[t]? = some x)
    (notified : ∀ m ∈ l'.linkgoneRx, m ∈ l.linkgoneRx) (links : KeepsLinks l l') : l.Minted pump gen := by
  obtain ⟨peer, running⟩ | ⟨m, queued, traced⟩ | ⟨a, p, known, linked⟩ := minted
  · exact .inl ⟨peer, pumps _ _ running⟩
  · exact .inr (.inl ⟨m, notified m queued, traced⟩)
  · obtain ⟨q, before, linked⟩ := links a p _ known linked
    exact .inr (.inr ⟨a, q, before, linked⟩)

theorem Minted.of_install {peer : PeerAddress} {entry : LiveLink → Peer} {pump : TaskId} {gen : Nat}
    (linked : ∀ link, (entry link).link = some link) (minted : (l.install peer entry).Minted pump gen) :
    l.Minted pump gen ∨ pump = l.nextTask ∧ gen = l.nextLinkGen + 1 := by
  obtain ⟨a, running⟩ | ⟨m, queued, traced⟩ | ⟨a, p, known, held⟩ := minted
  · change (l.pumps.insert _ _)[pump]? = _ at running
    rw [FiniteMap.getElem?_insert] at running
    split at running
    · rename_i new
      cases running
      exact .inr ⟨new, rfl⟩
    · exact .inl (.inl ⟨a, running⟩)
  · exact .inl (.inr (.inl ⟨m, queued, traced⟩))
  · change (l.peers.insert _ _)[a]? = _ at known
    rw [FiniteMap.getElem?_insert] at known
    split at known
    · cases known
      rw [linked] at held
      cases held
      exact .inr ⟨rfl, rfl⟩
    · exact .inl (.inr (.inr ⟨a, p, known, held⟩))

theorem Change.minted (change : Change cfg l label l') : l.nextLinkGen ≤ l'.nextLinkGen ∧ l.nextTask ≤ l'.nextTask ∧
    ∀ pump gen, l'.Minted pump gen → l.Minted pump gen ∨ pump = l.nextTask ∧ gen = l.nextLinkGen + 1 ∧
      l'.nextTask = l.nextTask + 1 ∧ l'.nextLinkGen = l.nextLinkGen + 1 := by
  have modify : ∀ {a : PeerAddress} (f : Peer → Peer), (∀ p, (f p).link = p.link) → ∀ l' : Links,
      l'.peers = l.peers.modify a f → KeepsLinks l l' := by
    intro a f kept l' peers b p' held at_b linked
    rw [peers, FiniteMap.getElem?_modify] at at_b
    split at at_b
    · obtain ⟨p, known, rfl⟩ := Option.map_eq_some_iff.mp at_b
      exact ⟨p, known, kept p ▸ linked⟩
    · exact ⟨p', at_b, linked⟩
  have filtered : ∀ {keep : TaskId → Bool} (t : TaskId) (x : Pump),
      (l.pumps.filter fun task _ => keep task)[t]? = some x → l.pumps[t]? = some x := by
    intro keep t x running
    rw [FiniteMap.getElem?_filter_key] at running
    split at running
    · exact running
    · simp at running
  cases change with
  | quiet _ => exact ⟨le_rfl, le_rfl, fun _ _ minted => .inl minted⟩
  | track absent =>
    refine ⟨le_rfl, le_rfl, fun _ _ minted => .inl (minted.before (fun _ _ => id) (fun _ => id) ?_)⟩
    exact KeepsLinks.insert rfl (.inl rfl) rfl
  | @untrack _ _ a _ p known =>
    refine ⟨le_rfl, le_rfl, fun _ _ minted => .inl (minted.before filtered (fun _ => id) ?_)⟩
    intro b p' held at_b linked
    change (l.peers.erase a)[b]? = _ at at_b
    rw [FiniteMap.getElem?_erase] at at_b
    split at at_b
    · simp at at_b
    · exact ⟨p', at_b, linked⟩
  | @retry _ _ a now =>
    refine ⟨le_rfl, le_rfl, fun _ _ minted => .inl (minted.before (fun _ _ => id) (fun _ => id) ?_)⟩
    exact modify (Peer.retry now) (fun _ => rfl) _ rfl
  | radioKept kept =>
    refine ⟨le_rfl, le_rfl, fun _ _ minted => .inl (minted.before (fun _ _ => id) (fun _ => id) ?_)⟩
    exact KeepsLinks.map (Peer.radioChanged_link _ _ _) rfl
  | radioLost usable lost =>
    refine ⟨le_rfl, le_rfl, fun _ _ minted => .inl (minted.before filtered (fun _ => id) ?_)⟩
    exact KeepsLinks.map (Peer.radioChanged_link _ _ _) rfl
  | lateLoss =>
    refine ⟨le_rfl, le_rfl, fun _ _ minted => .inl (minted.before (fun _ _ => id) (fun _ => id) (modify _ ?_ _ rfl))⟩
    intro p
    split <;> rfl
  | dialStale _ _ =>
    refine ⟨le_rfl, le_rfl, fun _ _ minted => .inl (minted.before (fun _ _ => id) (fun _ => id) ?_)⟩
    exact fun _ _ _ known linked => ⟨_, known, linked⟩
  | dialUnlinked queued known _ _ _ =>
    refine ⟨le_rfl, le_rfl, fun _ _ minted => .inl (minted.before (fun _ _ => id) (fun _ => id) ?_)⟩
    refine KeepsLinks.insert (congrArg linkOf known) (.inr ?_) rfl
    rfl
  | dialLinked queued known _ _ _ =>
    refine ⟨Nat.le_succ _, Nat.le_succ _, fun _ _ minted => ?_⟩
    exact (Minted.of_install (fun _ => rfl) minted).imp id fun new => ⟨new.1, new.2, rfl, rfl⟩
  | dialFailed queued known _ _ failed =>
    refine ⟨le_rfl, le_rfl, fun _ _ minted => .inl (minted.before (fun _ _ => id) (fun _ => id) ?_)⟩
    exact KeepsLinks.insert (congrArg linkOf known) (.inr (Peer.dialFailed_kept failed).2.2.2.1) rfl
  | accepted known _ _ _ _ =>
    refine ⟨Nat.le_succ _, Nat.le_succ _, fun _ _ minted => ?_⟩
    exact (Minted.of_install (fun _ => rfl) minted).imp id fun new => ⟨new.1, new.2, rfl, rfl⟩
  | linkGoneStale queued _ =>
    refine ⟨le_rfl, le_rfl, fun _ _ minted => .inl (minted.before (fun _ _ => id) (fun m member => ?_) ?_)⟩
    · exact queued ▸ List.mem_cons_of_mem _ member
    · exact fun _ _ _ known linked => ⟨_, known, linked⟩
  | linkGone queued known _ _ =>
    refine ⟨le_rfl, le_rfl, fun _ _ minted => .inl (minted.before (fun _ _ => id) (fun m member => ?_) ?_)⟩
    · exact queued ▸ List.mem_cons_of_mem _ member
    · exact KeepsLinks.insert (congrArg linkOf known) (.inl rfl) rfl
  | tick =>
    refine ⟨le_rfl, le_rfl, fun _ _ minted => .inl (minted.before (fun _ _ => id) (fun _ => id) ?_)⟩
    exact KeepsLinks.map (fun p => .inr (Peer.tick_kept cfg l.radio _ p).2.2.2.1) rfl
  | pump dialling =>
    have frame := dialling.frame
    rw [frame.nextLinkGen, dialling.nextTask]
    refine ⟨le_rfl, Nat.le_add_right _ _, fun _ _ minted => .inl (minted.before (fun _ _ => ?_) (fun m => ?_) ?_)⟩
    · rw [frame.pumps]; exact id
    · rw [frame.linkgoneRx]; exact id
    · intro a p' held at_a linked
      obtain ⟨_, left⟩ | ⟨p, index, _, known, _, dialled⟩ := dialling.entry a
      · exact ⟨p', left ▸ at_a, linked⟩
      · cases at_a.symm.trans dialled
        exact ⟨p, known, linked⟩
  | dialFinished _ =>
    refine ⟨le_rfl, le_rfl, fun _ _ minted => .inl (minted.before (fun _ _ => id) (fun _ => id) ?_)⟩
    exact fun _ _ _ known linked => ⟨_, known, linked⟩
  | @pumpEnded task pump running =>
    refine ⟨le_rfl, le_rfl, fun t gen minted => .inl ?_⟩
    obtain ⟨peer, left⟩ | ⟨m, queued, traced⟩ | ⟨a, p, known, linked⟩ := minted
    · change (l.pumps.erase task)[t]? = _ at left
      rw [FiniteMap.getElem?_erase] at left
      split at left
      · simp at left
      · exact .inl ⟨peer, left⟩
    · obtain old | new := List.mem_append.mp queued
      · exact .inr (.inl ⟨m, old, traced⟩)
      · cases List.mem_singleton.mp new
        obtain ⟨rfl, rfl⟩ := traced
        exact .inl ⟨pump.peer, running⟩
    · exact .inr (.inr ⟨a, p, known, linked⟩)

theorem Generations.keep (generations : Generations l) (change : Change cfg l label l') : Generations l' := by
  obtain ⟨grows, spawns, minted⟩ := change.minted
  constructor
  · intro pump gen new
    obtain old | ⟨rfl, _, next, _⟩ := minted pump gen new
    · exact (generations.spawned pump gen old).trans_le spawns
    · exact next ▸ Nat.lt_succ_self _
  · intro pump gen new
    obtain old | ⟨_, rfl, _, next⟩ := minted pump gen new
    · exact (generations.bound pump gen old).trans grows
    · exact Nat.le_of_eq next.symm
  · intro pump pump' gen one other
    obtain old | ⟨at_pump, at_gen, _⟩ := minted pump gen one <;>
      obtain old' | ⟨at_pump', at_gen', _⟩ := minted pump' gen other
    · exact generations.unique pump pump' gen old old'
    · have bound := generations.bound pump gen old
      exact absurd bound (by rw [at_gen']; exact Nat.not_succ_le_self _)
    · have bound := generations.bound pump' gen old'
      exact absurd bound (by rw [at_gen]; exact Nat.not_succ_le_self _)
    · exact at_pump.trans at_pump'.symm

/-- The notification of another pump than the one a link has leaves that link. -/
theorem Generations.newest (generations : Generations l) {top base now : Instant} {message : LinkGone}
    {rest : List LinkGone} (change : Change cfg l (.select top base .linkGone now) l')
    (queued : l.linkgoneRx = message :: rest) {link : LiveLink} (linked : linkOf l.peers[a]? = some link)
    (other : link.pump ≠ message.pump) : linkOf l'.peers[a]? = some link := by
  cases change with
  | quiet quiet => exact quiet.elim
  | linkGoneStale _ _ => exact linked
  | @linkGone _ _ _ message' _ p held queued' known has current =>
    cases queued.symm.trans queued'
    change linkOf (l.peers.insert message.peer _)[a]? = _
    rw [FiniteMap.getElem?_insert]
    split
    · rename_i same
      rw [same, known] at linked
      cases has.symm.trans linked
      have own : l.Minted link.pump message.gen := .inr (.inr ⟨_, p, known, by rw [has, ← current]⟩)
      have sent : l.Minted message.pump message.gen := .inr (.inl ⟨message, queued ▸ List.mem_cons_self, rfl, rfl⟩)
      exact absurd (generations.unique _ _ _ own sent) other
    · exact linked

end Links

namespace Worker

/-- No peer this round dials was ever dialled before with the session the
round gives it. -/
def DistinctSessions (cfg : PeerLinkConfig) (attempts : List DialAttempt) (w : Worker) : Label → Prop
  | .pump now elapsed => ∀ entry ∈ (w.links.dialled cfg now).zipIdx, ∀ attempt ∈ attempts, attempt.peer = entry.1 →
      attempt.session ≠ UInt64.ofNat (elapsed + entry.2 + 1)
  | _ => True

instance (cfg : PeerLinkConfig) (attempts : List DialAttempt) (w : Worker) : (label : Label) →
    Decidable (DistinctSessions cfg attempts w label)
  | .pump now elapsed => inferInstanceAs (Decidable (∀ entry ∈ (w.links.dialled cfg now).zipIdx, ∀ attempt ∈ attempts,
      attempt.peer = entry.1 → attempt.session ≠ UInt64.ofNat (elapsed + entry.2 + 1)))
  | .select _ _ _ _ => .isTrue trivial
  | .dialFinished _ _ => .isTrue trivial
  | .pumpEnded _ => .isTrue trivial

/-- A queued result is of some dial, so that one no dial shares a session with
is not taken for another. -/
theorem DistinctSessions.fresh {cfg : PeerLinkConfig} {attempts : List DialAttempt} {w : Worker} {label : Label}
    (ties : w.links.Attempts attempts) (distinct : DistinctSessions cfg attempts w label) :
    FreshSessions cfg w label := by
  cases label with
  | pump now elapsed => exact fun entry dialled r queued same => distinct entry dialled _ (ties.sent r queued) same
  | select _ _ _ _ => trivial
  | dialFinished _ _ => trivial
  | pumpEnded _ => trivial

theorem run_distinct {cfg : PeerLinkConfig} {attempts : List DialAttempt} {w : Worker}
    (run : (machine cfg).Run (DistinctSessions cfg) noteAttempts [] attempts w) :
    (machine cfg).Run (fun _ => FreshSessions cfg) noteAttempts [] attempts w :=
  Machine.Run.weaken (fun _ _ => run_attempts) (fun _ _ _ => DistinctSessions.fresh) run

theorem reach_generations {cfg : PeerLinkConfig} {w : Worker} (reach : (machine cfg).Reach w) :
    w.links.Generations := by
  induction reach with
  | start first =>
    obtain ⟨initial, clock, rfl⟩ := first
    constructor <;> simp [start, links, Links.Minted]
  | next _ step ih => exact ih.keep (step_change step)

/-- What a consumer is sent of a peer is the story of its link, and a late
notification is not taken for one of the link there now. -/
structure UpDownSound (cfg : PeerLinkConfig) (w : Worker) : Prop where
  alternates : ∀ a : PeerAddress, Alternates (w.links.edgesOf a) ∧
    ((w.links.edgesOf a).getLast? = some .up ↔ (linkOf w.peers[a]?).isSome)
  edges : ∀ label w', step cfg w label = some w' → ∀ a : PeerAddress, ∃ sent,
    w'.links.edgesOf a = w.links.edgesOf a ++ sent ∧
      EdgeLaw w.peers[a]?.isSome (linkOf w.peers[a]?) (linkOf w'.peers[a]?) sent
  spawned : (∀ m ∈ w.linkgoneRx, m.pump < w.nextTask) ∧
    ∀ (a : PeerAddress) (link : LiveLink), linkOf w.peers[a]? = some link → link.pump < w.nextTask
  installed : ∀ label w', step cfg w label = some w' → ∀ (a : PeerAddress) (link : LiveLink),
    linkOf w'.peers[a]? = some link → linkOf w.peers[a]? = some link ∨ link.pump = w.nextTask
  newest : ∀ top base now message rest w', w.linkgoneRx = message :: rest →
    step cfg w (.select top base .linkGone now) = some w' → ∀ (a : PeerAddress) (link : LiveLink),
      linkOf w.peers[a]? = some link → link.pump ≠ message.pump → linkOf w'.peers[a]? = some link

theorem run_step_edges {cfg : PeerLinkConfig} {attempts : List DialAttempt} {w w' : Worker} {label : Label}
    (run : (machine cfg).Run (DistinctSessions cfg) noteAttempts [] attempts w)
    (step : step cfg w label = some w') (a : PeerAddress) : ∃ sent,
    w'.links.edgesOf a = w.links.edgesOf a ++ sent ∧
      EdgeLaw w.peers[a]?.isSome (linkOf w.peers[a]?) (linkOf w'.peers[a]?) sent := by
  obtain ⟨sent, entry, told⟩ := (step_change step).peerStep a
  exact ⟨sent, told, entry.edge_law rfl (fun _ known => reach_shape run.reach known) (run_attempts (run_distinct run))⟩

theorem run_alternates {cfg : PeerLinkConfig} {attempts : List DialAttempt} {w : Worker}
    (run : (machine cfg).Run (DistinctSessions cfg) noteAttempts [] attempts w) (a : PeerAddress) :
    Alternates (w.links.edgesOf a) ∧ ((w.links.edgesOf a).getLast? = some .up ↔ (linkOf w.peers[a]?).isSome) := by
  induction run with
  | start first =>
    obtain ⟨initial, clock, rfl⟩ := first
    have silent : (start cfg initial clock).links.edgesOf a = [] := rfl
    rw [silent]
    simp [start, Alternates, linkOf]
  | next previous _ step ih =>
    obtain ⟨sent, told, law⟩ := run_step_edges previous step a
    rw [told]
    exact law.alternates ih

/-- A link of `a` ends on untracking while the notification of its pump is
still queued, and `a` is tracked, dialled and linked again. -/
def lateNotification : List Label :=
  let a : PeerAddress := ⟨"a"⟩
  [.select 0 0 (.track a ⟨"a"⟩) 0, .pump 0 0, .dialFinished 0 (.ok ⟨a, 20⟩), .select 0 0 .dialResult 0, .pump 0 0,
    .pumpEnded 1, .select 0 0 (.untrack a) 0, .pump 0 0, .select 0 0 (.track a ⟨"a"⟩) 0, .pump 0 7,
    .dialFinished 2 (.ok ⟨a, 20⟩), .select 7 7 .dialResult 7, .pump 7 0]

end Worker

end BleGatt
