import BleGatt.Connection.LinkCap

namespace BleGatt
open Std

/-! The give-up mark and the give-up clock of an entry, along whole runs. -/

namespace Peer

/-- `apply_backoff` does not give the peer up. -/
def backsOff (cfg : PeerLinkConfig) (now : Instant) (p : Peer) : Bool :=
  decide (now - p.tryingSince.getD now < cfg.retryBudget.giveUpAfter) && !cfg.retryBudget.backoff.isEmpty

theorem gaveUp_of_backsOff {cfg : PeerLinkConfig} {now : Instant} {p p' : Peer}
    (failed : p.dialFailed cfg now = some p') (backs : p.backsOff cfg now = true) : p'.gaveUp = p.gaveUp := by
  simp only [backsOff, Bool.and_eq_true, decide_eq_true_eq, Bool.not_eq_true', List.isEmpty_eq_false_iff] at backs
  obtain ⟨_, _, ⟨spent, _⟩ | ⟨_, ⟨empty, _⟩ | ⟨_, _, kept, _⟩⟩⟩ := dialFailed_backoff failed
  · exact absurd backs.1 (Nat.not_lt_of_le spent)
  · exact absurd empty backs.2
  · exact kept

end Peer

namespace Links

/-- A delivered result spares the give-up mark of live links: an `Ok` finds
its peer not given up, and an `Err` that finds a link does not give it up. -/
def sparesLinked (cfg : PeerLinkConfig) (l : Links) : Label → Bool
  | .select _ _ .dialResult now =>
    match l.connRx with
    | [] => true
    | message :: _ => l.peers[message.peer]?.all fun p =>
      p.central.session != some message.session ||
        match message.result with
        | .ok _ => !p.gaveUp
        | .error _ => p.link.isNone || p.backsOff cfg now
  | _ => true

section Spares
variable {cfg : PeerLinkConfig} {l : Links} {top base now : Instant} {message : DialResult}
  {rest : List DialResult} {p : Peer}

theorem not_gaveUp_of_spares (spares : l.sparesLinked cfg (.select top base .dialResult now) = true)
    (queued : l.connRx = message :: rest) (known : l.peers[message.peer]? = some p)
    (current : p.central.session = some message.session) {channel : Channel} (result : message.result = .ok channel) :
    p.gaveUp = false := by
  simpa [sparesLinked, queued, known, current, result] using spares

theorem backsOff_of_spares (spares : l.sparesLinked cfg (.select top base .dialResult now) = true)
    (queued : l.connRx = message :: rest) (known : l.peers[message.peer]? = some p)
    (current : p.central.session = some message.session) {err : BleError} (result : message.result = .error err)
    (linked : p.link.isSome = true) : p.backsOff cfg now = true := by
  have unlinked : p.link.isNone = false := by simpa using linked
  simpa [sparesLinked, queued, known, current, result, unlinked] using spares

end Spares

variable {cfg : PeerLinkConfig} {l : Links} {a : PeerAddress} {label : Label} {after : RadioState}
  {e e' : Option Peer} {sent : List Edge}

/-- The handlers that can put a link and the mark together are those of a
dial result. -/
theorem PeerStep.linked_alive (step : PeerStep cfg l a label after e sent e') (entry : l.peers[a]? = e)
    (before : ∀ p ∈ e, p.link.isSome → p.gaveUp = false) (spares : l.sparesLinked cfg label = true) :
    ∀ p ∈ e', p.link.isSome → p.gaveUp = false := by
  intro q at_q linked
  cases step with
  | kept _ => exact before q at_q linked
  | tracked => cases at_q; rfl
  | untracked => simp at at_q
  | retried => cases at_q; rfl
  | @radio _ _ _ _ _ now _ _ =>
    obtain ⟨p, at_p, rfl⟩ := Option.map_eq_some_iff.mp at_q
    obtain ⟨_, eq⟩ | ⟨_, eq | eq⟩ := Peer.radioChanged_cases l.radio after now p
    · rw [eq]; rfl
    · rw [eq] at linked ⊢
      exact before p at_p linked
    · rw [eq] at linked ⊢
      exact before p at_p linked
  | lateLoss unlinked =>
    cases at_q
    simp [Peer.centralApply, unlinked] at linked
  | @dialUnlinked _ _ _ _ _ p _ _ _ _ _ _ => cases at_q; exact before p rfl linked
  | @dialLinked _ _ _ _ _ p _ queued here current result _ =>
    cases at_q
    have alive : p.gaveUp = false := not_gaveUp_of_spares spares queued (here ▸ entry) current result
    exact alive
  | @dialFailed _ _ _ _ _ p _ _ queued here current result failed =>
    cases at_q
    obtain ⟨_, _, _, link, _⟩ := Peer.dialFailed_kept failed
    rw [link] at linked
    rw [Peer.gaveUp_of_backsOff failed (backsOff_of_spares spares queued (here ▸ entry) current result linked)]
    exact before p rfl linked
  | accepted _ _ _ _ => cases at_q; rfl
  | linkGone _ _ _ _ => cases at_q; simp [Peer.linkGone, Peer.peripheralApply, Peer.centralApply] at linked
  | @ticked _ _ now p =>
    cases at_q
    obtain ⟨_, _, _, link, _⟩ := Peer.tick_kept cfg l.radio now p
    rw [link] at linked
    obtain ⟨_, _, ⟨kept, _⟩ | ⟨_, _, unlinked, _⟩⟩ := Peer.tick_giveUp cfg l.radio now p
    · rw [kept]
      exact before p rfl linked
    · simp [unlinked] at linked
  | @dialled _ _ _ _ p _ _ _ => cases at_q; exact before p rfl linked

end Links

namespace Worker

/-- No live link is marked `gave_up`; and a dialled link that drops while the
radio is on leaves its peer ready for a dial, at any time after. -/
def LinkedAlive (cfg : PeerLinkConfig) (w : Worker) : Prop :=
  (∀ (a : PeerAddress) (p : Peer), w.peers[a]? = some p → p.link.isSome → p.gaveUp = false) ∧
    ∀ top base now message rest w' (p : Peer) link, w.linkgoneRx = message :: rest →
      step cfg w (.select top base .linkGone now) = some w' → w.peers[message.peer]? = some p →
      p.dials = true → p.link = some link → link.gen = message.gen → w.radio.usable →
      w'.radio.usable ∧ ∀ later, w'.links.ready later message.peer = true

variable {cfg : PeerLinkConfig} {w : Worker}

/-- A dropped link leaves a dialler idle, with no link and no backoff. -/
theorem ready_of_linkGone {w' : Worker} {top base now : Instant} {message : LinkGone} {rest : List LinkGone}
    {p : Peer} {link : LiveLink} (shape : p.Shape w.radio) (queued : w.linkgoneRx = message :: rest)
    (step : step cfg w (.select top base .linkGone now) = some w') (known : w.peers[message.peer]? = some p)
    (dials : p.dials = true) (linked : p.link = some link) (gen : link.gen = message.gen)
    (alive : p.gaveUp = false) : w'.radio = w.radio ∧ ∀ later, w'.links.ready later message.peer = true := by
  have change := step_change step
  generalize after : w'.links = l' at change
  cases change with
  | quiet quiet => exact quiet.elim
  | linkGoneStale queued' stale =>
    cases (List.cons.inj (queued'.symm.trans queued)).1
    exact absurd gen (stale p link known linked)
  | @linkGone _ _ _ _ _ q _ queued' known' linked' gen' =>
    cases (List.cons.inj (queued'.symm.trans queued)).1
    cases known.symm.trans known'
    refine ⟨congrArg Links.radio after, fun later => ?_⟩
    have central : (p.linkGone now).central = .idle := by
      cases shape with
      | resting _ _ link _ => simp [link] at linked
      | dialing _ _ _ link _ => simp [link] at linked
      | connected _ central _ _ _ =>
        simp [Peer.linkGone, Peer.centralApply, Peer.peripheralApply, central, CentralLink.isConnected]
      | serving accepts _ _ _ _ => simp [dials] at accepts
    have candidate : (p.linkGone now).candidate later = true :=
      Peer.candidate_iff.mpr ⟨rfl, alive, dials, central, fun due is_due => by cases is_due⟩
    simpa [Links.ready, FiniteMap.getElem?_insert] using candidate

/-- Runs whose delivered results spare the mark of live links never put the
two together. -/
theorem run_linked_alive {history : Unit}
    (run : (machine cfg).Run (fun _ w label => w.links.sparesLinked cfg label = true) (fun _ _ _ _ => ()) ()
      history w) : LinkedAlive cfg w := by
  have alive : ∀ (a : PeerAddress) (p : Peer), w.peers[a]? = some p → p.link.isSome → p.gaveUp = false := by
    induction run with
    | start first =>
      obtain ⟨initial, clock, rfl⟩ := first
      intro a p known
      simp [start] at known
    | next _ spares step ih =>
      intro a
      obtain ⟨sent, entry, _⟩ := (step_change step).peerStep a
      exact entry.linked_alive rfl (ih a) spares
  refine ⟨alive, ?_⟩
  intro top base now message rest w' p link queued step known dials linked gen usable
  obtain ⟨radio, ready⟩ := ready_of_linkGone (reach_shape run.reach known) queued step known dials linked gen
    (alive _ _ known (by rw [linked]; rfl))
  exact ⟨radio ▸ usable, ready⟩

/-- The give-up clock runs out while a dial is in flight, and the dial then
succeeds. -/
def lateSuccess (finished : Duration) : List Label :=
  let a : PeerAddress := ⟨"a"⟩
  [.select 0 0 (.track a ⟨"a"⟩) 0, .pump 0 0, .select finished finished .tick finished, .pump finished 0,
    .dialFinished 0 (.ok ⟨a, 20⟩), .select finished finished .dialResult finished, .pump finished 0]

/-- Give up after five seconds, well within the window of one dial. -/
def shortBudget : PeerLinkConfig := { role := .dialOnly, retryBudget := { giveUpAfter := .ofSecs 5 } }

theorem not_linked_alive : ¬ ∀ (cfg : PeerLinkConfig) (w : Worker), (machine cfg).Reach w → LinkedAlive cfg w := by
  intro claim
  obtain ⟨w, reach, marked⟩ := Machine.Reach.exists_of_follow (machine shortBudget)
    (fun w => w.peers[(⟨"a"⟩ : PeerAddress)]?.any fun p => p.link.isSome && p.gaveUp) ⟨.on, 0, rfl⟩
    (lateSuccess (.ofSecs 6)) (by decide +kernel)
  obtain ⟨p, known, both⟩ := (Option.any_eq_true _ _).mp marked
  rw [Bool.and_eq_true] at both
  simp [(claim _ w reach).1 _ p known both.1] at both

/-- The same run with the success in time. -/
theorem run_linked_alive_in_time : ∃ w : Worker,
    (w.peers[(⟨"a"⟩ : PeerAddress)]?.any fun p => p.link.isSome) = true ∧ LinkedAlive shortBudget w := by
  obtain ⟨_, w, run, linked⟩ := Machine.Run.exists_of_follow (machine shortBudget)
    (fun _ w label => w.links.sparesLinked shortBudget label = true) (fun _ _ _ _ => ()) ()
    (fun _ w => w.peers[(⟨"a"⟩ : PeerAddress)]?.any fun p => p.link.isSome) ⟨.on, 0, rfl⟩
    (lateSuccess (.ofSecs 4)) (by decide +kernel)
  exact ⟨w, linked, run_linked_alive run⟩

end Worker

namespace Links

/-- Whether a dial to a peer was started since the last of its `Track`, a
`Retry`, a radio loss and the drop of its link, once a step took its entry
from `e` to `e'`. -/
def dialledSince (dialled retried radioLost : Bool) (e e' : Option Peer) : Bool :=
  if (!e.any fun p => p.central.isDialing) && e'.any fun p => p.central.isDialing then true
  else if e.isNone || retried || radioLost || ((e.any fun p => p.link.isSome) && !e'.any fun p => p.link.isSome) then
    false
  else dialled

def noteDialled (dialled : PeerAddress → Bool) (l : Links) (label : Label) (l' : Links) (a : PeerAddress) : Bool :=
  dialledSince (dialled a) (label.retries a) (l.radio.usable && !l'.radio.usable) l.peers[a]? l'.peers[a]?

/-- The step starts no give-up clock of a dialler but by a dial: it is not the
drop of a dialler's link, nor the failure of a dial older than the last
`Retry` or drop. -/
def clockByDial (dialled : PeerAddress → Bool) (l : Links) : Label → Bool
  | .select _ _ .linkGone _ =>
    match l.linkgoneRx with
    | [] => true
    | message :: _ => l.peers[message.peer]?.all fun p => !p.dials || p.link.all fun link => link.gen != message.gen
  | .select _ _ .dialResult _ =>
    match l.connRx with
    | [] => true
    | message :: _ => l.peers[message.peer]?.all fun p =>
      p.central.session != some message.session || !p.dials || dialled message.peer || message.result.isOk
  | _ => true

theorem dialledSince_of_kept {dialled : Bool} {p p' : Peer} (link : p.link.isSome → p'.link.isSome)
    (before : dialled = true) : dialledSince dialled false false (some p) (some p') = true := by
  unfold dialledSince
  split
  · rfl
  · cases linked : p.link.isSome with
    | false => simpa [linked] using before
    | true => simpa [linked, link linked] using before

section Clock
variable {dialled : PeerAddress → Bool} {cfg : PeerLinkConfig} {l : Links} {a : PeerAddress} {label : Label}
  {after : RadioState} {e e' : Option Peer} {sent : List Edge} {top base now : Instant} {p : Peer}

theorem accepts_of_clockByDial {message : LinkGone} {rest : List LinkGone} {link : LiveLink}
    (spares : l.clockByDial dialled (.select top base .linkGone now) = true) (queued : l.linkgoneRx = message :: rest)
    (known : l.peers[message.peer]? = some p) (linked : p.link = some link) (gen : link.gen = message.gen) :
    p.dials = false := by
  simpa [clockByDial, queued, known, linked, gen] using spares

theorem dialled_of_clockByDial {message : DialResult} {rest : List DialResult} {err : BleError}
    (spares : l.clockByDial dialled (.select top base .dialResult now) = true) (queued : l.connRx = message :: rest)
    (known : l.peers[message.peer]? = some p) (current : p.central.session = some message.session)
    (result : message.result = .error err) (dials : p.dials = true) : dialled message.peer = true := by
  simpa [clockByDial, queued, known, current, result, dials, Except.isOk, Except.toBool] using spares

/-- What a step has to show of an entry it neither untracks, retries nor
loses with the radio. -/
theorem clock_carried {since : Bool} {p p' : Peer} (link : p.link.isSome → p'.link.isSome)
    (trying : p'.dials = true → p'.tryingSince.isSome → since = true)
    (gaveUp : p'.dials = true → p'.gaveUp = true → p.gaveUp = true ∨ since = true) :
    (∀ q ∈ some p', q.dials = true → q.tryingSince.isSome → dialledSince since false false (some p) (some p') = true) ∧
    ∀ q ∈ some p', q.dials = true → dialledSince since false false (some p) (some p') = false →
      q.gaveUp = true → (some p).any Peer.gaveUp = true := by
  refine ⟨?_, ?_⟩
  · rintro q ⟨⟩ dials running
    exact dialledSince_of_kept link (trying dials running)
  · rintro q ⟨⟩ dials waiting marked
    obtain old | new := gaveUp dials marked
    · exact old
    · simp [dialledSince_of_kept link new] at waiting

/-- A dialler's clock runs only since a dial, step by step; and the mark is
only set on a dialler whose clock so runs. -/
theorem PeerStep.clock_by_dial (step : PeerStep cfg l a label after e sent e') (entry : l.peers[a]? = e)
    (before : ∀ p ∈ e, p.dials = true → p.tryingSince.isSome → dialled a = true)
    (spares : l.clockByDial dialled label = true) :
    (∀ p ∈ e', p.dials = true → p.tryingSince.isSome →
      dialledSince (dialled a) (label.retries a) (l.radio.usable && !after.usable) e e' = true) ∧
    ∀ p ∈ e', p.dials = true →
      dialledSince (dialled a) (label.retries a) (l.radio.usable && !after.usable) e e' = false →
      p.gaveUp = true → e.any Peer.gaveUp = true := by
  have radio_kept : (l.radio.usable && !l.radio.usable) = false := by cases l.radio.usable <;> rfl
  cases step with
  | kept only =>
    cases e with
    | none => simp
    | some p =>
      have not_retried := Label.not_retries fun top base now eq => Option.some_ne_none p (only top base now eq)
      rw [not_retried, radio_kept]
      exact clock_carried id (before p rfl) fun _ => .inl
  | tracked =>
    refine ⟨?_, ?_⟩
    · rintro q ⟨⟩ dials running
      have undialled : cfg.dials _ = true := dials
      simp [Peer.track, undialled] at running
    · rintro q ⟨⟩ _ _ marked
      simp [Peer.track] at marked
  | untracked => simp
  | @retried _ _ _ p =>
    refine ⟨?_, ?_⟩
    · rintro q ⟨⟩ dials running
      have dialler : p.dials = true := dials
      simp [Peer.retry, dialler] at running
    · rintro q ⟨⟩ _ _ marked
      simp [Peer.retry] at marked
  | @radio _ _ _ _ _ now _ _ =>
    cases e with
    | none => simp
    | some p =>
      rw [Option.map_some]
      obtain ⟨⟨on, off⟩, eq⟩ | ⟨kept, same⟩ := Peer.radioChanged_cases l.radio after now p
      · rw [eq]
        refine ⟨?_, ?_⟩
        · rintro q ⟨⟩ dials running
          rw [Peer.radioLost_dials] at dials
          simp [Peer.radioLost, dials] at running
        · rintro q ⟨⟩ _ _ marked
          simp [Peer.radioLost] at marked
      · have not_lost : (l.radio.usable && !after.usable) = false := by simpa using kept
        rw [not_lost]
        obtain eq | eq := same <;> rw [eq]
        · exact clock_carried id (before p rfl) fun _ => .inl
        · exact clock_carried id (before p rfl) fun _ => .inl
  | @lateLoss _ _ _ _ _ _ p unlinked =>
    rw [radio_kept]
    exact clock_carried id (before p rfl) fun _ => .inl
  | @dialUnlinked _ _ _ _ _ p _ queued here current result unlinked =>
    rw [radio_kept]
    exact clock_carried id (before p rfl) fun _ => .inl
  | @dialLinked _ _ _ _ _ p _ queued here current result linked =>
    rw [radio_kept]
    exact clock_carried (fun _ => rfl) (fun _ running => by cases running) fun _ => .inl
  | @dialFailed _ _ _ _ _ p _ _ queued here current result failed =>
    obtain ⟨_, _, dials, link, _⟩ := Peer.dialFailed_kept failed
    have started := dialled_of_clockByDial spares queued (here ▸ entry) current result
    rw [here, ← dials] at started
    rw [radio_kept]
    exact clock_carried (link ▸ id) (fun dials _ => started dials) fun dials _ => .inr (started dials)
  | @accepted _ _ _ _ _ p here accepts unlinked usable =>
    rw [radio_kept]
    refine clock_carried (fun _ => rfl) (fun _ running => by cases running) (fun _ marked => by cases marked)
  | @linkGone _ _ _ _ _ p _ queued here linked gen =>
    have accepts := accepts_of_clockByDial spares queued (here ▸ entry) linked gen
    refine ⟨?_, ?_⟩
    · rintro q ⟨⟩ dials _
      have dials : p.dials = true := dials
      simp [accepts] at dials
    · rintro q ⟨⟩ dials _ _
      have dials : p.dials = true := dials
      simp [accepts] at dials
  | @ticked _ _ now p =>
    obtain ⟨_, _, dials, link, _⟩ := Peer.tick_kept cfg l.radio now p
    obtain ⟨trying, _, mark⟩ := Peer.tick_giveUp cfg l.radio now p
    rw [radio_kept]
    refine clock_carried (link ▸ id) ?_ ?_
    · rw [dials, trying]
      exact before p rfl
    · intro dials' marked
      rw [dials] at dials'
      obtain ⟨same, _⟩ | ⟨_, _, _, since, running, _⟩ := mark
      · exact .inl (same ▸ marked)
      · exact .inr (before p rfl dials' (by rw [running]; rfl))
  | @dialled _ _ _ _ p at_index ready usable =>
    have idle := (Peer.candidate_iff.mp ready).2.2.2.1
    refine ⟨?_, ?_⟩
    · rintro q ⟨⟩ _ _
      simp [dialledSince, idle, Peer.dialStarted_central idle, CentralLink.isDialing]
    · rintro q ⟨⟩ _ waiting _
      simp [dialledSince, idle, Peer.dialStarted_central idle, CentralLink.isDialing] at waiting

end Clock

end Links

namespace Worker

/-- The clock of a dialler runs only since a dial; and a step that leaves a
dialler undialled, which waits for a slot, does not give it up. -/
def ClockOfDial (cfg : PeerLinkConfig) (Ok : Label → Prop) (dialled : PeerAddress → Bool) (w : Worker) : Prop :=
  (∀ (a : PeerAddress) (p : Peer), w.peers[a]? = some p → p.dials = true → p.tryingSince.isSome → dialled a = true) ∧
    ∀ label w', Ok label → step cfg w label = some w' → ∀ (a : PeerAddress) (p : Peer), w'.peers[a]? = some p →
      p.dials = true → w.links.noteDialled dialled label w'.links a = false → p.gaveUp = true →
      w.peers[a]?.any Peer.gaveUp = true

variable {cfg : PeerLinkConfig} {w : Worker} {dialled : PeerAddress → Bool}

/-- Runs that start a dialler's clock by nothing but a dial. -/
theorem run_clock_of_dial
    (run : (machine cfg).Run (fun dialled w label => w.links.clockByDial dialled label = true)
      (fun dialled w label w' => w.links.noteDialled dialled label w'.links) (fun _ => false) dialled w) :
    ClockOfDial cfg (fun label => w.links.clockByDial dialled label = true) dialled w := by
  have clock : ∀ (a : PeerAddress) (p : Peer), w.peers[a]? = some p → p.dials = true → p.tryingSince.isSome →
      dialled a = true := by
    induction run with
    | start first =>
      obtain ⟨initial, clock, rfl⟩ := first
      intro a p known
      simp [start] at known
    | next _ spares step ih =>
      intro a
      obtain ⟨sent, entry, _⟩ := (step_change step).peerStep a
      exact (entry.clock_by_dial rfl (ih a) spares).1
  refine ⟨clock, ?_⟩
  intro label w' spares step a p known dials waiting marked
  obtain ⟨sent, entry, _⟩ := (step_change step).peerStep a
  exact (entry.clock_by_dial rfl (clock a) spares).2 p known dials waiting marked

/-- A dialled link comes up and drops again. -/
def droppedLink : List Label :=
  let a : PeerAddress := ⟨"a"⟩
  [.select 0 0 (.track a ⟨"a"⟩) 0, .pump 0 0, .dialFinished 0 (.ok ⟨a, 20⟩), .select 0 0 .dialResult 0, .pump 0 0,
    .pumpEnded 1, .select 0 0 .linkGone 0]

theorem not_clock_of_dial : ¬ ∀ (cfg : PeerLinkConfig) (dialled : PeerAddress → Bool) (w : Worker),
    (machine cfg).Run (fun _ _ _ => True) (fun dialled w label w' => w.links.noteDialled dialled label w'.links)
      (fun _ => false) dialled w → ClockOfDial cfg (fun _ => True) dialled w := by
  intro claim
  obtain ⟨dialled, w, run, running⟩ := Machine.Run.exists_of_follow (machine { role := .dialOnly })
    (fun _ _ _ => True) (fun dialled w label w' => w.links.noteDialled dialled label w'.links) (fun _ => false)
    (fun dialled w => !dialled ⟨"a"⟩ &&
      w.peers[(⟨"a"⟩ : PeerAddress)]?.any fun p => p.dials && p.tryingSince.isSome)
    ⟨.on, 0, rfl⟩ droppedLink (by decide +kernel)
  simp only [Bool.and_eq_true, Bool.not_eq_true', Option.any_eq_true] at running
  obtain ⟨undialled, p, known, dials, trying⟩ := running
  simp [(claim _ dialled w run).1 _ p known dials trying] at undialled

/-- The clock starts with the first dial. -/
theorem run_clock_of_dial_first : ∃ (w : Worker) (dialled : PeerAddress → Bool),
    (w.peers[(⟨"a"⟩ : PeerAddress)]?.any fun p => p.dials && p.tryingSince.isSome) = true ∧
      ClockOfDial { role := .dialOnly } (fun label => w.links.clockByDial dialled label = true) dialled w := by
  obtain ⟨dialled, w, run, running⟩ := Machine.Run.exists_of_follow (machine { role := .dialOnly })
    (fun dialled w label => w.links.clockByDial dialled label = true)
    (fun dialled w label w' => w.links.noteDialled dialled label w'.links) (fun _ => false)
    (fun _ w => w.peers[(⟨"a"⟩ : PeerAddress)]?.any fun p => p.dials && p.tryingSince.isSome)
    ⟨.on, 0, rfl⟩ (droppedLink.take 2) (by decide +kernel)
  exact ⟨w, dialled, running, run_clock_of_dial run⟩

end Worker

end BleGatt
