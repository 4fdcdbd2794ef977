import BleGatt.Connection.LinkCap

namespace BleGatt
open Std

/-! The redial ladder: how long a peer waits between a failed dial and its
next one. -/

/-- When a step reads the clock to end a dial. -/
def Label.endsDial : Label → Option Instant
  | .select _ _ .dialResult now => some now
  | .select _ _ .tick now => some now
  | _ => none

/-- The end of an unsuccessful dial: when, and after how many dials. -/
structure Failure where
  ended : Instant
  attempts : Nat

namespace Links

/-- The failure a step makes of a dial: an `Err`, or the window that closes. -/
def failedBy (label : Label) (e e' : Option Peer) : Option Failure :=
  match label.endsDial, e, e' with
  | some now, some p, some p' =>
    if p.central.isDialing && p'.central == .idle then some ⟨now, p.attempts⟩ else none
  | _, _, _ => none

/-- The last failed dial of a peer, while nothing has come in between: no
`Retry`, no `Untrack`, no radio loss, no link and no other dial. -/
def failureAfter (failure : Option Failure) (label : Label) (retried radioLost : Bool) (e e' : Option Peer) :
    Option Failure :=
  match failedBy label e e' with
  | some failed => some failed
  | none =>
    if retried || radioLost || e'.isNone || (e'.any fun p => p.link.isSome || p.central.isDialing) then none
    else failure

def noteFailures (failures : PeerAddress → Option Failure) (l : Links) (label : Label) (l' : Links)
    (a : PeerAddress) : Option Failure :=
  failureAfter (failures a) label (label.retries a) (l.radio.usable && !l'.radio.usable) l.peers[a]? l'.peers[a]?

/-- A tick that closes the window of a dial finds nothing for the ladder to
add: the peer is given up, now or already, or its next backoff is zero. -/
def ladderOnExpiry (cfg : PeerLinkConfig) (l : Links) : Label → Bool
  | .select _ _ .tick now => l.peers.toList.all fun entry =>
    match entry.2.central with
    | .dialing since _ =>
      decide (now - since < dialWindow) || entry.2.gaveUp ||
        (l.radio.usable && entry.2.tryingSince.any fun since => decide (now - since ≥ entry.2.deadline cfg)) ||
        Peer.backoffEntry cfg entry.2.attempts == some 0
    | _ => true
  | _ => true

/-- What an entry keeps of its last failure: it is given up, or its backoff
is noted. -/
def Span (cfg : PeerLinkConfig) (failure : Option Failure) (e : Option Peer) : Prop :=
  ∀ failed ∈ failure, ∃ p ∈ e, p.central.isDialing = false ∧ p.link = none ∧
    (p.gaveUp = true ∨ ∃ backoff, Peer.backoffEntry cfg failed.attempts = some backoff ∧
      (p.retryAt = some (failed.ended + backoff) ∨ backoff = 0))

variable {cfg : PeerLinkConfig} {l : Links} {a : PeerAddress} {label : Label} {after : RadioState}
  {e e' : Option Peer} {sent : List Edge} {failure : Option Failure}

/-- A step that ends no dial and keeps the entry as unlinked and undialled as
it was keeps the span, unless it ends it. -/
theorem Span.carried {p p' : Peer} {retried lost : Bool} (span : Span cfg failure (some p))
    (no_end : failedBy label (some p) (some p') = none)
    (kept : p.central.isDialing = false → p.link = none →
      p'.central.isDialing = false ∧ p'.link = none ∧
        (p'.gaveUp = true ∨ p'.gaveUp = p.gaveUp ∧ p'.retryAt = p.retryAt)) :
    Span cfg (failureAfter failure label retried lost (some p) (some p')) (some p') := by
  unfold failureAfter
  rw [no_end]
  dsimp only
  split
  · rintro _ ⟨⟩
  · intro failed member
    obtain ⟨_, ⟨⟩, undialled, unlinked, waiting⟩ := span failed member
    obtain ⟨undialled', unlinked', fields⟩ := kept undialled unlinked
    refine ⟨p', rfl, undialled', unlinked', ?_⟩
    obtain spent | ⟨gaveUp, retryAt⟩ := fields
    · exact .inl spent
    · rwa [gaveUp, retryAt]

/-- Nothing is kept where a link is up or a dial is running. -/
theorem Span.ended {p' : Peer} {retried lost : Bool} (no_end : failedBy label e (some p') = none)
    (busy : (p'.link.isSome || p'.central.isDialing) = true) :
    Span cfg (failureAfter failure label retried lost e (some p')) (some p') := by
  unfold failureAfter
  rw [no_end]
  simp [busy, Span]

theorem failedBy_eq_none (silent : label.endsDial = none) : failedBy label e e' = none := by
  simp [failedBy, silent]

theorem failedBy_eq {p p' : Peer} {now : Instant} (ends : label.endsDial = some now) :
    failedBy label (some p) (some p') =
      if p.central.isDialing && p'.central == .idle then some ⟨now, p.attempts⟩ else none := by
  simp [failedBy, ends]

theorem failedBy_of_idle {p p' : Peer} (undialled : p.central.isDialing = false) :
    failedBy label (some p) (some p') = none := by
  cases ends : label.endsDial with
  | none => exact failedBy_eq_none ends
  | some now => rw [failedBy_eq ends, undialled]; rfl

theorem failedBy_same {p : Peer} : failedBy label (some p) (some p) = none := by
  cases ends : label.endsDial with
  | none => exact failedBy_eq_none ends
  | some now => rw [failedBy_eq ends]; cases p.central <;> simp [CentralLink.isDialing]

theorem mem_failureAfter {failed : Failure} {retried lost : Bool}
    (member : failed ∈ failureAfter failure label retried lost e e') :
    label.endsDial = some failed.ended ∨ failed ∈ failure := by
  unfold failureAfter at member
  split at member
  · rename_i new ends
    cases member
    unfold failedBy at ends
    split at ends
    · rename_i now p p' at_end
      split at ends
      · cases ends
        exact .inl at_end
      · simp at ends
    · simp at ends
  · split at member
    · simp at member
    · exact .inr member

/-- A failure starts a span of its own. -/
theorem Span.failed {p' : Peer} {failed : Failure} {retried lost : Bool} (ends : failedBy label e (some p') = some failed)
    (span : Span cfg (some failed) (some p')) :
    Span cfg (failureAfter failure label retried lost e (some p')) (some p') := by
  unfold failureAfter
  rwa [ends]

/-- What a tick leaves of a dial whose window closes, the ladder having
nothing to add. -/
theorem span_of_expiry {now top base since : Instant} {session : Session} {p : Peer}
    (entry : l.peers[a]? = some p) (ladder : l.ladderOnExpiry cfg (.select top base .tick now) = true)
    (dialing : p.central = .dialing since session) (unlinked : p.link = none) (expired : now - since ≥ dialWindow) :
    Span cfg (some ⟨now, p.attempts⟩) (some (p.tick cfg l.radio now)) := by
  obtain ⟨central', _, _, link', _⟩ := Peer.tick_kept cfg l.radio now p
  rw [dialing, CentralLink.apply_tick_dialing, if_pos expired] at central'
  have spared := List.all_eq_true.mp ladder (a, p) (ExtTreeMap.mem_toList_iff_getElem?_eq_some.mpr entry)
  simp only [dialing, Nat.not_lt_of_le expired, decide_false, Bool.false_or, Bool.or_eq_true, Bool.and_eq_true,
    beq_iff_eq, Option.any_eq_true, decide_eq_true_eq] at spared
  rintro _ ⟨⟩
  refine ⟨_, rfl, by rw [central']; rfl, link'.trans unlinked, ?_⟩
  obtain (marked | ⟨usable, since, running, spent⟩) | free := spared
  · obtain ⟨_, _, ⟨same, _⟩ | ⟨spent, _⟩⟩ := Peer.tick_giveUp cfg l.radio now p
    · exact .inl (same.trans marked)
    · exact .inl spent
  · exact .inl (Peer.tick_gives_up usable unlinked running spent)
  · exact .inr ⟨0, free, .inr rfl⟩

theorem PeerStep.span (step : PeerStep cfg l a label after e sent e') (entry : l.peers[a]? = e)
    (shape : ∀ p ∈ e, p.Shape l.radio) (before : Span cfg failure e) (ladder : l.ladderOnExpiry cfg label = true) :
    Span cfg (failureAfter failure label (label.retries a) (l.radio.usable && !after.usable) e e') e' := by
  cases step with
  | kept only =>
    cases e with
    | none =>
      cases ends : label.endsDial <;> simp [failureAfter, failedBy, Span, ends]
    | some p =>
      exact before.carried failedBy_same fun undialled unlinked => ⟨undialled, unlinked, .inr ⟨rfl, rfl⟩⟩
  | @tracked _ _ peerId now =>
    have nothing : failure = none := Option.eq_none_iff_forall_not_mem.mpr fun failed member => by
      obtain ⟨_, ⟨⟩, _⟩ := before failed member
    simp [failureAfter, failedBy, nothing, Span]
  | untracked => simp [failureAfter, failedBy, Span]
  | retried => simp [failureAfter, failedBy, Label.endsDial, Label.retries, Span]
  | @radio _ _ _ _ _ now _ _ =>
    cases e with
    | none => simp [failureAfter, failedBy, Span]
    | some p =>
      rw [Option.map_some]
      obtain ⟨⟨on, off⟩, eq⟩ | ⟨_, eq | eq⟩ := Peer.radioChanged_cases l.radio after now p
      · simp [failureAfter, failedBy, Label.endsDial, on, off, Span]
      · rw [eq]
        exact before.carried (failedBy_eq_none rfl) fun undialled unlinked =>
          ⟨CentralLink.not_dialing_of_apply .radioBack (by simp) undialled, unlinked, .inr ⟨rfl, rfl⟩⟩
      · rw [eq]
        exact before.carried (failedBy_eq_none rfl) fun undialled unlinked => ⟨undialled, unlinked, .inr ⟨rfl, rfl⟩⟩
  | @lateLoss _ _ _ _ _ now p unlinked =>
    exact before.carried (failedBy_eq_none rfl) fun undialled _ =>
      ⟨CentralLink.not_dialing_of_apply .linkDropped (by simp) undialled, unlinked, .inr ⟨rfl, rfl⟩⟩
  | dialUnlinked _ _ current _ unlinked =>
    rw [(shape _ rfl).dialSucceeded_central current] at unlinked
    simp [CentralLink.isConnected] at unlinked
  | @dialLinked _ _ now _ _ p _ queued here current result linked =>
    refine Span.ended ?_ rfl
    have central : ((p.dialSucceeded now).dialLinked ⟨l.nextLinkGen + 1, l.nextTask⟩).central = _ :=
      (shape p rfl).dialSucceeded_central current
    simp [failedBy, Label.endsDial, central]
  | @dialFailed top base now message rest p p' err queued here current result failed =>
    obtain ⟨central', _, _, link', _⟩ := Peer.dialFailed_kept failed
    obtain ⟨_, _, ⟨⟨since, central⟩, unlinked, _⟩ | ⟨central, linked, _⟩⟩ := (shape p rfl).of_session current
    · rw [central] at central'
      have ends : failedBy (.select top base .dialResult now) (some p) (some p') = some ⟨now, p.attempts⟩ :=
        (failedBy_eq rfl).trans (by simp [central, central', CentralLink.isDialing])
      refine Span.failed ends ?_
      rintro _ ⟨⟩
      refine ⟨p', rfl, by rw [central']; rfl, link'.trans unlinked, ?_⟩
      obtain ⟨_, _, ⟨_, spent, _⟩ | ⟨_, ⟨_, spent⟩ | ⟨backoff, ladder, _, retryAt⟩⟩⟩ := Peer.dialFailed_backoff failed
      · exact .inl spent
      · exact .inl spent
      · exact .inr ⟨backoff, ladder, .inl retryAt⟩
    · refine Span.ended (failedBy_of_idle (by rw [central]; rfl)) ?_
      rw [link', linked]; rfl
  | accepted _ _ _ _ => exact Span.ended (failedBy_eq_none rfl) rfl
  | @linkGone _ _ now message rest p link queued here linked gen =>
    refine before.carried (failedBy_eq_none rfl) fun _ unlinked => ?_
    simp [unlinked] at linked
  | @ticked top base now p =>
    obtain ⟨central', _, _, link', _⟩ := Peer.tick_kept cfg l.radio now p
    have carry : ∀ {retried lost : Bool}, p.central.isDialing = false → Span cfg
        (failureAfter failure (.select top base .tick now) retried lost (some p) (some (p.tick cfg l.radio now)))
          (some (p.tick cfg l.radio now)) := fun undialled =>
      before.carried (failedBy_of_idle undialled) fun _ unlinked =>
        ⟨central' ▸ CentralLink.not_dialing_of_apply .tick (by simp) undialled, link'.trans unlinked,
          (Peer.tick_giveUp cfg l.radio now p).2.2.symm.imp And.left id⟩
    cases shape p rfl with
    | resting central _ _ _ => exact carry central.not_dialing
    | connected _ central _ _ _ => exact carry (by rw [central]; rfl)
    | serving _ central _ _ _ => exact carry central.not_dialing
    | @dialing since session _ central _ unlinked _ =>
      rw [central, CentralLink.apply_tick_dialing] at central'
      split at central'
      · rename_i expired
        have ends : failedBy (.select top base .tick now) (some p) (some (p.tick cfg l.radio now)) =
            some ⟨now, p.attempts⟩ :=
          (failedBy_eq rfl).trans (by simp [central, central', CentralLink.isDialing])
        exact Span.failed ends (span_of_expiry entry ladder central unlinked expired)
      · refine Span.ended ((failedBy_eq rfl).trans (by simp [central'])) ?_
        rw [central']
        simp [CentralLink.isDialing]
  | @dialled _ _ _ _ p at_index ready usable =>
    refine Span.ended (failedBy_eq_none rfl) ?_
    rw [Peer.dialStarted_central (Peer.candidate_iff.mp ready).2.2.2.1]
    simp [CentralLink.isDialing]

end Links

namespace Worker

/-- A peer whose last dial failed is dialled again no sooner than the ladder
says, and not at all if the ladder is empty. -/
def RedialSpaced (cfg : PeerLinkConfig) (failures : PeerAddress → Option Failure) (w : Worker) : Prop :=
  ∀ now elapsed w', step cfg w (.pump now elapsed) = some w' → ∀ a : PeerAddress,
    (w.peers[a]?.any fun p => p.central.isDialing) = false → (w'.peers[a]?.any fun p => p.central.isDialing) = true →
    ∀ failed ∈ failures a, cfg.retryBudget.backoff ≠ [] ∧
      ∃ backoff, cfg.retryBudget.backoff[min (failed.attempts - 1) (cfg.retryBudget.backoff.length - 1)]? =
        some backoff ∧ failed.ended + backoff ≤ now

variable {cfg : PeerLinkConfig} {w : Worker} {failures : PeerAddress → Option Failure}

theorem run_span
    (run : (machine cfg).Run (fun _ w label => w.links.ladderOnExpiry cfg label = true)
      (fun failures w label w' => w.links.noteFailures failures label w'.links) (fun _ => none) failures w)
    (a : PeerAddress) : Links.Span cfg (failures a) w.peers[a]? ∧ ∀ failed ∈ failures a, failed.ended ≤ w.clock := by
  induction run with
  | start first => exact ⟨by simp [Links.Span], by simp⟩
  | @next failures v label v' previous ladder step ih =>
    obtain ⟨sent, entry, _⟩ := (step_change step).peerStep a
    refine ⟨entry.span rfl (fun _ known => reach_shape previous.reach known) ih.1 ladder, ?_⟩
    obtain ⟨forward, read, _⟩ := step_clock step
    intro failed member
    obtain ends | old := Links.mem_failureAfter member
    · have at_end : v'.clock = failed.ended := by
        cases label with
        | select top base input now =>
          have reads : Label.endsDial (.select top base input now) = some failed.ended → now = failed.ended := by
            cases input <;> simp [Label.endsDial]
          exact (read top base input now rfl).trans (reads ends)
        | _ => simp [Label.endsDial] at ends
      exact Nat.le_of_eq at_end.symm
    · exact (ih.2 failed old).trans forward

/-- Runs in which the window of a dial never closes on a peer the ladder
should have delayed. -/
theorem run_redial_spaced
    (run : (machine cfg).Run (fun _ w label => w.links.ladderOnExpiry cfg label = true)
      (fun failures w label w' => w.links.noteFailures failures label w'.links) (fun _ => none) failures w) :
    RedialSpaced cfg failures w := by
  intro now elapsed w' step a undialled dialling failed member
  obtain ⟨span, earlier⟩ := run_span run a
  obtain ⟨p, known, _, _, waiting⟩ := span failed member
  obtain ⟨sent, entry, _⟩ := (step_change step).peerStep a
  have order := (step_clock step).2.2 now elapsed rfl
  change Links.PeerStep cfg w.links a _ _ w.peers[a]? sent w'.peers[a]? at entry
  generalize w'.links.radio = after at entry
  generalize w'.peers[a]? = e' at entry dialling
  generalize w.peers[a]? = e at entry undialled known
  cases entry with
  | kept _ => simp [undialled] at dialling
  | dialled _ ready _ =>
    cases known
    obtain ⟨_, alive, _, _, due⟩ := Peer.candidate_iff.mp ready
    obtain spent | ⟨backoff, ladder, at_due⟩ := waiting
    · simp [alive] at spent
    · refine ⟨?_, backoff, ladder, ?_⟩
      · intro empty
        simp [Peer.backoffEntry_eq_none.mpr empty] at ladder
      · obtain retryAt | rfl := at_due
        · exact due _ retryAt
        · exact (earlier failed member).trans order

/-- A dial is not answered before its window closes, at `expiry`. -/
def unansweredDial (expiry : Duration) : List Label :=
  let a : PeerAddress := ⟨"a"⟩
  [.select 0 0 (.track a ⟨"a"⟩) 0, .pump 0 0, .select expiry expiry .tick expiry]

/-- A dial fails after a second, and its peer is due again after the first
second of the default ladder. -/
def dialFails : List Label :=
  let second := Duration.ofSecs 1
  let due := Duration.ofSecs 2
  [.select 0 0 (.track ⟨"a"⟩ ⟨"a"⟩) 0, .pump 0 0, .dialFinished 0 (.error (.notConnected "a")),
    .select second second .dialResult second, .pump second 0, .select due due .tick due]

/-- The peer whose first dial failed at `ended` is dialled again at `now`. -/
def redials (cfg : PeerLinkConfig) (ended now : Instant) (failures : PeerAddress → Option Failure) (w : Worker) : Bool :=
  match failures ⟨"a"⟩, step cfg w (.pump now 0) with
  | some failed, some w' =>
    failed.attempts == 1 && decide (failed.ended = ended) &&
      !(w.peers[(⟨"a"⟩ : PeerAddress)]?.any fun p => p.central.isDialing) &&
      w'.peers[(⟨"a"⟩ : PeerAddress)]?.any fun p => p.central.isDialing
  | _, _ => false

theorem not_redial_spaced : ¬ ∀ (cfg : PeerLinkConfig) (failures : PeerAddress → Option Failure) (w : Worker),
    (machine cfg).Run (fun _ _ _ => True) (fun failures w label w' => w.links.noteFailures failures label w'.links)
      (fun _ => none) failures w → RedialSpaced cfg failures w := by
  intro claim
  obtain ⟨failures, w, run, early⟩ := Machine.Run.exists_of_follow (machine { role := .dialOnly })
    (fun _ _ _ => True) (fun failures w label w' => w.links.noteFailures failures label w'.links) (fun _ => none)
    (redials { role := .dialOnly } (Duration.ofSecs 20) (Duration.ofSecs 20)) ⟨.on, 0, rfl⟩ (unansweredDial (.ofSecs 20))
    (by decide +kernel)
  unfold redials at early
  split at early
  · rename_i failed w' noted step
    simp only [Bool.and_eq_true, beq_iff_eq, decide_eq_true_eq, Bool.not_eq_true'] at early
    obtain ⟨⟨⟨first, ended⟩, undialled⟩, dialling⟩ := early
    obtain ⟨_, backoff, ladder, due⟩ := claim _ failures w run _ 0 w' step _ undialled dialling failed noted
    rw [first] at ladder
    cases ladder
    rw [ended] at due
    exact absurd due (by decide)
  · simp at early

/-- The peer of a dial that failed is dialled again, after its backoff. -/
theorem run_redial_spaced_redialled : ∃ (failures : PeerAddress → Option Failure) (w : Worker),
    redials { role := .dialOnly } (Duration.ofSecs 1) (Duration.ofSecs 2) failures w = true ∧
      RedialSpaced { role := .dialOnly } failures w := by
  obtain ⟨failures, w, run, again⟩ := Machine.Run.exists_of_follow (machine { role := .dialOnly })
    (fun _ w label => w.links.ladderOnExpiry { role := .dialOnly } label = true)
    (fun failures w label w' => w.links.noteFailures failures label w'.links) (fun _ => none)
    (redials { role := .dialOnly } (Duration.ofSecs 1) (Duration.ofSecs 2)) ⟨.on, 0, rfl⟩ dialFails (by decide +kernel)
  exact ⟨failures, w, again, run_redial_spaced run⟩

end Worker

end BleGatt
