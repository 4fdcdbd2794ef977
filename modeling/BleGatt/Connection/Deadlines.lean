import BleGatt.Connection.PeerStep

namespace BleGatt
open Std

/-! The additions of a duration to a clock reading, each of which would panic
the worker thread if it went past the last `Instant`. -/

namespace PeerLinkConfig

/-- Some peer can be dialled. -/
def dialsPeers (cfg : PeerLinkConfig) : Bool := cfg.role != .acceptOnly && decide (0 < cfg.maxLinks)

/-- The least time that `count` dials without a link take: each is followed by
its backoff, or runs into the dial window. -/
def ladderTime (cfg : PeerLinkConfig) : Nat → Duration
  | 0 => 0
  | count + 1 => cfg.ladderTime count + min ((Peer.backoffEntry cfg (count + 1)).getD 0) dialWindow

/-- The ladder's backoff after `count + 1` dials, counted from `t`, is not past
the last `Instant`, or does not come up by then. -/
def rungFits (cfg : PeerLinkConfig) (t : Instant) (count : Nat) : Bool :=
  decide (cfg.retryBudget.giveUpAfter ≤ cfg.ladderTime count) || decide (t < cfg.ladderTime count) ||
    (Peer.backoffEntry cfg (count + 1)).all fun backoff => decide (t + backoff < Instant.limit)

/-- Nothing the worker can wait for from `t` on is past the last `Instant`:
the hour it sleeps with nothing to do, and the times of its retry budget. -/
def fits (cfg : PeerLinkConfig) (t : Instant) : Bool :=
  decide (t + Duration.ofSecs 3600 < Instant.limit) &&
    (!cfg.dialsPeers || decide (t + cfg.retryBudget.giveUpAfter < Instant.limit) &&
      (List.range cfg.retryBudget.backoff.length).all (cfg.rungFits t)) &&
    (!cfg.accepts || decide (t + cfg.retryBudget.acceptorDeadline < Instant.limit))

theorem dialsPeers_of {cfg : PeerLinkConfig} (role : cfg.role ≠ .acceptOnly) (slots : 0 < cfg.maxLinks) :
    cfg.dialsPeers = true := by
  unfold dialsPeers
  rw [Bool.and_eq_true, decide_eq_true_eq]
  exact ⟨by simpa using role, slots⟩

section Ladder
variable {cfg : PeerLinkConfig} {t : Instant}

theorem ladderTime_mono {count more : Nat} (le : count ≤ more) : cfg.ladderTime count ≤ cfg.ladderTime more := by
  induction le with
  | refl => exact Nat.le_refl _
  | step _ ih => exact ih.trans (Nat.le_add_right _ _)

theorem ladderTime_le_window (count : Nat) : cfg.ladderTime count ≤ cfg.ladderTime (count - 1) + dialWindow := by
  cases count with
  | zero => exact Nat.zero_le _
  | succ count => exact Nat.add_le_add_left (min_le_right _ _) _

theorem backoffEntry_pred (attempts : Nat) : Peer.backoffEntry cfg (attempts - 1 + 1) = Peer.backoffEntry cfg attempts := by
  rw [Peer.backoffEntry, Nat.add_sub_cancel, Peer.backoffEntry]

theorem ladderTime_le_backoff {count : Nat} {backoff : Duration} (entry : Peer.backoffEntry cfg count = some backoff) :
    cfg.ladderTime count ≤ cfg.ladderTime (count - 1) + backoff := by
  cases count with
  | zero => exact Nat.zero_le _
  | succ count =>
    rw [Nat.add_sub_cancel, ladderTime, entry]
    exact Nat.add_le_add_left (min_le_left _ _) _

/-- A clock reading that the configuration fits. -/
structure Fits (cfg : PeerLinkConfig) (t : Instant) : Prop where
  hour : t + Duration.ofSecs 3600 < Instant.limit
  giveUp : cfg.dialsPeers = true → t + cfg.retryBudget.giveUpAfter < Instant.limit
  ladder : cfg.dialsPeers = true → ∀ (count : Nat) (backoff : Duration),
    Peer.backoffEntry cfg (count + 1) = some backoff → cfg.ladderTime count < cfg.retryBudget.giveUpAfter →
      cfg.ladderTime count ≤ t → t + backoff < Instant.limit
  accept : cfg.accepts = true → t + cfg.retryBudget.acceptorDeadline < Instant.limit

/-- The last entry of the ladder repeats, and no sooner than it first comes up. -/
theorem fits_iff : cfg.fits t = true ↔ Fits cfg t := by
  unfold fits
  simp only [Bool.and_eq_true, Bool.or_eq_true, Bool.not_eq_true', decide_eq_true_eq, List.all_eq_true, List.mem_range]
  constructor
  · rintro ⟨⟨hour, dials⟩, accepts⟩
    refine ⟨hour, fun on => ?_, fun on count backoff entry within reached => ?_, fun on => ?_⟩
    · exact (dials.resolve_left (by simp [on])).1
    · have rungs := (dials.resolve_left (by simp [on])).2
      have inside : min count (cfg.retryBudget.backoff.length - 1) < cfg.retryBudget.backoff.length :=
        (List.getElem?_eq_some_iff.mp entry).1
      have first := rungs _ inside
      have sooner : cfg.ladderTime (min count (cfg.retryBudget.backoff.length - 1)) ≤ cfg.ladderTime count :=
        ladderTime_mono (min_le_left _ _)
      have same : Peer.backoffEntry cfg (min count (cfg.retryBudget.backoff.length - 1) + 1) = some backoff := by
        rw [← entry, Peer.backoffEntry, Peer.backoffEntry, Nat.add_sub_cancel, Nat.add_sub_cancel, min_assoc, Nat.min_self]
      unfold rungFits at first
      rw [same, Option.all_some, Bool.or_eq_true, Bool.or_eq_true, decide_eq_true_eq, decide_eq_true_eq,
        decide_eq_true_eq] at first
      rcases first with (spent | early) | below
      · exact absurd within (Nat.not_lt.mpr (spent.trans sooner))
      · exact absurd reached (Nat.not_le.mpr (early.trans_le sooner))
      · exact below
    · exact accepts.resolve_left (by simp [on])
  · intro fits
    refine ⟨⟨fits.hour, ?_⟩, ?_⟩
    · cases on : cfg.dialsPeers with
      | false => exact .inl rfl
      | true =>
        refine .inr ⟨fits.giveUp on, fun count _ => ?_⟩
        unfold rungFits
        cases entry : Peer.backoffEntry cfg (count + 1) with
        | none => simp
        | some backoff =>
          have rung := fits.ladder on count backoff entry
          rw [Option.all_some, Bool.or_eq_true, Bool.or_eq_true, decide_eq_true_eq, decide_eq_true_eq,
            decide_eq_true_eq]
          by_cases spent : cfg.retryBudget.giveUpAfter ≤ cfg.ladderTime count
          · exact .inl (.inl spent)
          · by_cases early : t < cfg.ladderTime count
            · exact .inl (.inr early)
            · exact .inr (rung (Nat.lt_of_not_le spent) (Nat.le_of_not_lt early))
    · cases on : cfg.accepts with
      | false => exact .inl rfl
      | true => exact .inr (fits.accept on)

/-- What fits a reading fits the earlier ones. -/
theorem Fits.earlier {later : Instant} (fits : Fits cfg later) (before : t ≤ later) : Fits cfg t where
  hour := (Nat.add_le_add_right before _).trans_lt fits.hour
  giveUp on := (Nat.add_le_add_right before _).trans_lt (fits.giveUp on)
  ladder on count backoff entry within reached :=
    (Nat.add_le_add_right before _).trans_lt (fits.ladder on count backoff entry within (reached.trans before))
  accept on := (Nat.add_le_add_right before _).trans_lt (fits.accept on)

end Ladder

end PeerLinkConfig

/-- What the times of an entry come from. `since` and `waits` say that a
dialer has been trying for at least as long as its dials must have taken. -/
structure Timed (cfg : PeerLinkConfig) (clock : Instant) (p : Peer) : Prop where
  role : (p.dials = true → cfg.role ≠ .acceptOnly) ∧ (p.dials = false → cfg.accepts = true)
  undialled : p.dials = false → p.central.session = none ∧ p.attempts = 0
  slots : p.dials = true → p.tryingSince ≠ none ∨ p.link ≠ none ∨ p.central.session ≠ none → 0 < cfg.maxLinks
  since : ∀ since, p.tryingSince = some since → since ≤ clock
  fresh : p.tryingSince = none → p.attempts = 0
  dialing : ∀ began session, p.central = .dialing began session → began ≤ clock ∧ p.link = none ∧
    ∀ since, p.tryingSince = some since → since + cfg.ladderTime (p.attempts - 1) ≤ began
  settled : p.central.isDialing = false → p.central.session ≠ none → p.attempts = 0
  waits : p.central.isDialing = false → p.gaveUp = false → ∀ since, p.tryingSince = some since → ∀ t, clock ≤ t →
    (∀ due, p.retryAt = some due → due ≤ t) → since + cfg.ladderTime p.attempts ≤ t
  retry : ∀ due, p.retryAt = some due → cfg.dialsPeers = true ∧ ∃ count backoff,
    Peer.backoffEntry cfg (count + 1) = some backoff ∧ cfg.ladderTime count < cfg.retryBudget.giveUpAfter ∧
      cfg.ladderTime count ≤ clock ∧ due ≤ clock + backoff

namespace Timed

variable {cfg : PeerLinkConfig} {clock now : Instant} {p p' : Peer}

theorem later (timed : Timed cfg clock p) (after : clock ≤ now) : Timed cfg now p where
  role := timed.role
  undialled := timed.undialled
  slots := timed.slots
  since since trying := (timed.since since trying).trans after
  fresh := timed.fresh
  dialing began session central := by
    obtain ⟨before, unlinked, spent⟩ := timed.dialing began session central
    exact ⟨before.trans after, unlinked, spent⟩
  settled := timed.settled
  waits idle alive since trying t past := timed.waits idle alive since trying t (after.trans past)
  retry due waits := by
    obtain ⟨dials, count, backoff, entry, within, reached, soon⟩ := timed.retry due waits
    exact ⟨dials, count, backoff, entry, within, reached.trans after, soon.trans (Nat.add_le_add_right after _)⟩

theorem idle_of_accepts (timed : Timed cfg clock p) (accepts : p.dials = false) : p.central.isDialing = false := by
  have silent := (timed.undialled accepts).1
  cases central : p.central <;> simp_all [CentralLink.session, CentralLink.isDialing]

/-- The times of the entry start again, and its link to the peer is as it was or gone. -/
theorem restart (timed : Timed cfg now p) (dials : p'.dials = p.dials) (attempts : p'.attempts = 0)
    (retryAt : p'.retryAt = none) (trying : p'.tryingSince = none ∨ p'.tryingSince = some now ∧
      (p.dials = true → 0 < cfg.maxLinks) ∧ p'.central.isDialing = false)
    (session : p'.central.session = none ∨ p'.central.session = p.central.session)
    (central : ∀ began session, p'.central = .dialing began session → p.central = .dialing began session)
    (link : p'.link = none ∨ p'.link = p.link) : Timed cfg now p' where
  role := dials ▸ timed.role
  undialled accepts := by
    have silent := (timed.undialled (dials ▸ accepts)).1
    exact ⟨session.elim id fun same => same.trans silent, attempts⟩
  slots on touched := by
    rw [dials] at on
    rcases trying with none_ | ⟨_, slots, _⟩
    · rcases touched with running | linked | busy
      · exact absurd none_ running
      · exact timed.slots on (.inr (.inl (link.elim (fun gone => absurd gone linked) fun same => same ▸ linked)))
      · exact timed.slots on (.inr (.inr (session.elim (fun gone => absurd gone busy) fun same => same ▸ busy)))
    · exact slots on
  since since running := by
    rcases trying with none_ | ⟨started, _⟩
    · exact absurd (running.symm.trans none_) (by simp)
    · exact (Option.some.inj (running.symm.trans started)).le
  fresh _ := attempts
  dialing began session' dialing := by
    obtain ⟨before, unlinked, _⟩ := timed.dialing began session' (central began session' dialing)
    refine ⟨before, link.elim id fun same => same.trans unlinked, fun since running => ?_⟩
    rcases trying with none_ | ⟨_, _, idle⟩
    · exact absurd (running.symm.trans none_) (by simp)
    · rw [dialing] at idle
      exact absurd idle (by simp [CentralLink.isDialing])
  settled _ _ := attempts
  waits _ _ since running t past _ := by
    rw [attempts]
    rcases trying with none_ | ⟨started, _⟩
    · exact absurd (running.symm.trans none_) (by simp)
    · rw [Option.some.inj (running.symm.trans started)]
      exact past
  retry due waits := absurd (waits.symm.trans retryAt) (by simp)

theorem track {dials : Bool} (role : (dials = true → cfg.role ≠ .acceptOnly) ∧ (dials = false → cfg.accepts = true)) :
    Timed cfg now (.track dials now) where
  role := role
  undialled _ := ⟨rfl, rfl⟩
  slots on touched := by
    rcases touched with running | linked | busy
    · exact absurd (if_pos on) running
    · exact absurd rfl linked
    · exact absurd rfl busy
  since since running := by
    obtain ⟨_, ⟨⟩⟩ := Option.ite_none_left_eq_some.mp running
    exact Nat.le_refl _
  fresh _ := rfl
  dialing _ _ dialing := by simp [Peer.track, CentralLink.new] at dialing
  settled _ _ := rfl
  waits _ _ since running t past _ := by
    obtain ⟨_, ⟨⟩⟩ := Option.ite_none_left_eq_some.mp running
    exact past
  retry _ waits := absurd waits (by simp [Peer.track])

theorem retried (timed : Timed cfg now p) : Timed cfg now (p.retry now) := by
  refine timed.restart rfl rfl rfl ?_ (.inr rfl) (fun _ _ same => same) (.inr rfl)
  cases dials : p.dials with
  | true => exact .inl (by simp [Peer.retry, dials])
  | false => exact .inr ⟨by simp [Peer.retry, dials], by simp, timed.idle_of_accepts dials⟩

theorem radioLost (timed : Timed cfg now p) : Timed cfg now (p.radioLost now) := by
  have central : (p.radioLost now).central = .radioOff := by
    simp [Peer.radioLost, Peer.clearStaleDial, Peer.centralApply, Peer.peripheralApply, CentralLink.isDialing]
  refine timed.restart (p.radioLost_dials now) rfl rfl ?_ ?_ ?_ (.inl rfl)
  · cases dials : p.dials with
    | true => exact .inl (by simp [Peer.radioLost, Peer.clearStaleDial, Peer.centralApply, Peer.peripheralApply, dials])
    | false =>
      refine .inr ⟨?_, by simp, by rw [central]; rfl⟩
      simp [Peer.radioLost, Peer.clearStaleDial, Peer.centralApply, Peer.peripheralApply, dials]
  · rw [central]
    exact .inl rfl
  · rw [central]
    simp

theorem linkGone (timed : Timed cfg now p) {link : LiveLink} (linked : p.link = some link) :
    Timed cfg now (p.linkGone now) := by
  have central : (p.linkGone now).central = (p.central.apply .linkDropped now).1 := rfl
  have undialled : p.central.isDialing = false := by
    cases at_central : p.central with
    | dialing began session =>
      have unlinked := (timed.dialing began session at_central).2.1
      exact absurd (linked.symm.trans unlinked) (by simp)
    | _ => rfl
  have dropped : (p.linkGone now).central = .idle ∨ (p.linkGone now).central = p.central := by
    rw [central, CentralLink.apply_linkDropped]
    split
    · exact .inl rfl
    · exact .inr rfl
  refine timed.restart rfl rfl rfl (.inr ⟨rfl, fun on => timed.slots on (.inr (.inl (by simp [linked]))), ?_⟩) ?_ ?_ (.inl rfl)
  · rcases dropped with idle | same
    · rw [idle]
      rfl
    · rw [same]
      exact undialled
  · rcases dropped with idle | same
    · exact .inl (by rw [idle]; rfl)
    · exact .inr (by rw [same])
  · intro began session dialing
    rcases dropped with idle | same
    · rw [idle] at dialing
      exact absurd dialing (by simp)
    · rw [← same]
      exact dialing

/-- Nothing of the times changes, and no dial begins or ends. -/
theorem settle (timed : Timed cfg now p) (dials : p'.dials = p.dials) (tryingSince : p'.tryingSince = p.tryingSince)
    (attempts : p'.attempts = p.attempts) (retryAt : p'.retryAt = p.retryAt) (gaveUp : p'.gaveUp = p.gaveUp)
    (link : p'.link = p.link) (central : p'.central = p.central ∨
      p.central.isDialing = false ∧ p'.central.isDialing = false ∧ p'.central.session = none) : Timed cfg now p' where
  role := dials ▸ timed.role
  undialled accepts := by
    obtain ⟨silent, never⟩ := timed.undialled (dials ▸ accepts)
    refine ⟨?_, attempts.trans never⟩
    rcases central with same | ⟨_, _, none_⟩
    · rw [same, silent]
    · exact none_
  slots on touched := by
    rw [tryingSince, link] at touched
    refine timed.slots (dials ▸ on) (touched.imp_right (Or.imp_right fun busy => ?_))
    rcases central with same | ⟨_, _, none_⟩
    · exact same ▸ busy
    · exact absurd none_ busy
  since := tryingSince ▸ timed.since
  fresh running := attempts.trans (timed.fresh (tryingSince ▸ running))
  dialing began session dialing := by
    rw [tryingSince, attempts, link]
    rcases central with same | ⟨_, idle, _⟩
    · exact timed.dialing began session (same ▸ dialing)
    · rw [dialing] at idle
      exact absurd idle (by simp [CentralLink.isDialing])
  settled idle busy := by
    rw [attempts]
    rcases central with same | ⟨_, _, none_⟩
    · exact timed.settled (same ▸ idle) (same ▸ busy)
    · exact absurd none_ busy
  waits idle alive := by
    rw [tryingSince, attempts, retryAt]
    rcases central with same | ⟨before, _, _⟩
    · exact timed.waits (same ▸ idle) (gaveUp ▸ alive)
    · exact timed.waits before (gaveUp ▸ alive)
  retry := by
    rw [retryAt]
    exact timed.retry

theorem radioBack (timed : Timed cfg now p) : Timed cfg now (p.radioBack now) := by
  refine timed.settle rfl rfl rfl rfl rfl rfl ?_
  change (p.central.apply .radioBack now).1 = _ ∨ _ ∧ (p.central.apply .radioBack now).1.isDialing = _ ∧
    (p.central.apply .radioBack now).1.session = _
  rw [CentralLink.apply_radioBack]
  split
  · rename_i off
    exact .inr ⟨by rw [off]; rfl, rfl, rfl⟩
  · exact .inl rfl

theorem lateLoss (timed : Timed cfg now p) : Timed cfg now (p.centralApply .linkDropped now) := by
  refine timed.settle rfl rfl rfl rfl rfl rfl ?_
  change (p.central.apply .linkDropped now).1 = _ ∨ _ ∧ (p.central.apply .linkDropped now).1.isDialing = _ ∧
    (p.central.apply .linkDropped now).1.session = _
  rw [CentralLink.apply_linkDropped]
  cases p.central <;> simp [CentralLink.isConnected, CentralLink.isDialing, CentralLink.session]

/-- A dial that runs into its window took at least that long. -/
theorem centralTick (timed : Timed cfg now p) : Timed cfg now (p.centralApply .tick now) := by
  cases central : p.central with
  | dialing began session =>
    have ticked : (p.centralApply .tick now).central =
        if now - began ≥ dialWindow then .idle else .dialing began session := by
      unfold Peer.centralApply
      rw [central]
      exact CentralLink.apply_tick_dialing now began session
    by_cases expired : now - began ≥ dialWindow
    · rw [if_pos expired] at ticked
      obtain ⟨_, _, spent⟩ := timed.dialing began session central
      constructor
      case role => exact timed.role
      case undialled => exact fun accepts => ⟨by rw [ticked]; rfl, (timed.undialled accepts).2⟩
      case slots => exact fun on _ => timed.slots on (.inr (.inr (by simp [central, CentralLink.session])))
      case since => exact timed.since
      case fresh => exact timed.fresh
      case dialing =>
        intro _ _ dialing
        rw [ticked] at dialing
        exact absurd dialing (by simp)
      case settled =>
        intro _ busy
        rw [ticked] at busy
        exact absurd rfl busy
      case waits =>
        intro _ _ since running t past _
        calc since + cfg.ladderTime p.attempts
            ≤ since + (cfg.ladderTime (p.attempts - 1) + dialWindow) :=
              Nat.add_le_add_left (PeerLinkConfig.ladderTime_le_window _) _
          _ = since + cfg.ladderTime (p.attempts - 1) + dialWindow := (Nat.add_assoc _ _ _).symm
          _ ≤ began + (now - began) := Nat.add_le_add (spent since running) expired
          _ ≤ t := by
            have began_le := (timed.dialing began session central).1
            rw [Nat.add_sub_cancel' began_le]
            exact past
      case retry => exact timed.retry
    · rw [if_neg expired, ← central] at ticked
      exact timed.settle rfl rfl rfl rfl rfl rfl (.inl ticked)
  | disconnecting since session =>
    refine timed.settle rfl rfl rfl rfl rfl rfl ?_
    unfold Peer.centralApply
    rw [central]
    dsimp only [CentralLink.apply]
    split
    · exact .inr ⟨rfl, rfl, rfl⟩
    · exact .inl rfl
  | draining since =>
    refine timed.settle rfl rfl rfl rfl rfl rfl (.inr ⟨by rw [central]; rfl, ?_⟩)
    unfold Peer.centralApply
    rw [central]
    dsimp only [CentralLink.apply]
    split <;> exact ⟨rfl, rfl⟩
  | idle | connected _ | radioOff =>
    refine timed.settle rfl rfl rfl rfl rfl rfl (.inl ?_)
    unfold Peer.centralApply
    rw [central]
    rfl

theorem spent (timed : Timed cfg now p) : Timed cfg now { p with gaveUp := true, retryAt := none } where
  role := timed.role
  undialled := timed.undialled
  slots := timed.slots
  since := timed.since
  fresh := timed.fresh
  dialing := timed.dialing
  settled := timed.settled
  waits _ alive := absurd alive (by simp)
  retry _ waits := absurd waits (by simp)

theorem tick (timed : Timed cfg now p) (radio : RadioState) : Timed cfg now (p.tick cfg radio now) := by
  have cleared : Timed cfg now (p.centralApply .tick now).clearStaleDial := by
    have ticked := timed.centralTick
    unfold Peer.clearStaleDial
    split
    · exact ticked
    · exact ticked.settle rfl rfl rfl rfl rfl rfl (.inl rfl)
  unfold Peer.tick
  rcases Peer.giveUpWhenSpent_cases cfg radio now (p.centralApply .tick now).clearStaleDial with same | ⟨gave_up, _⟩
  · rw [same]
    exact cleared
  · rw [gave_up]
    exact cleared.spent

theorem dialStarted (timed : Timed cfg now p) (ready : p.candidate now = true) (slots : 0 < cfg.maxLinks)
    (session : Session) (task : TaskId) : Timed cfg now (p.dialStarted session task now) := by
  obtain ⟨unlinked, alive, dials, idle, due⟩ := Peer.candidate_iff.mp ready
  have central : (p.dialStarted session task now).central = .dialing now session := Peer.dialStarted_central idle
  have trying : ∀ since, (p.dialStarted session task now).tryingSince = some since →
      since + cfg.ladderTime p.attempts ≤ now := by
    intro since running
    have running : (p.tryingSince <|> some now) = some since := running
    cases before : p.tryingSince with
    | none =>
      rw [before] at running
      cases Option.some.inj running
      rw [timed.fresh before]
      exact Nat.le_refl _
    | some since' =>
      rw [before] at running
      cases Option.some.inj running
      exact timed.waits (by rw [idle]; rfl) alive since before now (Nat.le_refl _) fun at_ waits => due at_ waits
  constructor
  case role => exact timed.role
  case undialled => exact fun accepts => absurd (dials.symm.trans accepts) (by simp)
  case slots => exact fun _ _ => slots
  case since => exact fun since running => (Nat.le_add_right _ _).trans (trying since running)
  case fresh =>
    intro stopped
    have stopped : (p.tryingSince <|> some now) = none := stopped
    cases before : p.tryingSince <;> simp [before] at stopped
  case dialing =>
    intro began session' dialing
    rw [central] at dialing
    cases dialing
    exact ⟨Nat.le_refl _, unlinked, trying⟩
  case settled =>
    intro settled
    rw [central] at settled
    exact absurd settled (by simp [CentralLink.isDialing])
  case waits =>
    intro settled
    rw [central] at settled
    exact absurd settled (by simp [CentralLink.isDialing])
  case retry => exact timed.retry

/-- A peer that has a session is one that was dialled. -/
theorem dials_of_session (timed : Timed cfg now p) {session : Session} (current : p.central.session = some session) :
    p.dials = true := by
  cases dials : p.dials with
  | true => rfl
  | false => exact absurd (current.symm.trans (timed.undialled dials).1) (by simp)

theorem dialUnlinked (timed : Timed cfg now p) (unlinked : (p.dialSucceeded now).central.isConnected = false) :
    Timed cfg now (p.dialSucceeded now) := by
  refine timed.settle rfl rfl rfl rfl rfl rfl (.inl ?_)
  change (p.central.apply .dialSucceeded now).1.isConnected = false at unlinked
  change (p.central.apply .dialSucceeded now).1 = p.central
  rw [CentralLink.apply_dialSucceeded] at unlinked ⊢
  cases central : p.central <;> simp_all [CentralLink.isConnected]

theorem dialLinked (timed : Timed cfg now p) {session : Session} (current : p.central.session = some session)
    (connected : (p.dialSucceeded now).central.isConnected = true) (link : LiveLink) :
    Timed cfg now ((p.dialSucceeded now).dialLinked link) := by
  have dials := timed.dials_of_session current
  have slots := timed.slots dials (.inr (.inr (by simp [current])))
  constructor
  case role => exact timed.role
  case undialled => exact fun accepts => absurd (dials.symm.trans accepts) (by simp)
  case slots => exact fun _ _ => slots
  case since => exact fun _ running => absurd running (by simp [Peer.dialLinked])
  case fresh => exact fun _ => rfl
  case dialing =>
    intro began session' dialing
    have dialing : (p.dialSucceeded now).central = .dialing began session' := dialing
    rw [dialing] at connected
    exact absurd connected (by simp [CentralLink.isConnected])
  case settled => exact fun _ _ => rfl
  case waits => exact fun _ _ _ running => absurd running (by simp [Peer.dialLinked])
  case retry => exact fun _ waits => absurd waits (by simp [Peer.dialLinked])

theorem accepted (timed : Timed cfg now p) (accepts : p.dials = false) (session : Session) (link : LiveLink) :
    Timed cfg now (p.accepted session link now) := by
  obtain ⟨silent, never⟩ := timed.undialled accepts
  constructor
  case role => exact timed.role
  case undialled => exact fun _ => ⟨silent, never⟩
  case slots => exact fun on => absurd (accepts.symm.trans on) (by simp)
  case since => exact fun _ running => absurd running (by simp [Peer.accepted])
  case fresh => exact fun _ => never
  case dialing =>
    intro began session' dialing
    have dialing : p.central = .dialing began session' := dialing
    rw [dialing] at silent
    exact absurd silent (by simp [CentralLink.session])
  case settled => exact fun _ _ => never
  case waits => exact fun _ _ _ running => absurd running (by simp [Peer.accepted])
  case retry => exact fun _ waits => absurd waits (by simp [Peer.accepted])

/-- A dial that is over leaves at least what the dials before it took. -/
theorem elapsed (timed : Timed cfg now p) {session : Session} (current : p.central.session = some session) :
    cfg.ladderTime (p.attempts - 1) ≤ now - p.tryingSince.getD now := by
  cases trying : p.tryingSince with
  | none =>
    rw [timed.fresh trying]
    exact Nat.zero_le _
  | some since =>
    rw [Option.getD_some]
    cases idle : p.central.isDialing with
    | false =>
      rw [timed.settled idle (by simp [current])]
      exact Nat.zero_le _
    | true =>
      obtain ⟨began, session', central⟩ : ∃ began session', p.central = .dialing began session' := by
        cases central : p.central <;> simp_all [CentralLink.isDialing]
      obtain ⟨before, _, spent⟩ := timed.dialing began session' central
      have reached : since + cfg.ladderTime (p.attempts - 1) ≤ now := (spent since trying).trans before
      exact Nat.le_sub_of_add_le' reached

/-- The backoff that waits after a failed dial is the ladder's, unless there is no ladder. -/
theorem dialFailed_retryAt (failed : p.dialFailed cfg now = some p') {due : Instant} (waits : p'.retryAt = some due) :
    p.retryAt = some due ∧ cfg.retryBudget.backoff = [] ∨ ∃ backoff, Peer.backoffEntry cfg p.attempts = some backoff ∧
      due = now + backoff ∧ now - p.tryingSince.getD now < cfg.retryBudget.giveUpAfter := by
  unfold Peer.dialFailed Peer.applyBackoff at failed
  dsimp only at failed
  split at failed
  · cases Option.some.inj failed
    exact absurd waits (by simp)
  · rename_i left
    split at failed
    · rename_i empty
      cases Option.some.inj failed
      exact .inl ⟨waits, Peer.backoffEntry_eq_none.mp empty⟩
    · rename_i backoff entry
      obtain ⟨at_, sum, eq⟩ := Option.bind_eq_some_iff.mp failed
      cases Option.some.inj eq
      cases Option.some.inj waits
      exact .inr ⟨backoff, entry, (Instant.plus_eq_some.mp sum).2, Nat.lt_of_not_le left⟩

theorem dialFailed (timed : Timed cfg now p) {session : Session} (current : p.central.session = some session)
    (failed : p.dialFailed cfg now = some p') : Timed cfg now p' := by
  have dials := timed.dials_of_session current
  have slots := timed.slots dials (.inr (.inr (by simp [current])))
  have elapsed := timed.elapsed current
  obtain ⟨central, _, dials', link, _⟩ := Peer.dialFailed_kept failed
  obtain ⟨trying, attempts, decided⟩ := Peer.dialFailed_backoff failed
  have started : p.tryingSince.getD now ≤ now := by
    cases running : p.tryingSince with
    | none => exact Nat.le_refl _
    | some since => exact timed.since since running
  have idle : p'.central.isDialing = false := by
    rw [central, CentralLink.apply_dialFailed]
    split
    · rfl
    · rename_i settled
      simpa using settled
  constructor
  case role => exact dials' ▸ timed.role
  case undialled => exact fun accepts => absurd ((dials'.trans dials).symm.trans accepts) (by simp)
  case slots => exact fun _ _ => slots
  case since =>
    intro since running
    cases Option.some.inj (running.symm.trans trying)
    exact started
  case fresh => exact fun stopped => absurd (stopped.symm.trans trying) (by simp)
  case dialing =>
    intro began session' dialing
    rw [dialing] at idle
    exact absurd idle (by simp [CentralLink.isDialing])
  case settled =>
    intro _ busy
    rw [central, CentralLink.apply_dialFailed] at busy
    split at busy
    · exact absurd rfl busy
    · rename_i settled
      exact attempts.trans (timed.settled (by simpa using settled) busy)
  case waits =>
    intro _ alive since running t past due
    cases Option.some.inj (running.symm.trans trying)
    rw [attempts]
    rcases decided with ⟨_, gave_up, _⟩ | ⟨_, ⟨_, gave_up⟩ | ⟨backoff, entry, _, retryAt⟩⟩
    · exact absurd (gave_up.symm.trans alive) (by simp)
    · exact absurd (gave_up.symm.trans alive) (by simp)
    · calc p.tryingSince.getD now + cfg.ladderTime p.attempts
          ≤ p.tryingSince.getD now + (cfg.ladderTime (p.attempts - 1) + backoff) :=
            Nat.add_le_add_left (PeerLinkConfig.ladderTime_le_backoff entry) _
        _ ≤ p.tryingSince.getD now + ((now - p.tryingSince.getD now) + backoff) :=
            Nat.add_le_add_left (Nat.add_le_add_right elapsed _) _
        _ = now + backoff := by rw [← Nat.add_assoc, Nat.add_sub_cancel' started]
        _ ≤ t := due _ retryAt
  case retry =>
    intro due waits
    refine ⟨PeerLinkConfig.dialsPeers_of (timed.role.1 dials) slots, ?_⟩
    rcases dialFailed_retryAt failed waits with ⟨before, empty⟩ | ⟨backoff, entry, rfl, left⟩
    · obtain ⟨_, count, backoff, entry, _⟩ := timed.retry due before
      rw [Peer.backoffEntry_eq_none.mpr empty] at entry
      exact absurd entry (by simp)
    · refine ⟨p.attempts - 1, backoff, ?_, elapsed.trans_lt left, elapsed.trans (Nat.sub_le _ _), Nat.le_refl _⟩
      rw [PeerLinkConfig.backoffEntry_pred, entry]

end Timed

/-- The times of an entry after a step, the clock having been read on the way. -/
theorem Links.PeerStep.timed {cfg : PeerLinkConfig} {l : Links} {a : PeerAddress} {label : Label} {after : RadioState}
    {e e' : Option Peer} {sent : List Edge} (step : PeerStep cfg l a label after e sent e') {clock clock' : Instant}
    (before : ∀ p ∈ e, Timed cfg clock p) (onwards : clock ≤ clock')
    (selected : ∀ top base input now, label = .select top base input now → clock ≤ now ∧ now ≤ clock')
    (pumped : ∀ now elapsed, label = .pump now elapsed → clock ≤ now ∧ now ≤ clock') : ∀ p ∈ e', Timed cfg clock' p := by
  have of_select : ∀ {top base input now p p'}, label = .select top base input now → e = some p →
      (Timed cfg now p → Timed cfg now p') → Timed cfg clock' p' := by
    intro top base input now p p' own known change
    obtain ⟨past, last⟩ := selected top base input now own
    exact (change ((before p known).later past)).later last
  intro p' known
  cases step with
  | kept _ => exact (before p' known).later onwards
  | @tracked top base peerId now =>
    cases Option.some.inj known
    have role : (cfg.dials peerId = true → cfg.role ≠ .acceptOnly) ∧ (cfg.dials peerId = false → cfg.accepts = true) := by
      unfold PeerLinkConfig.dials PeerLinkConfig.accepts
      cases cfg.role with
      | symmetric localId => exact ⟨fun _ => LinkRole.noConfusion, fun _ => rfl⟩
      | dialOnly => exact ⟨fun _ => LinkRole.noConfusion, fun accepts => absurd accepts (by simp)⟩
      | acceptOnly => exact ⟨fun dials => absurd dials (by simp), fun _ => rfl⟩
    exact (Timed.track role).later (selected _ _ _ _ rfl).2
  | untracked => exact absurd known (by simp)
  | retried =>
    cases Option.some.inj known
    exact of_select rfl rfl Timed.retried
  | @radio top base status probe caps now after e =>
    obtain ⟨p, held, rfl⟩ := Option.map_eq_some_iff.mp known
    refine of_select rfl held fun timed => ?_
    rcases Peer.radioChanged_cases l.radio after now p with ⟨_, lost⟩ | ⟨_, back | same⟩
    · rw [lost]
      exact timed.radioLost
    · rw [back]
      exact timed.radioBack
    · rw [same]
      exact timed
  | lateLoss _ =>
    cases Option.some.inj known
    exact of_select rfl rfl Timed.lateLoss
  | dialUnlinked _ _ _ _ unlinked =>
    cases Option.some.inj known
    exact of_select rfl rfl fun timed => timed.dialUnlinked unlinked
  | dialLinked _ _ current _ connected =>
    cases Option.some.inj known
    exact of_select rfl rfl fun timed => timed.dialLinked current connected _
  | dialFailed _ _ current _ failed =>
    cases Option.some.inj known
    exact of_select rfl rfl fun timed => timed.dialFailed current failed
  | accepted _ accepts _ _ =>
    cases Option.some.inj known
    exact of_select rfl rfl fun timed => timed.accepted accepts _ _
  | linkGone _ _ linked _ =>
    cases Option.some.inj known
    exact of_select rfl rfl fun timed => timed.linkGone linked
  | ticked =>
    cases Option.some.inj known
    exact of_select rfl rfl fun timed => timed.tick _
  | @dialled now elapsed index task p dialled ready usable =>
    cases Option.some.inj known
    have slots : 0 < cfg.maxLinks := by
      unfold Links.dialled at dialled
      rw [if_pos usable] at dialled
      have inside := (List.getElem?_eq_some_iff.mp dialled).1
      rw [List.length_take] at inside
      omega
    obtain ⟨past, last⟩ := pumped now elapsed rfl
    exact (((before p rfl).later past).dialStarted ready slots _ _).later last

namespace Worker

variable {cfg : PeerLinkConfig} {w w' : Worker}

/-- No peer's times are ahead of the clock, and the inbound server's wait is the one it started. -/
structure OnTime (cfg : PeerLinkConfig) (w : Worker) : Prop where
  peers : ∀ (a : PeerAddress) (p : Peer), w.peers[a]? = some p → Timed cfg w.clock p
  serve : ∀ due, w.serveRetryAt = some due → due ≤ w.clock + serveRetryDelay

theorem pump_clock {now : Instant} {elapsed : Duration} (step : step cfg w (.pump now elapsed) = some w') :
    w'.clock = now + elapsed ∧ w'.serveRetryAt = w.serveRetryAt := by
  cases step_cases step with
  | pump _ _ =>
    have server := (server_refreshAllStatus cfg _).trans
      (server_pumpDials cfg now elapsed { w with clock := now + elapsed, pumpDue := false })
    exact ⟨congrArg Prod.fst server, congrArg (fun server => server.2.2) server⟩

theorem restartServe_waits (cfg : PeerLinkConfig) (top : Instant) (w : Worker) {due : Instant}
    (waits : (w.restartServe cfg top).serveRetryAt = some due) : w.serveRetryAt = some due := by
  unfold restartServe at waits
  split at waits
  · exact absurd waits (by simp)
  · exact waits

theorem OnTime.restartServe (onTime : OnTime cfg w) (top : Instant) : OnTime cfg (w.restartServe cfg top) := by
  have same : (w.restartServe cfg top).clock = w.clock ∧ (w.restartServe cfg top).peers = w.peers := by
    unfold Worker.restartServe
    split <;> exact ⟨rfl, rfl⟩
  constructor
  · rw [same.1, same.2]
    exact onTime.peers
  · rw [same.1]
    exact fun due waits => onTime.serve due (restartServe_waits cfg top w waits)

/-- A wait of the inbound server that a branch of `select!` leaves is the old
one, or starts with it. -/
theorem handle_serve {input : Input} {now due : Instant} (handled : w.handle cfg input now = some w')
    (waits : w'.serveRetryAt = some due) : w.serveRetryAt = some due ∨ due = now + serveRetryDelay := by
  rcases server_handle handled with same | ⟨event, probe, caps, _, rfl⟩ | ⟨rfl, serving, at_, rfl⟩
  · have retry : w'.serveRetryAt = w.serveRetryAt := congrArg (fun server => server.2.2) same
    exact .inl (retry ▸ waits)
  · have server := server_onDriverEvent cfg event probe caps now w
    split at server
    · have retry : (w.onDriverEvent cfg event probe caps now).serveRetryAt = none :=
        congrArg (fun server => server.2.2) server
      exact absurd (waits.symm.trans retry) (by simp)
    · have retry : (w.onDriverEvent cfg event probe caps now).serveRetryAt = w.serveRetryAt :=
        congrArg (fun server => server.2.2) server
      exact .inl (retry ▸ waits)
  · unfold handle at handled
    obtain ⟨later, sum, restarted⟩ := Option.bind_eq_some_iff.mp handled
    rw [if_pos serving] at restarted
    have same : some later = some at_ := congrArg Worker.serveRetryAt (Option.some.inj restarted)
    cases Option.some.inj same
    cases Option.some.inj waits
    exact .inr (Instant.plus_eq_some.mp sum).2

theorem OnTime.step {label : Label} (onTime : OnTime cfg w) (step : Worker.step cfg w label = some w') :
    OnTime cfg w' := by
  obtain ⟨onwards, selected, pumped⟩ := step_clock step
  constructor
  · intro a p known
    obtain ⟨sent, entry, _⟩ := (step_change step).peerStep a
    refine entry.timed (fun q before => onTime.peers a q before) onwards ?_ ?_ p known
    · intro top base input now own
      rw [selected top base input now own] at onwards ⊢
      exact ⟨onwards, Nat.le_refl _⟩
    · intro now elapsed own
      subst own
      rw [(pump_clock step).1]
      exact ⟨pumped now elapsed rfl, Nat.le_add_right _ _⟩
  · intro due waits
    have kept : w.serveRetryAt = some due → due ≤ w'.clock + serveRetryDelay := fun before =>
      (onTime.serve due before).trans (Nat.add_le_add_right onwards _)
    cases label with
    | select top base input now =>
      have read := selected top base input now rfl
      cases step_cases step with
      | select _ _ handled =>
        rcases handle_serve handled waits with before | started
        · exact kept (restartServe_waits cfg top w before)
        · rw [read, started]
    | pump now elapsed => exact kept ((pump_clock step).2 ▸ waits)
    | dialFinished task result =>
      cases step_cases step with
      | dialFinished _ _ => exact kept waits
    | pumpEnded task =>
      cases step_cases step with
      | pumpEnded _ => exact kept waits

theorem reach_onTime (reach : (machine cfg).Reach w) : OnTime cfg w := by
  refine reach.invariant (fun w first => ?_) fun _ _ _ _ onTime step => onTime.step step
  obtain ⟨initial, clock, rfl⟩ := first
  exact ⟨fun a p known => absurd known (by simp [start]), fun due waits => absurd waits (by simp [start])⟩

end Worker

end BleGatt
