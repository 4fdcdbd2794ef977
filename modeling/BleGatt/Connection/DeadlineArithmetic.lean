import BleGatt.Connection.Deadlines

namespace BleGatt
open Std PeerLinkConfig

/-! Whether the worker thread survives the arithmetic of its own deadlines. -/

theorem exists_mapM {α β : Type*} {f : α → Option β} {P : β → Prop} {xs : List α}
    (each : ∀ x ∈ xs, ∃ y, f x = some y ∧ P y) : ∃ ys, xs.mapM f = some ys ∧ ∀ y ∈ ys, P y := by
  induction xs with
  | nil => exact ⟨[], rfl, fun y member => absurd member List.not_mem_nil⟩
  | cons x xs ih =>
    obtain ⟨y, here, holds⟩ := each x List.mem_cons_self
    obtain ⟨ys, rest, all⟩ := ih fun z member => each z (List.mem_cons_of_mem x member)
    refine ⟨y :: ys, by rw [List.mapM_cons, here, rest]; rfl, fun z member => ?_⟩
    rcases List.mem_cons.mp member with rfl | later
    · exact holds
    · exact all z later

theorem guard_of {p : Prop} [Decidable p] (holds : p) : (guard p : Option Unit) = some () := if_pos holds

/-- What is left at `top` of a wait is no longer than the whole of it. -/
theorem wait_lt {due top base wait limit : Nat} (soon : due ≤ top + wait) (fits : base + wait < limit) :
    base + (due - top) < limit := by omega

section Waits
variable {cfg : PeerLinkConfig} {clock now top base : Instant} {p : Peer}

/-- The give-up clock of a peer that tries fits a reading that the configuration fits. -/
theorem Timed.deadline_fits (timed : Timed cfg clock p) (fits : Fits cfg base) (trying : p.tryingSince ≠ none) :
    base + p.deadline cfg < Instant.limit := by
  unfold Peer.deadline
  cases dials : p.dials with
  | true => exact fits.giveUp (dialsPeers_of (timed.role.1 dials) (timed.slots dials (.inl trying)))
  | false => exact fits.accept (timed.role.2 dials)

theorem Timed.peerWakes_fits (timed : Timed cfg clock p) (read : clock ≤ top) (after : top ≤ base)
    (fits : Fits cfg base) (radio : RadioState) : ∃ waits, Worker.peerWakes cfg radio top p = some waits ∧
      ∀ wait ∈ waits, base + wait < Instant.limit := by
  have retries : ∀ wait ∈ p.retryAt.toList.map (· - top), base + wait < Instant.limit := by
    intro wait member
    obtain ⟨due, waits, rfl⟩ := List.mem_map.mp member
    obtain ⟨dials, count, backoff, entry, within, reached, soon⟩ := timed.retry due (Option.mem_toList.mp waits)
    have rung := fits.ladder dials count backoff entry within (reached.trans (read.trans after))
    exact wait_lt (soon.trans (Nat.add_le_add_right read _)) rung
  unfold Worker.peerWakes
  split
  · exact ⟨[], rfl, fun wait member => absurd member List.not_mem_nil⟩
  · dsimp only
    split
    · rename_i since _ trying
      have whole := timed.deadline_fits fits (by simp [trying])
      have started : since ≤ clock := timed.since since trying
      have sum : Instant.plus since (p.deadline cfg) = some (since + p.deadline cfg) := by
        refine Instant.plus_eq_some.mpr ⟨?_, rfl⟩
        exact (Nat.add_le_add_right (started.trans (read.trans after)) _).trans_lt whole
      refine ⟨p.retryAt.toList.map (· - top) ++ [since + p.deadline cfg - top], by rw [sum]; rfl, fun wait member => ?_⟩
      rcases List.mem_append.mp member with retry | give_up
      · exact retries wait retry
      · rw [List.mem_singleton.mp give_up]
        exact wait_lt (Nat.add_le_add_right (started.trans read) _) whole
    · exact ⟨p.retryAt.toList.map (· - top) ++ [], rfl, by rw [List.append_nil]; exact retries⟩

/-- A failed dial of a peer whose session is current has a backoff that fits, if it has one. -/
theorem Timed.dialFailed_isSome (timed : Timed cfg now p) {session : Session}
    (current : p.central.session = some session) (fits : Fits cfg now) : (p.dialFailed cfg now).isSome = true := by
  have elapsed := timed.elapsed current
  unfold Peer.dialFailed Peer.applyBackoff
  dsimp only
  split
  · rfl
  · rename_i left
    split
    · rfl
    · rename_i backoff entry
      have dials := timed.dials_of_session current
      have on := dialsPeers_of (timed.role.1 dials) (timed.slots dials (.inr (.inr (by simp [current]))))
      have rung := fits.ladder on (p.attempts - 1) backoff (by rw [backoffEntry_pred]; exact entry)
        (elapsed.trans_lt (Nat.lt_of_not_le left)) (elapsed.trans (Nat.sub_le _ _))
      have sum : Instant.plus now backoff = some (now + backoff) := Instant.plus_eq_some.mpr ⟨rung, rfl⟩
      rw [sum]
      rfl

end Waits

/-- The last reading of the clock that a step takes. -/
def Label.reading : Label → Option Instant
  | .select _ _ _ now => some now
  | .pump now elapsed => some (now + elapsed)
  | _ => none

namespace Worker

/-- What the worker and its runtime can do next. -/
def ready (cfg : PeerLinkConfig) (w : Worker) : Label → Bool
  | .select top base input now =>
    !w.pumpDue && decide (w.clock ≤ top ∧ top ≤ base ∧ base ≤ now) &&
      match input with
      | .dialResult => !w.connRx.isEmpty
      | .linkGone => !w.linkgoneRx.isEmpty
      | .serveEnded => (w.restartServe cfg top).serving
      | _ => true
  | .pump now _ => w.pumpDue && decide (w.clock ≤ now)
  | .dialFinished task _ => !w.pumpDue && w.dialTasks[task]?.isSome
  | .pumpEnded task => !w.pumpDue && w.pumps[task]?.isSome

section Survives
variable {cfg : PeerLinkConfig} {w : Worker} {top base now : Instant}

theorem OnTime.nextWake_isSome (onTime : OnTime cfg w) (read : w.clock ≤ top) (after : top ≤ base)
    (fits : Fits cfg base) : (w.nextWake cfg top base).isSome = true := by
  have hour : base + Duration.ofSecs 3600 < Instant.limit := fits.hour
  have each : ∀ entry ∈ w.peers.toList, ∃ waits, peerWakes cfg w.radio top entry.2 = some waits ∧
      ∀ wait ∈ waits, base + wait < Instant.limit := by
    intro entry member
    have timed := onTime.peers entry.1 entry.2 (ExtTreeMap.mem_toList_iff_getElem?_eq_some.mp member)
    exact timed.peerWakes_fits read after fits w.radio
  obtain ⟨wakes, mapped, fit⟩ := exists_mapM each
  have all : ∀ wait ∈ wakes.flatten ++ w.serveRetryAt.toList.map (· - top), base + wait < Instant.limit := by
    intro wait member
    rcases List.mem_append.mp member with peers | serve
    · obtain ⟨waits, own, inside⟩ := List.mem_flatten.mp peers
      exact fit waits own wait inside
    · obtain ⟨due, waits, rfl⟩ := List.mem_map.mp serve
      have soon := onTime.serve due (Option.mem_toList.mp waits)
      have short : base + serveRetryDelay < Instant.limit :=
        (Nat.add_le_add_left (by decide : serveRetryDelay ≤ Duration.ofSecs 3600) base).trans_lt hour
      exact wait_lt (soon.trans (Nat.add_le_add_right read _)) short
  unfold nextWake
  rw [mapped]
  dsimp only [Option.bind_eq_bind, Option.bind_some]
  split
  · rename_i earliest least
    have below := all earliest (List.min?_mem least)
    rw [Instant.plus_eq_some.mpr ⟨below, rfl⟩]
    rfl
  · rw [Instant.plus_eq_some.mpr ⟨hour, rfl⟩]
    rfl

theorem OnTime.handle_isSome (onTime : OnTime cfg w) (past : w.clock ≤ now) (fits : Fits cfg now) {input : Input}
    (results : input = .dialResult → w.connRx ≠ []) (gone : input = .linkGone → w.linkgoneRx ≠ [])
    (serving : input = .serveEnded → w.serving = true) : (w.handle cfg input now).isSome = true := by
  cases input with
  | dialResult =>
    cases queued : w.connRx with
    | nil => exact absurd queued (results rfl)
    | cons message rest =>
      unfold handle
      dsimp only
      rw [queued]
      unfold onDialResult
      dsimp only
      split
      · rfl
      · rename_i p known
        split
        · rfl
        · rename_i current
          have current : p.central.session = some message.session := by simpa using current
          split
          · split <;> rfl
          · have timed := (onTime.peers message.peer p known).later past
            have failed := timed.dialFailed_isSome current fits
            obtain ⟨p', failed⟩ := Option.isSome_iff_exists.mp failed
            rw [failed]
            rfl
  | linkGone =>
    cases queued : w.linkgoneRx with
    | nil => exact absurd queued (gone rfl)
    | cons message rest =>
      unfold handle
      dsimp only
      rw [queued]
      rfl
  | serveEnded =>
    have soon : now + serveRetryDelay < Instant.limit :=
      (Nat.add_le_add_left (by decide : serveRetryDelay ≤ Duration.ofSecs 3600) now).trans_lt fits.hour
    unfold handle
    dsimp only
    rw [Instant.plus_eq_some.mpr ⟨soon, rfl⟩, Option.bind_eq_bind, Option.bind_some, if_pos (serving rfl)]
    rfl
  | track _ _ | untrack _ | retry _ | discover | driverEvent _ _ _ | inbound _ _ | tick => rfl

theorem OnTime.step_isSome (onTime : OnTime cfg w) {label : Label} (ready : w.ready cfg label = true)
    (fits : label.reading.all cfg.fits = true) : (Worker.step cfg w label).isSome = true := by
  cases label with
  | select top base input now =>
    simp only [Worker.ready, Bool.and_eq_true, Bool.not_eq_true', decide_eq_true_eq] at ready
    obtain ⟨⟨between, order⟩, queued⟩ := ready
    rw [Label.reading, Option.all_some] at fits
    have fits := fits_iff.mp fits
    have restarted := onTime.restartServe top
    have same : (w.restartServe cfg top).clock = w.clock ∧ (w.restartServe cfg top).connRx = w.connRx ∧
        (w.restartServe cfg top).linkgoneRx = w.linkgoneRx := by
      unfold Worker.restartServe
      split <;> exact ⟨rfl, rfl, rfl⟩
    have awake := restarted.nextWake_isSome (same.1.le.trans order.1) order.2.1 (fits.earlier order.2.2)
    obtain ⟨woken, awake⟩ := Option.isSome_iff_exists.mp awake
    have read : OnTime cfg { w.restartServe cfg top with clock := now, pumpDue := true } := by
      have past : (w.restartServe cfg top).clock ≤ now := same.1.le.trans (order.1.trans (order.2.1.trans order.2.2))
      refine ⟨fun a p known => (restarted.peers a p known).later past, fun due waits => ?_⟩
      exact (restarted.serve due waits).trans (Nat.add_le_add_right past _)
    have handled := @read.handle_isSome _ _ now (Nat.le_refl _) fits input ?_ ?_ ?_
    · unfold Worker.step
      dsimp only
      rw [guard_of, awake]
      · exact handled
      · exact ⟨by simp [between], order⟩
    · rintro rfl
      change (w.restartServe cfg top).connRx ≠ []
      rw [same.2.1]
      simpa using queued
    · rintro rfl
      change (w.restartServe cfg top).linkgoneRx ≠ []
      rw [same.2.2]
      simpa using queued
    · rintro rfl
      exact queued
  | pump now elapsed =>
    simp only [Worker.ready, Bool.and_eq_true, decide_eq_true_eq] at ready
    unfold Worker.step
    dsimp only
    rw [guard_of ready]
    rfl
  | dialFinished task result =>
    simp only [Worker.ready, Bool.and_eq_true, Bool.not_eq_true'] at ready
    obtain ⟨dial, running⟩ := Option.isSome_iff_exists.mp ready.2
    unfold Worker.step
    dsimp only
    rw [guard_of, running]
    · rfl
    · simp [ready.1]
  | pumpEnded task =>
    simp only [Worker.ready, Bool.and_eq_true, Bool.not_eq_true'] at ready
    obtain ⟨pump, running⟩ := Option.isSome_iff_exists.mp ready.2
    unfold Worker.step
    dsimp only
    rw [guard_of, running]
    · rfl
    · simp [ready.1]

/-- As long as the configuration fits what the clock reads, nothing the
worker can do next panics. -/
theorem run_deadlinesFit {history : Unit} (run : (machine cfg).Run (fun _ _ label => label.reading.all cfg.fits = true)
    (fun h _ _ _ => h) () history w) (label : Label) (ready : w.ready cfg label = true)
    (fits : label.reading.all cfg.fits = true) : (Worker.step cfg w label).isSome = true :=
  (reach_onTime run.reach).step_isSome ready fits

end Survives

/-- A dial that fails, and another that is under way once its backoff is over. -/
def secondAttempt : List Label :=
  [.select 0 0 (.track ⟨"a"⟩ ⟨"a"⟩) 0, .pump 0 0, .dialFinished 0 (.error (.notConnected "a")),
    .select 0 0 .dialResult 0, .pump 0 0,
    .select 0 0 .tick (Duration.ofSecs 1), .pump (Duration.ofSecs 1) 0,
    .dialFinished 1 (.error (.notConnected "a"))]

theorem run_deadlinesFit_second : ∃ w : Worker, (∃ p, w.peers[(⟨"a"⟩ : PeerAddress)]? = some p ∧ p.attempts = 2) ∧
    (Worker.step { role := .dialOnly } w
      (.select (Duration.ofSecs 1) (Duration.ofSecs 1) .dialResult (Duration.ofSecs 2))).isSome = true := by
  obtain ⟨history, w, run, kept⟩ := Machine.Run.exists_of_follow (machine { role := .dialOnly })
    (fun _ _ label => label.reading.all (PeerLinkConfig.fits { role := .dialOnly }) = true) (fun h _ _ _ => h) ()
    (fun _ w => (w.peers[(⟨"a"⟩ : PeerAddress)]?.any fun p : Peer => decide (p.attempts = 2)) &&
      w.ready { role := .dialOnly }
        (.select (Duration.ofSecs 1) (Duration.ofSecs 1) .dialResult (Duration.ofSecs 2))) ⟨.on, 0, rfl⟩
    secondAttempt (by decide +kernel)
  rw [Bool.and_eq_true, Option.any_eq_true] at kept
  obtain ⟨⟨p, known, attempts⟩, ready⟩ := kept
  exact ⟨w, ⟨p, known, of_decide_eq_true attempts⟩, run_deadlinesFit run _ ready (by decide +kernel)⟩

/-- A peer that is never to be given up: `give_up_after` is `Duration::MAX`. -/
def neverGivesUp : PeerLinkConfig :=
  { role := .dialOnly, retryBudget := { giveUpAfter := Duration.ofSecs (2 ^ 64 - 1) + 999999999 } }

/-- The first dial of such a peer is the worker's last. -/
theorem not_deadlinesFit : ¬ ∀ (cfg : PeerLinkConfig) (w : Worker), (machine cfg).Reach w → ∀ label : Label,
    w.ready cfg label = true → (label.reading.all fun now => decide (now ≤ Duration.ofSecs 3600)) = true →
      (Worker.step cfg w label).isSome = true := by
  intro claim
  obtain ⟨w, reach, kept⟩ := Machine.Reach.exists_of_follow (machine neverGivesUp)
    (fun w : Worker => w.ready neverGivesUp (.select 0 0 .discover 0) &&
      (Worker.step neverGivesUp w (.select 0 0 .discover 0)).isNone) ⟨.on, 0, rfl⟩
    [.select 0 0 (.track ⟨"a"⟩ ⟨"a"⟩) 0, .pump 0 0] (by decide +kernel)
  rw [Bool.and_eq_true] at kept
  have survives := claim neverGivesUp w reach _ kept.1 (by decide +kernel)
  rw [← Option.not_isSome, survives] at kept
  exact absurd kept.2 (by simp)

end Worker

end BleGatt
