import BleGatt.Connection.PeerStep

namespace BleGatt
open Std

/-! When the worker wakes by itself, and whether it wakes for the same reason
again. -/

/-- What a deadline of `next_wake` waits for. -/
inductive Wake
  | retry (peer : PeerAddress)
  | giveUp (peer : PeerAddress)
  | serve

theorem Links.Change.radio_eq {cfg : PeerLinkConfig} {l l' : Links} {label : Label} (change : Change cfg l label l')
    (other : ∀ top base event probe caps now, label ≠ .select top base (.driverEvent event probe caps) now) :
    l'.radio = l.radio := by
  cases change with
  | radioKept _ | radioLost _ _ => exact absurd rfl (other _ _ _ _ _ _)
  | pump dialling => exact dialling.frame.radio
  | _ => rfl

namespace Worker

/-- The deadlines that `next_wake` considers. -/
def deadline (cfg : PeerLinkConfig) (w : Worker) : Wake → Option Instant
  | .retry peer => w.peers[peer]?.bind fun p => if p.link.isSome || p.gaveUp then none else p.retryAt
  | .giveUp peer => w.peers[peer]?.bind fun p =>
    if p.link.isSome || p.gaveUp || !w.radio.usable then none else p.tryingSince.map (· + p.deadline cfg)
  | .serve => w.serveRetryAt

/-- A deadline that made `next_wake` return at once is not considered any more
once the worker is `w'`. -/
def Progress (cfg : PeerLinkConfig) (top base : Instant) (w w' : Worker) : Prop :=
  nextWake cfg top base w = some base → ∀ (wake : Wake) (at_ : Instant), w.deadline cfg wake = some at_ → at_ ≤ top →
    ∀ again, w'.clock ≤ again → (w'.restartServe cfg again).deadline cfg wake ≠ some at_

/-- A backoff that is over is given up by the tick. -/
def RetriesSpent (cfg : PeerLinkConfig) (top now : Instant) (w : Worker) : Prop :=
  ∀ (peer : PeerAddress) (p : Peer) (at_ : Instant), w.peers[peer]? = some p → p.link = none → p.gaveUp = false →
    p.retryAt = some at_ → at_ ≤ top →
      w.radio.usable = true ∧ ∃ since, p.tryingSince = some since ∧ now - since ≥ p.deadline cfg

theorem mem_of_mapM {α β : Type} {f : α → Option β} {entries : List α} {values : List β} {a : α}
    (mapped : entries.mapM f = some values) (member : a ∈ entries) : ∃ b ∈ values, f a = some b := by
  induction entries generalizing values with
  | nil => simp at member
  | cons first rest ih =>
    rw [List.mapM_cons] at mapped
    obtain ⟨b, here, mapped⟩ := Option.bind_eq_some_iff.mp mapped
    obtain ⟨later, there, mapped⟩ := Option.bind_eq_some_iff.mp mapped
    cases Option.some.inj mapped
    rcases List.mem_cons.mp member with rfl | member
    · exact ⟨b, List.mem_cons_self, here⟩
    · obtain ⟨c, inside, known⟩ := ih there member
      exact ⟨c, List.mem_cons_of_mem _ inside, known⟩

section Wakes

variable {cfg : PeerLinkConfig} {now base : Instant} {w : Worker}

/-- The waits of a peer that is neither linked nor given up. -/
theorem mem_peerWakes {radio : RadioState} {p : Peer} {waits : List Duration}
    (considered : peerWakes cfg radio now p = some waits) (unlinked : p.link = none) (alive : p.gaveUp = false) :
    (∀ at_, p.retryAt = some at_ → at_ - now ∈ waits) ∧
      ∀ since, radio.usable = true → p.tryingSince = some since → since + p.deadline cfg - now ∈ waits := by
  unfold peerWakes at considered
  rw [if_neg (by simp [unlinked, alive])] at considered
  dsimp only at considered
  split at considered
  · rename_i since' usable' trying'
    obtain ⟨at_, sum, considered⟩ := Option.bind_eq_some_iff.mp considered
    obtain ⟨_, eq, considered⟩ := Option.bind_eq_some_iff.mp considered
    cases Option.some.inj eq
    cases Option.some.inj considered
    refine ⟨fun retry at_retry => by simp [at_retry], fun since usable trying => ?_⟩
    cases trying'.symm.trans trying
    rw [(Instant.plus_eq_some.mp sum).2]
    simp
  · rename_i other
    obtain ⟨_, eq, considered⟩ := Option.bind_eq_some_iff.mp considered
    cases Option.some.inj eq
    cases Option.some.inj considered
    exact ⟨fun retry at_retry => by simp [at_retry], fun since usable trying => absurd trying (other since usable)⟩

/-- A deadline is a wait that `next_wake` takes the least of. -/
theorem deadline_mem {waits : List (List Duration)} {wake : Wake} {at_ : Instant}
    (mapped : (w.peers.toList.mapM fun entry => peerWakes cfg w.radio now entry.2) = some waits)
    (there : w.deadline cfg wake = some at_) : at_ - now ∈ waits.flatten ++ w.serveRetryAt.toList.map (· - now) := by
  rw [List.mem_append, List.mem_flatten]
  have entry : ∀ {peer : PeerAddress} {p : Peer}, w.peers[peer]? = some p →
      ∃ own ∈ waits, peerWakes cfg w.radio now p = some own := by
    intro peer p known
    have member : (peer, p) ∈ w.peers.toList := ExtTreeMap.mem_toList_iff_getElem?_eq_some.mpr known
    exact mem_of_mapM (f := fun entry : PeerAddress × Peer => peerWakes cfg w.radio now entry.2) mapped member
  cases wake with
  | retry peer =>
    obtain ⟨p, known, there⟩ := Option.bind_eq_some_iff.mp there
    obtain ⟨own, member, considered⟩ := entry known
    simp only [Option.ite_none_left_eq_some, Bool.or_eq_true, not_or, Bool.not_eq_true, Option.isSome_eq_false_iff,
      Option.isNone_iff_eq_none] at there
    exact .inl ⟨own, member, (mem_peerWakes considered there.1.1 there.1.2).1 at_ there.2⟩
  | giveUp peer =>
    obtain ⟨p, known, there⟩ := Option.bind_eq_some_iff.mp there
    obtain ⟨own, member, considered⟩ := entry known
    simp only [Option.ite_none_left_eq_some, Bool.or_eq_true, not_or, Bool.not_eq_true, Option.isSome_eq_false_iff,
      Option.isNone_iff_eq_none, Bool.not_eq_true', Bool.not_eq_false, Option.map_eq_some_iff] at there
    obtain ⟨⟨⟨unlinked, alive⟩, usable⟩, since, trying, rfl⟩ := there
    exact .inl ⟨own, member, (mem_peerWakes considered unlinked alive).2 since usable trying⟩
  | serve =>
    have retry : w.serveRetryAt = some at_ := there
    exact .inr (by simp [retry])

/-- A deadline that is over makes `next_wake` return at once. -/
theorem nextWake_past {woken : Instant} {wake : Wake} {at_ : Instant}
    (awake : nextWake cfg now base w = some woken) (there : w.deadline cfg wake = some at_) (past : at_ ≤ now) :
    woken = base := by
  obtain ⟨waits, mapped, earliest⟩ := Option.bind_eq_some_iff.mp awake
  dsimp only at earliest
  have zero := deadline_mem mapped there
  rw [Nat.sub_eq_zero_of_le past] at zero
  split at earliest
  · rename_i least minimal
    have none_ : least = 0 := Nat.le_zero.mp ((List.min?_eq_some_iff.mp minimal).2 0 zero)
    rw [none_] at earliest
    exact (Instant.plus_eq_some.mp earliest).2
  · rename_i empty
    rw [List.min?_eq_none_iff] at empty
    rw [empty] at zero
    simp at zero

end Wakes

/-- The inbound server runs, or waits to be restarted, only with a usable
radio, and never both. -/
structure ServerKept (cfg : PeerLinkConfig) (w : Worker) : Prop where
  wanted : w.serving = true ∨ w.serveRetryAt ≠ none → cfg.accepts = true ∧ w.radio.usable = true
  either : w.serveRetryAt ≠ none → w.serving = false

namespace ServerKept

variable {cfg : PeerLinkConfig} {w w' : Worker}

theorem of_same (kept : ServerKept cfg w) (serving : w'.serving = w.serving)
    (retry : w'.serveRetryAt = w.serveRetryAt) (radio : w'.radio = w.radio) : ServerKept cfg w' := by
  refine ⟨?_, ?_⟩
  · rw [serving, retry, radio]
    exact kept.wanted
  · rw [serving, retry]
    exact kept.either

theorem restart (kept : ServerKept cfg w) (now : Instant) : ServerKept cfg (w.restartServe cfg now) := by
  unfold restartServe
  split
  · rename_i wanted
    simp only [Bool.and_eq_true] at wanted
    exact ⟨fun _ => wanted.1.1, fun retry => absurd rfl retry⟩
  · exact kept

/-- With a restart due, the top of the loop takes it. -/
theorem restart_due (kept : ServerKept cfg w) {now at_ : Instant} (due : w.serveRetryAt = some at_) (past : at_ ≤ now) :
    (w.restartServe cfg now).serveRetryAt = none := by
  have some_ : w.serveRetryAt ≠ none := by simp [due]
  obtain ⟨accepts, usable⟩ := kept.wanted (.inr some_)
  unfold restartServe
  rw [if_pos (by simp [accepts, usable, kept.either some_, due, past])]

theorem onDriverEvent (kept : ServerKept cfg w) (event : GattEvent) (probe : RadioStatus) (caps : CapabilityReport)
    (now : Instant) : ServerKept cfg (w.onDriverEvent cfg event probe caps now) := by
  have server := server_onDriverEvent cfg event probe caps now w
  generalize w.onDriverEvent cfg event probe caps now = after at server ⊢
  by_cases down : (cfg.accepts && w.radio.usable && !after.radio.usable) = true
  · rw [if_pos down] at server
    have serving : after.serving = false := congrArg (fun server => server.2.1) server
    have retry : after.serveRetryAt = none := congrArg (fun server => server.2.2) server
    exact ⟨by simp [serving, retry], by simp [retry]⟩
  · rw [if_neg down] at server
    have serving : after.serving = w.serving := congrArg (fun server => server.2.1) server
    have retry : after.serveRetryAt = w.serveRetryAt := congrArg (fun server => server.2.2) server
    refine ⟨fun some_ => ?_, ?_⟩
    · rw [serving, retry] at some_
      obtain ⟨accepts, usable⟩ := kept.wanted some_
      simp only [accepts, usable, Bool.true_and, Bool.not_eq_true', Bool.not_eq_false] at down
      exact ⟨accepts, down⟩
    · rw [serving, retry]
      exact kept.either

theorem step {label : Label} (kept : ServerKept cfg w) (step : Worker.step cfg w label = some w') :
    ServerKept cfg w' := by
  have change := step_change step
  cases step_cases step with
  | @select top base now input _ _ _ handled =>
    have before : ServerKept cfg { w.restartServe cfg top with clock := now, pumpDue := true } :=
      (kept.restart top).of_same rfl rfl rfl
    by_cases reported : ∃ event probe caps, input = .driverEvent event probe caps
    · obtain ⟨event, probe, caps, rfl⟩ := reported
      cases Option.some.inj handled
      exact before.onDriverEvent event probe caps now
    · have radio : w'.radio = w.radio := change.radio_eq (by
        rintro _ _ event probe caps _ ⟨⟩
        exact reported ⟨event, probe, caps, rfl⟩)
      have started : (w.restartServe cfg top).radio = w.radio := congrArg Links.radio (links_restartServe cfg top w)
      obtain same | ⟨event, probe, caps, at_event, _⟩ | ⟨_, serving, at_, rfl⟩ := server_handle handled
      · exact before.of_same (congrArg (fun server => server.2.1) same) (congrArg (fun server => server.2.2) same)
          (radio.trans started.symm)
      · exact absurd ⟨event, probe, caps, at_event⟩ reported
      · exact ⟨fun _ => before.wanted (.inl serving), fun _ => rfl⟩
  | @pump now elapsed _ _ =>
    have server := (server_refreshAllStatus cfg _).trans
      (server_pumpDials cfg now elapsed { w with clock := now + elapsed, pumpDue := false })
    exact kept.of_same (congrArg (fun server => server.2.1) server) (congrArg (fun server => server.2.2) server)
      (change.radio_eq (by rintro _ _ _ _ _ _ ⟨⟩))
  | dialFinished _ _ | pumpEnded _ => exact kept.of_same rfl rfl rfl

theorem reach (reach : (machine cfg).Reach w) : ServerKept cfg w := by
  induction reach with
  | start first =>
    obtain ⟨initial, clock, rfl⟩ := first
    exact ⟨by simp [start], by simp [start]⟩
  | next _ step kept => exact kept.step step

end ServerKept

section Pass

variable {cfg : PeerLinkConfig} {top base now pumped : Instant} {elapsed : Duration} {w mid w' : Worker}

/-- A tick, and the round of dials that ends its pass, on one entry. -/
theorem pass_entry (ticked : step cfg w (.select top base .tick now) = some mid)
    (dialled : step cfg mid (.pump pumped elapsed) = some w') (peer : PeerAddress) :
    w'.peers[peer]? = w.peers[peer]?.map (Peer.tick cfg w.radio now) ∨
      ∃ p session task, w.peers[peer]? = some p ∧ (p.tick cfg w.radio now).candidate pumped = true ∧
        w'.peers[peer]? = some ((p.tick cfg w.radio now).dialStarted session task pumped) := by
  have entry : mid.peers[peer]? = w.peers[peer]?.map (Peer.tick cfg w.radio now) := by
    have change := step_change ticked
    generalize at_mid : mid.links = l at change
    have peers : l.peers = mid.peers := by rw [← at_mid]; rfl
    cases change with
    | quiet quiet => exact quiet.elim
    | tick => rw [← peers]; exact ExtTreeMap.getElem?_map
  have change := step_change dialled
  generalize at_end : w'.links = l at change
  have peers : w'.peers = l.peers := by rw [← at_end]; rfl
  rw [peers, ← entry]
  cases change with
  | quiet quiet => exact quiet.elim
  | pump dialling =>
    obtain ⟨_, left⟩ | ⟨p, index, _, known, ready, started⟩ := dialling.entry peer
    · exact .inl left
    · obtain ⟨before, held, rfl⟩ := Option.map_eq_some_iff.mp (entry.symm.trans known)
      exact .inr ⟨before, _, _, held, ready, started⟩

theorem step_select_awake {input : Input} (step : step cfg w (.select top base input now) = some w') :
    ∃ woken, nextWake cfg top base (w.restartServe cfg top) = some woken := by
  unfold Worker.step at step
  simp only [Option.bind_eq_some_iff, Option.bind_eq_bind, Option.guard_eq_some'] at step
  obtain ⟨_, _, woken, awake, _⟩ := step
  exact ⟨woken, awake⟩

/-- What the pass leaves of a peer that its tick gives up. -/
theorem pass_spent (ticked : step cfg w (.select top base .tick now) = some mid)
    (dialled : step cfg mid (.pump pumped elapsed) = some w') {peer : PeerAddress} {p : Peer}
    (known : w.peers[peer]? = some p) (spent : (p.tick cfg w.radio now).gaveUp = true) :
    w'.peers[peer]? = some (p.tick cfg w.radio now) := by
  obtain left | ⟨q, session, task, held, ready, _⟩ := pass_entry ticked dialled peer
  · rw [left, known, Option.map_some]
  · cases known.symm.trans held
    exact absurd (spent.symm.trans (Peer.candidate_iff.mp ready).2.1) Bool.noConfusion

/-- What the pass leaves of a peer that its tick does not give up. -/
theorem pass_unspent (ticked : step cfg w (.select top base .tick now) = some mid)
    (dialled : step cfg mid (.pump pumped elapsed) = some w') {peer : PeerAddress} {p : Peer}
    (known : w.peers[peer]? = some p) (alive : p.gaveUp = false)
    (unspent : ¬(w.radio.usable = true ∧ p.link = none ∧ ∃ since, p.tryingSince = some since ∧ now - since ≥ p.deadline cfg)) :
    ∃ p', w'.peers[peer]? = some p' ∧ p'.link = p.link ∧ p'.gaveUp = false ∧ p'.retryAt = p.retryAt := by
  obtain ⟨_, _, ⟨gaveUp, retryAt⟩ | ⟨_, spent⟩⟩ := p.tick_giveUp cfg w.radio now
  · have link := (p.tick_kept cfg w.radio now).2.2.2.1
    obtain left | ⟨q, session, task, held, _, started⟩ := pass_entry ticked dialled peer
    · exact ⟨_, by rw [left, known, Option.map_some], link, gaveUp.trans alive, retryAt⟩
    · cases known.symm.trans held
      exact ⟨_, started, link, gaveUp.trans alive, retryAt⟩
  · exact absurd spent unspent

theorem deadline_retry {peer : PeerAddress} {at_ : Instant} : w.deadline cfg (.retry peer) = some at_ ↔
    ∃ p, w.peers[peer]? = some p ∧ p.link = none ∧ p.gaveUp = false ∧ p.retryAt = some at_ := by
  simp [deadline, Option.bind_eq_some_iff, and_assoc]

theorem deadline_giveUp {peer : PeerAddress} {at_ : Instant} : w.deadline cfg (.giveUp peer) = some at_ ↔
    ∃ p, w.peers[peer]? = some p ∧ p.link = none ∧ p.gaveUp = false ∧ w.radio.usable = true ∧
      ∃ since, p.tryingSince = some since ∧ since + p.deadline cfg = at_ := by
  simp [deadline, Option.bind_eq_some_iff, and_assoc]

/-- The top of the loop touches the inbound server only. -/
theorem deadline_restartServe {wake : Wake} (own : wake ≠ .serve) (now : Instant) (w : Worker) :
    (w.restartServe cfg now).deadline cfg wake = w.deadline cfg wake := by
  have links := links_restartServe cfg now w
  have peers : (w.restartServe cfg now).peers = w.peers := congrArg Links.peers links
  have radio : (w.restartServe cfg now).radio = w.radio := congrArg Links.radio links
  cases wake with
  | retry peer => simp only [deadline, peers]
  | giveUp peer => simp only [deadline, peers, radio]
  | serve => exact absurd rfl own

/-- A give-up clock that has run out when the worker wakes is run out for the
tick, which gives the peer up. -/
theorem pass_giveUp (ticked : step cfg w (.select top base .tick now) = some mid)
    (dialled : step cfg mid (.pump pumped elapsed) = some w') {peer : PeerAddress} {at_ : Instant}
    (there : w.deadline cfg (.giveUp peer) = some at_) (past : at_ ≤ now) : w'.deadline cfg (.giveUp peer) ≠ some at_ := by
  obtain ⟨p, known, unlinked, _, usable, since, trying, rfl⟩ := deadline_giveUp.mp there
  have spent := Peer.tick_gives_up usable unlinked trying (Nat.le_sub_of_add_le' past)
  intro again
  obtain ⟨p', known', _, alive, _⟩ := deadline_giveUp.mp again
  cases (pass_spent ticked dialled known spent).symm.trans known'
  exact absurd (spent.symm.trans alive) Bool.noConfusion

/-- A backoff that is over goes exactly where the tick gives its peer up: the
dial that `pump_dials` may start leaves `retry_at` as it is. -/
theorem pass_retry (ticked : step cfg w (.select top base .tick now) = some mid)
    (dialled : step cfg mid (.pump pumped elapsed) = some w') {peer : PeerAddress} {p : Peer} {at_ : Instant}
    (known : w.peers[peer]? = some p) (unlinked : p.link = none) (alive : p.gaveUp = false) (retry : p.retryAt = some at_) :
    w'.deadline cfg (.retry peer) ≠ some at_ ↔
      w.radio.usable = true ∧ ∃ since, p.tryingSince = some since ∧ now - since ≥ p.deadline cfg := by
  constructor
  · intro gone
    by_contra unspent
    obtain ⟨p', known', link, alive', retry'⟩ := pass_unspent ticked dialled known alive
      (fun spent => unspent ⟨spent.1, spent.2.2⟩)
    exact gone (deadline_retry.mpr ⟨p', known', link.trans unlinked, alive', retry'.trans retry⟩)
  · rintro ⟨usable, since, trying, over_⟩ again
    have spent := Peer.tick_gives_up usable unlinked trying over_
    obtain ⟨p', known', _, alive', _⟩ := deadline_retry.mp again
    cases (pass_spent ticked dialled known spent).symm.trans known'
    exact absurd (spent.symm.trans alive') Bool.noConfusion

/-- The worker gets rid of every deadline that woke it at once exactly where
each backoff among them is one the tick gives up. -/
theorem reach_progress_iff (reach : (machine cfg).Reach w) (ticked : step cfg w (.select top base .tick now) = some mid)
    (dialled : step cfg mid (.pump pumped elapsed) = some w') :
    Progress cfg top base (w.restartServe cfg top) w' ↔ RetriesSpent cfg top now w := by
  obtain ⟨woken, awake⟩ := step_select_awake ticked
  have order : top ≤ now := by
    cases step_cases ticked with
    | select _ order _ => exact order.2.1.trans order.2.2
  constructor
  · intro progress peer p at_ known unlinked alive retry past
    have there : w.deadline cfg (.retry peer) = some at_ := deadline_retry.mpr ⟨p, known, unlinked, alive, retry⟩
    have before : (w.restartServe cfg top).deadline cfg (.retry peer) = some at_ := by
      rw [deadline_restartServe (by simp), there]
    have at_once : woken = base := nextWake_past awake before past
    have gone := progress (awake.trans (congrArg some at_once)) (.retry peer) at_ before past w'.clock (Nat.le_refl _)
    rw [deadline_restartServe (by simp)] at gone
    exact (pass_retry ticked dialled known unlinked alive retry).mp gone
  · intro spent _ wake at_ there past again _
    cases wake with
    | retry peer =>
      rw [deadline_restartServe (by simp)] at there ⊢
      obtain ⟨p, known, unlinked, alive, retry⟩ := deadline_retry.mp there
      exact (pass_retry ticked dialled known unlinked alive retry).mpr (spent peer p at_ known unlinked alive retry past)
    | giveUp peer =>
      rw [deadline_restartServe (by simp)] at there ⊢
      exact pass_giveUp ticked dialled there (past.trans order)
    | serve =>
      -- a restart that is due was taken at the top of this very pass
      have waits : (w.restartServe cfg top).serveRetryAt = some at_ := there
      obtain same | restarted : (w.restartServe cfg top).serveRetryAt = w.serveRetryAt ∨
          (w.restartServe cfg top).serveRetryAt = none := by
        unfold restartServe
        split
        · exact .inr rfl
        · exact .inl rfl
      · have none_ := (ServerKept.reach reach).restart_due (same.symm.trans waits) past
        exact absurd (waits.symm.trans none_) (by simp)
      · exact absurd (waits.symm.trans restarted) (by simp)

end Pass

/-- A first dial that fails at once, so that the peer waits a second. -/
def failedDial : List Label :=
  [.select 0 0 (.track ⟨"a"⟩ ⟨"a"⟩) 0, .pump 0 0, .dialFinished 0 (.error (.notConnected "a")),
    .select 0 0 .dialResult 0, .pump 0 0]

/-- The pass that the sleep ends at `at_`, and whether the backoff of a second
that woke it is there after it. -/
def wokenBy (cfg : PeerLinkConfig) (at_ : Instant) (kept : Bool) (w : Worker) : Bool :=
  match (step cfg w (.select at_ at_ .tick at_)).bind fun mid => step cfg mid (.pump at_ 0) with
  | some w' => decide (nextWake cfg at_ at_ (w.restartServe cfg at_) = some at_) &&
      decide ((w.restartServe cfg at_).deadline cfg (.retry ⟨"a"⟩) = some (Duration.ofSecs 1)) &&
      decide ((w'.restartServe cfg w'.clock).deadline cfg (.retry ⟨"a"⟩) = some (Duration.ofSecs 1)) == kept
  | none => false

/-- With the redial in flight, its backoff wakes the worker again and again. -/
theorem not_progress : ¬ ∀ (cfg : PeerLinkConfig) (top base now pumped : Instant) (elapsed : Duration)
    (w mid w' : Worker), (machine cfg).Reach w → step cfg w (.select top base .tick now) = some mid →
    step cfg mid (.pump pumped elapsed) = some w' → Progress cfg top base (w.restartServe cfg top) w' := by
  intro claim
  obtain ⟨w, reach, again⟩ := Machine.Reach.exists_of_follow (machine { role := .dialOnly })
    (wokenBy { role := .dialOnly } (Duration.ofSecs 2) true) ⟨.on, 0, rfl⟩
    (failedDial ++ [.select (Duration.ofSecs 1) (Duration.ofSecs 1) .tick (Duration.ofSecs 1), .pump (Duration.ofSecs 1) 0])
    (by decide +kernel)
  unfold wokenBy at again
  split at again
  · rename_i w' passed
    obtain ⟨mid, ticked, dialled⟩ := Option.bind_eq_some_iff.mp passed
    simp only [Bool.and_eq_true, beq_iff_eq, decide_eq_true_eq] at again
    obtain ⟨⟨awake, before⟩, after⟩ := again
    exact claim _ _ _ _ _ _ _ _ _ reach ticked dialled awake _ _ before (by decide) _ (Nat.le_refl _) after
  · simp at again

instance (cfg : PeerLinkConfig) (top now : Instant) (w : Worker) : Decidable (RetriesSpent cfg top now w) :=
  decidable_of_iff (∀ entry ∈ w.peers.toList, entry.2.link = none → entry.2.gaveUp = false →
      ∀ at_ ∈ entry.2.retryAt, at_ ≤ top →
        w.radio.usable = true ∧ ∃ since ∈ entry.2.tryingSince, now - since ≥ entry.2.deadline cfg) <| by
    constructor
    · intro all peer p at_ known unlinked alive
      exact all (peer, p) (ExtTreeMap.mem_toList_iff_getElem?_eq_some.mpr known) unlinked alive at_
    · rintro all ⟨peer, p⟩ member unlinked alive at_
      exact all peer p at_ (ExtTreeMap.mem_toList_iff_getElem?_eq_some.mp member) unlinked alive

/-- At the end of the give-up clock the wake-up goes with the peer. -/
theorem reach_progress_given_up : ∃ (w mid w' : Worker),
    nextWake { role := .dialOnly } (Duration.ofSecs 60) (Duration.ofSecs 60)
        (w.restartServe { role := .dialOnly } (Duration.ofSecs 60)) = some (Duration.ofSecs 60) ∧
      step { role := .dialOnly } w (.select (Duration.ofSecs 60) (Duration.ofSecs 60) .tick (Duration.ofSecs 60)) = some mid ∧
      step { role := .dialOnly } mid (.pump (Duration.ofSecs 60) 0) = some w' ∧
      Progress { role := .dialOnly } (Duration.ofSecs 60) (Duration.ofSecs 60)
        (w.restartServe { role := .dialOnly } (Duration.ofSecs 60)) w' := by
  obtain ⟨w, reach, woken⟩ := Machine.Reach.exists_of_follow (machine { role := .dialOnly })
    (fun w : Worker => wokenBy { role := .dialOnly } (Duration.ofSecs 60) false w &&
      decide (RetriesSpent { role := .dialOnly } (Duration.ofSecs 60) (Duration.ofSecs 60) w)) ⟨.on, 0, rfl⟩ failedDial
    (by decide +kernel)
  unfold wokenBy at woken
  split at woken
  · rename_i w' passed
    obtain ⟨mid, ticked, dialled⟩ := Option.bind_eq_some_iff.mp passed
    simp only [Bool.and_eq_true, decide_eq_true_eq] at woken
    exact ⟨w, mid, w', woken.1.1.1, ticked, dialled, (reach_progress_iff reach ticked dialled).mpr woken.2⟩
  · simp at woken

end Worker

end BleGatt
