import BleGatt.Connection.LinkCap

namespace BleGatt
open Std

/-- One dial `pump_dials` started: the task it spawned and what that task was
given. -/
structure DialAttempt where
  task : TaskId
  peer : PeerAddress
  session : Session
  deriving DecidableEq

/-- The dials of one step, in the order they were started. -/
def Links.started (l l' : Links) : List DialAttempt :=
  (List.range' l.nextTask (l'.nextTask - l.nextTask)).filterMap fun task =>
    l'.dialTasks[task]?.map fun dial => ⟨task, dial.peer, dial.session⟩

/-- Every dial of the run so far, oldest first. -/
def Worker.noteAttempts (attempts : List DialAttempt) (w : Worker) (_ : Label) (w' : Worker) : List DialAttempt :=
  attempts ++ w.links.started w'.links

def latestAttempt (attempts : List DialAttempt) (peer : PeerAddress) : Option DialAttempt :=
  (attempts.filter fun attempt => decide (attempt.peer = peer)).getLast?

/-- No peer this round dials has a result of an earlier dial still queued that
carries the session the round gives it. -/
def Worker.FreshSessions (cfg : PeerLinkConfig) (w : Worker) : Label → Prop
  | .pump now elapsed => ∀ entry ∈ (w.links.dialled cfg now).zipIdx, ∀ r ∈ w.connRx, r.peer = entry.1 →
      r.session ≠ UInt64.ofNat (elapsed + entry.2 + 1)
  | _ => True

/-- The entry is in the same dial, or in none, before and after. -/
def Peer.SameAttempt (p p' : Peer) : Prop := p'.dialTask = p.dialTask ∧ p'.central = p.central

namespace Peer.Shape

variable {radio : RadioState} {p : Peer} {now : Instant}

/-! What each operation does to a running dial: it goes on, or it ends and no
session is left that a result could match. -/

theorem radioBack_attempt (shape : p.Shape radio) : SameAttempt p (p.radioBack now) ∨
    p.dialTask = none ∧ (p.radioBack now).dialTask = none ∧ (p.radioBack now).central.session = none := by
  cases shape with
  | resting central _ _ task =>
    exact .inr ⟨task, task, congrArg CentralLink.session central.back⟩
  | dialing _ central _ _ _ => exact .inl ⟨rfl, by simp [Peer.radioBack, centralApply, peripheralApply, central]⟩
  | connected _ central _ _ _ => exact .inl ⟨rfl, by simp [Peer.radioBack, centralApply, peripheralApply, central]⟩
  | serving _ central _ _ task =>
    exact .inr ⟨task, task, congrArg CentralLink.session central.back⟩

theorem lateLoss_attempt (shape : p.Shape radio) (unlinked : p.link = none) :
    SameAttempt p (p.centralApply .linkDropped now) := by
  cases shape with
  | resting central _ _ _ => exact ⟨rfl, central.linkDropped⟩
  | dialing _ central _ _ _ => exact ⟨rfl, by simp [centralApply, central, CentralLink.isConnected]⟩
  | connected _ _ _ link _ => simp [unlinked] at link
  | serving _ _ _ link _ => simp [unlinked] at link

theorem linkGone_attempt (shape : p.Shape radio) (now : Instant) (linked : p.link.isSome) :
    (p.linkGone now).dialTask = none ∧ (p.linkGone now).central.session = none := by
  cases shape with
  | resting _ _ link _ => simp [link] at linked
  | dialing _ _ _ link _ => simp [link] at linked
  | connected _ central _ _ task =>
    refine ⟨task, ?_⟩
    simp [Peer.linkGone, centralApply, peripheralApply, central, CentralLink.isConnected, CentralLink.session]
  | serving _ central _ _ task =>
    refine ⟨task, ?_⟩
    have kept : (p.linkGone now).central = p.central := central.linkDropped
    rw [kept, central.session]

theorem tick_attempt (shape : p.Shape radio) (cfg : PeerLinkConfig) (now : Instant) :
    SameAttempt p (p.tick cfg radio now) ∨
      (p.tick cfg radio now).dialTask = none ∧ (p.tick cfg radio now).central.session = none ∧
        (p.centralApply .tick now).staleDial = p.dialTask := by
  obtain ⟨central', _, _, _, task'⟩ := tick_kept cfg radio now p
  cases shape with
  | resting central _ _ task =>
    exact .inl ⟨by rw [task', task, ite_self], central'.trans central.tick⟩
  | @dialing since session _ central _ _ _ =>
    have moved := CentralLink.apply_tick_dialing now since session
    rw [← central] at moved
    split at moved
    · rw [moved] at central'
      refine .inr ⟨by rw [task', central']; rfl, by rw [central']; rfl, ?_⟩
      simp [staleDial, centralApply, moved, CentralLink.isDialing]
    · rw [moved] at central'
      exact .inl ⟨by rw [task', central', central]; rfl, central'⟩
  | connected _ central _ _ task =>
    have moved : (p.central.apply .tick now).1 = p.central := by rw [central]; rfl
    exact .inl ⟨by rw [task', task, ite_self], central'.trans moved⟩
  | serving _ central _ _ task =>
    exact .inl ⟨by rw [task', task, ite_self], central'.trans central.tick⟩

end Peer.Shape

namespace Links

open Peer (SameAttempt)

/-- What a round of `pump_dials` started. -/
theorem Dialling.started {cfg : PeerLinkConfig} {now : Instant} {elapsed : Duration} {l l' : Links}
    {peers : List PeerAddress} (dialling : Dialling cfg now elapsed l peers l') :
    l.started l' = peers.mapIdx fun index peer => ⟨l.nextTask + index, peer, mint elapsed index⟩ := by
  induction dialling with
  | start => simp [Links.started]
  | @next peers mid peer p previous known ready _ _ ih =>
    have span : mid.nextTask - l.nextTask = peers.length := by
      rw [previous.nextTask, Nat.add_sub_cancel_left]
    have longer : (mid.dial peer p (mint elapsed peers.length) now).nextTask - l.nextTask = peers.length + 1 := by
      rw [Links.dial, previous.nextTask, Nat.add_assoc, Nat.add_sub_cancel_left]
    have tasks : ∀ t, (mid.dial peer p (mint elapsed peers.length) now).dialTasks[t]? =
        if t = mid.nextTask then some ⟨peer, mint elapsed peers.length⟩ else mid.dialTasks[t]? :=
      fun t => FiniteMap.getElem?_insert
    unfold Links.started at ih ⊢
    rw [span] at ih
    rw [longer, List.range'_1_concat, List.filterMap_append, List.mapIdx_concat, ← ih]
    congr 1
    · refine List.filterMap_congr fun t member => ?_
      have below := List.mem_range'_1.mp member
      rw [tasks, if_neg (previous.nextTask ▸ Nat.ne_of_lt below.2)]
    · rw [← previous.nextTask]
      simp [tasks]

theorem started_nil {l l' : Links}
    (tasks : ∀ (t : TaskId) (d : DialTask), l'.dialTasks[t]? = some d → t < l.nextTask) : l.started l' = [] := by
  refine List.filterMap_eq_nil_iff.mpr fun t member => ?_
  cases at_t : l'.dialTasks[t]? with
  | none => rfl
  | some d => exact absurd (tasks t d at_t) (Nat.not_lt_of_le (List.mem_range'_1.mp member).1)

/-- What ties the running dials, the queued results and the entries together. -/
structure Attempts (attempts : List DialAttempt) (l : Links) : Prop where
  running : ∀ (t : TaskId) (d : DialTask), l.dialTasks[t]? = some d → t < l.nextTask ∧
    ∃ p since, l.peers[d.peer]? = some p ∧ p.dialTask = some t ∧ p.central = .dialing since d.session
  queued : ∀ r ∈ l.connRx, r.task < l.nextTask ∧ l.dialTasks[r.task]? = none ∧
    ∀ p, l.peers[r.peer]? = some p → p.central.session = some r.session → p.dialTask = some r.task
  nodup : (l.connRx.map DialResult.task).Nodup
  latest : ∀ (a : PeerAddress) (p : Peer) (t : TaskId), l.peers[a]? = some p → p.dialTask = some t →
    t < l.nextTask ∧ (latestAttempt attempts a).map DialAttempt.task = some t
  spawned : ∀ (t : TaskId) (d : DialTask), l.dialTasks[t]? = some d → ⟨t, d.peer, d.session⟩ ∈ attempts
  sent : ∀ r ∈ l.connRx, ⟨r.task, r.peer, r.session⟩ ∈ attempts

namespace Attempts

variable {attempts : List DialAttempt} {l l' : Links}

/-- A step that starts no dial keeps the tie if it aborts the task of each
entry it takes out of `Dialing`. -/
theorem update (ties : Attempts attempts l) (next : l.nextTask ≤ l'.nextTask)
    (results : l'.connRx.Sublist l.connRx)
    (tasks : ∀ (t : TaskId) (d : DialTask), l'.dialTasks[t]? = some d → l.dialTasks[t]? = some d)
    (entries : ∀ (a : PeerAddress) (p' : Peer), l'.peers[a]? = some p' →
      (∃ p, l.peers[a]? = some p ∧ SameAttempt p p') ∨
        p'.dialTask = none ∧ ∀ r ∈ l'.connRx, r.peer = a → p'.central.session ≠ some r.session)
    (kept : ∀ (t : TaskId) (d : DialTask), l'.dialTasks[t]? = some d → ∀ p : Peer, l.peers[d.peer]? = some p →
      p.dialTask = some t → ∃ p', l'.peers[d.peer]? = some p' ∧ SameAttempt p p') :
    Attempts (attempts ++ l.started l') l' := by
  rw [started_nil fun t d running => (ties.running t d (tasks t d running)).1, List.append_nil]
  constructor
  case running =>
    intro t d running
    obtain ⟨bound, p, since, known, task, dialing⟩ := ties.running t d (tasks t d running)
    obtain ⟨p', known', same⟩ := kept t d running p known task
    exact ⟨bound.trans_le next, p', since, known', same.1.trans task, same.2.trans dialing⟩
  case queued =>
    intro r member
    obtain ⟨bound, finished, current⟩ := ties.queued r (results.subset member)
    refine ⟨bound.trans_le next, ?_, ?_⟩
    · cases at_task : l'.dialTasks[r.task]? with
      | none => rfl
      | some d => simp [tasks _ _ at_task] at finished
    · intro p' known' session
      obtain ⟨p, known, same⟩ | ⟨_, apart⟩ := entries _ p' known'
      · exact same.1.trans (current p known (same.2 ▸ session))
      · exact absurd session (apart r member rfl)
  case nodup => exact ties.nodup.sublist (results.map _)
  case latest =>
    intro a p' t known' task
    obtain ⟨p, known, same⟩ | ⟨ended, _⟩ := entries a p' known'
    · obtain ⟨bound, last⟩ := ties.latest a p t known (same.1 ▸ task)
      exact ⟨bound.trans_le next, last⟩
    · simp [ended] at task
  case spawned => exact fun t d running => ties.spawned t d (tasks t d running)
  case sent => exact fun r member => ties.sent r (results.subset member)

/-- The case of a step that writes one entry: `p'` at `a`. -/
theorem updateEntry (ties : Attempts attempts l) {a : PeerAddress} {p' : Peer}
    (peers : ∀ b, l'.peers[b]? = if b = a then some p' else l.peers[b]?)
    (next : l.nextTask ≤ l'.nextTask) (results : l'.connRx.Sublist l.connRx) (tasks : l'.dialTasks = l.dialTasks)
    (entry : (∃ p, l.peers[a]? = some p ∧ SameAttempt p p') ∨
      (∀ (t : TaskId) (p : Peer), l.dialTasks[t]?.isSome → l.peers[a]? = some p → p.dialTask ≠ some t) ∧
        p'.dialTask = none ∧ ∀ r ∈ l'.connRx, r.peer = a → p'.central.session ≠ some r.session) :
    Attempts (attempts ++ l.started l') l' := by
  refine ties.update next results (fun t d running => tasks ▸ running) ?_ ?_
  · intro b q known
    rw [peers] at known
    split at known
    · rename_i same
      cases known
      exact same ▸ entry.imp_right And.right
    · exact .inl ⟨q, known, rfl, rfl⟩
  · intro t d running q known task
    rw [peers]
    split
    · rename_i same
      obtain ⟨p, known', kept⟩ | ⟨apart, _⟩ := entry
      · cases (same ▸ known').symm.trans known
        exact ⟨p', rfl, kept⟩
      · exact absurd task (apart t q (by rw [← tasks, running]; rfl) (same ▸ known))
    · exact ⟨q, known, rfl, rfl⟩

/-- One more dial, with a session no queued result of the peer carries. -/
theorem dial (ties : Attempts attempts l) {peer : PeerAddress} {p : Peer} {session : Session} {now : Instant}
    (known : l.peers[peer]? = some p) (ready : p.candidate now)
    (fresh : ∀ r ∈ l.connRx, r.peer = peer → r.session ≠ session) :
    Attempts (attempts ++ [⟨l.nextTask, peer, session⟩]) (l.dial peer p session now) := by
  have idle := (Peer.candidate_iff.mp ready).2.2.2.1
  have dialing : (p.dialStarted session l.nextTask now).central = .dialing now session :=
    Peer.dialStarted_central idle
  have here : (l.dial peer p session now).peers[peer]? = some (p.dialStarted session l.nextTask now) := by
    rw [Links.dial, FiniteMap.getElem?_insert, if_pos rfl]
  have elsewhere : ∀ a, a ≠ peer → (l.dial peer p session now).peers[a]? = l.peers[a]? := by
    intro a apart
    rw [Links.dial, FiniteMap.getElem?_insert, if_neg apart]
  have tasks : ∀ t, (l.dial peer p session now).dialTasks[t]? =
      if t = l.nextTask then some ⟨peer, session⟩ else l.dialTasks[t]? := fun t => FiniteMap.getElem?_insert
  constructor
  · intro t d running
    rw [tasks] at running
    split at running
    · rename_i new
      cases running
      exact ⟨new ▸ Nat.lt_succ_self _, _, now, here, new ▸ rfl, dialing⟩
    · obtain ⟨bound, q, since, known', task, dialing'⟩ := ties.running t d running
      refine ⟨bound.trans (Nat.lt_succ_self _), q, since, ?_, task, dialing'⟩
      rw [elsewhere _ ?_, known']
      rintro same
      rw [same, known] at known'
      cases known'
      simp [idle] at dialing'
  · intro r member
    obtain ⟨bound, finished, current⟩ := ties.queued r member
    refine ⟨bound.trans (Nat.lt_succ_self _), ?_, ?_⟩
    · rw [tasks, if_neg (Nat.ne_of_lt bound)]
      exact finished
    · intro q known' held
      by_cases same : r.peer = peer
      · rw [same, here] at known'
        cases known'
        rw [dialing] at held
        exact absurd (Option.some.inj held).symm (fresh r member same)
      · rw [elsewhere _ same] at known'
        exact current q known' held
  · exact ties.nodup
  · intro a q t known' task
    by_cases same : a = peer
    · subst same
      rw [here] at known'
      cases known'
      cases task
      exact ⟨Nat.lt_succ_self _, by simp [latestAttempt]⟩
    · rw [elsewhere _ same] at known'
      obtain ⟨bound, last⟩ := ties.latest a q t known' task
      refine ⟨bound.trans (Nat.lt_succ_self _), ?_⟩
      have other : peer ≠ a := fun eq => same eq.symm
      simpa [latestAttempt, List.filter_append, other] using last
  · intro t d running
    rw [tasks] at running
    split at running
    · rename_i new
      cases running
      exact List.mem_append_right _ (by simp [new])
    · exact List.mem_append_left _ (ties.spawned t d running)
  · exact fun r member => List.mem_append_left _ (ties.sent r member)

/-- A round of dials, its sessions being fresh. -/
theorem dialling {cfg : PeerLinkConfig} {now : Instant} {elapsed : Duration} {peers : List PeerAddress}
    (ties : Attempts attempts l) (dialling : Dialling cfg now elapsed l peers l')
    (fresh : ∀ entry ∈ peers.zipIdx, ∀ r ∈ l.connRx, r.peer = entry.1 → r.session ≠ mint elapsed entry.2) :
    Attempts (attempts ++ peers.mapIdx fun index peer => ⟨l.nextTask + index, peer, mint elapsed index⟩) l' := by
  induction dialling with
  | start => simpa using ties
  | @next peers mid peer p previous known ready _ _ ih =>
    rw [List.zipIdx_append] at fresh
    have so_far := ih fun entry member => fresh entry (List.mem_append_left _ member)
    have stepped := so_far.dial known ready (fun r member => fresh (peer, peers.length)
      (List.mem_append_right _ (by simp)) r (previous.frame.connRx ▸ member))
    rwa [List.append_assoc, previous.nextTask, ← List.mapIdx_concat] at stepped

/-- The case of a step that writes no entry and starts no task. -/
theorem updateNone (ties : Attempts attempts l) (peers : ∀ a : PeerAddress, l'.peers[a]? = l.peers[a]?)
    (next : l'.nextTask = l.nextTask) (results : l'.connRx.Sublist l.connRx) (tasks : l'.dialTasks = l.dialTasks) :
    Attempts (attempts ++ l.started l') l' :=
  ties.update (Nat.le_of_eq next.symm) results (fun _ _ running => tasks ▸ running)
    (fun a p known => .inl ⟨p, peers a ▸ known, rfl, rfl⟩) fun _ d _ p known _ => ⟨p, peers d.peer ▸ known, rfl, rfl⟩

/-- The task of a peer whose result has arrived is over. -/
theorem no_task_running (ties : Attempts attempts l) {message : DialResult} {rest : List DialResult} {p : Peer}
    (queued : l.connRx = message :: rest) (known : l.peers[message.peer]? = some p)
    (current : p.central.session = some message.session) {t : TaskId} (running : l.dialTasks[t]?.isSome) :
    p.dialTask ≠ some t := by
  intro task
  obtain ⟨_, finished, own⟩ := ties.queued message (queued ▸ List.mem_cons_self)
  cases task.symm.trans (own p known current)
  simp [finished] at running

/-- Once a peer's result is delivered, no other queued result has its session. -/
theorem no_other_result (ties : Attempts attempts l) {message : DialResult} {rest : List DialResult} {p : Peer}
    (queued : l.connRx = message :: rest) (known : l.peers[message.peer]? = some p)
    (current : p.central.session = some message.session) {r : DialResult} (member : r ∈ rest)
    (same : r.peer = message.peer) : r.session ≠ message.session := by
  intro session
  have nodup := ties.nodup
  rw [queued, List.map_cons, List.nodup_cons] at nodup
  have own := (ties.queued message (queued ▸ List.mem_cons_self)).2.2 p known current
  have other := (ties.queued r (queued ▸ List.mem_cons_of_mem _ member)).2.2 p (same ▸ known) (session ▸ current)
  have one_task : r.task = message.task := Option.some.inj (other.symm.trans own)
  exact nodup.1 (one_task ▸ List.mem_map_of_mem member)

/-- The case of a step that maps every entry, and aborts at least the tasks of
the entries it takes out of `Dialing`. -/
theorem updateAll (ties : Attempts attempts l) {f : Peer → Peer} (peers : l'.peers = l.peers.map fun _ p => f p)
    (next : l'.nextTask = l.nextTask) (results : l'.connRx = l.connRx)
    (tasks : ∀ (t : TaskId) (d : DialTask), l'.dialTasks[t]? = some d → l.dialTasks[t]? = some d)
    (entries : ∀ (a : PeerAddress) (p : Peer), l.peers[a]? = some p → SameAttempt p (f p) ∨
      (f p).dialTask = none ∧ (f p).central.session = none ∧
        ∀ (t : TaskId), p.dialTask = some t → l'.dialTasks[t]? = none) :
    Attempts (attempts ++ l.started l') l' := by
  have lookup : ∀ a : PeerAddress, l'.peers[a]? = l.peers[a]?.map f := fun a => by
    rw [peers, ExtTreeMap.getElem?_map]
  refine ties.update (Nat.le_of_eq next.symm) (results ▸ .refl _) tasks ?_ ?_
  · intro a q known
    rw [lookup] at known
    obtain ⟨p, before, rfl⟩ := Option.map_eq_some_iff.mp known
    obtain same | ⟨ended, silent, _⟩ := entries a p before
    · exact .inl ⟨p, before, same⟩
    · exact .inr ⟨ended, fun _ _ _ held => by simp [silent] at held⟩
  · intro t d running p known task
    refine ⟨f p, by rw [lookup, known]; rfl, ?_⟩
    obtain same | ⟨_, _, aborted⟩ := entries _ p known
    · exact same
    · simp [aborted t task] at running

/-- A dial that ends leaves its result, with the task and session it had. -/
theorem dialFinished (ties : Attempts attempts l) {task : TaskId} {d : DialTask}
    {result : Except BleError Channel} (running : l.dialTasks[task]? = some d) :
    Attempts (attempts ++ l.started { l with
      dialTasks := l.dialTasks.erase task
      connRx := l.connRx ++ [⟨task, d.peer, d.session, result⟩] })
      { l with
        dialTasks := l.dialTasks.erase task
        connRx := l.connRx ++ [⟨task, d.peer, d.session, result⟩] } := by
  have still : ∀ (t : TaskId) (e : DialTask), (l.dialTasks.erase task)[t]? = some e → l.dialTasks[t]? = some e := by
    intro t e running'
    rw [FiniteMap.getElem?_erase] at running'
    split at running'
    · simp at running'
    · exact running'
  obtain ⟨bound, p, since, known, own, dialing⟩ := ties.running task d running
  rw [started_nil fun t e running' => (ties.running t e (still t e running')).1, List.append_nil]
  constructor
  · intro t e running'
    exact ties.running t e (still t e running')
  · intro r member
    obtain old | new := List.mem_append.mp member
    · obtain ⟨below, finished, current⟩ := ties.queued r old
      refine ⟨below, ?_, current⟩
      rw [FiniteMap.getElem?_erase, finished, ite_self]
    · cases List.mem_singleton.mp new
      refine ⟨bound, by rw [FiniteMap.getElem?_erase, if_pos rfl], ?_⟩
      intro q known' _
      cases known.symm.trans known'
      exact own
  · rw [List.map_append]
    refine List.Nodup.append ties.nodup (List.nodup_singleton _) ?_
    intro t old new
    obtain ⟨r, member, rfl⟩ := List.mem_map.mp old
    have finished := (ties.queued r member).2.1
    rw [List.mem_singleton.mp new, running] at finished
    simp at finished
  · exact ties.latest
  · exact fun t e running' => ties.spawned t e (still t e running')
  · intro r member
    obtain old | new := List.mem_append.mp member
    · exact ties.sent r old
    · cases List.mem_singleton.mp new
      exact ties.spawned task d running

/-- Aborting tasks leaves the others as they are. -/
theorem running_of_abort {tasks : List TaskId} {running : ExtTreeMap TaskId DialTask} {t : TaskId} {d : DialTask}
    (left : (running.filter fun task _ => !tasks.contains task)[t]? = some d) : running[t]? = some d := by
  rw [FiniteMap.getElem?_filter_key] at left
  split at left
  · exact left
  · simp at left

theorem aborted {tasks : List TaskId} {running : ExtTreeMap TaskId DialTask} {t : TaskId} (listed : t ∈ tasks) :
    (running.filter fun task _ => !tasks.contains task)[t]? = none := by
  rw [FiniteMap.getElem?_filter_key, List.contains_iff_mem.mpr listed]
  rfl

theorem keep {cfg : PeerLinkConfig} {label : Label} (ties : Attempts attempts l) (change : Change cfg l label l')
    (shape : ∀ (a : PeerAddress) (p : Peer), l.peers[a]? = some p → p.Shape l.radio)
    (fresh : ∀ now elapsed, label = .pump now elapsed → ∀ entry ∈ (l.dialled cfg now).zipIdx, ∀ r ∈ l.connRx,
      r.peer = entry.1 → r.session ≠ mint elapsed entry.2) :
    Attempts (attempts ++ l.started l') l' := by
  have insert : ∀ {a : PeerAddress} {p' : Peer} (b : PeerAddress),
      (l.peers.insert a p')[b]? = if b = a then some p' else l.peers[b]? := fun b => FiniteMap.getElem?_insert
  have modify : ∀ {a : PeerAddress} {f : Peer → Peer} {p : Peer}, l.peers[a]? = some p → ∀ b : PeerAddress,
      (l.peers.modify a f)[b]? = if b = a then some (f p) else l.peers[b]? := by
    intro a f p known b
    rw [FiniteMap.getElem?_modify]
    split
    · rename_i same; rw [same, known]; rfl
    · rfl
  have modify_absent : ∀ {a : PeerAddress} {f : Peer → Peer}, l.peers[a]? = none → ∀ b : PeerAddress,
      (l.peers.modify a f)[b]? = l.peers[b]? := by
    intro a f absent b
    rw [FiniteMap.getElem?_modify]
    split
    · rename_i same; rw [same, absent]; rfl
    · rfl
  cases change with
  | quiet quiet => exact ties.updateNone (fun _ => rfl) rfl (.refl _) rfl
  | track absent =>
    refine ties.updateEntry insert le_rfl (.refl _) rfl (.inr ⟨?_, rfl, fun _ _ _ => by rintro ⟨⟩⟩)
    intro t p _ known
    simp [FiniteMap.not_mem_iff.mp absent] at known
  | @untrack _ _ a _ p known =>
    have kept : ∀ b, b ≠ a → (l.peers.erase a)[b]? = l.peers[b]? := fun b apart => by
      rw [FiniteMap.getElem?_erase, if_neg apart]
    refine ties.update le_rfl (.refl _) ?_ ?_ ?_
    · exact fun t d running => running_of_abort running
    · intro b q known'
      by_cases same : b = a
      · rw [same, FiniteMap.getElem?_erase, if_pos rfl] at known'
        simp at known'
      · exact .inl ⟨q, kept b same ▸ known', rfl, rfl⟩
    · intro t d running q known' task
      by_cases same : d.peer = a
      · rw [same, known] at known'
        cases known'
        simp [task] at running
      · exact ⟨q, (kept _ same).trans known', rfl, rfl⟩
  | @retry _ _ a now =>
    cases known : l.peers[a]? with
    | none => exact ties.updateNone (modify_absent known) rfl (.refl _) rfl
    | some p => exact ties.updateEntry (modify known) le_rfl (.refl _) rfl (.inl ⟨p, known, rfl, rfl⟩)
  | @radioKept _ _ _ _ _ now radio kept =>
    refine ties.updateAll rfl rfl rfl (fun _ _ running => running) fun a p known => ?_
    cases on : radio.usable with
    | true =>
      have back : p.radioChanged l.radio radio now = p.radioBack now := by simp [Peer.radioChanged, on]
      rw [back]
      refine (shape a p known).radioBack_attempt.imp_right ?_
      rintro ⟨none_before, ended, silent⟩
      refine ⟨ended, silent, fun t task => ?_⟩
      simp [none_before] at task
    | false =>
      have was : l.radio.usable = false := by
        by_contra up
        simp [kept (by simpa using up)] at on
      exact .inl (by simp [Peer.radioChanged, on, was, SameAttempt])
  | @radioLost _ _ _ _ _ now radio usable lost =>
    refine ties.updateAll rfl rfl rfl ?_ fun a p known => ?_
    · exact fun t d running => running_of_abort running
    · have down : p.radioChanged l.radio radio now = p.radioLost now := by simp [Peer.radioChanged, usable, lost]
      rw [down]
      refine .inr ⟨?_, ?_, fun t task => ?_⟩
      · simp [Peer.radioLost, Peer.clearStaleDial, Peer.centralApply, Peer.peripheralApply, CentralLink.isDialing]
      · simp [Peer.radioLost, Peer.clearStaleDial, Peer.centralApply, Peer.peripheralApply, CentralLink.isDialing,
          CentralLink.session]
      · have listed : t ∈ l.peers.toList.filterMap fun entry => entry.2.dialTask :=
          List.mem_filterMap.mpr ⟨(a, p), ExtTreeMap.mem_toList_iff_getElem?_eq_some.mpr known, task⟩
        exact aborted listed
  | @lateLoss _ _ a _ _ _ now =>
    cases known : l.peers[a]? with
    | none => exact ties.updateNone (modify_absent known) rfl (.refl _) rfl
    | some p =>
      refine ties.updateEntry (modify known) le_rfl (.refl _) rfl (.inl ⟨p, known, ?_⟩)
      cases unlinked : p.link with
      | none => simpa using (shape a p known).lateLoss_attempt unlinked
      | some link => simp [SameAttempt]
  | dialStale queued stale => exact ties.updateNone (fun _ => rfl) rfl (queued ▸ List.sublist_cons_self _ _) rfl
  | dialUnlinked queued known current result unlinked =>
    rw [(shape _ _ known).dialSucceeded_central current] at unlinked
    simp [CentralLink.isConnected] at unlinked
  | @dialLinked _ _ now message rest p channel queued known current result linked =>
    refine ties.updateEntry insert (Nat.le_succ _) (queued ▸ List.sublist_cons_self _ _) rfl (.inr ⟨?_, rfl, ?_⟩)
    · intro t q running known'
      cases known.symm.trans known'
      exact ties.no_task_running queued known current running
    · intro r member same
      have central : ((p.dialSucceeded now).dialLinked ⟨l.nextLinkGen + 1, l.nextTask⟩).central.session =
          some message.session := congrArg CentralLink.session ((shape _ _ known).dialSucceeded_central current)
      rw [central]
      exact fun eq => ties.no_other_result queued known current member same (Option.some.inj eq).symm
  | @dialFailed _ _ now message rest p p' err queued known current result failed =>
    obtain ⟨central', _, _, _, ended⟩ := Peer.dialFailed_kept failed
    refine ties.updateEntry insert le_rfl (queued ▸ List.sublist_cons_self _ _) rfl (.inr ⟨?_, ended, ?_⟩)
    · intro t q running known'
      cases known.symm.trans known'
      exact ties.no_task_running queued known current running
    · intro r member same held
      obtain ⟨_, _, ⟨⟨since, central⟩, _⟩ | ⟨central, _⟩⟩ := (shape _ _ known).of_session current
      · rw [central', central] at held
        simp [CentralLink.isDialing, CentralLink.session] at held
      · rw [central', central] at held
        exact ties.no_other_result queued known current member same (Option.some.inj held).symm
  | accepted known accepts unlinked room usable =>
    exact ties.updateEntry insert (Nat.le_succ _) (.refl _) rfl (.inl ⟨_, known, rfl, rfl⟩)
  | linkGoneStale queued stale => exact ties.updateNone (fun _ => rfl) rfl (.refl _) rfl
  | @linkGone _ _ now message rest p link queued known linked gen =>
    obtain ⟨no_task, silent⟩ := (shape _ _ known).linkGone_attempt now (by rw [linked]; rfl)
    refine ties.updateEntry insert le_rfl (.refl _) rfl (.inr ⟨?_, no_task, fun _ _ _ held => ?_⟩)
    · intro t q _ known' task
      cases known.symm.trans known'
      have ended : p.dialTask = none := no_task
      simp [ended] at task
    · simp [silent] at held
  | @tick _ _ now =>
    refine ties.updateAll rfl rfl rfl ?_ fun a p known => ?_
    · exact fun t d running => running_of_abort running
    · obtain same | ⟨ended, silent, stale⟩ := (shape a p known).tick_attempt cfg now
      · exact .inl same
      · refine .inr ⟨ended, silent, fun t task => ?_⟩
        have listed : t ∈ (l.peers.map fun _ p => p.centralApply .tick now).toList.filterMap
            fun entry => entry.2.staleDial := by
          refine List.mem_filterMap.mpr ⟨(a, p.centralApply .tick now), ?_, stale ▸ task⟩
          rw [ExtTreeMap.mem_toList_iff_getElem?_eq_some, ExtTreeMap.getElem?_map, known]
          rfl
        exact aborted listed
  | pump dialling =>
    rw [dialling.started]
    exact ties.dialling dialling (fresh _ _ rfl)
  | dialFinished running => exact ties.dialFinished running
  | pumpEnded running => exact ties.updateNone (fun _ => rfl) rfl (.refl _) rfl

end Attempts

end Links

namespace Worker

instance (cfg : PeerLinkConfig) (w : Worker) : (label : Label) → Decidable (FreshSessions cfg w label)
  | .pump now elapsed => inferInstanceAs (Decidable (∀ entry ∈ (w.links.dialled cfg now).zipIdx, ∀ r ∈ w.connRx,
      r.peer = entry.1 → r.session ≠ UInt64.ofNat (elapsed + entry.2 + 1)))
  | .select _ _ _ _ => .isTrue trivial
  | .dialFinished _ _ => .isTrue trivial
  | .pumpEnded _ => .isTrue trivial

theorem run_attempts {cfg : PeerLinkConfig} {attempts : List DialAttempt} {w : Worker}
    (run : (machine cfg).Run (fun _ => FreshSessions cfg) noteAttempts [] attempts w) :
    w.links.Attempts attempts := by
  induction run with
  | start first =>
    obtain ⟨initial, clock, rfl⟩ := first
    constructor <;> simp [start, links]
  | next previous fresh step ih =>
    refine ih.keep (step_change step) (fun _ _ known => reach_shape previous.reach known) ?_
    rintro now elapsed rfl
    exact fresh

/-- Whatever result is delivered next, it is that of its peer's most recent
dial and this dial is the one in `Dialing`; or it changes no entry at all. -/
def LatestOrDiscarded (cfg : PeerLinkConfig) (attempts : List DialAttempt) (w : Worker) : Prop :=
  ∀ top base now message rest w', w.connRx = message :: rest →
    step cfg w (.select top base .dialResult now) = some w' →
    (∃ p : Peer, w.peers[message.peer]? = some p ∧ p.central.isDialing ∧ p.central.session = some message.session ∧
      p.dialTask = some message.task ∧
      (latestAttempt attempts message.peer).map DialAttempt.task = some message.task) ∨
    ∀ a : PeerAddress, w'.peers[a]? = w.peers[a]?

theorem latest_or_discarded_of_ties {cfg : PeerLinkConfig} {attempts : List DialAttempt} {w : Worker}
    (ties : w.links.Attempts attempts) (shape : ∀ (a : PeerAddress) (p : Peer), w.peers[a]? = some p → p.Shape w.radio) :
    LatestOrDiscarded cfg attempts w := by
  intro top base now message rest w' queued step
  have latest : ∀ p : Peer, w.peers[message.peer]? = some p → p.central.session = some message.session →
      p.central.isDialing ∧ p.dialTask = some message.task ∧
        (latestAttempt attempts message.peer).map DialAttempt.task = some message.task := by
    intro p known current
    have member : message ∈ w.connRx := queued ▸ List.mem_cons_self
    have own := (ties.queued message member).2.2 p known current
    obtain ⟨_, _, ⟨⟨since, central⟩, _⟩ | ⟨_, _, none_left⟩⟩ := (shape _ _ known).of_session current
    · exact ⟨by rw [central]; rfl, own, (ties.latest _ _ _ known own).2⟩
    · simp [own] at none_left
  have change := step_change step
  generalize after : w'.links = l' at change
  have entries : ∀ {message' : DialResult} {rest' : List DialResult}, w.links.connRx = message' :: rest' →
      message' = message := fun queued' => (List.cons.inj (queued'.symm.trans queued)).1
  cases change with
  | quiet quiet => exact quiet.elim
  | dialStale queued' stale =>
    refine .inr fun a => ?_
    change w'.links.peers[a]? = _
    rw [after]
    rfl
  | dialUnlinked queued' known current result unlinked =>
    cases entries queued'
    exact .inl ⟨_, known, (latest _ known current).1, current, (latest _ known current).2⟩
  | dialLinked queued' known current result linked =>
    cases entries queued'
    exact .inl ⟨_, known, (latest _ known current).1, current, (latest _ known current).2⟩
  | dialFailed queued' known current result failed =>
    cases entries queued'
    exact .inl ⟨_, known, (latest _ known current).1, current, (latest _ known current).2⟩

/-- In a run whose rounds of dials all mint fresh sessions, a delivered result
acts only if it is of its peer's latest dial, still in `Dialing`. -/
theorem run_latest_or_discarded {cfg : PeerLinkConfig} {attempts : List DialAttempt} {w : Worker}
    (run : (machine cfg).Run (fun _ => FreshSessions cfg) noteAttempts [] attempts w) :
    LatestOrDiscarded cfg attempts w :=
  latest_or_discarded_of_ties (run_attempts run) fun _ _ known => reach_shape run.reach known

/-- A dial of `a` ends, `a` is untracked and tracked again, and is dialled
again after `again` more nanoseconds on the clock. -/
def staleResult (again : Duration) : List Label :=
  let a : PeerAddress := ⟨"a"⟩
  [.select 0 0 (.track a ⟨"a"⟩) 0, .pump 0 0, .dialFinished 0 (.ok ⟨a, 20⟩),
    .select 0 0 (.untrack a) 0, .pump 0 0, .select 0 0 (.track a ⟨"a"⟩) 0, .pump 0 again]

/-- The next delivery is of an old dial, and yet links its peer. -/
def linksByStale (cfg : PeerLinkConfig) (now : Instant) (attempts : List DialAttempt) (w : Worker) : Bool :=
  match w.connRx, step cfg w (.select now now .dialResult now) with
  | message :: _, some w' =>
    (latestAttempt attempts message.peer).map DialAttempt.task != some message.task &&
      (w'.peers[message.peer]?.map Peer.link) != (w.peers[message.peer]?.map Peer.link)
  | _, _ => false

/-- Two dials of one peer, each read 0 nanoseconds after its `now`, get the
same session, and the result of the first is taken for that of the second. -/
theorem not_latest_or_discarded : ¬ ∀ (cfg : PeerLinkConfig) (attempts : List DialAttempt) (w : Worker),
    (machine cfg).Run (fun _ _ _ => True) noteAttempts [] attempts w → LatestOrDiscarded cfg attempts w := by
  intro claim
  obtain ⟨attempts, w, run, linked⟩ := Machine.Run.exists_of_follow (machine { role := .dialOnly })
    (fun _ _ _ => True) noteAttempts [] (linksByStale { role := .dialOnly } 0) ⟨.on, 0, rfl⟩ (staleResult 0)
    (by decide +kernel)
  unfold linksByStale at linked
  split at linked
  · rename_i message rest w' queued step
    simp only [Bool.and_eq_true, bne_iff_ne, ne_eq] at linked
    obtain ⟨p, _, _, _, _, latest⟩ | same := claim _ attempts w run 0 0 0 message rest w' queued step
    · exact linked.1 latest
    · exact linked.2 (by rw [same])
  · simp at linked

theorem run_latest_or_discarded_stale : ∃ attempts w, w.connRx ≠ [] ∧ attempts.length = 2 ∧
    LatestOrDiscarded { role := .dialOnly } attempts w := by
  obtain ⟨attempts, w, run, waiting⟩ := Machine.Run.exists_of_follow (machine { role := .dialOnly })
    (fun _ => FreshSessions { role := .dialOnly }) noteAttempts []
    (fun attempts w => !w.connRx.isEmpty && attempts.length == 2) ⟨.on, 0, rfl⟩ (staleResult 7) (by decide +kernel)
  simp only [Bool.and_eq_true, Bool.not_eq_true', beq_iff_eq, List.isEmpty_eq_false_iff] at waiting
  exact ⟨attempts, w, waiting.1, waiting.2, run_latest_or_discarded run⟩

end Worker

end BleGatt
