import BleGatt.Drivers.ServedSessions

namespace BleGatt
open Std

/-! Whether Rust is given a session again that it was told is over. -/

namespace SessionServer

/-- It was given before the counter came to be `next`. -/
def Minted (next session : UInt64) : Prop := session ≠ 0 ∧ (next = 0 ∨ session < next)

namespace Minted

variable {next session : UInt64}

theorem succ_of_le (nonzero : session ≠ 0) (before : session ≤ next) : Minted (next + 1) session := by
  refine ⟨nonzero, ?_⟩
  rw [UInt64.le_iff_toNat_le] at before
  rw [UInt64.lt_iff_toNat_lt, ← UInt64.toNat_inj, UInt64.toNat_add]
  have bound := next.toNat_lt
  have one : (1 : UInt64).toNat = 1 := rfl
  have zero : (0 : UInt64).toNat = 0 := rfl
  omega

theorem succ (minted : Minted next session) (left_ : next ≠ 0) : Minted (next + 1) session := by
  obtain ⟨nonzero, ended | before⟩ := minted
  · exact absurd ended left_
  · exact succ_of_le nonzero (UInt64.le_of_lt before)

theorem ne (minted : Minted next session) (left_ : next ≠ 0) : session ≠ next := by
  rintro rfl
  obtain ⟨_, ended | before⟩ := minted
  · exact left_ ended
  · exact absurd before (UInt64.lt_irrefl _)

end Minted

open ServerReport

/-- A session that Rust was told is over is not given again, and whoever still
names it does not reach the session that replaced it. -/
structure SessionsApart (s : SessionServer) : Prop where
  never : Reused.Never Gives Ends s.told
  replaced : ∀ address session current before report, Reused.Ended Gives Ends before (address, session) →
    before ++ [report] <+: s.told → report.Gives (address, current) → s.serverSessions[address]? = some current →
      s.disconnectServerPeer address session = s ∧
        ∀ request : NotifyRequest, request.address = address → s.notifyCharacteristicTo request session = (false, s)

/-- What is known of the sessions while the centrals that linger are quiet. -/
structure Keeping (h : List PeerAddress) (sessions : PeerMap UInt64) (next : UInt64) (told : List ServerReport) : Prop where
  never : Reused.Never Gives Ends told
  lingers : ∀ (address : PeerAddress) (session : UInt64), sessions[address]? = some session →
    Reused.Ended Gives Ends told (address, session) → address ∈ h
  minted : ∀ (address : PeerAddress) (session : UInt64), sessions[address]? = some session → Minted next session
  given : ∀ report ∈ told, ∀ key : PeerAddress × UInt64, report.Gives key → Minted next key.2

namespace Keeping

variable {h h' : List PeerAddress} {sessions sessions' : PeerMap UInt64} {next session : UInt64} {told : List ServerReport}
  {address device : PeerAddress} {report : ServerReport}

/-- Sessions are forgotten, and with them who lingers. -/
theorem forget (keeping : Keeping h sessions next told)
    (fewer : ∀ (address : PeerAddress) (session : UInt64), sessions'[address]? = some session → sessions[address]? = some session ∧
      (address ∈ h → address ∈ h')) : Keeping h' sessions' next told := by
  refine ⟨keeping.never, fun address session there ended => ?_, fun address session there => ?_, keeping.given⟩
  · obtain ⟨was, lingers⟩ := fewer address session there
    exact lingers (keeping.lingers address session was ended)
  · exact keeping.minted address session (fewer address session there).1

/-- Something is reported that gives no session and ends none. -/
theorem tell (keeping : Keeping h sessions next told) (quiet : ∀ key, ¬report.Gives key ∧ ¬report.Ends key) :
    Keeping h sessions next (told ++ [report]) := by
  refine ⟨keeping.never.concat fun key given => absurd given (quiet key).1, fun address session there ended => ?_,
    keeping.minted, fun other inside key given => ?_⟩
  · obtain before | ⟨now, _⟩ := Reused.ended_concat.mp ended
    · exact keeping.lingers address session there before
    · exact absurd now (quiet _).2
  · rcases List.mem_append.mp inside with before | now
    · exact keeping.given other before key given
    · rw [List.mem_singleton.mp now] at given
      exact absurd given (quiet key).1

/-- Rust is told that a central is gone whose session is not known, or which
lingers from now on. -/
theorem ends (keeping : Keeping h sessions next told) (gone : sessions[address]? = none ∨ address ∈ h) :
    Keeping h sessions next (told ++ [.onDisconnected address]) := by
  refine ⟨keeping.never.concat fun key given => absurd given id, fun other session there ended => ?_, keeping.minted,
    fun other inside key given => ?_⟩
  · obtain before | ⟨now, _⟩ := Reused.ended_concat.mp ended
    · exact keeping.lingers other session there before
    · have same : other = address := now
      rw [same] at there ⊢
      obtain unknown | lingers := gone
      · rw [unknown] at there
        simp at there
      · exact lingers
  · rcases List.mem_append.mp inside with before | now
    · exact keeping.given other before key given
    · rw [List.mem_singleton.mp now] at given
      exact absurd given id

/-- Rust is given the session of a central that does not linger. -/
theorem give (keeping : Keeping h sessions next told) (there : sessions[device]? = some session) (heard : device ∉ h)
    (gives : ∀ key, report.Gives key ↔ key = (device, session)) (no_end : ∀ key, ¬report.Ends key) :
    Keeping h sessions next (told ++ [report]) := by
  refine ⟨keeping.never.concat fun key given ended => ?_, fun address session there ended => ?_, keeping.minted,
    fun other inside key given => ?_⟩
  · rw [(gives key).mp given] at ended
    exact heard (keeping.lingers device session there ended)
  · obtain before | ⟨now, _⟩ := Reused.ended_concat.mp ended
    · exact keeping.lingers address session there before
    · exact absurd now (no_end _)
  · rcases List.mem_append.mp inside with before | now
    · exact keeping.given other before key given
    · rw [List.mem_singleton.mp now] at given
      rw [(gives key).mp given]
      exact keeping.minted device session there

/-- A central is given a session of its own. -/
theorem mint (keeping : Keeping h sessions next told) (left_ : next ≠ 0) :
    Keeping h (sessions.insert device next) (next + 1) told := by
  refine ⟨keeping.never, fun address session there ended => ?_, fun address session there => ?_, fun report inside key given =>
    (keeping.given report inside key given).succ left_⟩
  · rw [FiniteMap.getElem?_insert] at there
    split at there
    · obtain ⟨report, inside, given⟩ := ended.given
      have other := (keeping.given report inside _ given).ne left_
      exact absurd (Option.some.inj there).symm other
    · exact keeping.lingers address session there ended
  · rw [FiniteMap.getElem?_insert] at there
    split at there
    · rw [← Option.some.inj there]
      exact .succ_of_le left_ (UInt64.le_refl _)
    · exact (keeping.minted address session there).succ left_

end Keeping

variable {h : List PeerAddress} {s s' : SessionServer} {device : PeerAddress}

def Kept (h : List PeerAddress) (s : SessionServer) : Prop := Keeping h s.serverSessions s.nextServerSession s.told

/-- A central has the session that it is given. -/
theorem Kept.session (kept : Kept h s) (able : s.canServe device = true) :
    Kept h (s.session device).2 ∧ (s.session device).2.serverSessions[device]? = some (s.session device).1 := by
  unfold SessionServer.session
  cases there : s.serverSessions[device]? with
  | some session => exact ⟨kept, there⟩
  | none =>
    have left_ : s.nextServerSession ≠ 0 := by simpa [canServe, there] using able
    refine ⟨kept.mint left_, ?_⟩
    dsimp only
    rw [FiniteMap.getElem?_insert, if_pos rfl]

theorem Kept.write (kept : Kept h s) {session : UInt64} (there : s.serverSessions[device]? = some session)
    (heard : device ∉ h) (characteristic : CharacteristicUuid) (value : Bytes) :
    Kept h (s.tell (.onServerCharacteristicWritten device characteristic value session)) :=
  kept.give there heard (fun _ => Iff.rfl) fun _ ended => ended

theorem Kept.writes (kept : Kept h s) {session : UInt64} (there : s.serverSessions[device]? = some session)
    (assembled : List (CharacteristicUuid × Bytes)) (heard : assembled = [] ∨ device ∉ h) :
    Kept h (assembled.foldl (fun s write => s.tell (.onServerCharacteristicWritten device write.1 write.2 session)) s) := by
  induction assembled generalizing s with
  | nil => exact kept
  | cons write assembled ih =>
    have now : device ∉ h := by simpa using heard
    exact ih (kept.write there now write.1 write.2) there (.inr now)

theorem Kept.served (kept : Kept h s) (forgotten : s.serverSessions = ∅) (served : List PeerAddress) :
    Kept h (served.foldl (fun s device => s.tell (.onDisconnected device)) s) := by
  induction served generalizing s with
  | nil => exact kept
  | cons device served ih =>
    have unknown : s.serverSessions[device]? = none := by rw [forgotten, ExtTreeMap.getElem?_empty]
    exact ih (kept.ends (.inl unknown)) forgotten

/-- Nothing of a central is known, or it does not linger. -/
theorem Kept.erase (kept : Kept h s) (device : PeerAddress) :
    Keeping (h.filter fun other => decide (other ≠ device)) (s.serverSessions.erase device) s.nextServerSession s.told := by
  refine kept.forget fun address session there => ?_
  rw [FiniteMap.getElem?_erase] at there
  split at there
  · simp at there
  · rename_i other
    refine ⟨there, fun lingers => ?_⟩
    rw [List.mem_filter, decide_eq_true_eq]
    exact ⟨lingers, other⟩

theorem onDescriptorWriteRequest_disable (device : PeerAddress) (characteristic : CharacteristicUuid) (s : SessionServer) :
    let s' := s.onDescriptorWriteRequest device characteristic false
    s'.serverSessions = s.serverSessions ∧ s'.nextServerSession = s.nextServerSession ∧
      s'.told = if s.isSubscribed device characteristic = true ∧ s'.isSubscribedAnywhere device = false then
        s.told ++ [.onDisconnected device] else s.told := by
  dsimp only
  unfold onDescriptorWriteRequest
  rw [if_neg (by simp)]
  by_cases there : s.isSubscribed device characteristic = true
  · rw [if_pos there]
    dsimp only
    generalize less_eq : { s with
      subscribedDevices := s.subscribedDevices.filter fun entry => decide (entry ≠ (characteristic, device)) } = less
    have sessions : less.serverSessions = s.serverSessions := by rw [← less_eq]
    have next : less.nextServerSession = s.nextServerSession := by rw [← less_eq]
    have told : less.told = s.told := by rw [← less_eq]
    by_cases more : less.isSubscribedAnywhere device = true
    · rw [if_pos more, if_neg (by simp [more])]
      exact ⟨sessions, next, told⟩
    · rw [Bool.not_eq_true] at more
      have unsubscribed : (less.tell (.onDisconnected device)).isSubscribedAnywhere device = false := more
      rw [if_neg (by simp [more]), if_pos ⟨there, unsubscribed⟩]
      exact ⟨sessions, next, congrArg (· ++ [ServerReport.onDisconnected device]) told⟩
  · rw [if_neg there, if_neg (by simp [there])]
    exact ⟨rfl, rfl, rfl⟩

/-- The disable that is a central's last: it lingers from now on. -/
theorem Kept.disable (kept : Kept h s) {generation : Nat} (newest : s.serverGeneration = generation)
    (characteristic : CharacteristicUuid) :
    let s' := s.onDescriptorWriteRequest device characteristic false
    Kept (lingering h s (.onDescriptorWriteRequest generation device characteristic false) s') s' := by
  obtain ⟨sessions, next, told⟩ := onDescriptorWriteRequest_disable device characteristic s
  dsimp only at sessions next told ⊢
  unfold Kept lingering
  dsimp only
  rw [sessions, next, told]
  by_cases last : s.isSubscribed device characteristic = true ∧
      (s.onDescriptorWriteRequest device characteristic false).isSubscribedAnywhere device = false
  · rw [if_pos ⟨newest, last⟩, if_pos last]
    have more : Kept (device :: h) s :=
      kept.forget fun _ _ there => ⟨there, fun lingers => List.mem_cons_of_mem _ lingers⟩
    exact more.ends (.inr List.mem_cons_self)
  · rw [if_neg fun all => last all.2, if_neg last]
    exact kept

/-- Those that are still to be reported linger once they are. -/
theorem Kept.proceed (kept : Kept h s) {here next : ServerCall} (proceeded : s.proceed here = some (s', next)) :
    Kept (lingeringFrom h here) s' := by
  cases here with
  | reporting addresses =>
    cases addresses with
    | nil =>
      cases Option.some.inj proceeded
      exact kept
    | cons address addresses =>
      cases Option.some.inj proceeded
      have more : Kept (address :: h) s :=
        kept.forget fun _ _ there => ⟨there, fun lingers => List.mem_cons_of_mem _ lingers⟩
      exact more.ends (.inr List.mem_cons_self)
  | stopping next =>
    cases Option.some.inj proceeded
    have nothing : Kept [] { s with queued := [], serverSessions := ∅, subscribedDevices := [] } :=
      kept.forget fun address session there => by simp at there
    exact nothing.served rfl s.served
  | closed next =>
    cases next with
    | none =>
      cases Option.some.inj proceeded
      exact kept
    | some characteristics =>
      cases Option.some.inj proceeded
      exact kept
  | adding characteristics =>
    cases characteristics with
    | nil =>
      cases Option.some.inj proceeded
      exact kept
    | cons uuid rest =>
      cases Option.some.inj proceeded
      exact kept
  | cleared served next =>
    cases Option.some.inj proceeded
    exact kept
  | opening characteristics =>
    cases Option.some.inj proceeded
    exact kept
  | renewed generation characteristics =>
    cases Option.some.inj proceeded
    exact kept
  | returned => simp [SessionServer.proceed] at proceeded

theorem step_kept {label : SessionStep} (kept : Kept h s) (quiet : QuietOnceGone h s label = true)
    (stepped : step s label = some s') : Kept (lingering h s label s') s' := by
  cases label with
  | onConnected generation device =>
    cases Option.some.inj stepped
    unfold current
    split
    · exact kept.tell fun _ => ⟨id, id⟩
    · exact kept
  | onDisconnected generation device =>
    cases Option.some.inj stepped
    unfold lingering current
    dsimp only
    split
    · have unknown : (s.serverSessions.erase device)[device]? = none := by rw [FiniteMap.getElem?_erase, if_pos rfl]
      exact (kept.erase device).ends (.inl unknown)
    · exact kept
  | onDescriptorWriteRequest generation device characteristic enable =>
    cases Option.some.inj stepped
    unfold current
    cases enable with
    | true =>
      show Kept h _
      split
      · rename_i newest
        unfold onDescriptorWriteRequest
        rw [if_pos rfl]
        split
        · exact kept
        · rename_i added
          simp only [QuietOnceGone, newest, added, ne_eq, not_true_eq_false, decide_false, Bool.false_or, Bool.and_eq_true,
            decide_eq_true_eq] at quiet
          have held := @Kept.session h { s with subscribedDevices := s.subscribedDevices ++ [(characteristic, device)] } device
            kept quiet.2
          obtain ⟨same, there⟩ := held
          exact same.give there quiet.1 (fun _ => Iff.rfl) fun _ ended => ended
      · exact kept
    | false =>
      by_cases newest : s.serverGeneration = generation
      · rw [if_pos newest]
        exact kept.disable newest characteristic
      · rw [if_neg newest]
        unfold lingering
        dsimp only
        rw [if_neg (by simp [newest])]
        exact kept
  | onCharacteristicWriteRequest generation device characteristic value =>
    cases Option.some.inj stepped
    unfold current
    show Kept h _
    split
    · rename_i newest
      simp only [QuietOnceGone, newest, ne_eq, not_true_eq_false, decide_false, Bool.false_or, Bool.and_eq_true,
        decide_eq_true_eq] at quiet
      obtain ⟨same, there⟩ := Kept.session kept quiet.2
      exact same.write there quiet.1 characteristic value
    · exact kept
  | onExecuteWrite generation device assembled =>
    cases Option.some.inj stepped
    unfold current
    show Kept h _
    split
    · rename_i newest
      simp only [QuietOnceGone, newest, ne_eq, not_true_eq_false, decide_false, Bool.false_or, Bool.and_eq_true,
        Bool.or_eq_true, List.isEmpty_iff, decide_eq_true_eq] at quiet
      obtain ⟨same, there⟩ := Kept.session kept quiet.2
      exact same.writes there assembled quiet.1
    · exact kept
  | notifyCharacteristicTo request session =>
    cases Option.some.inj stepped
    unfold notifyCharacteristicTo
    show Kept h _
    split
    · exact kept
    · exact kept
  | disconnectServerPeer address session =>
    cases Option.some.inj stepped
    unfold disconnectServerPeer lingering
    dsimp only
    split
    · split
      · exact kept.erase address
      · exact kept.erase address
    · exact kept
  | radioOff =>
    cases Option.some.inj stepped
    exact kept
  | stopAdvertising =>
    cases Option.some.inj stepped
    exact kept
  | startAdvertising characteristics =>
    cases Option.some.inj stepped
    exact kept
  | proceed call =>
    obtain ⟨here, there, result⟩ := Option.bind_eq_some_iff.mp stepped
    obtain ⟨⟨t, next⟩, proceeded, ⟨⟩⟩ := Option.bind_eq_some_iff.mp result
    unfold lingering
    dsimp only
    rw [there]
    have after := kept.proceed proceeded
    exact after
  | failAdvertise call =>
    have same : s'.serverSessions = s.serverSessions ∧ s'.nextServerSession = s.nextServerSession ∧ s'.told = s.told := by
      simp only [step] at stepped
      split at stepped
      · cases Option.some.inj stepped
        exact ⟨rfl, rfl, rfl⟩
      · cases Option.some.inj stepped
        exact ⟨rfl, rfl, rfl⟩
      · simp at stepped
    unfold Kept
    rw [same.1, same.2.1, same.2.2]
    exact kept

/-- In every run in which a central that Rust was told is gone is not heard of
again before its session is forgotten, no session that ended is given again. -/
theorem run_sessionsApart (run : machine.Run (fun h s label => QuietOnceGone h s label = true) lingering [] h s) :
    SessionsApart s := by
  have kept : Kept h s := by
    refine run.invariant (P := Kept) ?_ ?_
    · rintro _ rfl
      refine ⟨.nil, fun _ _ there => ?_, fun _ _ there => ?_, by simp⟩
      · simp at there
      · simp at there
    · intro _ _ _ _ _ kept quiet stepped
      exact step_kept kept quiet stepped
  refine ⟨kept.never, fun address session current before report ended place given there => ?_⟩
  have apart : current ≠ session := by
    rintro rfl
    exact kept.never before report place _ given ended
  have nonzero : session ≠ 0 := by
    obtain ⟨first, inside, was⟩ := ended.given
    have earlier : first ∈ s.told := place.subset (List.mem_append_left _ inside)
    exact (kept.given first earlier _ was).1
  have stale : s.sessionHolds address session = false := by
    simp [sessionHolds, nonzero, there, apart]
  refine ⟨?_, ?_⟩
  · rw [disconnectServerPeer, stale]
    rfl
  · rintro request rfl
    rw [notifyCharacteristicTo, stale]
    rfl

/-- A central leaves and comes back: it has another session. -/
def comesBack : List SessionStep :=
  let central : PeerAddress := ⟨"c"⟩
  [.startAdvertising [⟨1⟩], .proceed 0, .proceed 0, .proceed 0, .proceed 0, .proceed 0, .proceed 0, .proceed 0,
    .onConnected 2 central, .onDescriptorWriteRequest 2 central ⟨1⟩ true, .onDisconnected 2 central,
    .onCharacteristicWriteRequest 2 central ⟨1⟩ [7]]

theorem run_sessionsApart_comesBack : ∃ s : SessionServer, s.told =
    [.onConnected ⟨"c"⟩, .onServerSubscribed ⟨"c"⟩ 1, .onDisconnected ⟨"c"⟩,
      .onServerCharacteristicWritten ⟨"c"⟩ ⟨1⟩ [7] 2] ∧ SessionsApart s := by
  obtain ⟨h, s, run, good⟩ := Machine.Run.exists_of_follow machine (fun h s label => QuietOnceGone h s label = true)
    lingering [] (fun _ s => decide (s.told = [.onConnected ⟨"c"⟩, .onServerSubscribed ⟨"c"⟩ 1, .onDisconnected ⟨"c"⟩,
      .onServerCharacteristicWritten ⟨"c"⟩ ⟨1⟩ [7] 2])) (s := {}) rfl comesBack (by decide +kernel)
  exact ⟨s, of_decide_eq_true good, run_sessionsApart run⟩

/-- It unsubscribes and subscribes again. -/
def resubscribes : List SessionStep :=
  let central : PeerAddress := ⟨"c"⟩
  [.startAdvertising [⟨1⟩], .proceed 0, .proceed 0, .proceed 0, .proceed 0, .proceed 0, .proceed 0, .proceed 0,
    .onDescriptorWriteRequest 2 central ⟨1⟩ true, .onDescriptorWriteRequest 2 central ⟨1⟩ false,
    .onDescriptorWriteRequest 2 central ⟨1⟩ true]

theorem not_sessionsApart : ¬∀ s : SessionServer, machine.Reach s → SessionsApart s := by
  intro all
  obtain ⟨s, reach, bad⟩ := Machine.Reach.exists_of_follow machine (fun s => decide (s.told =
    [.onServerSubscribed ⟨"c"⟩ 1, .onDisconnected ⟨"c"⟩, .onServerSubscribed ⟨"c"⟩ 1])) (s := {}) rfl resubscribes
    (by decide +kernel)
  have never := (all s reach).never
  rw [of_decide_eq_true bad] at never
  refine never [.onServerSubscribed ⟨"c"⟩ 1, .onDisconnected ⟨"c"⟩] _ List.prefix_rfl (⟨"c"⟩, 1) rfl ?_
  exact ⟨[.onServerSubscribed ⟨"c"⟩ 1], _, List.prefix_rfl, rfl, _, List.mem_cons_self, rfl⟩

end SessionServer
end BleGatt
