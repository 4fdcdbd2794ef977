import BleGatt.Drivers.LinuxQuarantine

namespace BleGatt
open Std

/-! Whether a `Disconnect` that is still with BlueZ can meet a newer
`Connect` to its address. -/

namespace LinuxDialer

/-- No `Connect` is out to an address while BlueZ has a `Disconnect` of it
still to resolve. -/
def NoStaleDisconnect (s : LinuxDialer) : Prop :=
  ∀ (n i : Nat) (call : ConnectCall) (made : DisconnectCall), s.connects[n]? = some call → call.phase = .issued →
    s.disconnects[i]? = some made → made.address = call.address → made.resolved = true

/-- Nobody stops waiting for a `Disconnect` before BlueZ is done with it: no
future of a teardown is dropped or times out at its call, and no call returns
an error of its own. -/
def waitsOut (s : LinuxDialer) : DialStep → Bool
  | .giveUp number => s.teardowns[number]?.all fun teardown =>
    match teardown.phase with
    | .issued call => s.disconnects[call]?.all (·.resolved)
    | _ => true
  | .returns call _ => s.disconnects[call]?.all (·.resolved)
  | _ => true

/-- The task that issued a call waits for it: a teardown with the lock of its
address, a cleanup behind its quarantine. -/
def Awaited (cleanups : List Cleanup) (teardowns : List Teardown) (i : Nat) (made : DisconnectCall) : Prop :=
  (∃ (n : Nat) (cleanup : Cleanup), made.issuer = .cleanup n ∧ cleanups[n]? = some cleanup ∧
    cleanup.phase = .waiting i ∧ cleanup.address = made.address) ∨
  ∃ (n : Nat) (teardown : Teardown), made.issuer = .teardown n ∧ teardowns[n]? = some teardown ∧
    teardown.phase = .issued i ∧ teardown.address = made.address

structure Outstanding (cleanups : List Cleanup) (teardowns : List Teardown) (disconnects : List DisconnectCall) :
    Prop where
  awaited : ∀ (i : Nat) (made : DisconnectCall), disconnects[i]? = some made → made.resolved = false →
    Awaited cleanups teardowns i made
  returned : ∀ (i : Nat) (made : DisconnectCall), disconnects[i]? = some made → made.result.isSome = true →
    made.resolved = true

namespace Outstanding

variable {cleanups : List Cleanup} {teardowns : List Teardown} {disconnects : List DisconnectCall} {number call : Nat}
  {cleanup : Cleanup} {teardown : Teardown} {made made' : DisconnectCall}

/-- A cleanup goes on that waits for nothing BlueZ still has. -/
theorem setCleanup (held : Outstanding cleanups teardowns disconnects) (here : cleanups[number]? = some cleanup)
    (phase : CleanupPhase) (answered : ∀ (i : Nat) (made : DisconnectCall), cleanup.phase = .waiting i →
      disconnects[i]? = some made → made.resolved = true) :
    Outstanding (cleanups.set number { cleanup with phase := phase }) teardowns disconnects := by
  refine ⟨fun i made out pending => ?_, held.returned⟩
  rcases held.awaited i made out pending with ⟨n, found, issuer, there, waits, own⟩ | teardown
  · refine .inl ⟨n, found, issuer, ?_, waits, own⟩
    rw [TaskList.getElem?_set here, if_neg]
    · exact there
    · rintro rfl
      cases here.symm.trans there
      rw [answered i made waits out] at pending
      simp at pending
  · exact .inr teardown

theorem setTeardown (held : Outstanding cleanups teardowns disconnects) (here : teardowns[number]? = some teardown)
    (phase : TeardownPhase) (answered : ∀ (i : Nat) (made : DisconnectCall), teardown.phase = .issued i →
      disconnects[i]? = some made → made.resolved = true) :
    Outstanding cleanups (teardowns.set number { teardown with phase := phase }) disconnects := by
  refine ⟨fun i made out pending => ?_, held.returned⟩
  rcases held.awaited i made out pending with cleanup | ⟨n, found, issuer, there, waits, own⟩
  · exact .inl cleanup
  · refine .inr ⟨n, found, issuer, ?_, waits, own⟩
    rw [TaskList.getElem?_set here, if_neg]
    · exact there
    · rintro rfl
      cases here.symm.trans there
      rw [answered i made waits out] at pending
      simp at pending

theorem more (held : Outstanding cleanups teardowns disconnects) {cleanups' : List Cleanup}
    {teardowns' : List Teardown} (cleans : ∀ (n : Nat) (found : Cleanup), cleanups[n]? = some found →
      cleanups'[n]? = some found) (tears : ∀ (n : Nat) (found : Teardown), teardowns[n]? = some found →
        teardowns'[n]? = some found) : Outstanding cleanups' teardowns' disconnects := by
  refine ⟨fun i made out pending => ?_, held.returned⟩
  rcases held.awaited i made out pending with ⟨n, found, issuer, there, rest⟩ | ⟨n, found, issuer, there, rest⟩
  · exact .inl ⟨n, found, issuer, cleans n found there, rest⟩
  · exact .inr ⟨n, found, issuer, tears n found there, rest⟩

/-- A call is issued by a task that waits for it from now on. -/
theorem issue (held : Outstanding cleanups teardowns disconnects) (unanswered : made.result = none)
    (awaited : Awaited cleanups teardowns disconnects.length made) :
    Outstanding cleanups teardowns (disconnects ++ [made]) := by
  refine ⟨fun i found out pending => ?_, fun i found out answered => ?_⟩
  · obtain out | ⟨rfl, rfl⟩ := TaskList.of_append out
    · exact held.awaited i found out pending
    · exact awaited
  · obtain out | ⟨rfl, rfl⟩ := TaskList.of_append out
    · exact held.returned i found out answered
    · rw [unanswered] at answered
      simp at answered

/-- A call is resolved, or what it returned comes after that. -/
theorem learn (held : Outstanding cleanups teardowns disconnects) (out : disconnects[call]? = some made)
    (resolved : made'.resolved = true) : Outstanding cleanups teardowns (disconnects.set call made') := by
  refine ⟨fun i found there pending => ?_, fun i found there answered => ?_⟩
  · obtain ⟨rfl, rfl⟩ | ⟨_, there⟩ := TaskList.of_set there
    · rw [resolved] at pending
      simp at pending
    · exact held.awaited i found there pending
  · obtain ⟨rfl, rfl⟩ | ⟨_, there⟩ := TaskList.of_set there
    · exact resolved
    · exact held.returned i found there answered

theorem step {s s' : LinuxDialer} {label : DialStep} (held : Outstanding s.cleanups s.teardowns s.disconnects)
    (waits : s.waitsOut label = true) (stepped : Stepped s label s') :
    Outstanding s'.cleanups s'.teardowns s'.disconnects := by
  cases stepped with
  | quarantined here => exact held.more (fun _ _ there => TaskList.getElem?_append_of there _) fun _ _ there => there
  | cleanupLocked here phase => exact held.setCleanup here .locked (by simp [phase])
  | cleanupChecked here phase => exact held.setCleanup here .checked (by simp [phase])
  | superseded here phase => exact held.setCleanup here (.lifting .newerDial) (by simp [phase])
  | @cleanupIssued number cleanup _ here phase =>
    refine (held.setCleanup here (.waiting s.disconnects.length) (by simp [phase])).issue rfl (.inl ?_)
    exact ⟨number, _, rfl, TaskList.getElem?_set_self here, rfl, rfl⟩
  | noDevice here phase => exact held.setCleanup here (.lifting .noDevice) (by simp [phase])
  | @cleaned number call cleanup made result _ here phase out returned =>
    refine held.setCleanup here (.lifting (.clean call)) fun i found waits there => ?_
    cases CleanupPhase.waiting.inj (phase.symm.trans waits)
    cases out.symm.trans there
    exact held.returned call made out (by rw [returned]; rfl)
  | @cleanupRetried number call cleanup made result _ here phase out returned =>
    refine held.setCleanup here .locking fun i found waits there => ?_
    cases CleanupPhase.waiting.inj (phase.symm.trans waits)
    cases out.symm.trans there
    exact held.returned call made out (by rw [returned]; rfl)
  | lifted here phase => exact held.setCleanup here (.lifted _) (by simp [phase])
  | cleanupOver here phase => exact held.setCleanup here (.over _) (by simp [phase])
  | teardown address kind => exact held.more (fun _ _ there => there) fun _ _ there => TaskList.getElem?_append_of there _
  | teardownLocked here phase => exact held.setTeardown here .locked (by simp [phase])
  | teardownMoved phase here locks unissued => exact held.setTeardown here phase fun i _ issued => absurd issued (unissued i)
  | @teardownIssued number teardown _ here phase =>
    refine (held.setTeardown here (.issued s.disconnects.length) (by simp [phase])).issue rfl (.inr ?_)
    exact ⟨number, _, rfl, TaskList.getElem?_set_self here, rfl, rfl⟩
  | tornDown dialed here fewer answered =>
    refine held.setTeardown here .over fun i made issued out => ?_
    rcases answered i issued with rfl | ⟨found, there, returned⟩
    · simpa [waitsOut, here, issued, out] using waits
    · cases out.symm.trans there
      exact held.returned i made out returned
  | returned out silent =>
    refine held.learn out ?_
    simpa [waitsOut, out] using waits
  | resolved out => exact held.learn out rfl
  | _ => exact held

end Outstanding

section Run

variable {h : Unit} {s : LinuxDialer}

theorem run_outstanding
    (run : machine.Run (fun _ s label => s.waitsOut label = true) (fun _ _ _ _ => ()) () h s) :
    Outstanding s.cleanups s.teardowns s.disconnects := by
  refine Machine.Run.invariant (P := fun _ s => Outstanding s.cleanups s.teardowns s.disconnects) ?_ ?_ run
  · rintro s rfl
    exact ⟨by simp, by simp⟩
  · intro _ s label s' _ held waits step
    exact held.step waits (step_cases step)

theorem run_noStaleDisconnect
    (run : machine.Run (fun _ s label => s.waitsOut label = true) (fun _ _ _ _ => ()) () h s) :
    NoStaleDisconnect s := by
  have dialing := reach_dialing run.reach
  intro n i call made here phase out same
  have clear : call.phase.clear = true := by rw [phase]; rfl
  by_contra unresolved
  rcases (run_outstanding run).awaited i made out (by simpa using unresolved) with
    ⟨m, cleanup, _, there, waits, own⟩ | ⟨m, teardown, _, there, waits, own⟩
  · -- the address is quarantined
    have pending := dialing.quarantining.roster.entered m cleanup there (by rw [waits]; rfl)
    rw [own, same] at pending
    exact dialing.quarantining.clear n call here clear pending
  · -- the teardown has the lock of the address
    have mine := held_connect here
    have theirs := held_teardown there
    rw [if_pos (Quarantining.locks_of_clear clear)] at mine
    rw [if_pos (by rw [waits]; rfl), own, same] at theirs
    exact absurd (KeyedLock.Owned.alone dialing.exclusive mine theirs) (by simp)

end Run

/-- A link is dialed, and its `disconnect` comes to its `Disconnect`. -/
def dialAndDisconnect (address : PeerAddress) : List DialStep :=
  List.flatten [[.connect address], List.replicate 7 (.proceed 0), [.answer 0 true], List.replicate 3 (.proceed 0),
    [.teardown address (.disconnect 1)], List.replicate 4 (.tearDown 0 true)]

/-- The future is dropped, and the peer dialed again. -/
def dropAndRedial (address : PeerAddress) : List DialStep :=
  List.flatten [[.giveUp 0, .connect address], List.replicate 7 (.proceed 1)]

/-- BlueZ is done with it first. -/
def finishAndRedial (address : PeerAddress) : List DialStep :=
  List.flatten [[.resolve 0, .returns 0 .ok, .tearDown 0 true, .connect address], List.replicate 7 (.proceed 1)]

/-- The second dial, at its `Connect`. -/
def redialed (address : PeerAddress) : ConnectCall := { address := address, phase := .issued, generation := 2 }

/-- The first link's `Disconnect`, still with BlueZ. -/
def stale (address : PeerAddress) : DisconnectCall := { address := address, issuer := .teardown 0 }

theorem run_noStaleDisconnect_redialed : ∃ s, NoStaleDisconnect s ∧
    s.connects[1]? = some (redialed ⟨"AA"⟩) := by
  obtain ⟨_, s, run, ended⟩ := Machine.Run.exists_of_follow machine (fun _ s label => s.waitsOut label = true)
    (fun _ _ _ _ => ()) ()
    (fun _ s => decide (s.connects[1]? = some (redialed ⟨"AA"⟩)))
    rfl (dialAndDisconnect ⟨"AA"⟩ ++ finishAndRedial ⟨"AA"⟩) (by decide +kernel)
  exact ⟨s, run_noStaleDisconnect run, of_decide_eq_true ended⟩

theorem not_noStaleDisconnect : ¬ ∀ s : LinuxDialer, machine.Reach s → NoStaleDisconnect s := by
  intro claim
  obtain ⟨s, reach, ended⟩ := Machine.Reach.exists_of_follow machine
    (fun s => decide (s.connects[1]? = some (redialed ⟨"AA"⟩) ∧
      s.disconnects[0]? = some (stale ⟨"AA"⟩)))
    rfl (dialAndDisconnect ⟨"AA"⟩ ++ dropAndRedial ⟨"AA"⟩) (by decide +kernel)
  obtain ⟨dialed, out⟩ := of_decide_eq_true ended
  have resolved := claim s reach 1 0 _ _ dialed rfl out rfl
  exact absurd resolved (by decide)

end LinuxDialer

end BleGatt
