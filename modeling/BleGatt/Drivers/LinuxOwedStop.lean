import BleGatt.Drivers.LinuxDiscovery

namespace BleGatt
namespace LinuxDiscovery

/-- No scan is live, and no call of `begin_scan` has begun or waits. -/
def Unscanned (s : LinuxDiscovery) : Prop :=
  s.state.live = 0 ∧ s.op.beginning = false ∧ DiscoveryCaller.beginScan ∉ s.waiting

/-- A `connect` made now does not go on to dial. It sends a `StopDiscovery`
once it gets `op`, unless a call of `stop_if_idle` has it and sent its own. -/
def ConnectStops (s : LinuxDiscovery) : Prop :=
  ∃ waits, step s .connect = some waits ∧ waits.dialled = s.dialled ∧
    (s.op.stopping = true ∨
      ∃ stops, step waits (.lock s.waiting.length) = some stops ∧ stops.dialled = s.dialled ∧
        stops.op = .calling (.stop true) none)

/-- A stop is owed wherever BlueZ lists this client for no scan, and the next
`connect` pays it. -/
def StopOwed (s : LinuxDiscovery) : Prop :=
  s.listed = true → s.Unscanned → s.state.running = true ∧ s.ConnectStops

/-- An answer reaches the driver that it takes to prove that discovery is off. -/
def takesProof (s : LinuxDiscovery) : DiscoveryStep → Bool
  | .reply =>
    match s.op with
    | .calling (.filter _) (some (.error err)) | .calling (.start _) (some (.error err)) => startProvedNotRunning err
    | .calling (.stop _) (some (.ok ())) | .reading (.check _) (some (.ok false)) => true
    | _ => false
  | _ => false

/-- Whether the driver has taken such a proof, and no `begin_scan` has started
over since. -/
def noteProof (proved : Bool) (s : LinuxDiscovery) (label : DiscoveryStep) (s' : LinuxDiscovery) : Bool :=
  if s.takesProof label then true else if s'.op = .calling (.filter false) none then false else proved

/-- What is taken to prove that discovery is off comes where BlueZ does not list
this client, and BlueZ accepts no `StartDiscovery` from before it later. -/
def ProofHolds (proved : Bool) (s : LinuxDiscovery) (label : DiscoveryStep) : Prop :=
  match label with
  | .reply => s.takesProof .reply = true → s.listed = false
  | .answerLate index (.ok ()) => s.abandoned[index]? = some .startDiscovery → proved = false
  | _ => True

instance (proved : Bool) (s : LinuxDiscovery) (label : DiscoveryStep) : Decidable (ProofHolds proved s label) := by
  unfold ProofHolds
  split <;> infer_instance

variable {s s' : LinuxDiscovery}

theorem connectStops (scanless : s.state.live = 0) (running : s.state.running = true) (idle : s.op.beginning = false) :
    s.ConnectStops := by
  have owed : s.state.idleRunning = true := by simp [ScanState.idleRunning, scanless, running]
  refine ⟨{ s with waiting := s.waiting ++ [.stopIfIdle true] }, by simp [step, connect, owed], rfl, ?_⟩
  cases op : s.op with
  | free =>
    refine .inr ⟨{ s with op := .calling (.stop true) none }, ?_, rfl, rfl⟩
    simp [step, enter, owed, call, List.eraseIdx_append_of_length_le]
  | reading read answer =>
    cases read with
    | confirm => simp [op, DiscoveryOp.beginning] at idle
    | check dials => exact .inl rfl
  | calling awaited answer =>
    cases awaited with
    | stop dials => exact .inl rfl
    | _ => simp [op, DiscoveryOp.beginning] at idle

/-- `running` covers what BlueZ has of this client, and what it may still accept
of it. -/
structure Covered (proved : Bool) (s : LinuxDiscovery) : Prop where
  owed : s.listed = true → s.state.running = true
  pending : proved = false → DiscoveryMethod.startDiscovery ∈ s.abandoned → s.state.running = true
  marked : s.op.marked = true → s.state.running = true

namespace Covered

variable {proved : Bool}

/-- What has `op` awaits something else, or `op` is free. -/
theorem await (covered : s.Covered proved) {op : DiscoveryOp} (marked : op.marked = true → s.state.running = true) :
    Covered proved { s with op := op } :=
  ⟨covered.owed, covered.pending, marked⟩

theorem call (covered : s.Covered proved) {next : DiscoveryCall} (running : s.state.running = true) :
    (s.call next).Covered proved := covered.await fun _ => running

theorem release (covered : s.Covered proved) (dials : Bool) : (s.release dials).Covered proved :=
  ⟨covered.owed, covered.pending, by simp [LinuxDiscovery.release, DiscoveryOp.marked]⟩

theorem counted (s : LinuxDiscovery) : s.counted.Covered proved := ⟨fun _ => rfl, fun _ _ => rfl, fun _ => rfl⟩

theorem startOver (s : LinuxDiscovery) : s.startOver.Covered proved := ⟨fun _ => rfl, fun _ _ => rfl, fun _ => rfl⟩

/-- Discovery is proved to be off. -/
theorem cleared (unlisted : s.listed = false) {t : LinuxDiscovery} (listed : t.listed = s.listed)
    (unmarked : t.op.marked = false) : t.Covered true := by
  refine ⟨fun there => ?_, fun was => by simp at was, fun is => ?_⟩
  · rw [listed, unlisted] at there
    simp at there
  · rw [unmarked] at is
    simp at is

/-- A request that nobody awaits any more. -/
theorem abandon (covered : s.Covered proved) : s.abandon.Covered proved := by
  refine ⟨covered.owed, fun since coming => ?_, covered.marked⟩
  rcases List.mem_append.mp coming with before | now
  · exact covered.pending since before
  · -- only a `StartDiscovery` of `begin_scan` can still list the client
    refine covered.marked ?_
    cases op : s.op with
    | calling awaited answer =>
      cases awaited <;> cases answer <;>
        simp_all [DiscoveryOp.unanswered, DiscoveryCall.method, DiscoveryOp.marked]
    | _ => simp [op, DiscoveryOp.unanswered] at now

/-- BlueZ answers; a `StartDiscovery` that it accepts was marked before. -/
theorem handled (covered : s.Covered proved) {method : DiscoveryMethod} {result : Except BluerError Unit}
    (owed : method = .startDiscovery → result = .ok () → s.state.running = true) :
    (handle method result s).Covered proved := by
  unfold handle
  split
  · exact ⟨fun _ => owed rfl rfl, covered.pending, covered.marked⟩
  · exact ⟨fun there => by simp at there, covered.pending, covered.marked⟩
  · exact covered

theorem startFailed (covered : s.Covered proved) {again : Bool} {err : BluerError} (running : s.state.running = true)
    (unproved : startProvedNotRunning err = false) : (s.startFailed again err).Covered proved := by
  unfold LinuxDiscovery.startFailed
  split
  · exact covered.call running
  · rw [unproved]
    exact ⟨covered.owed, covered.pending, by simp [DiscoveryOp.marked]⟩

/-- The reply to a call, or the error that stands for a lost one, where it
proves nothing. -/
theorem receive (covered : s.Covered proved) {done : DiscoveryCall} {answer : Option (Except BluerError Unit)}
    {result : Except BluerError Unit} (op : s.op = .calling done answer)
    (starts : ∀ again err, done = .filter again ∨ done = .start again → result = .error err →
      startProvedNotRunning err = false)
    (stops : ∀ dials, done = .stop dials → result ≠ .ok ()) : (s.receive done result).Covered proved := by
  cases done with
  | filter again =>
    have running : s.state.running = true := covered.marked (by simp [op, DiscoveryOp.marked])
    cases result with
    | ok => exact covered.call running
    | error err => exact covered.startFailed running (starts again err (.inl rfl) rfl)
  | start again =>
    have running : s.state.running = true := covered.marked (by simp [op, DiscoveryOp.marked])
    cases result with
    | ok => exact .counted s
    | error err => exact covered.startFailed running (starts again err (.inr rfl) rfl)
  | recover => exact covered.call (covered.marked (by simp [op, DiscoveryOp.marked]))
  | stop dials =>
    cases result with
    | ok => exact absurd rfl (stops dials rfl)
    | error => exact covered.await (by simp [DiscoveryOp.marked])

theorem enter (covered : s.Covered proved) (caller : DiscoveryCaller) : (s.enter caller).Covered proved := by
  cases caller with
  | beginScan =>
    simp only [LinuxDiscovery.enter]
    split
    · exact covered.await (by simp [DiscoveryOp.marked])
    · exact .startOver s
  | stopIfIdle dials =>
    simp only [LinuxDiscovery.enter]
    split
    · exact covered.await (by simp [DiscoveryOp.marked])
    · exact covered.release dials

/-- It starts over exactly where `begin_scan` marks discovery as running. -/
theorem noted (covered : s'.Covered proved) {label : DiscoveryStep} (plain : s.takesProof label = false) :
    s'.Covered (noteProof proved s label s') := by
  unfold noteProof
  rw [plain, if_neg (by decide)]
  split
  · rename_i op
    exact ⟨covered.owed, fun _ _ => covered.marked (by simp [op, DiscoveryOp.marked]), covered.marked⟩
  · exact covered

end Covered

theorem startFailed_proved {again : Bool} {err : BluerError} (proved : startProvedNotRunning err = true) :
    (s.startFailed again err).listed = s.listed ∧ (s.startFailed again err).op.marked = false := by
  have answered : (isInProgress err && !again) = false := by
    unfold startProvedNotRunning at proved
    rw [Bool.and_eq_true, Bool.not_eq_true'] at proved
    rw [proved.1, Bool.false_and]
  unfold LinuxDiscovery.startFailed
  rw [answered, if_neg (by decide), if_pos proved]
  exact ⟨rfl, rfl⟩

/-- An answer that the driver takes as a proof. -/
theorem reply_proved (proof : s.takesProof .reply = true) (stepped : step s .reply = some s') :
    s'.listed = s.listed ∧ s'.op.marked = false := by
  unfold takesProof at proof
  dsimp only [step] at stepped
  dsimp only at proof
  split at proof
  · rename_i again err op
    simp only [op, Option.some.injEq] at stepped
    rw [← stepped]
    exact startFailed_proved proof
  · rename_i again err op
    simp only [op, Option.some.injEq] at stepped
    rw [← stepped]
    exact startFailed_proved proof
  · rename_i dials op
    simp only [op, Option.some.injEq] at stepped
    rw [← stepped]
    exact ⟨rfl, rfl⟩
  · rename_i dials op
    simp only [op, Option.some.injEq] at stepped
    rw [← stepped]
    exact ⟨rfl, rfl⟩
  · simp at proof

theorem reply_covered {proved : Bool} (covered : s.Covered proved) (plain : s.takesProof .reply = false)
    (stepped : step s .reply = some s') : s'.Covered proved := by
  dsimp only [step] at stepped
  split at stepped
  · rename_i done result op
    cases Option.some.inj stepped
    refine covered.receive op (fun again err starts failed => ?_) fun dials stops done => ?_
    · subst failed
      rcases starts with rfl | rfl <;> simpa [takesProof, op] using plain
    · subst stops done
      simp [takesProof, op] at plain
  · rename_i read value op
    cases Option.some.inj stepped
    cases read with
    | confirm =>
      simp only [LinuxDiscovery.learn]
      split
      · exact .counted s
      · exact .startOver s
    | check dials =>
      simp only [LinuxDiscovery.learn]
      split
      · exact covered.release dials
      · rename_i off
        cases value with
        | error err => simp [Except.toOption] at off
        | ok on =>
          cases on with
          | true => simp [Except.toOption] at off
          | false => simp [takesProof, op] at plain
  · simp at stepped

theorem step_covered {proved : Bool} {label : DiscoveryStep} (covered : s.Covered proved) (ok : ProofHolds proved s label)
    (stepped : step s label = some s') : s'.Covered (noteProof proved s label s') := by
  cases label with
  | beginScan =>
    cases Option.some.inj stepped
    refine .noted ?_ rfl
    exact ⟨covered.owed, covered.pending, covered.marked⟩
  | dropScan runtime =>
    obtain ⟨_, ⟨⟩⟩ := Option.ite_none_right_eq_some.mp stepped
    refine .noted ?_ rfl
    unfold dropScan
    dsimp only
    split <;> exact ⟨covered.owed, covered.pending, covered.marked⟩
  | connect =>
    cases Option.some.inj stepped
    refine .noted ?_ rfl
    unfold connect
    split <;> exact ⟨covered.owed, covered.pending, covered.marked⟩
  | lock index =>
    obtain ⟨_, locked⟩ := Option.ite_none_right_eq_some.mp stepped
    split at locked
    · rename_i caller _
      cases Option.some.inj locked
      have rest : Covered proved { s with waiting := s.waiting.eraseIdx index } :=
        ⟨covered.owed, covered.pending, covered.marked⟩
      exact (rest.enter caller).noted rfl
    · simp at locked
  | answer result =>
    refine .noted ?_ rfl
    dsimp only [step] at stepped
    split at stepped
    · rename_i awaited op
      cases Option.some.inj stepped
      have still : Covered proved { s with op := .calling awaited (some result) } := by
        refine covered.await fun marked => covered.marked ?_
        rw [op]
        cases awaited <;> simp_all [DiscoveryOp.marked]
      refine still.handled fun starts _ => covered.marked ?_
      cases awaited <;> simp_all [DiscoveryCall.method, DiscoveryOp.marked]
    · simp at stepped
  | answerLate index result =>
    refine .noted ?_ rfl
    obtain ⟨method, there, ⟨⟩⟩ := Option.bind_eq_some_iff.mp stepped
    have still : Covered proved { s with abandoned := s.abandoned.eraseIdx index } :=
      ⟨covered.owed, fun since coming => covered.pending since (List.mem_of_mem_eraseIdx coming), covered.marked⟩
    refine still.handled fun starts accepted => ?_
    subst starts accepted
    exact covered.pending (ok there) (List.mem_of_getElem? there)
  | read failed =>
    refine .noted ?_ rfl
    dsimp only [step] at stepped
    split at stepped
    · cases Option.some.inj stepped
      exact covered.await (by simp [DiscoveryOp.marked])
    · simp at stepped
  | reply =>
    cases proof : s.takesProof .reply with
    | true =>
      obtain ⟨listed, unmarked⟩ := reply_proved proof stepped
      rw [noteProof, proof, if_pos rfl]
      exact .cleared (ok proof) listed unmarked
    | false => exact (reply_covered covered proof stepped).noted proof
  | timeout text =>
    refine .noted ?_ rfl
    dsimp only [step] at stepped
    split at stepped
    · rename_i done answer op
      cases Option.some.inj stepped
      refine covered.abandon.receive op (fun again err _ lost => ?_) fun _ _ lost => by simp at lost
      cases Except.error.inj lost
      simp [startProvedNotRunning, isInProgress]
    · simp at stepped
  | cancel stopTimeout =>
    obtain ⟨_, ⟨⟩⟩ := Option.ite_none_right_eq_some.mp stepped
    exact (covered.abandon.release stopTimeout).noted rfl
  | leave index stopTimeout =>
    refine .noted ?_ rfl
    dsimp only [step] at stepped
    split at stepped
    · obtain ⟨_, ⟨⟩⟩ := Option.ite_none_right_eq_some.mp stepped
      exact ⟨covered.owed, covered.pending, covered.marked⟩
    · simp at stepped
  | powerOff =>
    cases Option.some.inj stepped
    refine .noted ?_ rfl
    exact ⟨fun there => by simp at there, covered.pending, covered.marked⟩
  | otherScans on =>
    cases Option.some.inj stepped
    refine .noted ?_ rfl
    exact ⟨covered.owed, covered.pending, covered.marked⟩

/-- As long as no answer is taken for more than it proves, the stop of a
discovery that nobody uses is never forgotten. -/
theorem run_stopOwed {proved : Bool} (run : machine.Run ProofHolds noteProof false proved s) : s.StopOwed := by
  have covered : s.Covered proved := by
    refine run.invariant (P := fun proved s => s.Covered proved) ?_ ?_
    · rintro _ rfl
      exact ⟨by simp, by simp, by simp [DiscoveryOp.marked]⟩
    · intro _ _ _ _ _ covered ok stepped
      exact step_covered covered ok stepped
  intro listed ⟨scanless, idle, _⟩
  have running : s.state.running = true := covered.owed listed
  exact ⟨running, connectStops scanless running idle⟩

/-- A refused start, a scan, and a stop that fails while the adapter still
discovers. -/
def failedStop : List DiscoveryStep :=
  [.beginScan, .lock 0, .answer (.error ⟨.other, "Not Ready"⟩), .reply,
    .beginScan, .lock 0, .answer (.ok ()), .reply, .answer (.ok ()), .reply,
    .dropScan true, .lock 0, .answer (.error ⟨.other, "Failed"⟩), .reply, .read none, .reply]

theorem run_stopOwed_failedStop :
    ∃ s : LinuxDiscovery, machine.Reach s ∧ s.listed = true ∧ s.Unscanned ∧ s.state.running = true ∧ s.ConnectStops := by
  obtain ⟨_, s, run, good⟩ := Machine.Run.exists_of_follow machine ProofHolds noteProof false
    (fun _ s => s.listed && decide (s.state.live = 0 ∧ s.op.beginning = false ∧ DiscoveryCaller.beginScan ∉ s.waiting))
    (s := {}) rfl failedStop (by decide +kernel)
  simp only [Bool.and_eq_true, decide_eq_true_eq] at good
  obtain ⟨listed, unscanned⟩ := good
  exact ⟨s, run.reach, listed, unscanned, run_stopOwed run listed unscanned⟩

/-- A start that BlueZ accepts without the reply coming through, and the next
one: `Discovering` is not readable, and the filter is refused. -/
def forgottenStop : List DiscoveryStep :=
  [.beginScan, .lock 0, .answer (.ok ()), .reply, .answer (.ok ()), .timeout "Did not receive a reply",
    .beginScan, .lock 0, .read (some ⟨.other, "Failed"⟩), .reply, .answer (.error ⟨.other, "Failed"⟩), .reply]

theorem not_stopOwed : ¬∀ s, machine.Reach s → s.StopOwed := by
  intro owed
  obtain ⟨s, reach, bad⟩ := Machine.Reach.exists_of_follow machine
    (fun s => s.listed && decide (s.state.live = 0 ∧ s.op.beginning = false ∧ DiscoveryCaller.beginScan ∉ s.waiting) &&
      !s.state.running) (s := {}) rfl forgottenStop (by decide +kernel)
  simp only [Bool.and_eq_true, decide_eq_true_eq, Bool.not_eq_true'] at bad
  obtain ⟨⟨listed, unscanned⟩, stopped⟩ := bad
  exact absurd (stopped.symm.trans (owed s reach listed unscanned).1) Bool.noConfusion

end LinuxDiscovery
end BleGatt
