import BleGatt.Drivers.LinuxGeneration

namespace BleGatt
namespace LinuxGenerations

/-- What a handler can change that someone else observes. -/
def effects (s : LinuxGenerations) :
    List (CharacteristicUuid × Bytes) × PeerMap Nat × List (CharacteristicUuid × PeerAddress) × List GattEvent :=
  (s.values, s.servedPeers, s.notifyWriters, s.events)

/-- Only the handlers of the published generation act, and no generation is
published twice, or by two calls. -/
structure Isolated (s : LinuxGenerations) : Prop where
  current : ∀ (number : Nat) (s' : LinuxGenerations), s.step (.handler number) = some s' → s'.effects ≠ s.effects →
    ∃ run, s.handlers[number]? = some run ∧ run.generation = s.advertiseGeneration
  increases : ∀ (label : GenerationStep) (s' : LinuxGenerations), s.step label = some s' →
    s.advertiseGeneration ≤ s'.advertiseGeneration
  apart : s.built.Pairwise (· < ·)

/-- The generations, and the lock on the published one. -/
def control (s : LinuxGenerations) : Nat × Option LockHolder × Nat × List Nat × GenerationOperation :=
  (s.advertiseGeneration, s.generationLock, s.generationCounter, s.built, s.operation)

variable {s s' : LinuxGenerations} {number : Nat} {run : HandlerRun}

/-- What a handler does between two of its statements. -/
inductive Advanced (s : LinuxGenerations) (number : Nat) (run : HandlerRun) : LinuxGenerations → Prop
  /-- Outside its critical section it touches the admission lock only. -/
  | moved {lock : Option LockHolder} {next : HandlerRun} (outside : ∀ left, run.phase ≠ .acting left)
      (still : ∀ left, next.phase ≠ .acting left) :
      Advanced s number run ({ s with admissionLock := lock }.setRun number next)
  | entered (outside : ∀ left, run.phase ≠ .acting left) (free : s.generationLock = none)
      (current : run.generation = s.advertiseGeneration) :
      Advanced s number run
        ({ s with generationLock := some (.handler number) }.setRun number { run with phase := .acting run.call.acts })
  | acted {act : HandlerAct} {left : List HandlerAct} (acting : run.phase = .acting (act :: left)) :
      Advanced s number run (s.act number run act left)
  | finished (acting : run.phase = .acting []) :
      Advanced s number run
        ({ s with generationLock := none, admissionLock := none }.setRun number { run with phase := .returned })

theorem advance_cases (advanced : s.advance number run = some s') : Advanced s number run s' := by
  have moved : (∀ left, run.phase ≠ .acting left) → ∀ (lock : Option LockHolder) (next : HandlerRun),
      (∀ left, next.phase ≠ .acting left) → some ({ s with admissionLock := lock }.setRun number next) = some s' →
      Advanced s number run s' := by
    rintro outside lock next still ⟨⟩
    exact .moved outside still
  unfold advance at advanced
  cases phase : run.phase with
  | polling =>
    have outside : ∀ left, run.phase ≠ .acting left := by simp [phase]
    simp only [phase] at advanced
    split at advanced
    · split at advanced
      · exact moved outside s.admissionLock _ (by simp) advanced
      · obtain ⟨_, looked⟩ := Option.ite_none_right_eq_some.mp advanced
        refine moved outside s.admissionLock _ ?_ looked
        split <;> simp
    · obtain ⟨_, taken⟩ := Option.ite_none_right_eq_some.mp advanced
      exact moved outside _ _ (by simp) taken
  | looking =>
    have outside : ∀ left, run.phase ≠ .acting left := by simp [phase]
    simp only [phase] at advanced
    obtain ⟨_, looked⟩ := Option.ite_none_right_eq_some.mp advanced
    split at looked
    · exact moved outside s.admissionLock _ (by simp) looked
    · exact moved outside none _ (by simp) looked
  | waiting =>
    have outside : ∀ left, run.phase ≠ .acting left := by simp [phase]
    simp only [phase] at advanced
    obtain ⟨_, taken⟩ := Option.ite_none_right_eq_some.mp advanced
    exact moved outside _ _ (by simp) taken
  | admitted =>
    have outside : ∀ left, run.phase ≠ .acting left := by simp [phase]
    simp only [phase] at advanced
    obtain ⟨free, compared⟩ := Option.ite_none_right_eq_some.mp advanced
    split at compared
    · rename_i current
      cases Option.some.inj compared
      exact .entered outside free current
    · exact moved outside none _ (by simp) compared
  | acting left =>
    cases left with
    | nil =>
      simp only [phase] at advanced
      cases Option.some.inj advanced
      exact .finished phase
    | cons act left =>
      simp only [phase] at advanced
      cases Option.some.inj advanced
      exact .acted phase
  | returned => simp [phase] at advanced

/-- A statement in the critical section leaves the generations and the locks,
and its handler inside. -/
theorem act_kept (s : LinuxGenerations) (number : Nat) (run : HandlerRun) (act : HandlerAct) (left : List HandlerAct) :
    (s.act number run act left).control = s.control ∧
    ∃ next rest, (s.act number run act left).handlers = s.handlers.set number next ∧ next.phase = .acting rest ∧
      next.generation = run.generation := by
  cases act with
  | store => cases call : run.call <;> (simp only [LinuxGenerations.act, call]; exact ⟨rfl, _, _, rfl, rfl, rfl⟩)
  | addWriter => exact ⟨rfl, _, _, rfl, rfl, rfl⟩
  | admitCentral =>
    simp only [LinuxGenerations.act]
    split
    · split <;> exact ⟨rfl, _, _, rfl, rfl, rfl⟩
    · exact ⟨rfl, _, _, rfl, rfl, rfl⟩
  | connected => exact ⟨rfl, _, _, rfl, rfl, rfl⟩
  | written => cases call : run.call <;> (simp only [LinuxGenerations.act, call]; exact ⟨rfl, _, _, rfl, rfl, rfl⟩)

/-- A handler that acts has the lock on the generation, which is its own, and
a number not yet published is the newest. -/
structure Guarded (s : LinuxGenerations) : Prop where
  inside : ∀ (n : Nat) (run : HandlerRun) (left : List HandlerAct), s.handlers[n]? = some run →
    run.phase = .acting left → s.generationLock = some (.handler n) ∧ run.generation = s.advertiseGeneration
  switched : s.operation = .switched → s.generationLock = some .operation
  counted : s.advertiseGeneration ≤ s.generationCounter
  pending : ∀ generation, s.operation.pending = some generation →
    generation = s.generationCounter ∧ s.advertiseGeneration < generation
  built : s.built.Pairwise (· < ·)
  reserved : ∀ generation ∈ s.built, generation ≤ s.generationCounter

theorem initialValues_kept (characteristics : List GattCharacteristicSpec) (s : LinuxGenerations) :
    (characteristics.foldl (fun s spec => s.store spec.uuid spec.initialValue) s).control = s.control ∧
      (characteristics.foldl (fun s spec => s.store spec.uuid spec.initialValue) s).handlers = s.handlers := by
  induction characteristics generalizing s with
  | nil => exact ⟨rfl, rfl⟩
  | cons spec rest ih => exact ih (s.store spec.uuid spec.initialValue)

namespace Guarded

/-- A step that leaves the generations and their lock, and lets no handler in. -/
theorem of_control (guarded : s.Guarded) (control : s'.control = s.control)
    (handlers : ∀ (n : Nat) (run : HandlerRun) (left : List HandlerAct), s'.handlers[n]? = some run →
      run.phase = .acting left → ∃ (before : HandlerRun) (left : List HandlerAct), s.handlers[n]? = some before ∧
        before.phase = .acting left ∧ run.generation = before.generation) :
    s'.Guarded := by
  simp only [LinuxGenerations.control, Prod.mk.injEq] at control
  obtain ⟨published, lock, counter, built, operation⟩ := control
  refine ⟨fun n run left here acting => ?_, ?_, ?_, ?_, built ▸ guarded.built, ?_⟩
  · obtain ⟨before, left, there, inside, same⟩ := handlers n run left here acting
    rw [lock, published, same]
    exact guarded.inside n before left there inside
  · rw [operation, lock]
    exact guarded.switched
  · rw [published, counter]
    exact guarded.counted
  · rw [operation, published, counter]
    exact guarded.pending
  · rw [built, counter]
    exact guarded.reserved

/-- The call with `advertise_lock` goes on; the handlers stay where they are. -/
theorem of_operation (guarded : s.Guarded) (handlers : s'.handlers = s.handlers)
    (published : s'.advertiseGeneration = s.advertiseGeneration) (lock : s'.generationLock = s.generationLock)
    (counter : s'.generationCounter = s.generationCounter) (built : s'.built = s.built)
    (unswitched : s'.operation ≠ .switched)
    (pending : ∀ generation, s'.operation.pending = some generation → s.operation.pending = some generation) :
    s'.Guarded := by
  refine ⟨?_, fun switched => absurd switched unswitched, ?_, ?_, built ▸ guarded.built, ?_⟩
  · rw [handlers, lock, published]
    exact guarded.inside
  · rw [published, counter]
    exact guarded.counted
  · rw [published, counter]
    exact fun generation reserved => guarded.pending generation (pending generation reserved)
  · rw [built, counter]
    exact guarded.reserved

theorem advance (guarded : s.Guarded) (here : s.handlers[number]? = some run) (advanced : s.advance number run = some s') :
    s'.Guarded := by
  cases advance_cases advanced with
  | @moved lock next outside still =>
    refine guarded.of_control rfl fun n other left there acting => ?_
    obtain ⟨rfl, rfl⟩ | ⟨_, there⟩ := TaskList.of_set there
    · exact absurd acting (still left)
    · exact ⟨other, left, there, acting, rfl⟩
  | entered outside free current =>
    have alone : ∀ (n : Nat) (other : HandlerRun) (left : List HandlerAct), s.handlers[n]? = some other →
        other.phase ≠ .acting left := by
      intro n other left there acting
      have taken := (guarded.inside n other left there acting).1
      rw [free] at taken
      simp at taken
    refine ⟨fun n other left there acting => ?_, fun switched => ?_, guarded.counted, guarded.pending, guarded.built,
      guarded.reserved⟩
    · obtain ⟨rfl, rfl⟩ | ⟨_, there⟩ := TaskList.of_set there
      · exact ⟨rfl, current⟩
      · exact absurd acting (alone n other left there)
    · have taken := guarded.switched switched
      rw [free] at taken
      simp at taken
  | @acted act left acting =>
    obtain ⟨control, next, rest, handlers, _, generation⟩ := s.act_kept number run act left
    refine guarded.of_control control fun n other left there inside => ?_
    rw [handlers] at there
    obtain ⟨rfl, rfl⟩ | ⟨_, there⟩ := TaskList.of_set there
    · exact ⟨run, _, here, acting, generation⟩
    · exact ⟨other, left, there, inside, rfl⟩
  | finished acting =>
    have mine := (guarded.inside number run [] here acting).1
    refine ⟨fun n other left there inside => ?_, fun switched => ?_, guarded.counted, guarded.pending, guarded.built,
      guarded.reserved⟩
    · obtain ⟨rfl, rfl⟩ | ⟨apart, there⟩ := TaskList.of_set there
      · simp at inside
      · have theirs := (guarded.inside n other left there inside).1
        rw [mine] at theirs
        cases theirs
        exact absurd rfl apart
    · have taken := guarded.switched switched
      rw [mine] at taken
      simp at taken

/-- The lock is taken, a number is published and no handler is inside. -/
theorem publish (guarded : s.Guarded) (free : s.generationLock = none) {generation : Nat}
    (reserved : s.operation.pending = some generation) (handlers : s'.handlers = s.handlers)
    (published : s'.advertiseGeneration = generation) (counter : s'.generationCounter = s.generationCounter)
    (built : s'.built = s.built) (switched : s'.operation = .switched → s'.generationLock = some .operation)
    (unreserved : s'.operation.pending = none) : s'.Guarded := by
  refine ⟨fun n other left there acting => ?_, switched, ?_, ?_, built ▸ guarded.built, ?_⟩
  · rw [handlers] at there
    have taken := (guarded.inside n other left there acting).1
    rw [free] at taken
    simp at taken
  · rw [published, counter]
    exact (guarded.pending generation reserved).1.le
  · simp [unreserved]
  · rw [built, counter]
    exact guarded.reserved

/-- A number is reserved, for a call of `advertise` or for none. -/
theorem reserve (guarded : s.Guarded) {built : List Nat} {operation : GenerationOperation}
    (call : built = s.built ∨ built = s.built ++ [s.generationCounter + 1])
    (pending : operation.pending = some (s.generationCounter + 1)) :
    Guarded { s with generationCounter := s.generationCounter + 1, built := built, operation := operation } := by
  have below : ∀ generation ∈ s.built, generation < s.generationCounter + 1 := fun generation member =>
    Nat.lt_succ_of_le (guarded.reserved generation member)
  refine ⟨guarded.inside, ?_, guarded.counted.trans (Nat.le_succ _), ?_, ?_, ?_⟩
  · rintro rfl
    simp [GenerationOperation.pending] at pending
  · intro generation reserved
    cases pending.symm.trans reserved
    exact ⟨rfl, Nat.lt_succ_of_le guarded.counted⟩
  · obtain rfl | rfl := call
    · exact guarded.built
    · rw [List.pairwise_append]
      refine ⟨guarded.built, List.pairwise_singleton _ _, fun generation member last at_last => ?_⟩
      cases List.mem_singleton.mp at_last
      exact below generation member
  · obtain rfl | rfl := call
    · exact fun generation member => (below generation member).le
    · intro generation member
      rcases List.mem_append.mp member with before | now
      · exact (below generation before).le
      · exact (List.mem_singleton.mp now).le

/-- The published number is drained of its centrals, and its lock left. -/
theorem unlock (guarded : s.Guarded) (switched : s.operation = .switched) (served : PeerMap Nat) (released : List PeerAddress) :
    Guarded { s with servedPeers := served, generationLock := none, operation := .drained released } := by
  have mine := guarded.switched switched
  refine ⟨fun n other left there acting => ?_, fun again => ?_, guarded.counted, ?_, guarded.built, guarded.reserved⟩
  · have taken := (guarded.inside n other left there acting).1
    rw [mine] at taken
    simp at taken
  · simp at again
  · simp [GenerationOperation.pending]

theorem proceed (guarded : s.Guarded) (proceeded : s.proceed = some s') :
    s'.Guarded ∧ s.advertiseGeneration ≤ s'.advertiseGeneration := by
  unfold LinuxGenerations.proceed at proceeded
  cases operation : s.operation with
  | advertising service =>
    rw [operation] at proceeded
    cases Option.some.inj proceeded
    exact ⟨guarded.reserve (.inr rfl) rfl, Nat.le_refl _⟩
  | building generation service =>
    rw [operation] at proceeded
    cases Option.some.inj proceeded
    obtain ⟨control, handlers⟩ := initialValues_kept service.characteristics s
    simp only [LinuxGenerations.control, Prod.mk.injEq] at control
    obtain ⟨published, lock, counter, built, _⟩ := control
    exact ⟨guarded.of_operation handlers published lock counter built (by simp)
      (fun _ reserved => by rw [operation]; exact reserved), published.ge⟩
  | served generation =>
    rw [operation] at proceeded
    obtain ⟨_, ⟨⟩⟩ := Option.ite_none_right_eq_some.mp proceeded
    exact ⟨guarded.of_operation rfl rfl rfl rfl rfl (by simp) (fun _ reserved => by rw [operation]; exact reserved),
      Nat.le_refl _⟩
  | admission generation =>
    rw [operation] at proceeded
    obtain ⟨free, ⟨⟩⟩ := Option.ite_none_right_eq_some.mp proceeded
    have reserved : s.operation.pending = some generation := by rw [operation]; rfl
    exact ⟨guarded.publish free reserved rfl rfl rfl rfl (fun _ => rfl) rfl, (guarded.pending generation reserved).2.le⟩
  | switched =>
    rw [operation] at proceeded
    cases Option.some.inj proceeded
    exact ⟨guarded.unlock operation _ _, Nat.le_refl _⟩
  | stopping =>
    rw [operation] at proceeded
    cases Option.some.inj proceeded
    exact ⟨guarded.reserve (.inl rfl) rfl, Nat.le_refl _⟩
  | invalidating generation =>
    rw [operation] at proceeded
    obtain ⟨free, ⟨⟩⟩ := Option.ite_none_right_eq_some.mp proceeded
    have reserved : s.operation.pending = some generation := by rw [operation]; rfl
    exact ⟨guarded.publish free reserved rfl rfl rfl rfl (by simp) rfl, (guarded.pending generation reserved).2.le⟩
  | invalidated =>
    rw [operation] at proceeded
    obtain ⟨_, ⟨⟩⟩ := Option.ite_none_right_eq_some.mp proceeded
    exact ⟨guarded.of_operation rfl rfl rfl rfl rfl (by simp) (by simp [GenerationOperation.pending]), Nat.le_refl _⟩
  | drained released =>
    rw [operation] at proceeded
    cases Option.some.inj proceeded
    exact ⟨guarded.of_operation rfl rfl rfl rfl rfl (by simp) (by simp [GenerationOperation.pending]), Nat.le_refl _⟩
  | releasing | released =>
    rw [operation] at proceeded
    cases Option.some.inj proceeded
    exact ⟨guarded.of_operation rfl rfl rfl rfl rfl (by simp) (by simp [GenerationOperation.pending]), Nat.le_refl _⟩
  | idle | registering _ | publishing =>
    rw [operation] at proceeded
    simp at proceeded

/-- What waits for the platform: the call goes on, or ends. -/
theorem answer (guarded : s.Guarded) {ok : Bool} (answered : s.answer ok = some s') :
    s'.Guarded ∧ s.advertiseGeneration ≤ s'.advertiseGeneration := by
  unfold LinuxGenerations.answer at answered
  split at answered
  · rename_i generation operation
    cases Option.some.inj answered
    refine ⟨guarded.of_operation rfl rfl rfl rfl rfl ?_ ?_, Nat.le_refl _⟩
    · cases ok <;> simp
    · rw [operation]
      cases ok <;> simp [GenerationOperation.pending]
  · cases Option.some.inj answered
    exact ⟨guarded.of_operation rfl rfl rfl rfl rfl (by simp) (by simp [GenerationOperation.pending]), Nat.le_refl _⟩
  · simp at answered

/-- A dropped call publishes nothing; its number stays used up. -/
theorem drop (guarded : s.Guarded) (dropped : s.drop = some s') :
    s'.Guarded ∧ s.advertiseGeneration ≤ s'.advertiseGeneration := by
  unfold LinuxGenerations.drop at dropped
  split at dropped
  all_goals first
    | (cases Option.some.inj dropped
       exact ⟨guarded.of_operation rfl rfl rfl rfl rfl (by simp) (by simp [GenerationOperation.pending]), Nat.le_refl _⟩)
    | simp at dropped

theorem step {label : GenerationStep} (guarded : s.Guarded) (stepped : s.step label = some s') :
    s'.Guarded ∧ s.advertiseGeneration ≤ s'.advertiseGeneration := by
  cases label with
  | advertise service | stopAdvertising =>
    dsimp only [LinuxGenerations.step] at stepped
    split at stepped
    · cases Option.some.inj stepped
      exact ⟨guarded.of_operation rfl rfl rfl rfl rfl (by simp) (by simp [GenerationOperation.pending]), Nat.le_refl _⟩
    · simp at stepped
  | proceed => exact guarded.proceed stepped
  | answer ok => exact guarded.answer stepped
  | drop => exact guarded.drop stepped
  | call run =>
    obtain ⟨⟨_, _, polling⟩, ⟨⟩⟩ := Option.ite_none_right_eq_some.mp stepped
    refine ⟨guarded.of_control rfl fun n other left there acting => ?_, Nat.le_refl _⟩
    obtain there | ⟨_, rfl⟩ := TaskList.of_append there
    · exact ⟨other, left, there, acting, rfl⟩
    · simp [polling] at acting
  | handler number =>
    obtain ⟨run, here, advanced⟩ := Option.bind_eq_some_iff.mp stepped
    have control : s.advertiseGeneration = s'.advertiseGeneration := by
      cases advance_cases advanced with
      | moved _ _ | entered _ _ _ | finished _ => rfl
      | acted _ => exact (congrArg Prod.fst (s.act_kept _ _ _ _).1).symm
    exact ⟨guarded.advance here advanced, control.le⟩
  | dropHandler number =>
    obtain ⟨run, _, dropped⟩ := Option.bind_eq_some_iff.mp stepped
    cases Option.some.inj dropped
    refine ⟨guarded.of_control rfl fun n other left there acting => ?_, Nat.le_refl _⟩
    obtain ⟨rfl, rfl⟩ | ⟨_, there⟩ := TaskList.of_set there
    · simp at acting
    · exact ⟨other, left, there, acting, rfl⟩
  | lose peer =>
    obtain ⟨_, ⟨⟩⟩ := Option.ite_none_right_eq_some.mp stepped
    exact ⟨guarded.of_control rfl fun n other left there acting => ⟨other, left, there, acting, rfl⟩, Nat.le_refl _⟩

theorem reach (reach : machine.Reach s) : s.Guarded := by
  induction reach with
  | start first =>
    cases first
    exact ⟨by simp, by simp, Nat.le_refl _, by simp [GenerationOperation.pending], List.Pairwise.nil, by simp⟩
  | next _ stepped guarded => exact (guarded.step stepped).1

end Guarded

/-- Outside its critical section a handler does nothing anyone observes. -/
theorem acts_inside (stepped : s.step (.handler number) = some s') (acts : s'.effects ≠ s.effects) :
    ∃ run left, s.handlers[number]? = some run ∧ run.phase = .acting left := by
  obtain ⟨run, here, advanced⟩ := Option.bind_eq_some_iff.mp stepped
  cases advance_cases advanced with
  | moved _ _ | entered _ _ _ | finished _ => exact absurd rfl acts
  | acted acting => exact ⟨run, _, here, acting⟩

/-- In every state of every run a handler acts only while its generation is
the published one, which only increases; no two calls of `advertise` have one. -/
theorem reach_isolated (reach : machine.Reach s) : s.Isolated := by
  have guarded := Guarded.reach reach
  refine ⟨fun number s' stepped acts => ?_, fun label s' stepped => (guarded.step stepped).2, guarded.built⟩
  obtain ⟨run, left, here, acting⟩ := acts_inside stepped acts
  exact ⟨run, here, (guarded.inside number run left here acting).2⟩

/-- A write reaches a handler before its generation is published, waits for
it, and is about to store. -/
def writeWhileRegistering : List GenerationStep :=
  [.advertise { uuid := ⟨0⟩, characteristics := [⟨⟨1⟩, true, true, true, []⟩] }, .proceed, .proceed, .answer true,
    .call { generation := 2, characteristic := ⟨1⟩, peer := ⟨"a"⟩, call := .write [7] }, .handler 0, .proceed, .proceed,
    .proceed, .proceed, .handler 0, .handler 0, .handler 0]

theorem reach_isolated_write : ∃ (s s' : LinuxGenerations) (run : HandlerRun), s.step (.handler 0) = some s' ∧
    s.values = [(⟨1⟩, [])] ∧ s'.values = [(⟨1⟩, [7])] ∧ s.handlers[0]? = some run ∧
      run.generation = s.advertiseGeneration := by
  obtain ⟨s, reach, stores⟩ := Machine.Reach.exists_of_follow machine
    (fun s : LinuxGenerations => decide (s.values = [(⟨1⟩, [])]) &&
      (s.step (.handler 0)).any fun s' : LinuxGenerations => decide (s'.values = [(⟨1⟩, [7])])) rfl writeWhileRegistering
    (by decide +kernel)
  simp only [Bool.and_eq_true, decide_eq_true_eq, Option.any_eq_true] at stores
  obtain ⟨before, s', stepped, after⟩ := stores
  have acts : s'.effects ≠ s.effects := by
    intro same
    have values : s'.values = s.values := congrArg Prod.fst same
    rw [before, after] at values
    simp at values
  obtain ⟨run, here, current⟩ := (reach_isolated reach).current 0 s' stepped acts
  exact ⟨s, s', run, stepped, before, after, here, current⟩

end LinuxGenerations
end BleGatt
