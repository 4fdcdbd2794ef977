import BleGatt.Drivers.DialLocks
import BleGatt.Lib.KeyedLock

namespace BleGatt
open Std

/-! Why `DialLocks` gives an address one mutex at a time: while a call has a
reference, its count keeps the entry in the map, and every other call for the
address finds it there. -/

namespace DialLocks

/-- How far a call came with a mutex. -/
def stageAt (lock : Nat) (call : LockCall) : Option MutexStage := call.phase.stage lock

structure Tracked (s : DialLocks) : Prop where
  entries : ∀ (n lock : Nat) (call : LockCall) (stage : MutexStage), s.calls[n]? = some call →
    call.phase = .uses lock stage → s.locks[call.peer]? = some lock
  apart : ∀ (p q : PeerAddress) (lock : Nat), s.locks[p]? = some lock → s.locks[q]? = some lock → p = q
  /-- The map has one reference to it. -/
  sound : ∀ (p : PeerAddress) (lock : Nat), s.locks[p]? = some lock → ∃ mutex, s.mutexes[lock]? = some mutex ∧
    CountedMutex.Sound (stageAt lock) s.calls 1 1 mutex

section Stage

variable {lock : Nat} {call : LockCall} {stage : MutexStage}

theorem stageAt_eq_some : stageAt lock call = some stage ↔ call.phase = .uses lock stage := by
  unfold stageAt LockPhase.stage
  split
  · rename_i used at_ phase
    rw [phase, LockPhase.uses.injEq, Option.ite_none_right_eq_some, Option.some.injEq]
  · rename_i other
    simp only [reduceCtorEq, false_iff]
    exact other lock stage

theorem stageAt_uses (phase : call.phase = .uses lock stage) : stageAt lock call = some stage :=
  stageAt_eq_some.mpr phase

theorem stageAt_of_ne {other : Nat} (phase : call.phase = .uses lock stage) (ne : lock ≠ other) :
    stageAt other call = none := by
  unfold stageAt
  rw [phase]
  exact if_neg ne

end Stage

theorem stageAt_sweeping {lock : Nat} {call : LockCall} {rest : List PeerAddress} (phase : call.phase = .sweeping rest) :
    stageAt lock call = none := by
  unfold stageAt
  rw [phase]
  rfl

namespace Tracked

variable {s s' : DialLocks} {n lock : Nat} {call : LockCall} {phase : LockPhase} {mutex after : CountedMutex}

theorem sound_at (held : Tracked s) {peer : PeerAddress} (listed : s.locks[peer]? = some lock)
    (there : s.mutexes[lock]? = some mutex) : CountedMutex.Sound (stageAt lock) s.calls 1 1 mutex := by
  obtain ⟨_, known, sound⟩ := held.sound peer lock listed
  cases there.symm.trans known
  exact sound

/-- The calls go on, and one mutex changes with them. -/
theorem goOn (held : Tracked s) {calls : List LockCall} (there : s.mutexes[lock]? = some mutex)
    (entries : ∀ (n lock : Nat) (call : LockCall) (stage : MutexStage), calls[n]? = some call →
      call.phase = .uses lock stage → s.locks[call.peer]? = some lock)
    (others : ∀ other mutex, other ≠ lock → CountedMutex.Sound (stageAt other) s.calls 1 1 mutex →
      CountedMutex.Sound (stageAt other) calls 1 1 mutex)
    (sound : CountedMutex.Sound (stageAt lock) s.calls 1 1 mutex → CountedMutex.Sound (stageAt lock) calls 1 1 after) :
    Tracked { s with calls := calls, mutexes := s.mutexes.set lock after } := by
  refine ⟨entries, held.apart, fun p other listed => ?_⟩
  obtain ⟨found, known, was⟩ := held.sound p other listed
  by_cases same : other = lock
  · subst same
    cases there.symm.trans known
    exact ⟨after, TaskList.getElem?_set_self there, sound was⟩
  · exact ⟨found, by rw [TaskList.getElem?_set there, if_neg same, known], others other found same was⟩

/-- A call goes on at a mutex that it uses, or takes a reference to. -/
theorem goOn_at (held : Tracked s) (here : s.calls[n]? = some call) (there : s.mutexes[lock]? = some mutex)
    (listed : s.locks[call.peer]? = some lock) (before : ∀ other, other ≠ lock → call.phase.stage other = none)
    (now : ∀ other stage, phase = .uses other stage → other = lock)
    (sound : CountedMutex.Sound (stageAt lock) s.calls 1 1 mutex →
      CountedMutex.Sound (stageAt lock) (s.calls.set n { call with phase := phase }) 1 1 after) :
    Tracked ((s.setCall n { call with phase := phase }).setMutex lock after) := by
  refine held.goOn there ?_ ?_ sound
  · intro m other found stage at_ uses
    obtain ⟨rfl, rfl⟩ | ⟨_, was⟩ := TaskList.of_set at_
    · cases now other stage uses
      exact listed
    · exact held.entries m other found stage was uses
  · intro other mutex ne was
    refine was.same here ((?_ : stageAt other { call with phase := phase } = none).trans (before other ne).symm)
    rw [Option.eq_none_iff_forall_ne_some]
    intro stage uses
    exact ne (now other stage (stageAt_eq_some.mp uses))

/-- A call that has no reference goes on to where it has none. -/
theorem idle (held : Tracked s) (here : s.calls[n]? = some call) (before : ∀ lock, call.phase.stage lock = none)
    (now : ∀ lock, phase.stage lock = none) : Tracked (s.setCall n { call with phase := phase }) := by
  refine ⟨?_, held.apart, fun p lock listed => ?_⟩
  · intro m lock found stage at_ uses
    obtain ⟨rfl, rfl⟩ | ⟨_, was⟩ := TaskList.of_set at_
    · exact absurd ((now lock).symm.trans (stageAt_uses uses)) (by simp)
    · exact held.entries m lock found stage was uses
  · obtain ⟨mutex, there, sound⟩ := held.sound p lock listed
    exact ⟨mutex, there, sound.same here ((now lock).trans (before lock).symm)⟩

/-- A call goes on at the mutex that it uses. -/
theorem goOn_from (held : Tracked s) (here : s.calls[n]? = some call) {stage : MutexStage}
    (uses : call.phase = .uses lock stage) (there : s.mutexes[lock]? = some mutex)
    (now : ∀ other stage, phase = .uses other stage → other = lock)
    (sound : CountedMutex.Sound (stageAt lock) s.calls 1 1 mutex →
      CountedMutex.Sound (stageAt lock) (s.calls.set n { call with phase := phase }) 1 1 after) :
    Tracked ((s.setCall n { call with phase := phase }).setMutex lock after) := by
  refine held.goOn_at here there (held.entries n lock call stage here uses) (fun other ne => ?_) now sound
  rw [uses]
  exact if_neg (Ne.symm ne)

theorem setMutex_self (there : s.mutexes[lock]? = some mutex) : s.setMutex lock mutex = s := by
  have same : s.mutexes.set lock mutex = s.mutexes := by
    refine List.ext_getElem? fun m => ?_
    rw [TaskList.getElem?_set there]
    split
    · rename_i own
      rw [own, there]
    · rfl
  unfold setMutex
  rw [same]

/-- The same without a change of the mutex. -/
theorem stay (held : Tracked s) (here : s.calls[n]? = some call) {stage stage' : MutexStage}
    (uses : call.phase = .uses lock stage)
    (sound : ∀ mutex, CountedMutex.Sound (stageAt lock) s.calls 1 1 mutex →
      CountedMutex.Sound (stageAt lock) (s.calls.set n { call with phase := .uses lock stage' }) 1 1 mutex) :
    Tracked (s.setCall n { call with phase := .uses lock stage' }) := by
  obtain ⟨mutex, there, _⟩ := held.sound _ _ (held.entries n lock call stage here uses)
  have after : Tracked ((s.setCall n { call with phase := .uses lock stage' }).setMutex lock mutex) :=
    held.goOn_from here uses there (by simp) (sound mutex)
  rwa [setMutex_self (s := s.setCall n _) there] at after

theorem setPhase_eq {next : Nat} {call : LockCall} (here : s.calls[next]? = some call) :
    s.setPhase next phase = s.setCall next { call with phase := phase } := by
  have same : s.calls.modify next (fun call => { call with phase := phase }) =
      s.calls.set next { call with phase := phase } := by
    refine List.ext_getElem? fun m => ?_
    rw [TaskList.getElem?_modify, TaskList.getElem?_set here]
    split
    · rename_i own
      rw [own, here]
      rfl
    · rfl
  unfold setPhase setCall
  rw [same]

/-- An entry whose count is that of the map alone is nobody's. -/
theorem peer_ne (held : Tracked s) {peer : PeerAddress} (listed : s.locks[peer]? = some lock)
    (there : s.mutexes[lock]? = some mutex) (last : mutex.strong ≤ 1) {other : Nat} {stage : MutexStage}
    (here : s.calls[n]? = some call) (uses : call.phase = .uses other stage) : call.peer ≠ peer := by
  intro same
  have entry := held.entries n other call stage here uses
  rw [same, listed, Option.some.injEq] at entry
  subst entry
  have sound := held.sound_at listed there
  exact absurd ((sound.stage_eq_none last here).symm.trans (stageAt_uses uses)) (by simp)

/-- `retain` takes it out. -/
theorem sweep (held : Tracked s) (here : s.calls[n]? = some call) {rest rest' : List PeerAddress} {peer : PeerAddress}
    (phase : call.phase = .sweeping rest) (listed : s.locks[peer]? = some lock)
    (there : s.mutexes[lock]? = some mutex) (last : mutex.strong ≤ 1) :
    Tracked { (s.setCall n { call with phase := .sweeping rest' }).setMutex lock mutex.drop with
      locks := s.locks.erase peer } := by
  refine ⟨?_, ?_, ?_⟩
  · intro m other found stage at_ uses
    obtain ⟨rfl, rfl⟩ | ⟨_, was⟩ := TaskList.of_set at_
    · simp at uses
    · rw [FiniteMap.getElem?_erase, if_neg (held.peer_ne listed there last was uses)]
      exact held.entries m other found stage was uses
  · intro p q other first second
    simp only [FiniteMap.getElem?_erase, Option.ite_none_left_eq_some] at first second
    exact held.apart p q other first.2 second.2
  · intro p other entry
    simp only [FiniteMap.getElem?_erase, Option.ite_none_left_eq_some] at entry
    obtain ⟨mutex', there', sound'⟩ := held.sound p other entry.2
    have ne : other ≠ lock := by
      rintro rfl
      exact entry.1 (held.apart p peer other entry.2 listed)
    exact ⟨mutex', (TaskList.getElem?_set there).trans ((if_neg ne).trans there'),
      sound'.same here (stageAt_sweeping phase).symm⟩

/-- A call finds no entry. -/
theorem create (held : Tracked s) (here : s.calls[n]? = some call) {rest : List PeerAddress}
    (phase : call.phase = .sweeping rest) (free : s.locks[call.peer]? = none) :
    Tracked { s.setCall n { call with phase := .uses s.mutexes.length .cloned } with
      locks := s.locks.insert call.peer s.mutexes.length
      mutexes := s.mutexes ++ [.new 2] } := by
  have older : ∀ (p : PeerAddress) (other : Nat), s.locks[p]? = some other → other < s.mutexes.length := by
    intro p other listed
    obtain ⟨_, known, _⟩ := held.sound p other listed
    exact TaskList.lt_length known
  have unused : ∀ task ∈ s.calls, stageAt s.mutexes.length task = none := by
    intro task member
    obtain ⟨m, there⟩ := List.mem_iff_getElem?.mp member
    rw [Option.eq_none_iff_forall_ne_some]
    intro stage at_
    exact absurd (older _ _ (held.entries m _ task stage there (stageAt_eq_some.mp at_))) (Nat.lt_irrefl _)
  refine ⟨?_, ?_, ?_⟩
  · intro m other found stage at_ uses
    rw [FiniteMap.getElem?_insert]
    obtain ⟨rfl, rfl⟩ | ⟨_, was⟩ := TaskList.of_set at_
    · cases LockPhase.uses.inj uses |>.1
      exact if_pos rfl
    · have entry := held.entries m other found stage was uses
      rw [if_neg]
      · exact entry
      · intro same
        rw [same, free] at entry
        simp at entry
  · intro p q other first second
    rw [FiniteMap.getElem?_insert] at first second
    split at first
    · rename_i own
      cases Option.some.inj first
      split at second
      · rename_i own'
        exact own.trans own'.symm
      · exact absurd (older q _ second) (Nat.lt_irrefl _)
    · split at second
      · cases Option.some.inj second
        exact absurd (older p _ first) (Nat.lt_irrefl _)
      · exact held.apart p q other first second
  · intro p other entry
    rw [FiniteMap.getElem?_insert] at entry
    split at entry
    · cases Option.some.inj entry
      have unseen : CountedMutex.Sound (stageAt s.mutexes.length) s.calls 1 1 (.new 1) := .unseen unused
      exact ⟨.new 2, List.getElem?_concat_length, unseen.clone here (stageAt_sweeping phase) (stageAt_uses rfl)⟩
    · obtain ⟨mutex, there, sound⟩ := held.sound p other entry
      refine ⟨mutex, TaskList.getElem?_append_of there _, sound.same here ?_⟩
      exact (stageAt_of_ne rfl (older p other entry).ne').trans (stageAt_sweeping phase).symm

/-- Who is first in the queue waits, whatever becomes of the owner. -/
theorem next_waits (held : Tracked s) (new : LockPhase) (here : s.calls[n]? = some call) {stage : MutexStage}
    (uses : call.phase = .uses lock stage) (owner : stage.owns = true) (there : s.mutexes[lock]? = some mutex)
    {next : Nat} {rest : List Nat} (head : mutex.waiters = next :: rest) :
    ∃ first, s.calls[next]? = some first ∧ (s.calls.set n { call with phase := new })[next]? = some first ∧
      first.phase = .uses lock .waiting := by
  have sound := held.sound_at (held.entries n lock call stage here uses) there
  obtain ⟨first, waits, waiting⟩ := (sound.queued next).mp (by simp [head])
  refine ⟨first, waits, ?_, stageAt_eq_some.mp waiting⟩
  rw [TaskList.getElem?_set here, if_neg, waits]
  rintro rfl
  cases here.symm.trans waits
  rw [stageAt_uses uses] at waiting
  cases Option.some.inj waiting
  simp [MutexStage.owns] at owner

/-- A call hands its permit to the next. -/
theorem hand (held : Tracked s) (here : s.calls[n]? = some call) {stage : MutexStage}
    (uses : call.phase = .uses lock stage) (owner : stage.owns = true) (there : s.mutexes[lock]? = some mutex)
    {next : Nat} {rest : List Nat} (head : mutex.waiters = next :: rest) :
    Tracked (((s.setCall n { call with phase := .uses lock .leaving }).setMutex lock mutex.release).setPhase next
      (.uses lock .granted)) := by
  have listed := held.entries n lock call stage here uses
  obtain ⟨first, waits, still, waiting⟩ := held.next_waits (.uses lock .leaving) here uses owner there head
  rw [setPhase_eq (s := (s.setCall n _).setMutex lock mutex.release) still]
  refine held.goOn there ?_ ?_ fun sound => ?_
  · intro m number found stage at_ at_lock
    obtain ⟨rfl, rfl⟩ | ⟨_, was⟩ := TaskList.of_set at_
    · cases (LockPhase.uses.inj at_lock).1
      exact held.entries _ lock first .waiting waits waiting
    · obtain ⟨rfl, rfl⟩ | ⟨_, was⟩ := TaskList.of_set was
      · cases (LockPhase.uses.inj at_lock).1
        exact listed
      · exact held.entries m number found stage was at_lock
  · intro number mutex ne was
    have left : CountedMutex.Sound (stageAt number) (s.calls.set n { call with phase := .uses lock .leaving }) 1 1
        mutex := was.same here ((stageAt_of_ne rfl (Ne.symm ne)).trans (stageAt_of_ne uses (Ne.symm ne)).symm)
    exact left.same still
      ((stageAt_of_ne rfl (Ne.symm ne)).trans (stageAt_of_ne waiting (Ne.symm ne)).symm)
  · have left : CountedMutex.Sound (stageAt lock) (s.calls.set n { call with phase := .uses lock .leaving }) 1 0
        mutex := sound.leave here (by rw [stageAt_uses uses]; exact owner) (stageAt_uses rfl)
    exact left.hand head still (stageAt_uses waiting) (stageAt_uses rfl)

theorem step {label : DialLockStep} (held : Tracked s) (stepped : Stepped s label s') : Tracked s' := by
  cases stepped with
  | called peer =>
    refine ⟨?_, held.apart, fun p lock listed => ?_⟩
    · intro n lock found stage at_ uses
      obtain was | ⟨_, rfl⟩ := TaskList.of_append at_
      · exact held.entries n lock found stage was uses
      · simp at uses
    · obtain ⟨mutex, there, sound⟩ := held.sound p lock listed
      exact ⟨mutex, there, sound.start rfl⟩
  | begun here phase | visited here phase =>
    exact held.idle here (fun lock => by rw [phase]; rfl) fun lock => rfl
  | swept here phase listed there last => exact held.sweep here phase listed there last
  | found here phase listed there =>
    refine held.goOn_at here there listed (fun _ _ => by rw [phase]; rfl) (by simp) fun sound => ?_
    exact sound.clone here (stageAt_sweeping phase) (stageAt_uses rfl)
  | created here phase free => exact held.create here phase free
  | acquired here phase there =>
    refine held.goOn_from here phase there (by simp) fun sound => ?_
    exact sound.acquire here (stageAt_uses phase) (stageAt_uses rfl)
  | resumed here phase =>
    exact held.stay here phase fun mutex sound => sound.resume here (stageAt_uses phase) (stageAt_uses rfl)
  | turnedBack here phase =>
    exact held.stay here phase fun mutex sound => sound.turnBack here (stageAt_uses phase) (stageAt_uses rfl)
  | gaveUp here phase there =>
    refine held.goOn_from here phase there (by simp) fun sound => ?_
    exact sound.quit here (stageAt_uses phase) (stageAt_uses rfl)
  | @freed _ n lock call stage mutex here phase owner there nobody =>
    refine held.goOn_from here phase there (by simp) fun sound => ?_
    have left : CountedMutex.Sound (stageAt lock) (s.calls.set n { call with phase := .uses lock .leaving }) 1 0
      mutex := sound.leave here (by rw [stageAt_uses phase]; exact owner) (stageAt_uses rfl)
    exact left.release nobody
  | handed here phase owner there head => exact held.hand here phase owner there head
  | dropped here phase there =>
    refine held.goOn_from here phase there (by simp) fun sound => ?_
    exact sound.drop here (stageAt_uses phase) rfl

theorem of_reach (reach : machine.Reach s) : Tracked s := by
  refine Machine.Reach.invariant ?_ ?_ reach
  · rintro s rfl
    exact ⟨by simp, by simp, by simp⟩
  · intro s label s' _ held step
    exact held.step (step_cases step)

theorem alone (held : Tracked s) {m lock' : Nat} {first second : LockCall} (here : s.calls[m]? = some first)
    (there : s.calls[n]? = some second) (holds : first.phase = .uses lock .held)
    (holds' : second.phase = .uses lock' .held) (same : first.peer = second.peer) : m = n := by
  have entry := held.entries m lock first .held here holds
  have entry' := held.entries n lock' second .held there holds'
  rw [← same, entry, Option.some.injEq] at entry'
  subst entry'
  obtain ⟨_, _, sound⟩ := held.sound first.peer lock entry
  exact sound.alone here there (by rw [stageAt_uses holds]; rfl) (by rw [stageAt_uses holds']; rfl)

/-- The entry of a call stays. -/
theorem kept {label : DialLockStep} (held : Tracked s) (stepped : Stepped s label s') {stage : MutexStage}
    (here : s.calls[n]? = some call) (uses : call.phase = .uses lock stage) : s'.locks[call.peer]? = some lock := by
  have entry := held.entries n lock call stage here uses
  cases stepped with
  | swept _ _ listed there last =>
    exact FiniteMap.getElem?_erase.trans ((if_neg (held.peer_ne listed there last here uses)).trans entry)
  | created _ _ free =>
    refine FiniteMap.getElem?_insert.trans ((if_neg fun same => ?_).trans entry)
    rw [same, free] at entry
    simp at entry
  | handed => exact entry
  | _ => exact entry

/-- What a call does next by itself, it can do, but for the map. -/
theorem next_step (held : Tracked s) (here : s.calls[n]? = some call) {label : DialLockStep}
    (next : call.phase.next n = some label) : (∃ s', s.step label = some s') ∨
      call.phase = .called ∧ ∃ (m : Nat) (other : LockCall), s.calls[m]? = some other ∧ other.phase.sweeps = true := by
  have mutexes : ∀ {p : PeerAddress} {lock : Nat}, s.locks[p]? = some lock → ∃ mutex, s.mutexes[lock]? = some mutex := by
    intro p lock listed
    obtain ⟨mutex, there, _⟩ := held.sound p lock listed
    exact ⟨mutex, there⟩
  unfold LockPhase.next at next
  split at next
  · rename_i phase
    cases Option.some.inj next
    cases free : s.mapFree with
    | true =>
      refine .inl (Option.isSome_iff_exists.mp ?_)
      simp only [DialLocks.step, here, Option.filter_some, phase, decide_true, if_true, free, Option.bind_eq_bind,
        Option.bind_some, Option.isSome_some]
    | false =>
      unfold mapFree at free
      rw [List.all_eq_false] at free
      obtain ⟨other, member, sweeps⟩ := free
      obtain ⟨m, there⟩ := List.mem_iff_getElem?.mp member
      exact .inr ⟨phase, m, other, there, by simpa using sweeps⟩
  · rename_i phase
    cases Option.some.inj next
    have entered : s.step (.entry n) = s.entry n call := by
      simp only [DialLocks.step, here, Option.filter_some, phase, decide_true, if_true, Option.bind_eq_bind,
        Option.bind_some]
    rw [entered]
    unfold entry
    cases listed : s.locks[call.peer]? with
    | none => exact .inl ⟨_, rfl⟩
    | some lock =>
      obtain ⟨mutex, there⟩ := mutexes listed
      refine .inl (Option.isSome_iff_exists.mp ?_)
      simp only [there, Option.bind_eq_bind, Option.bind_some, Option.isSome_some]
  · rename_i peer rest phase
    cases Option.some.inj next
    have visited : s.step (.visit n peer) = s.visit n call (peer :: rest) peer := by
      simp only [DialLocks.step, here, phase, List.mem_cons_self, if_true, Option.bind_eq_bind, Option.bind_some]
    rw [visited]
    unfold visit
    cases listed : s.locks[peer]? with
    | none => exact .inl ⟨_, rfl⟩
    | some lock =>
      obtain ⟨mutex, there⟩ := mutexes listed
      simp only [there, Option.bind_eq_bind, Option.bind_some]
      split
      · exact .inl ⟨_, rfl⟩
      · exact .inl ⟨_, rfl⟩
  · rename_i lock phase
    cases Option.some.inj next
    obtain ⟨mutex, there⟩ := mutexes (held.entries n lock call _ here phase)
    refine .inl (Option.isSome_iff_exists.mp ?_)
    simp only [DialLocks.step, poll, here, phase, there, Option.bind_eq_bind, Option.bind_some, Option.isSome_some]
  · rename_i lock phase
    cases Option.some.inj next
    refine .inl (Option.isSome_iff_exists.mp ?_)
    simp only [DialLocks.step, poll, here, phase, Option.bind_eq_bind, Option.bind_some, Option.isSome_some]
  · rename_i lock phase
    cases Option.some.inj next
    obtain ⟨mutex, there⟩ := mutexes (held.entries n lock call _ here phase)
    refine .inl (Option.isSome_iff_exists.mp ?_)
    simp only [DialLocks.step, here, phase, there, Option.bind_eq_bind, Option.bind_some, Option.isSome_some]
  · simp at next
  · simp at next
  · simp at next

end Tracked

section Reach

variable {s : DialLocks}

theorem reach_excludes (reach : machine.Reach s) : Excludes s := by
  have held := Tracked.of_reach reach
  refine ⟨?_, ?_, ?_, fun n call label here next => held.next_step here next⟩
  · intro m n lock lock' first second here there holds holds' same
    exact held.alone here there holds holds' same
  · intro n lock call stage here uses
    exact ⟨held.entries n lock call stage here uses, fun label s' step => held.kept (step_cases step) here uses⟩
  · intro n lock call here waiting
    have entry := held.entries n lock call .waiting here waiting
    obtain ⟨_, _, sound⟩ := held.sound call.peer lock entry
    obtain ⟨m, other, there, owner⟩ := sound.exists_owner here (stageAt_uses waiting)
    obtain ⟨stage, at_, owns⟩ := (Option.any_eq_true _ _).mp owner
    have uses := stageAt_eq_some.mp at_
    refine ⟨m, other, there, held.apart _ _ lock (held.entries m lock other stage there uses) entry, ?_⟩
    cases stage with
    | granted => exact .inl uses
    | held => exact .inr uses
    | cloned | waiting | leaving => simp [MutexStage.owns] at owns

end Reach

/-- Two calls for one address and one for another: the second waits, gives up
when the permit is already there for it, and a later sweep takes the entry
that is idle. -/
def contended (peer other : PeerAddress) : List DialLockStep :=
  let calls : List DialLockStep := [.call peer, .call peer, .call other, .call other]
  let enters (n : Nat) : List DialLockStep := [.entry n, .poll n]
  let sweeps (n : Nat) (visits : List PeerAddress) : List DialLockStep :=
    .begin n :: (visits.map (DialLockStep.visit n)).append (enters n)
  let leaves : List DialLockStep := [.release 0, .cancel 1, .drop 0, .drop 1]
  calls ++ sweeps 0 [] ++ sweeps 1 [peer] ++ sweeps 2 [peer] ++ leaves ++ sweeps 3 [other, peer]

theorem reach_excludes_contended : ∃ s, Excludes s ∧
    s.calls.map (fun call => call.phase) = [.over, .over, .uses 1 .held, .uses 1 .waiting] ∧
      s.locks[(⟨"AA"⟩ : PeerAddress)]? = none ∧ s.locks[(⟨"BB"⟩ : PeerAddress)]? = some 1 := by
  obtain ⟨s, reach, ended⟩ := Machine.Reach.exists_of_follow machine
    (fun s => decide (s.calls.map (fun call => call.phase) = [.over, .over, .uses 1 .held, .uses 1 .waiting] ∧
      s.locks[(⟨"AA"⟩ : PeerAddress)]? = none ∧ s.locks[(⟨"BB"⟩ : PeerAddress)]? = some 1))
    rfl (contended ⟨"AA"⟩ ⟨"BB"⟩) (by decide +kernel)
  exact ⟨s, reach_excludes reach, of_decide_eq_true ended⟩

/-! Its callers see one table of owners. -/

/-- The address whose guard a call has. -/
def guarded (call : LockCall) : Option PeerAddress :=
  match call.phase with
  | .uses _ .held => some call.peer
  | _ => none

def holds (s : DialLocks) (n : Nat) : Option PeerAddress := s.calls[n]?.bind guarded

def owner (s : DialLocks) (peer : PeerAddress) : Option Nat :=
  s.calls.findIdx? fun call => decide (guarded call = some peer)

section Owner

variable {s s' : DialLocks} {n lock : Nat} {call : LockCall} {peer : PeerAddress}

theorem guarded_eq_some : guarded call = some peer ↔ call.peer = peer ∧ ∃ lock, call.phase = .uses lock .held := by
  unfold guarded
  split
  · rename_i lock phase
    simp [phase]
  · rename_i other
    simp only [reduceCtorEq, false_iff, not_and, not_exists]
    exact fun _ lock => other lock

theorem guarded_of_ne {stage : MutexStage} (phase : call.phase = .uses lock stage) (ne : stage ≠ .held) :
    guarded call = none := by
  rw [Option.eq_none_iff_forall_ne_some]
  intro peer at_
  obtain ⟨_, other, held⟩ := guarded_eq_some.mp at_
  rw [phase] at held
  exact ne (LockPhase.uses.inj held).2

theorem exact (held : Tracked s) : KeyedLock.Exact s.holds s.owner := by
  have alone : ∀ {m n : Nat} {first second : LockCall} {peer : PeerAddress}, s.calls[m]? = some first →
      s.calls[n]? = some second → guarded first = some peer → guarded second = some peer → m = n := by
    intro m n first second peer here there guards guards'
    obtain ⟨rfl, lock, holds⟩ := guarded_eq_some.mp guards
    obtain ⟨same, lock', holds'⟩ := guarded_eq_some.mp guards'
    exact held.alone here there holds holds' same.symm
  refine ⟨?_, ?_⟩
  · intro n peer holds
    obtain ⟨call, here, guards⟩ := Option.bind_eq_some_iff.mp holds
    obtain ⟨bound, at_⟩ := List.getElem?_eq_some_iff.mp here
    unfold owner
    rw [List.findIdx?_eq_some_iff_getElem]
    refine ⟨bound, by rw [at_, decide_eq_true_eq]; exact guards, fun m before other => ?_⟩
    have there := List.getElem?_eq_getElem (before.trans bound)
    exact before.ne (alone there here (of_decide_eq_true other) guards)
  · intro peer n owns
    unfold owner at owns
    rw [List.findIdx?_eq_some_iff_getElem] at owns
    obtain ⟨bound, guards, _⟩ := owns
    unfold holds
    rw [List.getElem?_eq_getElem bound, Option.bind_some]
    exact of_decide_eq_true guards

theorem holds_setCall (here : s.calls[n]? = some call) (new : LockCall) :
    (s.setCall n new).holds = Function.update s.holds n (guarded new) := by
  funext m
  rw [Function.update_apply]
  exact TaskList.bind_set _ here

/-- Who finds the permit, or has it, finds no guard of the address. -/
theorem owner_eq_none (held : Tracked s) (here : s.calls[n]? = some call) {stage : MutexStage}
    (uses : call.phase = .uses lock stage) (unheld : stage ≠ .held)
    (permit : stage.owns = true ∨ ∃ mutex, s.mutexes[lock]? = some mutex ∧ mutex.free = true) :
    s.owner call.peer = none := by
  rw [Option.eq_none_iff_forall_ne_some]
  intro m owns
  obtain ⟨other, there, guards⟩ := Option.bind_eq_some_iff.mp ((exact held).named _ m owns)
  obtain ⟨same, lock', holds⟩ := guarded_eq_some.mp guards
  have listed := held.entries n lock call stage here uses
  have entry := held.entries m lock' other .held there holds
  rw [same, listed, Option.some.injEq] at entry
  subst entry
  obtain ⟨mutex, known, sound⟩ := held.sound call.peer lock listed
  have owner : (stageAt lock other).any MutexStage.owns = true := by
    rw [stageAt_uses holds]
    rfl
  rcases permit with mine | ⟨found, known', free⟩
  · have same := sound.alone here there (by rw [stageAt_uses uses]; exact mine) owner
    subst same
    cases here.symm.trans there
    rw [uses] at holds
    exact unheld (LockPhase.uses.inj holds).2
  · cases known.symm.trans known'
    have counted := TaskList.countP_pos (p := CountedMutex.owns (stageAt lock)) there owner
    have permits := sound.permit
    rw [free, Bool.toNat_true] at permits
    omega

/-- A call has no guard before and after. -/
theorem turn_stay {owner' : PeerAddress → Option Nat} {new : LockCall} (held : Tracked s)
    (here : s.calls[n]? = some call) (after : KeyedLock.Exact (s.setCall n new).holds owner')
    (was : guarded call = none) (is : guarded new = none) : KeyedLock.Turn s.owner owner' := by
  have same : (s.setCall n new).holds = s.holds := by
    rw [holds_setCall here, is, ← was, Function.update_eq_self_iff]
    unfold holds
    rw [here, Option.bind_some]
  rw [same] at after
  exact (exact held).turn_stay after

/-- A call takes the guard. -/
theorem turn_take {owner' : PeerAddress → Option Nat} (held : Tracked s) (here : s.calls[n]? = some call)
    (after : KeyedLock.Exact (s.setCall n { call with phase := .uses lock .held }).holds owner') {stage : MutexStage}
    (uses : call.phase = .uses lock stage) (unheld : stage ≠ .held)
    (permit : stage.owns = true ∨ ∃ mutex, s.mutexes[lock]? = some mutex ∧ mutex.free = true) :
    KeyedLock.Turn s.owner owner' := by
  have free := owner_eq_none held here uses unheld permit
  rw [holds_setCall here] at after
  refine (exact held).turn_take after ?_ free
  unfold holds
  rw [here, Option.bind_some]
  exact guarded_of_ne uses unheld

/-- A call that has the permit leaves it. -/
theorem turn_leave {owner' : PeerAddress → Option Nat} (held : Tracked s) (here : s.calls[n]? = some call)
    (after : KeyedLock.Exact (s.setCall n { call with phase := .uses lock .leaving }).holds owner') {stage : MutexStage}
    (uses : call.phase = .uses lock stage) : KeyedLock.Turn s.owner owner' := by
  by_cases guards : stage = .held
  · subst guards
    rw [holds_setCall here] at after
    refine (exact held).turn_leave after (?_ : s.holds n = some call.peer)
    unfold holds
    rw [here, Option.bind_some]
    exact guarded_eq_some.mpr ⟨rfl, lock, uses⟩
  · exact turn_stay held here after (guarded_of_ne uses guards) rfl

/-- A step takes a lock that nobody has, or leaves one, and the owners of the
others stay who they are. -/
theorem owner_turn {label : DialLockStep} (held : Tracked s) (stepped : Stepped s label s') :
    KeyedLock.Turn s.owner s'.owner := by
  have after := exact (held.step stepped)
  cases stepped with
  | called peer =>
    refine (exact held).turn_stay ?_
    have same : ({ s with calls := s.calls ++ [{ peer := peer }] } : DialLocks).holds = s.holds :=
      funext fun n => TaskList.bind_append rfl
    rwa [same] at after
  | begun here phase | visited here phase | swept here phase | found here phase | created here phase =>
    exact turn_stay held here after (by unfold guarded; rw [phase]) rfl
  | @acquired n lock call mutex here phase there =>
    cases free : mutex.free with
    | true =>
      have outcome : mutex.outcome = .held := if_pos free
      rw [outcome] at after ⊢
      exact turn_take held here after phase (by simp) (.inr ⟨mutex, there, free⟩)
    | false =>
      have outcome : mutex.outcome = .waiting := if_neg (by simp [free])
      rw [outcome] at after ⊢
      exact turn_stay held here after (guarded_of_ne phase (by simp)) rfl
  | resumed here phase => exact turn_take held here after phase (by simp) (.inl rfl)
  | turnedBack here phase | gaveUp here phase | dropped here phase =>
    exact turn_stay held here after (guarded_of_ne phase (by simp)) rfl
  | freed here phase owner there nobody => exact turn_leave held here after phase
  | @handed label n lock next rest call stage mutex here phase owner there head =>
    obtain ⟨first, _, still, waiting⟩ := held.next_waits (.uses lock .leaving) here phase owner there head
    have same : (((s.setCall n { call with phase := .uses lock .leaving }).setMutex lock mutex.release).setPhase next
        (.uses lock .granted)).holds = (s.setCall n { call with phase := .uses lock .leaving }).holds := by
      rw [Tracked.setPhase_eq (s := (s.setCall n _).setMutex lock mutex.release) still, holds_setCall still]
      refine (Function.update_eq_self_iff ..).mpr ?_
      change _ = (s.calls.set n _)[next]?.bind guarded
      rw [still, Option.bind_some, guarded_of_ne waiting (by simp)]
      rfl
    rw [same] at after
    exact turn_leave held here after phase

end Owner

/-- So the map with its mutexes is one lock for each address. -/
theorem reach_turns {s : DialLocks} (reach : machine.Reach s) : KeyedLock.Turns s.owner := by
  refine KeyedLock.turns_of_reach owner ?_ ?_ reach
  · rintro s rfl
    rfl
  · intro s label s' reach step
    exact owner_turn (.of_reach reach) (step_cases step)

end DialLocks

end BleGatt
