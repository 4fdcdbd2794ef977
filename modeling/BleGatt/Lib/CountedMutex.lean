import BleGatt.Lib.TaskList
import Mathlib.Data.List.Nodup

/-! A mutex behind counted references. Its one permit goes to those who wait in
their order; a task comes with a reference, and leaves the permit before it
leaves the reference. -/

/-- How far a task came with a mutex that it has a reference to. -/
inductive MutexStage
  | cloned
  | waiting
  /-- The permit is there for it. -/
  | granted
  /-- It has the guard. -/
  | held
  /-- It does not want the permit any more. -/
  | leaving
  deriving DecidableEq

def MutexStage.owns : MutexStage → Bool
  | .granted | .held => true
  | _ => false

structure CountedMutex where
  strong : Nat
  free : Bool
  /-- By their numbers, first in front. -/
  waiters : List Nat
  /-- Nobody waits for a permit that is there. -/
  idle : free = true → waiters = []
  deriving DecidableEq

namespace CountedMutex

def new (strong : Nat) : CountedMutex := { strong := strong, free := true, waiters := [], idle := fun _ => rfl }

def clone (mutex : CountedMutex) : CountedMutex := { mutex with strong := mutex.strong + 1 }

def drop (mutex : CountedMutex) : CountedMutex := { mutex with strong := mutex.strong - 1 }

/-- A task asks for the permit, and gets it or waits. -/
def acquire (task : Nat) (mutex : CountedMutex) : CountedMutex :=
  { mutex with
    free := false
    waiters := if mutex.free then mutex.waiters else mutex.waiters ++ [task]
    idle := by simp }

/-- What comes of it. -/
def outcome (mutex : CountedMutex) : MutexStage := if mutex.free then .held else .waiting

/-- A task waits no longer. -/
def quit (task : Nat) (mutex : CountedMutex) : CountedMutex :=
  { mutex with
    waiters := mutex.waiters.erase task
    idle := fun free => by rw [mutex.idle free, List.erase_nil] }

/-- The permit comes back: it is for the first in the queue, if there is one. -/
def release (mutex : CountedMutex) : CountedMutex :=
  { mutex with
    free := mutex.waiters.isEmpty
    waiters := mutex.waiters.tail
    idle := fun free => by rw [List.isEmpty_iff.mp free, List.tail_nil] }

end CountedMutex

namespace CountedMutex

theorem acquire_waiters_of_free {mutex : CountedMutex} (task : Nat) (free : mutex.free = true) :
    (mutex.acquire task).waiters = mutex.waiters := if_pos free

theorem acquire_waiters_of_taken {mutex : CountedMutex} (task : Nat) (taken : mutex.free = false) :
    (mutex.acquire task).waiters = mutex.waiters ++ [task] := if_neg (by simp [taken])

variable {α : Type*} {stage : α → Option MutexStage}

/-- The task has a reference. -/
def refers (stage : α → Option MutexStage) (task : α) : Bool := (stage task).isSome

/-- The permit is its. -/
def owns (stage : α → Option MutexStage) (task : α) : Bool := (stage task).any MutexStage.owns

/-- It counts the references of the tasks and `others` more, there are so many
permits with them and in it, and the places in the queue are theirs. -/
structure Sound (stage : α → Option MutexStage) (tasks : List α) (others permits : Nat) (mutex : CountedMutex) :
    Prop where
  counted : mutex.strong = tasks.countP (refers stage) + others
  permit : tasks.countP (owns stage) + mutex.free.toNat = permits
  queued : ∀ n, n ∈ mutex.waiters ↔ ∃ task, tasks[n]? = some task ∧ stage task = some .waiting
  nodup : mutex.waiters.Nodup

namespace Sound

variable {tasks : List α} {others permits permits' n : Nat} {mutex after : CountedMutex} {task old new : α}

/-- One task goes on. -/
theorem set (sound : Sound stage tasks others permits mutex) (here : tasks[n]? = some old)
    (strong : after.strong + (refers stage old).toNat = mutex.strong + (refers stage new).toNat)
    (permit : after.free.toNat + (owns stage new).toNat + permits = mutex.free.toNat + (owns stage old).toNat + permits')
    (queued : ∀ d, d ∈ after.waiters ↔ if d = n then stage new = some .waiting else d ∈ mutex.waiters)
    (nodup : after.waiters.Nodup) : Sound stage (tasks.set n new) others permits' after := by
  have references : (tasks.set n new).countP (refers stage) + _ = _ := TaskList.countP_set (refers stage) here
  have owners : (tasks.set n new).countP (owns stage) + _ = _ := TaskList.countP_set (owns stage) here
  have toNat : ∀ b : Bool, (if b then 1 else 0) = b.toNat := by decide
  simp only [toNat] at references owners
  have counted := sound.counted
  have before := sound.permit
  refine ⟨by omega, by omega, fun d => ?_, nodup⟩
  rw [queued, TaskList.getElem?_set here]
  split
  · simp
  · exact sound.queued d

/-- One task goes on, and it does not wait before or after. -/
theorem set_idle (sound : Sound stage tasks others permits mutex) (here : tasks[n]? = some old)
    (strong : after.strong + (refers stage old).toNat = mutex.strong + (refers stage new).toNat)
    (permit : after.free.toNat + (owns stage new).toNat + permits = mutex.free.toNat + (owns stage old).toNat + permits')
    (waiters : after.waiters = mutex.waiters) (before : stage old ≠ some .waiting)
    (now : stage new ≠ some .waiting) : Sound stage (tasks.set n new) others permits' after := by
  refine sound.set here strong permit (fun d => ?_) (waiters ▸ sound.nodup)
  rw [waiters]
  split
  · rename_i own
    rw [own, sound.queued]
    simp [here, before, now]
  · rfl

/-- A task whose part in it stays the same. -/
theorem same (sound : Sound stage tasks others permits mutex) (here : tasks[n]? = some old)
    (same : stage new = stage old) : Sound stage (tasks.set n new) others permits mutex := by
  refine sound.set here ?_ ?_ (fun d => ?_) sound.nodup
  · rw [refers, refers, same]
  · rw [owns, owns, same]
  · split
    · rename_i own
      rw [own, same, sound.queued]
      simp [here]
    · rfl

/-- A task is started without a reference. -/
theorem start (sound : Sound stage tasks others permits mutex) (none_ : stage new = none) :
    Sound stage (tasks ++ [new]) others permits mutex := by
  refine ⟨?_, ?_, fun d => ?_, sound.nodup⟩
  · rw [sound.counted, List.countP_append]
    simp [refers, none_]
  · rw [← sound.permit, List.countP_append]
    simp [owns, none_]
  · rw [sound.queued]
    constructor
    · rintro ⟨task, there, waits⟩
      exact ⟨task, TaskList.getElem?_append_of there _, waits⟩
    · rintro ⟨task, there, waits⟩
      obtain there | ⟨_, rfl⟩ := TaskList.of_append there
      · exact ⟨task, there, waits⟩
      · rw [none_] at waits
        simp at waits

/-- No task has a reference yet. -/
theorem unseen (fresh : ∀ task ∈ tasks, stage task = none) : Sound stage tasks others 1 (.new others) := by
  refine ⟨?_, ?_, fun d => ?_, List.nodup_nil⟩
  · rw [List.countP_eq_zero.mpr]
    · exact (Nat.zero_add _).symm
    · intro task member
      simp [refers, fresh task member]
  · rw [List.countP_eq_zero.mpr]
    · rfl
    · intro task member
      simp [owns, fresh task member]
  · simp only [CountedMutex.new, List.not_mem_nil, false_iff, not_exists, not_and]
    intro task there
    rw [fresh task (List.mem_of_getElem? there)]
    simp

theorem clone (sound : Sound stage tasks others permits mutex) (here : tasks[n]? = some old)
    (none_ : stage old = none) (cloned : stage new = some .cloned) :
    Sound stage (tasks.set n new) others permits mutex.clone := by
  refine sound.set_idle here ?_ ?_ rfl (by simp [none_]) (by simp [cloned])
  · simp [refers, none_, cloned, CountedMutex.clone]
  · simp [owns, none_, cloned, MutexStage.owns, CountedMutex.clone]

theorem acquire (sound : Sound stage tasks others permits mutex) (here : tasks[n]? = some old)
    (cloned : stage old = some .cloned) (outcome : stage new = some mutex.outcome) :
    Sound stage (tasks.set n new) others permits (mutex.acquire n) := by
  cases free : mutex.free with
  | true =>
    have held : stage new = some .held := by rw [outcome, CountedMutex.outcome, free, if_pos rfl]
    refine sound.set_idle here ?_ ?_ (acquire_waiters_of_free n free) (by simp [cloned]) (by simp [held])
    · simp [refers, cloned, held, CountedMutex.acquire]
    · simp [owns, cloned, held, MutexStage.owns, CountedMutex.acquire, free]
  | false =>
    have waiting : stage new = some .waiting := by
      rw [outcome, CountedMutex.outcome, free]
      rfl
    have absent : n ∉ mutex.waiters := by
      rw [sound.queued]
      simp [here, cloned]
    refine sound.set here ?_ ?_ (fun d => ?_) ?_
    · simp [refers, cloned, waiting, CountedMutex.acquire]
    · simp [owns, cloned, waiting, MutexStage.owns, CountedMutex.acquire, free]
    · rw [acquire_waiters_of_taken n free, List.mem_append, List.mem_singleton]
      split
      · rename_i own
        simp [own, waiting]
      · rename_i other
        simp [other]
    · rw [acquire_waiters_of_taken n free]
      exact List.Nodup.append sound.nodup (List.nodup_singleton n) (by simpa using absent)

/-- One turns back before it asks for the permit. -/
theorem turnBack (sound : Sound stage tasks others permits mutex) (here : tasks[n]? = some old)
    (cloned : stage old = some .cloned) (leaving : stage new = some .leaving) :
    Sound stage (tasks.set n new) others permits mutex := by
  refine sound.set_idle here ?_ ?_ rfl (by simp [cloned]) (by simp [leaving])
  · simp [refers, cloned, leaving]
  · simp [owns, cloned, leaving, MutexStage.owns]

/-- The permit that was there for it is its. -/
theorem resume (sound : Sound stage tasks others permits mutex) (here : tasks[n]? = some old)
    (granted : stage old = some .granted) (held : stage new = some .held) :
    Sound stage (tasks.set n new) others permits mutex := by
  refine sound.set_idle here ?_ ?_ rfl (by simp [granted]) (by simp [held])
  · simp [refers, granted, held]
  · simp [owns, granted, held, MutexStage.owns]

/-- One that waits does so no longer. -/
theorem quit (sound : Sound stage tasks others permits mutex) (here : tasks[n]? = some old)
    (waiting : stage old = some .waiting) (leaving : stage new = some .leaving) :
    Sound stage (tasks.set n new) others permits (mutex.quit n) := by
  refine sound.set here ?_ ?_ (fun d => ?_) (sound.nodup.erase n)
  · simp [refers, waiting, leaving, CountedMutex.quit]
  · simp [owns, waiting, leaving, MutexStage.owns, CountedMutex.quit]
  · change d ∈ mutex.waiters.erase n ↔ _
    rw [sound.nodup.mem_erase_iff]
    split
    · rename_i own
      simp [own, leaving]
    · rename_i other
      simp [other]

/-- One leaves the permit, and it is nobody's yet. -/
theorem leave (sound : Sound stage tasks others (permits + 1) mutex) (here : tasks[n]? = some old)
    (owner : (stage old).any MutexStage.owns = true) (leaving : stage new = some .leaving) :
    Sound stage (tasks.set n new) others permits mutex := by
  obtain ⟨at_, some_, _⟩ := (Option.any_eq_true _ _).mp owner
  refine sound.set_idle here ?_ ?_ rfl ?_ (by simp [leaving])
  · simp [refers, some_, leaving]
  · simp only [owns, leaving, owner, MutexStage.owns, Option.any_some, Bool.toNat_false, Bool.toNat_true]
    omega
  · rintro waiting
    simp [waiting, MutexStage.owns] at owner

theorem taken (sound : Sound stage tasks others 0 mutex) : mutex.free = false := by
  have permit := sound.permit
  cases free : mutex.free with
  | false => rfl
  | true =>
    rw [free, Bool.toNat_true] at permit
    omega

/-- Nobody waits for it: it is free. -/
theorem release (sound : Sound stage tasks others 0 mutex) (nobody : mutex.waiters = []) :
    Sound stage tasks others 1 mutex.release := by
  refine ⟨sound.counted, ?_, fun d => ?_, ?_⟩
  · have permit := sound.permit
    rw [sound.taken] at permit
    simpa [CountedMutex.release, nobody] using permit
  · simpa [CountedMutex.release, nobody] using sound.queued d
  · simp [CountedMutex.release, nobody]

/-- It goes to the first that waits. -/
theorem hand (sound : Sound stage tasks others 0 mutex) {rest : List Nat} (head : mutex.waiters = n :: rest)
    (here : tasks[n]? = some old) (waiting : stage old = some .waiting) (granted : stage new = some .granted) :
    Sound stage (tasks.set n new) others 1 mutex.release := by
  have nodup := sound.nodup
  rw [head, List.nodup_cons] at nodup
  refine sound.set here ?_ ?_ (fun d => ?_) ?_
  · simp [refers, waiting, granted, CountedMutex.release]
  · simp [owns, waiting, granted, MutexStage.owns, CountedMutex.release, sound.taken, head]
  · simp only [CountedMutex.release, head, List.tail_cons, List.mem_cons]
    split
    · rename_i own
      simp [own, granted, nodup.1]
    · rename_i other
      simp [other]
  · simpa [CountedMutex.release, head] using nodup.2

/-- Its reference goes. -/
theorem drop (sound : Sound stage tasks others permits mutex) (here : tasks[n]? = some old)
    (leaving : stage old = some .leaving) (none_ : stage new = none) :
    Sound stage (tasks.set n new) others permits mutex.drop := by
  have some_ := TaskList.countP_pos (p := refers stage) here (by simp [refers, leaving])
  have counted := sound.counted
  refine sound.set_idle here ?_ ?_ rfl (by simp [leaving]) (by simp [none_])
  · simp only [refers, leaving, none_, CountedMutex.drop, Option.isSome_some, Option.isSome_none, Bool.toNat_true,
      Bool.toNat_false]
    omega
  · simp [owns, leaving, none_, MutexStage.owns, CountedMutex.drop]

/-- The permit has one owner at most. -/
theorem alone (sound : Sound stage tasks others 1 mutex) {m : Nat} {first second : α} (here : tasks[m]? = some first)
    (there : tasks[n]? = some second) (owner : (stage first).any MutexStage.owns = true)
    (too : (stage second).any MutexStage.owns = true) : m = n := by
  refine TaskList.eq_of_countP_le_one (p := owns stage) ?_ here there owner too
  rw [← sound.permit]
  exact Nat.le_add_right _ _

/-- Who waits, waits for an owner. -/
theorem exists_owner (sound : Sound stage tasks others 1 mutex) (here : tasks[n]? = some task)
    (waiting : stage task = some .waiting) :
    ∃ (m : Nat) (owner : α), tasks[m]? = some owner ∧ (stage owner).any MutexStage.owns = true := by
  have member := (sound.queued n).mpr ⟨task, here, waiting⟩
  have taken : mutex.free = false := by
    by_contra free
    rw [Bool.not_eq_false] at free
    rw [mutex.idle free] at member
    simp at member
  have permit := sound.permit
  rw [taken] at permit
  obtain ⟨owner, there, owned⟩ := List.countP_pos_iff.mp (permit ▸ Nat.one_pos)
  obtain ⟨m, there⟩ := List.mem_iff_getElem?.mp there
  exact ⟨m, owner, there, owned⟩

/-- Without a reference but the others, no task is at it. -/
theorem stage_eq_none (sound : Sound stage tasks others permits mutex) (last : mutex.strong ≤ others)
    (here : tasks[n]? = some task) : stage task = none := by
  by_contra some_
  have more := TaskList.countP_pos (p := refers stage) here (Option.isSome_iff_ne_none.mpr some_)
  have counted := sound.counted
  omega

end Sound

end CountedMutex
