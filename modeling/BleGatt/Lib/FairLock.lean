import BleGatt.Lib.TaskList
import Mathlib.Data.List.Nodup

/-! A fair lock, as the queue of the numbered tasks that asked for it: the one
in front has it. -/

namespace FairLock

variable {α : Type*}

/-- `first` asked before `second`, and neither has left. -/
def Ahead (queue : List Nat) (first second : Nat) : Prop := ∃ before after, queue = before ++ first :: after ∧ second ∈ after

namespace Ahead

variable {queue : List Nat} {first second task : Nat}

theorem join (member : first ∈ queue) (new : Nat) : Ahead (queue ++ [new]) first new := by
  obtain ⟨before, after, rfl⟩ := List.append_of_mem member
  exact ⟨before, after ++ [new], by simp, List.mem_append_right after List.mem_cons_self⟩

theorem more (ahead : Ahead queue first second) (new : Nat) : Ahead (queue ++ [new]) first second := by
  obtain ⟨before, after, rfl, behind⟩ := ahead
  exact ⟨before, after ++ [new], by simp, List.mem_append_left [new] behind⟩

/-- Another task leaves. -/
theorem leave (ahead : Ahead queue first second) (other : task ≠ first) (apart : task ≠ second) :
    Ahead (queue.erase task) first second := by
  obtain ⟨before, after, rfl, behind⟩ := ahead
  by_cases front : task ∈ before
  · exact ⟨before.erase task, after, by rw [List.erase_append_left _ front], behind⟩
  · refine ⟨before, after.erase task, ?_, (List.mem_erase_of_ne (Ne.symm apart)).mpr behind⟩
    rw [List.erase_append_right _ front, List.erase_cons_tail (by simpa using Ne.symm other)]

theorem not_front (ahead : Ahead queue first second) (nodup : queue.Nodup) : queue.head? ≠ some second := by
  obtain ⟨before, after, rfl, behind⟩ := ahead
  intro front
  cases before with
  | nil =>
    rw [List.nil_append, List.nodup_cons] at nodup
    rw [List.nil_append, List.head?_cons, Option.some.injEq] at front
    exact nodup.1 (front ▸ behind)
  | cons head before =>
    rw [List.cons_append, List.head?_cons, Option.some.injEq] at front
    rw [List.cons_append, List.nodup_cons] at nodup
    refine nodup.1 (front ▸ ?_)
    exact List.mem_append_right before (List.mem_cons_of_mem first behind)

end Ahead

/-- Whoever asks is in the queue, and only the one in front holds the lock. -/
structure Sound (asks holds : α → Bool) (tasks : List α) (queue : List Nat) : Prop where
  queued : ∀ n, n ∈ queue ↔ ∃ task, tasks[n]? = some task ∧ asks task = true
  front : ∀ (n : Nat) (task : α), tasks[n]? = some task → holds task = true → queue.head? = some n
  nodup : queue.Nodup

namespace Sound

variable {asks holds : α → Bool} {tasks : List α} {queue : List Nat} {n m : Nat} {task old new : α}

theorem alone (sound : Sound asks holds tasks queue) {other : α} (here : tasks[n]? = some task)
    (there : tasks[m]? = some other) (held : holds task = true) (too : holds other = true) : n = m :=
  Option.some.inj ((sound.front n task here held).symm.trans (sound.front m other there too))

/-- The task in front goes on, or any task whose part in the lock stays the same. -/
theorem set (sound : Sound asks holds tasks queue) (here : tasks[n]? = some old) (same : asks new = asks old)
    (held : holds new = true → queue.head? = some n) : Sound asks holds (tasks.set n new) queue := by
  refine ⟨?_, ?_, sound.nodup⟩
  · intro k
    rw [sound.queued, TaskList.getElem?_set here]
    split
    · rename_i mine
      subst mine
      simp [here, same]
    · rfl
  · intro k found there holding
    obtain ⟨rfl, rfl⟩ | ⟨_, there⟩ := TaskList.of_set there
    · exact held holding
    · exact sound.front k found there holding

theorem start (sound : Sound asks holds tasks queue) (asks_ : asks new = false) (holds_ : holds new = false) :
    Sound asks holds (tasks ++ [new]) queue := by
  refine ⟨?_, ?_, sound.nodup⟩
  · intro k
    rw [sound.queued]
    constructor
    · rintro ⟨task, there, asking⟩
      exact ⟨task, TaskList.getElem?_append_of there _, asking⟩
    · rintro ⟨task, there, asking⟩
      obtain there | ⟨_, rfl⟩ := TaskList.of_append there
      · exact ⟨task, there, asking⟩
      · rw [asks_] at asking
        cases asking
  · intro k found there holding
    obtain there | ⟨_, rfl⟩ := TaskList.of_append there
    · exact sound.front k found there holding
    · rw [holds_] at holding
      cases holding

/-- A task is started that asks for it. -/
theorem join (sound : Sound asks holds tasks queue) (asks_ : asks new = true) (holds_ : holds new = false) :
    Sound asks holds (tasks ++ [new]) (queue ++ [tasks.length]) := by
  have fresh : tasks.length ∉ queue := by
    intro member
    obtain ⟨task, there, _⟩ := (sound.queued _).mp member
    exact absurd (TaskList.lt_length there) (Nat.lt_irrefl _)
  refine ⟨?_, ?_, List.Nodup.append sound.nodup (List.nodup_singleton _) (by simpa using fresh)⟩
  · intro k
    rw [List.mem_append, List.mem_singleton, sound.queued]
    constructor
    · rintro (⟨task, there, asking⟩ | rfl)
      · exact ⟨task, TaskList.getElem?_append_of there _, asking⟩
      · exact ⟨new, List.getElem?_concat_length, asks_⟩
    · rintro ⟨task, there, asking⟩
      obtain there | ⟨mine, _⟩ := TaskList.of_append there
      · exact .inl ⟨task, there, asking⟩
      · exact .inr mine
  · intro k found there holding
    obtain there | ⟨_, rfl⟩ := TaskList.of_append there
    · have front := sound.front k found there holding
      cases queue with
      | nil => simp at front
      | cons head rest => exact front
    · rw [holds_] at holding
      cases holding

/-- A task that was started before asks for it. -/
theorem enter (sound : Sound asks holds tasks queue) (here : tasks[n]? = some old) (idle : asks old = false)
    (asks_ : asks new = true) (holds_ : holds new = false) : Sound asks holds (tasks.set n new) (queue ++ [n]) := by
  have absent : n ∉ queue := by
    intro member
    obtain ⟨task, there, asking⟩ := (sound.queued n).mp member
    cases Option.some.inj (here.symm.trans there)
    rw [idle] at asking
    cases asking
  refine ⟨?_, ?_, List.Nodup.append sound.nodup (List.nodup_singleton _) (by simpa using absent)⟩
  · intro k
    rw [List.mem_append, List.mem_singleton, sound.queued, TaskList.getElem?_set here]
    by_cases mine : k = n
    · simp [mine, asks_]
    · simp [mine]
  · intro k found there holding
    obtain ⟨_, rfl⟩ | ⟨_, there⟩ := TaskList.of_set there
    · rw [holds_] at holding
      cases holding
    · have front := sound.front k found there holding
      cases queue with
      | nil => simp at front
      | cons head rest => exact front

/-- A task does not ask any more, held or not. -/
theorem leave (sound : Sound asks holds tasks queue) (here : tasks[n]? = some old) (asks_ : asks new = false)
    (holds_ : holds new = false) : Sound asks holds (tasks.set n new) (queue.erase n) := by
  refine ⟨?_, ?_, sound.nodup.erase n⟩
  · intro k
    rw [sound.nodup.mem_erase_iff, sound.queued, TaskList.getElem?_set here]
    split
    · rename_i mine
      simp [mine, asks_]
    · rename_i other
      simp [other]
  · intro k found there holding
    obtain ⟨rfl, rfl⟩ | ⟨other, there⟩ := TaskList.of_set there
    · rw [holds_] at holding
      cases holding
    · have front := sound.front k found there holding
      cases queue with
      | nil => simp at front
      | cons head rest =>
        rw [List.head?_cons, Option.some.injEq] at front
        rw [List.erase_cons_tail (by simpa [front] using other), List.head?_cons, front]

end Sound

end FairLock
