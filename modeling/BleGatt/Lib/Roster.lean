import BleGatt.Lib.TaskList
import Mathlib.Data.List.Nodup

/-! A list of keys that names the active ones of numbered tasks, each key
for one task: what a task that starts, becomes active or ends does to it. -/

namespace TaskList

variable {α κ : Type*}

structure Roster (key : α → κ) (active : α → Bool) (tasks : List α) (keys : List κ) : Prop where
  entered : ∀ (n : Nat) (task : α), tasks[n]? = some task → active task = true → key task ∈ keys
  alone : ∀ (n m : Nat) (task other : α), tasks[n]? = some task → tasks[m]? = some other → key task = key other →
    active task = true → active other = true → n = m
  known : ∀ k ∈ keys, ∃ (n : Nat) (task : α), tasks[n]? = some task ∧ key task = k ∧ active task = true
  nodup : keys.Nodup

namespace Roster

variable {key : α → κ} {active : α → Bool} {tasks : List α} {keys : List κ} {number : Nat} {task new : α}

theorem mem_iff (roster : Roster key active tasks keys) (k : κ) :
    k ∈ keys ↔ ∃ task ∈ tasks, key task = k ∧ active task = true := by
  constructor
  · intro there
    obtain ⟨n, task, here, own, live⟩ := roster.known k there
    exact ⟨task, List.mem_of_getElem? here, own, live⟩
  · rintro ⟨task, member, rfl, live⟩
    obtain ⟨n, here⟩ := List.mem_iff_getElem?.mp member
    exact roster.entered n task here live

/-- A change that leaves a task's key, and whether it is active. -/
theorem set (roster : Roster key active tasks keys) (here : tasks[number]? = some task) (same : key new = key task)
    (live : active new = active task) : Roster key active (tasks.set number new) keys := by
  -- a task of the new list, as one of the old
  have lift : ∀ {n : Nat} {found : α}, (tasks.set number new)[n]? = some found →
      ∃ before, tasks[n]? = some before ∧ key found = key before ∧ active found = active before := by
    intro n found there
    obtain ⟨rfl, rfl⟩ | ⟨_, there⟩ := TaskList.of_set there
    · exact ⟨task, here, same, live⟩
    · exact ⟨found, there, rfl, rfl⟩
  refine ⟨?_, ?_, ?_, roster.nodup⟩
  · intro n found there live
    obtain ⟨before, was, own, same⟩ := lift there
    rw [own]
    exact roster.entered n before was (same ▸ live)
  · intro n m found other there there' both live live'
    obtain ⟨before, was, own, same⟩ := lift there
    obtain ⟨before', was', own', same'⟩ := lift there'
    exact roster.alone n m before before' was was' (own ▸ own' ▸ both) (same ▸ live) (same' ▸ live')
  · intro k there
    obtain ⟨n, before, was, own, on⟩ := roster.known k there
    by_cases at_ : n = number
    · subst at_
      cases here.symm.trans was
      exact ⟨n, new, getElem?_set_self here, same.trans own, live.trans on⟩
    · exact ⟨n, before, by rw [TaskList.getElem?_set here, if_neg at_, was], own, on⟩

/-- A task is started that is not active yet. -/
theorem start (roster : Roster key active tasks keys) (idle : active new = false) :
    Roster key active (tasks ++ [new]) keys := by
  have lift : ∀ {n : Nat} {found : α}, (tasks ++ [new])[n]? = some found → active found = true →
      tasks[n]? = some found := by
    intro n found there live
    obtain there | ⟨rfl, rfl⟩ := of_append there
    · exact there
    · rw [idle] at live
      simp at live
  refine ⟨?_, ?_, ?_, roster.nodup⟩
  · intro n found there live
    exact roster.entered n found (lift there live) live
  · intro n m found other there there' same live live'
    exact roster.alone n m found other (lift there live) (lift there' live') same live live'
  · intro k there
    obtain ⟨n, before, was, own, live⟩ := roster.known k there
    exact ⟨n, before, getElem?_append_of was _, own, live⟩

/-- A task becomes active under a key that is free. -/
theorem enter (roster : Roster key active tasks keys) (here : tasks[number]? = some task) (same : key new = key task)
    (live : active new = true) (free : key task ∉ keys) :
    Roster key active (tasks.set number new) (keys ++ [key task]) := by
  have taken : ∀ {n : Nat} {found : α}, tasks[n]? = some found → active found = true → key found ≠ key new := by
    intro n found there on equal
    have entered := roster.entered n found there on
    rw [equal, same] at entered
    exact free entered
  refine ⟨?_, ?_, ?_, ?_⟩
  · intro n found there on
    obtain ⟨rfl, rfl⟩ | ⟨_, there⟩ := of_set there
    · rw [same]
      exact List.mem_append_right _ List.mem_cons_self
    · exact List.mem_append_left _ (roster.entered n found there on)
  · intro n m found other there there' equal on on'
    obtain ⟨rfl, rfl⟩ | ⟨_, was⟩ := of_set there
    · obtain ⟨rfl, _⟩ | ⟨_, was'⟩ := of_set there'
      · rfl
      · exact absurd equal.symm (taken was' on')
    · obtain ⟨rfl, rfl⟩ | ⟨_, was'⟩ := of_set there'
      · exact absurd equal (taken was on)
      · exact roster.alone n m found other was was' equal on on'
  · intro k there
    obtain there | there := List.mem_append.mp there
    · obtain ⟨n, before, was, own, on⟩ := roster.known k there
      by_cases at_ : n = number
      · subst at_
        cases here.symm.trans was
        exact ⟨n, new, getElem?_set_self here, same.trans own, live⟩
      · exact ⟨n, before, by rw [TaskList.getElem?_set here, if_neg at_, was], own, on⟩
    · rw [List.mem_singleton] at there
      exact ⟨number, new, getElem?_set_self here, same.trans there.symm, live⟩
  · refine List.nodup_append.mpr ⟨roster.nodup, List.nodup_singleton _, ?_⟩
    rintro k there other member rfl
    rw [List.mem_singleton] at member
    exact free (member ▸ there)

/-- An active task is started under a key that is free. -/
theorem startActive (roster : Roster key active tasks keys) (live : active new = true) (free : key new ∉ keys) :
    Roster key active (tasks ++ [new]) (keys ++ [key new]) := by
  have taken : ∀ {n : Nat} {found : α}, tasks[n]? = some found → active found = true → key found ≠ key new := by
    intro n found there on equal
    exact free (equal ▸ roster.entered n found there on)
  refine ⟨?_, ?_, ?_, ?_⟩
  · intro n found there on
    obtain there | ⟨rfl, rfl⟩ := of_append there
    · exact List.mem_append_left _ (roster.entered n found there on)
    · exact List.mem_append_right _ List.mem_cons_self
  · intro n m found other there there' equal on on'
    obtain was | ⟨rfl, rfl⟩ := of_append there
    · obtain was' | ⟨rfl, rfl⟩ := of_append there'
      · exact roster.alone n m found other was was' equal on on'
      · exact absurd equal (taken was on)
    · obtain was' | ⟨rfl, _⟩ := of_append there'
      · exact absurd equal.symm (taken was' on')
      · rfl
  · intro k there
    obtain there | there := List.mem_append.mp there
    · obtain ⟨n, before, was, own, on⟩ := roster.known k there
      exact ⟨n, before, getElem?_append_of was _, own, on⟩
    · rw [List.mem_singleton] at there
      exact ⟨tasks.length, new, List.getElem?_concat_length, there.symm, live⟩
  · refine List.nodup_append.mpr ⟨roster.nodup, List.nodup_singleton _, ?_⟩
    rintro k there other member rfl
    rw [List.mem_singleton] at member
    exact free (member ▸ there)

/-- An active task ends. -/
theorem leave [DecidableEq κ] (roster : Roster key active tasks keys) (here : tasks[number]? = some task)
    (live : active task = true) (ended : active new = false) :
    Roster key active (tasks.set number new) (keys.erase (key task)) := by
  have lift : ∀ {n : Nat} {found : α}, (tasks.set number new)[n]? = some found → active found = true →
      n ≠ number ∧ tasks[n]? = some found := by
    intro n found there on
    obtain ⟨rfl, rfl⟩ | kept := of_set there
    · rw [ended] at on
      simp at on
    · exact kept
  refine ⟨?_, ?_, ?_, roster.nodup.erase _⟩
  · intro n found there on
    obtain ⟨apart, there⟩ := lift there on
    rw [roster.nodup.mem_erase_iff]
    refine ⟨fun same => apart ?_, roster.entered n found there on⟩
    exact roster.alone n number found task there here same on live
  · intro n m found other there there' same on on'
    exact roster.alone n m found other (lift there on).2 (lift there' on').2 same on on'
  · intro k there
    rw [roster.nodup.mem_erase_iff] at there
    obtain ⟨n, before, was, own, on⟩ := roster.known k there.2
    refine ⟨n, before, ?_, own, on⟩
    rw [TaskList.getElem?_set here, if_neg]
    · exact was
    · rintro rfl
      cases here.symm.trans was
      exact there.1 own.symm

end Roster

end TaskList
