import BleGatt.Entities.Models
import BleGatt.Lib.FiniteMap
import BleGatt.Lib.Machine
import BleGatt.Lib.CountedMutex

namespace BleGatt
open Std

/-! `DialLocks`: a mutex for each address behind counted references, in a map
that has a mutex of its own. A call drops the entries that nobody uses, clones
its own, and waits for it without the map. -/

/-- How far a call of `lock` came. -/
inductive LockPhase
  | called
  /-- It has the map, and `retain` is still to come to these entries. -/
  | sweeping (rest : List PeerAddress)
  /-- It has its reference, and the map no longer. -/
  | uses (lock : Nat) (stage : MutexStage)
  | over
  deriving DecidableEq

namespace LockPhase

/-- How far it came with this mutex. -/
def stage (lock : Nat) : LockPhase → Option MutexStage
  | .uses used stage => if used = lock then some stage else none
  | _ => none

def sweeps : LockPhase → Bool
  | .sweeping _ => true
  | _ => false

end LockPhase

structure LockCall where
  peer : PeerAddress
  phase : LockPhase := .called
  deriving DecidableEq

/-- A mutex goes by its number, so that a new one for the address is another. -/
structure DialLocks where
  locks : PeerMap Nat := ∅
  mutexes : List CountedMutex := []
  calls : List LockCall := []

inductive DialLockStep
  | call (peer : PeerAddress)
  /-- It takes the map. -/
  | begin (call : Nat)
  /-- `retain` comes to an entry, of those that are left to any. -/
  | visit (call : Nat) (peer : PeerAddress)
  /-- It clones its entry and leaves the map. -/
  | entry (call : Nat)
  /-- `lock_owned` goes on. -/
  | poll (call : Nat)
  /-- The caller is cancelled where it waits. -/
  | cancel (call : Nat)
  /-- The guard is dropped. -/
  | release (call : Nat)
  /-- The reference is. -/
  | drop (call : Nat)
  deriving DecidableEq

/-- What a call does next by itself. -/
def LockPhase.next (number : Nat) : LockPhase → Option DialLockStep
  | .called => some (.begin number)
  | .sweeping [] => some (.entry number)
  | .sweeping (peer :: _) => some (.visit number peer)
  | .uses _ .cloned | .uses _ .granted => some (.poll number)
  | .uses _ .leaving => some (.drop number)
  | .uses _ .waiting | .uses _ .held | .over => none

namespace DialLocks

def setCall (number : Nat) (call : LockCall) (s : DialLocks) : DialLocks :=
  { s with calls := s.calls.set number call }

def setPhase (number : Nat) (phase : LockPhase) (s : DialLocks) : DialLocks :=
  { s with calls := s.calls.modify number fun call => { call with phase := phase } }

def setMutex (lock : Nat) (mutex : CountedMutex) (s : DialLocks) : DialLocks :=
  { s with mutexes := s.mutexes.set lock mutex }

/-- Nobody has the map. -/
def mapFree (s : DialLocks) : Bool := s.calls.all fun call => !call.phase.sweeps

/-- `retain` at one entry: a count of one is that of the map alone. -/
def visit (number : Nat) (call : LockCall) (rest : List PeerAddress) (peer : PeerAddress) (s : DialLocks) :
    Option DialLocks :=
  let visited := s.setCall number { call with phase := .sweeping (rest.erase peer) }
  match s.locks[peer]? with
  | none => some visited
  | some lock => do
    let mutex ← s.mutexes[lock]?
    if 1 < mutex.strong then some visited
    else some { visited.setMutex lock mutex.drop with locks := s.locks.erase peer }

/-- `entry`, `or_default` and `clone`. -/
def entry (number : Nat) (call : LockCall) (s : DialLocks) : Option DialLocks :=
  match s.locks[call.peer]? with
  | some lock => do
    let mutex ← s.mutexes[lock]?
    some ((s.setCall number { call with phase := .uses lock .cloned }).setMutex lock mutex.clone)
  | none =>
    some { s.setCall number { call with phase := .uses s.mutexes.length .cloned } with
      locks := s.locks.insert call.peer s.mutexes.length
      mutexes := s.mutexes ++ [.new 2] }

/-- The permit comes back, and its owner still has its reference. -/
def release (number lock : Nat) (call : LockCall) (s : DialLocks) : Option DialLocks := do
  let mutex ← s.mutexes[lock]?
  let released := (s.setCall number { call with phase := .uses lock .leaving }).setMutex lock mutex.release
  match mutex.waiters with
  | [] => some released
  | next :: _ => some (released.setPhase next (.uses lock .granted))

def poll (number : Nat) (call : LockCall) (s : DialLocks) : Option DialLocks :=
  match call.phase with
  | .uses lock .cloned => do
    let mutex ← s.mutexes[lock]?
    some ((s.setCall number { call with phase := .uses lock mutex.outcome }).setMutex lock (mutex.acquire number))
  | .uses lock .granted => some (s.setCall number { call with phase := .uses lock .held })
  | _ => none

def cancel (number : Nat) (call : LockCall) (s : DialLocks) : Option DialLocks :=
  match call.phase with
  -- it has not come to ask for the permit
  | .uses lock .cloned => some (s.setCall number { call with phase := .uses lock .leaving })
  | .uses lock .waiting => do
    let mutex ← s.mutexes[lock]?
    some ((s.setCall number { call with phase := .uses lock .leaving }).setMutex lock (mutex.quit number))
  | .uses lock .granted => s.release number lock call
  | _ => none

def step (s : DialLocks) : DialLockStep → Option DialLocks
  | .call peer => some { s with calls := s.calls ++ [{ peer := peer }] }
  | .begin number => do
    let call ← s.calls[number]?.filter fun call => decide (call.phase = .called)
    if s.mapFree then some (s.setCall number { call with phase := .sweeping s.locks.keys }) else none
  | .visit number peer => do
    let call ← s.calls[number]?
    match call.phase with
    | .sweeping rest => if peer ∈ rest then s.visit number call rest peer else none
    | _ => none
  | .entry number => do
    let call ← s.calls[number]?.filter fun call => decide (call.phase = .sweeping [])
    s.entry number call
  | .poll number => do
    let call ← s.calls[number]?
    s.poll number call
  | .cancel number => do
    let call ← s.calls[number]?
    s.cancel number call
  | .release number => do
    let call ← s.calls[number]?
    match call.phase with
    | .uses lock .held => s.release number lock call
    | _ => none
  | .drop number => do
    let call ← s.calls[number]?
    match call.phase with
    | .uses lock .leaving => do
      let mutex ← s.mutexes[lock]?
      some ((s.setCall number { call with phase := .over }).setMutex lock mutex.drop)
    | _ => none

/-- The map and the callers, over every order of their steps. -/
def machine : Machine DialLocks DialLockStep where
  Init s := s = {}
  step := step

structure Excludes (s : DialLocks) : Prop where
  /-- An address has one guard at most. -/
  alone : ∀ (m n lock lock' : Nat) (first second : LockCall), s.calls[m]? = some first → s.calls[n]? = some second →
    first.phase = .uses lock .held → second.phase = .uses lock' .held → first.peer = second.peer → m = n
  /-- The entry that a call uses has its mutex, and no step takes it away. -/
  kept : ∀ (n lock : Nat) (call : LockCall) (stage : MutexStage), s.calls[n]? = some call →
    call.phase = .uses lock stage → s.locks[call.peer]? = some lock ∧
      ∀ (label : DialLockStep) (s' : DialLocks), s.step label = some s' → s'.locks[call.peer]? = some lock
  /-- Who waits does so for a call of the same address. -/
  waits : ∀ (n lock : Nat) (call : LockCall), s.calls[n]? = some call → call.phase = .uses lock .waiting →
    ∃ (m : Nat) (other : LockCall), s.calls[m]? = some other ∧ other.peer = call.peer ∧
      (other.phase = .uses lock .granted ∨ other.phase = .uses lock .held)
  /-- Every other call goes on by itself, or waits for the map; and who has the
  map goes on. -/
  goesOn : ∀ (n : Nat) (call : LockCall) (label : DialLockStep), s.calls[n]? = some call →
    call.phase.next n = some label → (∃ s', s.step label = some s') ∨
      call.phase = .called ∧ ∃ (m : Nat) (other : LockCall), s.calls[m]? = some other ∧ other.phase.sweeps = true

/-! What each step does. -/

inductive Stepped (s : DialLocks) : DialLockStep → DialLocks → Prop
  | called (peer : PeerAddress) : Stepped s (.call peer) { s with calls := s.calls ++ [{ peer := peer }] }
  | begun {n : Nat} {call : LockCall} (here : s.calls[n]? = some call) (phase : call.phase = .called) :
      Stepped s (.begin n) (s.setCall n { call with phase := .sweeping s.locks.keys })
  | visited {n : Nat} {call : LockCall} {rest : List PeerAddress} {peer : PeerAddress}
      (here : s.calls[n]? = some call) (phase : call.phase = .sweeping rest) :
      Stepped s (.visit n peer) (s.setCall n { call with phase := .sweeping (rest.erase peer) })
  | swept {n lock : Nat} {call : LockCall} {rest : List PeerAddress} {peer : PeerAddress} {mutex : CountedMutex}
      (here : s.calls[n]? = some call) (phase : call.phase = .sweeping rest) (listed : s.locks[peer]? = some lock)
      (there : s.mutexes[lock]? = some mutex) (last : mutex.strong ≤ 1) :
      Stepped s (.visit n peer)
        { (s.setCall n { call with phase := .sweeping (rest.erase peer) }).setMutex lock mutex.drop with
          locks := s.locks.erase peer }
  | found {n lock : Nat} {call : LockCall} {mutex : CountedMutex} (here : s.calls[n]? = some call)
      (phase : call.phase = .sweeping []) (listed : s.locks[call.peer]? = some lock)
      (there : s.mutexes[lock]? = some mutex) :
      Stepped s (.entry n) ((s.setCall n { call with phase := .uses lock .cloned }).setMutex lock mutex.clone)
  | created {n : Nat} {call : LockCall} (here : s.calls[n]? = some call) (phase : call.phase = .sweeping [])
      (free : s.locks[call.peer]? = none) :
      Stepped s (.entry n) { s.setCall n { call with phase := .uses s.mutexes.length .cloned } with
        locks := s.locks.insert call.peer s.mutexes.length
        mutexes := s.mutexes ++ [.new 2] }
  | acquired {n lock : Nat} {call : LockCall} {mutex : CountedMutex} (here : s.calls[n]? = some call)
      (phase : call.phase = .uses lock .cloned) (there : s.mutexes[lock]? = some mutex) :
      Stepped s (.poll n)
        ((s.setCall n { call with phase := .uses lock mutex.outcome }).setMutex lock (mutex.acquire n))
  | resumed {n lock : Nat} {call : LockCall} (here : s.calls[n]? = some call)
      (phase : call.phase = .uses lock .granted) :
      Stepped s (.poll n) (s.setCall n { call with phase := .uses lock .held })
  | turnedBack {n lock : Nat} {call : LockCall} (here : s.calls[n]? = some call)
      (phase : call.phase = .uses lock .cloned) :
      Stepped s (.cancel n) (s.setCall n { call with phase := .uses lock .leaving })
  | gaveUp {n lock : Nat} {call : LockCall} {mutex : CountedMutex} (here : s.calls[n]? = some call)
      (phase : call.phase = .uses lock .waiting) (there : s.mutexes[lock]? = some mutex) :
      Stepped s (.cancel n) ((s.setCall n { call with phase := .uses lock .leaving }).setMutex lock (mutex.quit n))
  /-- Nobody waits for the permit. -/
  | freed {label : DialLockStep} {n lock : Nat} {call : LockCall} {stage : MutexStage} {mutex : CountedMutex}
      (here : s.calls[n]? = some call) (phase : call.phase = .uses lock stage) (owner : stage.owns = true)
      (there : s.mutexes[lock]? = some mutex) (nobody : mutex.waiters = []) :
      Stepped s label ((s.setCall n { call with phase := .uses lock .leaving }).setMutex lock mutex.release)
  | handed {label : DialLockStep} {n lock next : Nat} {rest : List Nat} {call : LockCall} {stage : MutexStage}
      {mutex : CountedMutex} (here : s.calls[n]? = some call) (phase : call.phase = .uses lock stage)
      (owner : stage.owns = true) (there : s.mutexes[lock]? = some mutex) (head : mutex.waiters = next :: rest) :
      Stepped s label (((s.setCall n { call with phase := .uses lock .leaving }).setMutex lock mutex.release).setPhase
        next (.uses lock .granted))
  | dropped {n lock : Nat} {call : LockCall} {mutex : CountedMutex} (here : s.calls[n]? = some call)
      (phase : call.phase = .uses lock .leaving) (there : s.mutexes[lock]? = some mutex) :
      Stepped s (.drop n) ((s.setCall n { call with phase := .over }).setMutex lock mutex.drop)

section Steps

variable {s s' : DialLocks} {n lock : Nat} {call : LockCall}

theorem release_cases {label : DialLockStep} {stage : MutexStage} (here : s.calls[n]? = some call)
    (phase : call.phase = .uses lock stage) (owner : stage.owns = true)
    (released : s.release n lock call = some s') : Stepped s label s' := by
  unfold release at released
  obtain ⟨mutex, there, released⟩ := Option.bind_eq_some_iff.mp released
  dsimp only at released
  split at released
  · rename_i nobody
    cases Option.some.inj released
    exact .freed here phase owner there nobody
  · rename_i next rest head
    cases Option.some.inj released
    exact .handed here phase owner there head

theorem visit_cases {rest : List PeerAddress} {peer : PeerAddress} (here : s.calls[n]? = some call)
    (phase : call.phase = .sweeping rest) (visited : s.visit n call rest peer = some s') :
    Stepped s (.visit n peer) s' := by
  unfold visit at visited
  dsimp only at visited
  split at visited
  · cases Option.some.inj visited
    exact .visited here phase
  · rename_i lock listed
    obtain ⟨mutex, there, visited⟩ := Option.bind_eq_some_iff.mp visited
    split at visited
    · cases Option.some.inj visited
      exact .visited here phase
    · rename_i last
      cases Option.some.inj visited
      exact .swept here phase listed there (Nat.le_of_not_lt last)

theorem entry_cases (here : s.calls[n]? = some call) (phase : call.phase = .sweeping [])
    (entered : s.entry n call = some s') : Stepped s (.entry n) s' := by
  unfold entry at entered
  split at entered
  · rename_i lock listed
    obtain ⟨mutex, there, entered⟩ := Option.bind_eq_some_iff.mp entered
    cases Option.some.inj entered
    exact .found here phase listed there
  · rename_i free
    cases Option.some.inj entered
    exact .created here phase free

theorem poll_cases (here : s.calls[n]? = some call) (polled : s.poll n call = some s') :
    Stepped s (.poll n) s' := by
  unfold poll at polled
  split at polled
  · rename_i lock phase
    obtain ⟨mutex, there, polled⟩ := Option.bind_eq_some_iff.mp polled
    cases Option.some.inj polled
    exact .acquired here phase there
  · rename_i lock phase
    cases Option.some.inj polled
    exact .resumed here phase
  · simp at polled

theorem cancel_cases (here : s.calls[n]? = some call) (cancelled : s.cancel n call = some s') :
    Stepped s (.cancel n) s' := by
  unfold cancel at cancelled
  split at cancelled
  · rename_i lock phase
    cases Option.some.inj cancelled
    exact .turnedBack here phase
  · rename_i lock phase
    obtain ⟨mutex, there, cancelled⟩ := Option.bind_eq_some_iff.mp cancelled
    cases Option.some.inj cancelled
    exact .gaveUp here phase there
  · rename_i lock phase
    exact release_cases here phase rfl cancelled
  · simp at cancelled

theorem step_cases {label : DialLockStep} (step : s.step label = some s') : Stepped s label s' := by
  unfold DialLocks.step at step
  cases label with
  | call peer =>
    cases Option.some.inj step
    exact .called peer
  | begin number =>
    obtain ⟨call, here, step⟩ := Option.bind_eq_some_iff.mp step
    obtain ⟨here, phase⟩ := Option.filter_eq_some_iff.mp here
    simp only [Option.ite_none_right_eq_some, Option.some.injEq] at step
    obtain ⟨_, rfl⟩ := step
    exact .begun here (of_decide_eq_true phase)
  | visit number peer =>
    obtain ⟨call, here, step⟩ := Option.bind_eq_some_iff.mp step
    split at step
    · rename_i rest phase
      simp only [Option.ite_none_right_eq_some] at step
      exact visit_cases here phase step.2
    · simp at step
  | entry number =>
    obtain ⟨call, here, step⟩ := Option.bind_eq_some_iff.mp step
    obtain ⟨here, phase⟩ := Option.filter_eq_some_iff.mp here
    exact entry_cases here (of_decide_eq_true phase) step
  | poll number =>
    obtain ⟨call, here, step⟩ := Option.bind_eq_some_iff.mp step
    exact poll_cases here step
  | cancel number =>
    obtain ⟨call, here, step⟩ := Option.bind_eq_some_iff.mp step
    exact cancel_cases here step
  | release number =>
    obtain ⟨call, here, step⟩ := Option.bind_eq_some_iff.mp step
    split at step
    · rename_i lock phase
      exact release_cases here phase rfl step
    · simp at step
  | drop number =>
    obtain ⟨call, here, step⟩ := Option.bind_eq_some_iff.mp step
    split at step
    · rename_i lock phase
      obtain ⟨mutex, there, step⟩ := Option.bind_eq_some_iff.mp step
      cases Option.some.inj step
      exact .dropped here phase there
    · simp at step

end Steps

end DialLocks

end BleGatt
