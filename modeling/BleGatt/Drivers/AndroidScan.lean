import BleGatt.Entities.Models
import BleGatt.Lib.FiniteMap
import BleGatt.Lib.Machine
import BleGatt.Lib.Preceded

namespace BleGatt
open Std

/-! The scans of `AndroidDriver`: one slot for the error of whichever scan
failed last, and any number of streams that are still held. A scan goes by its
generation. -/

/-- `DISCOVERY_QUEUE_DEPTH`. -/
def discoveryQueueDepth : Nat := 64

/-- A recorded `onScanFailed`. The generation is for the record: the slot
keeps the error alone. -/
structure ScanFailure where
  generation : Nat
  error : BleError
  deriving DecidableEq

def scanFailedError (errorCode : Int) : BleError :=
  .gatt ("Android scan failed (ScanCallback error code " ++ toString errorCode ++ ")")

/-- What `poll_next` returned, when it was ready. -/
inductive ScanItem (α : Type)
  | result (peer : α)
  | error (failure : ScanFailure)
  | ended
  deriving DecidableEq

def ScanItem.result? {α : Type} : ScanItem α → Option α
  | .result peer => some peer
  | _ => none

def ScanItem.isError {α : Type} : ScanItem α → Bool
  | .error _ => true
  | _ => false

def ScanItem.isEnd {α : Type} : ScanItem α → Bool
  | .ended => true
  | _ => false

/-- A `ScanStream` that is held. What is discovered is passed on as it is. -/
structure ScanStream (α : Type) where
  queue : List α := []
  /-- Everything its queue has taken, oldest first. -/
  accepted : List α := []
  yielded : List (ScanItem α) := []
  /-- An `onScanFailed` of its generation came before it ended. -/
  failed : Bool := false
  deriving DecidableEq

namespace ScanStream

variable {α : Type}

def take (peer : α) (stream : ScanStream α) : ScanStream α :=
  if stream.queue.length < discoveryQueueDepth then
    { stream with queue := stream.queue ++ [peer], accepted := stream.accepted ++ [peer] }
  else stream

def fail (stream : ScanStream α) : ScanStream α :=
  { stream with failed := stream.failed || !stream.yielded.any ScanItem.isEnd }

def yield (item : ScanItem α) (stream : ScanStream α) : ScanStream α :=
  { stream with yielded := stream.yielded ++ [item] }

end ScanStream

structure AndroidScan (α : Type) where
  /-- The scan whose sender `ScanState` has. -/
  tx : Option Nat := none
  error : Option ScanFailure := none
  generation : Nat := 0
  /-- Kotlin's `scanCallback`, by the generation it reports. -/
  scanCallback : Option Nat := none
  streams : ExtTreeMap Nat (ScanStream α) := ∅

/-- What comes of `startScan` where no scan is active. -/
inductive ScannerStart
  /-- No JNI environment, no scanner, or an exception before the callback is
  stored. -/
  | unavailable
  /-- The platform's own `startScan` throws. -/
  | threw
  | started
  deriving DecidableEq

inductive AndroidScanStep (α : Type)
  | scan (start : ScannerStart)
  | onPeerDiscovered (generation : Nat) (peer : α)
  | onScanFailed (generation : Nat) (errorCode : Int)
  /-- The adapter goes down, and Kotlin's `stopScan` runs. -/
  | radioOff
  | poll (generation : Nat)
  /-- A stream is dropped; `stops` where its `stopScan` reaches Kotlin. -/
  | dropStream (generation : Nat) (stops : Bool)

namespace AndroidScan

variable {α : Type}

/-- Kotlin stores the callback before it asks the platform, and keeps it
through an exception. -/
def scan (start : ScannerStart) (s : AndroidScan α) : AndroidScan α :=
  let generation := s.generation + 1
  if s.scanCallback.isSome then s
  else
    match start with
    | .unavailable => s
    | .threw => { s with scanCallback := some generation }
    | .started =>
      { tx := some generation
        error := none
        generation := generation
        scanCallback := some generation
        streams := s.streams.insert generation {} }

def onPeerDiscovered (generation : Nat) (peer : α) (s : AndroidScan α) : AndroidScan α :=
  if s.generation ≠ generation then s
  else
    match s.tx with
    | some channel => { s with streams := s.streams.modify channel (ScanStream.take peer) }
    | none => s

def onScanFailed (generation : Nat) (errorCode : Int) (s : AndroidScan α) : AndroidScan α :=
  let s := { s with streams := s.streams.modify generation ScanStream.fail }
  if s.generation ≠ generation then s
  else { s with error := some ⟨generation, scanFailedError errorCode⟩, tx := none }

/-- `poll_next`. A queue without a sender is at its end once it is empty. -/
def poll (generation : Nat) (stream : ScanStream α) (s : AndroidScan α) : AndroidScan α :=
  match stream.queue with
  | peer :: queue =>
    { s with streams := s.streams.insert generation ({ stream with queue := queue }.yield (.result peer)) }
  | [] =>
    if s.tx = some generation then s
    else
      match s.error with
      | some failure =>
        { s with error := none, streams := s.streams.insert generation (stream.yield (.error failure)) }
      | none => { s with streams := s.streams.insert generation (stream.yield .ended) }

def dropStream (generation : Nat) (stops : Bool) (s : AndroidScan α) : AndroidScan α :=
  let s := { s with streams := s.streams.erase generation }
  if s.generation ≠ generation then s
  else { s with tx := none, scanCallback := if stops then none else s.scanCallback }

def step (s : AndroidScan α) : AndroidScanStep α → Option (AndroidScan α)
  | .scan start => some (s.scan start)
  | .onPeerDiscovered generation peer => some (s.onPeerDiscovered generation peer)
  | .onScanFailed generation errorCode => some (s.onScanFailed generation errorCode)
  | .radioOff => some { s with scanCallback := none }
  | .poll generation => s.streams[generation]?.map fun stream => s.poll generation stream
  | .dropStream generation stops => if s.streams.contains generation then some (s.dropStream generation stops) else none

/-- The scans, the callbacks and the streams in any order. -/
def machine (α : Type) : Machine (AndroidScan α) (AndroidScanStep α) where
  Init s := s = {}
  step := step

/-- An error is left to the stream it is for. None waits for a held stream
when a scan starts, or for another one when a stream comes to its end. A scan
does not fail after its stream yielded its error, and one that was superseded
not before its stream has ended. -/
def ErrorKept (s : AndroidScan α) : AndroidScanStep α → Bool
  | .scan .started => s.scanCallback.isSome || s.error.isNone || s.streams[s.generation]?.isNone
  | .onScanFailed generation _ => s.streams[generation]?.all fun stream =>
    if generation = s.generation then !stream.yielded.any ScanItem.isError else stream.yielded.any ScanItem.isEnd
  | .poll generation => s.streams[generation]?.all fun stream =>
    !stream.queue.isEmpty || decide (s.tx = some generation) || s.error.isNone || decide (generation = s.generation)
  | _ => true

end AndroidScan

namespace ScanStream

variable {α : Type} {generation : Nat} {stream : ScanStream α}

def Failed (stream : ScanStream α) : Prop := ∃ item ∈ stream.yielded, item.isError = true

/-- A stream yields at most one error, its own, after everything its queue was
given, and does not end without it. -/
structure Attributed (generation : Nat) (stream : ScanStream α) : Prop where
  own : ∀ failure, .error failure ∈ stream.yielded → failure.generation = generation
  last : ∀ before item, before ++ [item] <+: stream.yielded → item.isError = true →
    before.filterMap ScanItem.result? = stream.accepted
  once : stream.yielded.countP ScanItem.isError ≤ 1
  told : stream.failed = true → Preceded (fun item => item.isError = true) (fun item => item.isEnd = true) stream.yielded

namespace Attributed

theorem take (attributed : Attributed generation stream) (unfailed : ¬stream.Failed) (peer : α) :
    Attributed generation (stream.take peer) := by
  unfold ScanStream.take
  split
  · refine ⟨attributed.own, fun before item place error => ?_, attributed.once, attributed.told⟩
    exact absurd ⟨item, place.subset (List.mem_append_right _ List.mem_cons_self), error⟩ unfailed
  · exact attributed

theorem fail (attributed : Attributed generation stream) : Attributed generation stream.fail := by
  refine ⟨attributed.own, attributed.last, attributed.once, fun failed => ?_⟩
  cases already : stream.failed with
  | true => exact attributed.told already
  | false =>
    -- it failed just now, and so has not ended
    simp only [ScanStream.fail, already, Bool.false_or, Bool.not_eq_true', List.any_eq_false] at failed
    exact .of_none failed

/-- Something that is no error is yielded. -/
theorem yield (attributed : Attributed generation stream) {item : ScanItem α} (harmless : item.isError = false)
    (told : stream.failed = true → item.isEnd = true → stream.Failed) : Attributed generation (stream.yield item) := by
  refine ⟨fun failure there => ?_, fun before other place error => ?_, ?_, fun failed => ?_⟩
  · rcases List.mem_append.mp there with before | now
    · exact attributed.own failure before
    · rw [← List.mem_singleton.mp now] at harmless
      simp [ScanItem.isError] at harmless
  · obtain whole | place := List.prefix_concat_iff.mp place
    · obtain ⟨_, ⟨⟩⟩ := List.append_inj' whole rfl
      simp [harmless] at error
    · exact attributed.last before other place error
  · have counted : (stream.yielded ++ [item]).countP ScanItem.isError = stream.yielded.countP ScanItem.isError := by
      simp [harmless]
    exact counted.trans_le attributed.once
  · exact (attributed.told failed).concat (told failed)

/-- Its error is yielded, with nothing left in its queue. -/
theorem yieldError (attributed : Attributed generation stream) {failure : ScanFailure}
    (own : failure.generation = generation) (unfailed : ¬stream.Failed)
    (results : stream.yielded.filterMap ScanItem.result? = stream.accepted) :
    Attributed generation (stream.yield (.error failure)) := by
  refine ⟨fun other there => ?_, fun before item place error => ?_, ?_, fun failed => ?_⟩
  · rcases List.mem_append.mp there with before | now
    · exact attributed.own other before
    · cases List.mem_singleton.mp now
      exact own
  · obtain whole | place := List.prefix_concat_iff.mp place
    · obtain ⟨rfl, _⟩ := List.append_inj' whole rfl
      exact results
    · exact attributed.last before item place error
  · have none_ : stream.yielded.countP ScanItem.isError = 0 := by
      rw [List.countP_eq_zero]
      exact fun item there error => unfailed ⟨item, there, error⟩
    have counted : (stream.yielded ++ [ScanItem.error failure]).countP ScanItem.isError = 1 := by
      rw [List.countP_append, none_]
      rfl
    exact counted.le
  · exact (attributed.told failed).concat fun ends => by simp [ScanItem.isEnd] at ends

end Attributed

end ScanStream

namespace AndroidScan

variable {α : Type} {current generation : Nat} {tx : Option Nat} {slot : Option ScanFailure} {stream : ScanStream α}

/-- What is known of a held stream next to `ScanState`. An error of its own
that it has not yielded is in the slot. -/
structure Tracked (current : Nat) (tx : Option Nat) (slot : Option ScanFailure) (generation : Nat) (stream : ScanStream α) :
    Prop where
  attributed : stream.Attributed generation
  known : generation ≤ current
  results : stream.yielded.filterMap ScanItem.result? ++ stream.queue = stream.accepted
  drained : ∀ item ∈ stream.yielded, item.result? = none → stream.queue = [] ∧ tx ≠ some generation
  pending : stream.failed = true → stream.Failed ∨ generation = current ∧ slot.isSome = true
  taken : stream.Failed → generation = current → slot = none

namespace Tracked

theorem unfailed (tracked : Tracked current tx slot generation stream) (open_ : tx = some generation) : ¬stream.Failed := by
  rintro ⟨item, there, error⟩
  have none_ : item.result? = none := by
    cases item <;> simp_all [ScanItem.isError, ScanItem.result?]
  exact (tracked.drained item there none_).2 open_

/-- `ScanState` changes, and the stream does not. -/
theorem frame {current' : Nat} {tx' : Option Nat} {slot' : Option ScanFailure}
    (tracked : Tracked current tx slot generation stream) (known : current ≤ current')
    (closed : tx' = some generation → tx = some generation)
    (pending : generation = current → slot.isSome = true → stream.Failed ∨ generation = current' ∧ slot'.isSome = true)
    (taken : stream.Failed → generation = current' → slot' = none) : Tracked current' tx' slot' generation stream := by
  refine ⟨tracked.attributed, tracked.known.trans known, tracked.results, fun item there none_ => ?_, fun failed => ?_, taken⟩
  · obtain ⟨empty, was⟩ := tracked.drained item there none_
    exact ⟨empty, fun open_ => was (closed open_)⟩
  · obtain yielded | ⟨newest, waits⟩ := tracked.pending failed
    · exact .inl yielded
    · exact pending newest waits

/-- Its queue is given something. -/
theorem take (tracked : Tracked current tx slot generation stream) (open_ : tx = some generation) (peer : α) :
    Tracked current tx slot generation (stream.take peer) := by
  have attributed := tracked.attributed.take (tracked.unfailed open_) peer
  unfold ScanStream.take at attributed ⊢
  split
  · rename_i room
    rw [if_pos room] at attributed
    refine ⟨attributed, tracked.known, ?_, fun item there none_ => ?_, tracked.pending, tracked.taken⟩
    · rw [← List.append_assoc, tracked.results]
    · exact absurd open_ (tracked.drained item there none_).2
  · exact tracked

/-- The scan fails while it is the newest one. -/
theorem fail {failure : ScanFailure} (tracked : Tracked current tx slot current stream) (unfailed : ¬stream.Failed) :
    Tracked current none (some failure) current stream.fail :=
  ⟨tracked.attributed.fail, tracked.known, tracked.results,
    fun item there none_ => ⟨(tracked.drained item there none_).1, by simp⟩, fun _ => .inr ⟨rfl, rfl⟩,
    fun failed => absurd failed unfailed⟩

/-- It comes to its result. -/
theorem yieldResult {peer : α} {queue : List α} (tracked : Tracked current tx slot generation stream)
    (first : stream.queue = peer :: queue) :
    Tracked current tx slot generation (({ stream with queue := queue } : ScanStream α).yield (.result peer)) := by
  have open_ : ∀ item ∈ stream.yielded, item.result? ≠ none := by
    intro item there none_
    simpa [first] using (tracked.drained item there none_).1
  have before : ({ stream with queue := queue } : ScanStream α).Attributed generation :=
    ⟨tracked.attributed.own, tracked.attributed.last, tracked.attributed.once, tracked.attributed.told⟩
  have still : stream.Failed → (({ stream with queue := queue } : ScanStream α).yield (.result peer)).Failed := by
    rintro ⟨item, there, error⟩
    exact ⟨item, List.mem_append_left _ there, error⟩
  refine ⟨before.yield rfl (by simp [ScanItem.isEnd]), tracked.known, ?_, fun item there none_ => ?_, fun failed => ?_,
    fun failed newest => ?_⟩
  · have results := tracked.results
    rw [first] at results
    simpa [ScanStream.yield, List.filterMap_cons, ScanItem.result?] using results
  · rcases List.mem_append.mp there with there | now
    · exact absurd none_ (open_ item there)
    · rw [List.mem_singleton.mp now] at none_
      simp [ScanItem.result?] at none_
  · exact (tracked.pending failed).imp_left still
  · obtain ⟨item, there, error⟩ := failed
    rcases List.mem_append.mp there with there | now
    · exact tracked.taken ⟨item, there, error⟩ newest
    · rw [List.mem_singleton.mp now] at error
      simp [ScanItem.isError] at error

theorem results_drained (tracked : Tracked current tx slot generation stream) (empty : stream.queue = []) :
    stream.yielded.filterMap ScanItem.result? = stream.accepted := by
  have results := tracked.results
  rwa [empty, List.append_nil] at results

/-- It is at its end, and takes its error. -/
theorem yieldError {failure : ScanFailure} (tracked : Tracked current tx (some failure) current stream)
    (empty : stream.queue = []) (closed : tx ≠ some current) (own : failure.generation = current) :
    Tracked current tx none current (stream.yield (.error failure)) := by
  have unfailed : ¬stream.Failed := fun failed => by simpa using tracked.taken failed rfl
  have results := tracked.results_drained empty
  have failed : (stream.yield (.error failure)).Failed := ⟨_, List.mem_append_right _ List.mem_cons_self, rfl⟩
  refine ⟨tracked.attributed.yieldError own unfailed results, tracked.known, ?_, fun _ _ _ => ⟨empty, closed⟩,
    fun _ => .inl failed, fun _ _ => rfl⟩
  simpa [ScanStream.yield, List.filterMap_cons, ScanItem.result?, empty] using results

/-- It is at its end, and there is no error. -/
theorem yieldEnd (tracked : Tracked current tx none generation stream) (empty : stream.queue = [])
    (closed : tx ≠ some generation) : Tracked current tx none generation (stream.yield .ended) := by
  have told : stream.failed = true → stream.Failed := by
    intro failed
    obtain yielded | ⟨_, waits⟩ := tracked.pending failed
    · exact yielded
    · simp at waits
  refine ⟨tracked.attributed.yield rfl fun failed _ => told failed, tracked.known, ?_, fun _ _ _ => ⟨empty, closed⟩,
    fun failed => ?_, fun _ _ => rfl⟩
  · have results := tracked.results_drained empty
    simpa [ScanStream.yield, List.filterMap_cons, ScanItem.result?, empty] using results
  · obtain ⟨item, there, error⟩ := told failed
    exact .inl ⟨item, List.mem_append_left _ there, error⟩

end Tracked

/-- Every stream that is held has the errors of its own scan. -/
def ErrorsAttributed (s : AndroidScan α) : Prop :=
  ∀ (generation : Nat) (stream : ScanStream α), s.streams[generation]? = some stream → stream.Attributed generation

variable {s s' : AndroidScan α}

structure Attributing (s : AndroidScan α) : Prop where
  tracked : ∀ generation stream, s.streams[generation]? = some stream →
    Tracked s.generation s.tx s.error generation stream
  slot : ∀ failure, s.error = some failure → failure.generation = s.generation ∧ s.tx = none
  open_ : ∀ generation, s.tx = some generation → generation = s.generation

namespace Attributing

theorem scan (attributing : s.Attributing) {start : ScannerStart} (kept : ErrorKept s (.scan start) = true) :
    (s.scan start).Attributing := by
  unfold AndroidScan.scan
  dsimp only
  split
  · exact attributing
  · rename_i free
    cases start with
    | unavailable => exact attributing
    | threw => exact ⟨attributing.tracked, attributing.slot, attributing.open_⟩
    | started =>
      simp only [ErrorKept, Bool.or_eq_true, Bool.not_eq_true] at kept free
      refine ⟨fun generation stream there => ?_, by simp, fun generation newest => (Option.some.inj newest).symm⟩
      rw [FiniteMap.getElem?_insert] at there
      split at there
      · rename_i newest
        cases Option.some.inj there
        subst newest
        refine ⟨⟨by simp, by simp, by simp, by simp⟩, Nat.le_refl _, rfl, by simp, by simp, fun _ _ => rfl⟩
      · have tracked := attributing.tracked generation stream there
        have older : generation < s.generation + 1 := Nat.lt_succ_of_le tracked.known
        refine tracked.frame (Nat.le_succ _) (fun newest => ?_) (fun newest waits => ?_) fun _ newest => ?_
        · exact absurd (Option.some.inj newest) (Nat.ne_of_gt older)
        · -- the error of a scan whose stream is held would be overwritten
          subst newest
          simp [free, there, Option.isSome_iff_ne_none.mp waits] at kept
        · exact absurd newest (Nat.ne_of_lt older)

theorem onPeerDiscovered (attributing : s.Attributing) (generation : Nat) (peer : α) :
    (s.onPeerDiscovered generation peer).Attributing := by
  unfold AndroidScan.onPeerDiscovered
  split
  · exact attributing
  · split
    · rename_i channel open_
      refine ⟨fun generation stream there => ?_, attributing.slot, attributing.open_⟩
      rw [FiniteMap.getElem?_modify] at there
      split at there
      · rename_i same
        obtain ⟨before, was, rfl⟩ := Option.map_eq_some_iff.mp there
        subst same
        exact (attributing.tracked _ before was).take open_ peer
      · exact attributing.tracked generation stream there
    · exact attributing

theorem onScanFailed (attributing : s.Attributing) {generation : Nat} {errorCode : Int}
    (kept : ErrorKept s (.onScanFailed generation errorCode) = true) : (s.onScanFailed generation errorCode).Attributing := by
  unfold AndroidScan.onScanFailed
  dsimp only
  by_cases newest : s.generation = generation
  · subst newest
    rw [if_neg (not_not_intro rfl)]
    refine ⟨fun generation stream there => ?_, fun failure same => ?_, by simp⟩
    · rw [FiniteMap.getElem?_modify] at there
      split at there
      · rename_i same
        obtain ⟨before, was, rfl⟩ := Option.map_eq_some_iff.mp there
        subst same
        refine (attributing.tracked _ before was).fail ?_
        rintro ⟨item, there, error⟩
        simp only [ErrorKept, was, Option.all_some, if_pos, Bool.not_eq_true', List.any_eq_false] at kept
        exact kept item there error
      · rename_i other
        exact (attributing.tracked generation stream there).frame (Nat.le_refl _) (by simp)
          (fun same => absurd same other) fun _ same => absurd same other
    · cases Option.some.inj same
      exact ⟨rfl, rfl⟩
  · rw [if_pos newest]
    refine ⟨fun n stream there => ?_, attributing.slot, attributing.open_⟩
    rw [FiniteMap.getElem?_modify] at there
    split at there
    · rename_i same
      obtain ⟨before, was, rfl⟩ := Option.map_eq_some_iff.mp there
      subst same
      have ended : before.fail = before := by
        simp only [ErrorKept, was, Option.all_some, if_neg (Ne.symm newest)] at kept
        simp [ScanStream.fail, kept]
      rw [ended]
      exact attributing.tracked _ before was
    · exact attributing.tracked n stream there

theorem poll (attributing : s.Attributing) {generation : Nat} {stream : ScanStream α}
    (here : s.streams[generation]? = some stream) (kept : ErrorKept s (.poll generation) = true) :
    (s.poll generation stream).Attributing := by
  have tracked := attributing.tracked generation stream here
  unfold AndroidScan.poll
  split
  · rename_i peer queue first
    refine ⟨fun n other there => ?_, attributing.slot, attributing.open_⟩
    rw [FiniteMap.getElem?_insert] at there
    split at there
    · rename_i same
      cases Option.some.inj there
      rw [same]
      exact tracked.yieldResult first
    · exact attributing.tracked n other there
  · rename_i empty
    split
    · exact attributing
    · rename_i closed
      split
      · rename_i failure waits
        have newest : generation = s.generation := by
          simpa [ErrorKept, here, empty, closed, waits] using kept
        subst newest
        refine ⟨fun n other there => ?_, by simp, attributing.open_⟩
        rw [FiniteMap.getElem?_insert] at there
        split at there
        · rename_i same
          cases Option.some.inj there
          rw [same]
          rw [waits] at tracked
          exact tracked.yieldError empty closed (attributing.slot failure waits).1
        · rename_i other_
          exact (attributing.tracked n other there).frame (Nat.le_refl _) id (fun same => absurd same other_) fun _ _ => rfl
      · rename_i none_
        refine ⟨fun n other there => ?_, attributing.slot, attributing.open_⟩
        rw [FiniteMap.getElem?_insert] at there
        split at there
        · rename_i same
          cases Option.some.inj there
          rw [same]
          rw [none_] at tracked
          have ended := tracked.yieldEnd empty closed
          exact ended.frame (Nat.le_refl _) id (fun _ waits => by simp at waits) fun _ _ => none_
        · exact attributing.tracked n other there

theorem dropStream (attributing : s.Attributing) (generation : Nat) (stops : Bool) :
    (s.dropStream generation stops).Attributing := by
  have left : ∀ n stream, (s.streams.erase generation)[n]? = some stream →
      Tracked s.generation s.tx s.error n stream := by
    intro n stream there
    rw [FiniteMap.getElem?_erase] at there
    split at there
    · simp at there
    · exact attributing.tracked n stream there
  unfold AndroidScan.dropStream
  dsimp only
  split
  · exact ⟨left, attributing.slot, attributing.open_⟩
  · refine ⟨fun n stream there => ?_, fun failure same => ⟨(attributing.slot failure same).1, rfl⟩, by simp⟩
    have tracked := left n stream there
    exact tracked.frame (Nat.le_refl _) (by simp) (fun newest waits => .inr ⟨newest, waits⟩) tracked.taken

end Attributing

theorem step_attributing {label : AndroidScanStep α} (attributing : s.Attributing) (kept : ErrorKept s label = true)
    (stepped : step s label = some s') : s'.Attributing := by
  cases label with
  | scan start =>
    cases Option.some.inj stepped
    exact attributing.scan kept
  | onPeerDiscovered generation peer =>
    cases Option.some.inj stepped
    exact attributing.onPeerDiscovered generation peer
  | onScanFailed generation errorCode =>
    cases Option.some.inj stepped
    exact attributing.onScanFailed kept
  | radioOff =>
    cases Option.some.inj stepped
    exact ⟨attributing.tracked, attributing.slot, attributing.open_⟩
  | poll generation =>
    obtain ⟨stream, here, rfl⟩ := Option.map_eq_some_iff.mp stepped
    exact attributing.poll here kept
  | dropStream generation stops =>
    obtain ⟨_, ⟨⟩⟩ := Option.ite_none_right_eq_some.mp stepped
    exact attributing.dropStream generation stops

/-- As long as every error is left to the stream it is for, a stream yields
its own and no other, and does not end without it. -/
theorem run_errorsAttributed (run : (machine α).Run (fun (_ : Unit) s label => ErrorKept s label = true) (fun _ _ _ _ => ()) () () s) :
    s.ErrorsAttributed := by
  have attributing : s.Attributing := by
    refine run.invariant (P := fun _ s => s.Attributing) ?_ ?_
    · rintro _ rfl
      exact ⟨by simp, by simp, by simp⟩
    · intro _ _ _ _ _ attributing kept stepped
      exact step_attributing attributing kept stepped
  intro generation stream there
  exact (attributing.tracked generation stream there).attributed

/-- A scan is replaced while the radio is off, and its stream ends; the next
one finds a peer and fails. -/
def failsAfterResult : List (AndroidScanStep Nat) :=
  [.scan .started, .radioOff, .scan .started, .poll 1, .onPeerDiscovered 2 7, .onScanFailed 2 2, .poll 2, .poll 2, .poll 2]

theorem run_errorsAttributed_failsAfterResult : ∃ (s : AndroidScan Nat) (stream : ScanStream Nat), s.streams[2]? = some stream ∧
    stream.yielded = [.result 7, .error ⟨2, scanFailedError 2⟩, .ended] ∧ stream.failed = true ∧ stream.Attributed 2 := by
  obtain ⟨_, s, run, good⟩ := Machine.Run.exists_of_follow (machine Nat)
    (fun (_ : Unit) s label => ErrorKept s label = true) (fun _ _ _ _ => ()) ()
    (fun _ s => s.streams[2]?.any fun stream : ScanStream Nat =>
      decide (stream.yielded = [.result 7, .error ⟨2, scanFailedError 2⟩, .ended]) && stream.failed)
    (s := {}) rfl failsAfterResult (by decide +kernel)
  obtain ⟨stream, there, yielded⟩ := (Option.any_eq_true _ _).mp good
  simp only [Bool.and_eq_true, decide_eq_true_eq] at yielded
  exact ⟨s, stream, there, yielded.1, yielded.2, run_errorsAttributed run 2 stream there⟩

/-- The stream of the first scan is polled after the second one failed. -/
def polledLate : List (AndroidScanStep Nat) :=
  [.scan .started, .radioOff, .scan .started, .onScanFailed 2 2, .poll 1]

theorem not_errorsAttributed : ¬∀ s : AndroidScan Nat, (machine Nat).Reach s → s.ErrorsAttributed := by
  intro all
  obtain ⟨s, reach, bad⟩ := Machine.Reach.exists_of_follow (machine Nat)
    (fun s => s.streams[1]?.any fun stream : ScanStream Nat =>
      decide (stream.yielded = [.error ⟨2, scanFailedError 2⟩])) (s := {}) rfl polledLate (by decide +kernel)
  obtain ⟨stream, there, yielded⟩ := (Option.any_eq_true _ _).mp bad
  have own := (all s reach 1 stream there).own ⟨2, scanFailedError 2⟩
  rw [of_decide_eq_true yielded] at own
  exact absurd (own List.mem_cons_self) (by decide)

end AndroidScan
end BleGatt
