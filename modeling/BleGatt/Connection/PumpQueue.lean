import BleGatt.Entities.Models
import BleGatt.Lib.Machine
import BleGatt.Lib.Preceded

namespace BleGatt

/-- `CHANNEL_RECV_QUEUE`. -/
def channelRecvQueue : Nat := 64

/-- What an item of the receive queue tells of. The numbers count what the
pump has taken from its channel. -/
inductive QueueOrigin
  | arrival (number : Nat)
  | loss (number : Nat)
  deriving DecidableEq

structure QueueEntry where
  origin : QueueOrigin
  item : Except BleError Bytes
  deriving DecidableEq

/-- Where the task of `start_pump` is. -/
inductive PumpPhase
  | selecting
  /-- Between the `try_send` that found no place for an item and the one that
  reports it. -/
  | reporting (number : Nat)
  /-- Out of its loop, or aborted, with `recv_tx` dropped. -/
  | ended
  deriving DecidableEq

/-- The receive queue of a `PeerChannel`, between the pump that fills it and
the consumer. -/
structure PumpQueue where
  peer : PeerAddress
  phase : PumpPhase := .selecting
  /-- How many items the channel has given the pump. -/
  arrived : Nat := 0
  /-- The items the pump dropped for want of a place. -/
  lost : List Nat := []
  queue : List QueueEntry := []
  /-- The consumer has not dropped its `PeerChannel`. -/
  held : Bool := true
  /-- What `recv` has returned, oldest first. -/
  returned : List (Option QueueEntry) := []

inductive PumpStep
  /-- `channel.recv` gives the pump an item. -/
  | deliver (item : Except BleError Bytes)
  /-- The `try_send` that reports a loss. -/
  | report
  /-- The channel ended, the link was torn down, or the task was aborted. -/
  | finish
  /-- A `recv` of the consumer returns. -/
  | recv
  /-- The consumer drops its handle. -/
  | release

namespace PumpQueue

def recvQueueFull (peer : PeerAddress) : BleError := .gattBusy ("recv queue full for " ++ peer.addr)

/-- The `channel.recv()` arm, up to its first `try_send`. -/
def deliver (item : Except BleError Bytes) (s : PumpQueue) : PumpQueue :=
  let number := s.arrived
  let s := { s with arrived := number + 1 }
  if !s.held then { s with phase := .ended }
  else if s.queue.length < channelRecvQueue then { s with queue := s.queue ++ [⟨.arrival number, item⟩] }
  else { s with phase := .reporting number, lost := s.lost ++ [number] }

/-- The error that reports a loss is queued where there is a place for it. -/
def report (number : Nat) (s : PumpQueue) : PumpQueue :=
  if s.held ∧ s.queue.length < channelRecvQueue then
    { s with phase := .selecting, queue := s.queue ++ [⟨.loss number, .error (recvQueueFull s.peer)⟩] }
  else { s with phase := .selecting }

def step (s : PumpQueue) : PumpStep → Option PumpQueue
  | .deliver item => if s.phase = .selecting then some (s.deliver item) else none
  | .report =>
    match s.phase with
    | .reporting number => some (s.report number)
    | _ => none
  | .finish => if s.phase = .selecting then some { s with phase := .ended } else none
  | .recv =>
    if s.held then
      match s.queue with
      | entry :: queue => some { s with queue := queue, returned := s.returned ++ [some entry] }
      | [] => if s.phase = .ended then some { s with returned := s.returned ++ [none] } else none
    else none
  | .release => if s.held then some { s with held := false, queue := [] } else none

/-- The pump and its consumer in any order, from the `Up` of the link. -/
def machine : Machine PumpQueue PumpStep where
  Init s := ∃ peer, s = { peer := peer }
  step := step

/-- What a step does, and what it checks. -/
inductive Stepped (s : PumpQueue) : PumpStep → PumpQueue → Prop
  | gone {item : Except BleError Bytes} (selecting : s.phase = .selecting) (dropped : s.held = false) :
      Stepped s (.deliver item) { s with arrived := s.arrived + 1, phase := .ended }
  | queued {item : Except BleError Bytes} (selecting : s.phase = .selecting) (held : s.held = true)
      (room : s.queue.length < channelRecvQueue) :
      Stepped s (.deliver item) { s with arrived := s.arrived + 1, queue := s.queue ++ [⟨.arrival s.arrived, item⟩] }
  | dropped {item : Except BleError Bytes} (selecting : s.phase = .selecting) (held : s.held = true)
      (full : ¬s.queue.length < channelRecvQueue) :
      Stepped s (.deliver item)
        { s with arrived := s.arrived + 1, phase := .reporting s.arrived, lost := s.lost ++ [s.arrived] }
  | reported {number : Nat} (reporting : s.phase = .reporting number) (held : s.held = true)
      (room : s.queue.length < channelRecvQueue) :
      Stepped s .report
        { s with phase := .selecting, queue := s.queue ++ [⟨.loss number, .error (recvQueueFull s.peer)⟩] }
  | unreported {number : Nat} (reporting : s.phase = .reporting number)
      (full : ¬(s.held = true ∧ s.queue.length < channelRecvQueue)) : Stepped s .report { s with phase := .selecting }
  | finish (selecting : s.phase = .selecting) : Stepped s .finish { s with phase := .ended }
  | taken {entry : QueueEntry} {queue : List QueueEntry} (held : s.held = true) (first : s.queue = entry :: queue) :
      Stepped s .recv { s with queue := queue, returned := s.returned ++ [some entry] }
  | ended (held : s.held = true) (empty : s.queue = []) (over_ : s.phase = .ended) :
      Stepped s .recv { s with returned := s.returned ++ [none] }
  | release (held : s.held = true) : Stepped s .release { s with held := false, queue := [] }

theorem step_cases {s s' : PumpQueue} {label : PumpStep} (stepped : step s label = some s') : Stepped s label s' := by
  cases label with
  | deliver item =>
    obtain ⟨selecting, ⟨⟩⟩ := Option.ite_none_right_eq_some.mp stepped
    unfold deliver
    cases held : s.held with
    | false =>
      have gone : Stepped s (.deliver item) _ := .gone selecting held
      simpa [held] using gone
    | true =>
      by_cases room : s.queue.length < channelRecvQueue
      · have queued : Stepped s (.deliver item) _ := .queued selecting held room
        simpa [held, room] using queued
      · have dropped : Stepped s (.deliver item) _ := .dropped selecting held room
        simpa [held, room] using dropped
  | report =>
    dsimp only [step] at stepped
    split at stepped
    · rename_i reporting
      cases Option.some.inj stepped
      unfold report
      split
      · rename_i fits
        exact .reported reporting fits.1 fits.2
      · rename_i full
        exact .unreported reporting full
    · simp at stepped
  | finish =>
    obtain ⟨selecting, ⟨⟩⟩ := Option.ite_none_right_eq_some.mp stepped
    exact .finish selecting
  | recv =>
    obtain ⟨held, taken⟩ := Option.ite_none_right_eq_some.mp stepped
    split at taken
    · rename_i first
      cases Option.some.inj taken
      exact .taken held first
    · rename_i empty
      obtain ⟨ended, ⟨⟩⟩ := Option.ite_none_right_eq_some.mp taken
      exact .ended held empty ended
  | release =>
    obtain ⟨held, ⟨⟩⟩ := Option.ite_none_right_eq_some.mp stepped
    exact .release held

/-- The report of the loss of one item. -/
def isReport (peer : PeerAddress) (number : Nat) (entry : Option QueueEntry) : Prop :=
  entry = some ⟨.loss number, .error (recvQueueFull peer)⟩

/-- An item that arrived after the given one, or the end. -/
def isLater (number : Nat) : Option QueueEntry → Prop
  | none => True
  | some entry => ∃ later, entry.origin = .arrival later ∧ number < later

/-- The consumer is told of each loss before anything that came after it. -/
def LossReported (s : PumpQueue) : Prop :=
  ∀ number ∈ s.lost, Preceded (isReport s.peer number) (isLater number) s.returned

/-- The report of a loss finds a place, if anyone is left to read it. -/
def ReportFits (s : PumpQueue) : PumpStep → Bool
  | .report => !s.held || decide (s.queue.length < channelRecvQueue)
  | _ => true

/-- All that `recv` has returned, or will before anything else is queued. -/
def stream (s : PumpQueue) : List (Option QueueEntry) := s.returned ++ s.queue.map some

/-- While the consumer holds its handle, every loss but the one being
reported is in the stream, before everything later. -/
structure Accounted (s : PumpQueue) : Prop where
  preceded : ∀ number ∈ s.lost, Preceded (isReport s.peer number) (isLater number) s.stream
  told : s.held = true → ∀ number ∈ s.lost, s.phase = .reporting number ∨ ∃ entry ∈ s.stream, isReport s.peer number entry
  earlier : ∀ entry, some entry ∈ s.stream → ∀ number, entry.origin = .arrival number → number < s.arrived
  open_ : s.phase ≠ .ended → none ∉ s.stream
  unheld : s.held = false → s.queue = []

variable {s s' : PumpQueue}

theorem stream_queue (entry : QueueEntry) (same : s'.returned = s.returned) (queue : s'.queue = s.queue ++ [entry]) :
    s'.stream = s.stream ++ [some entry] := by
  unfold stream
  rw [same, queue, List.map_append, List.append_assoc]
  rfl

namespace Accounted

/-- The pump takes an item there is no place for. -/
theorem dropped (accounted : s.Accounted) (selecting : s.phase = .selecting) :
    Accounted { s with arrived := s.arrived + 1, phase := .reporting s.arrived, lost := s.lost ++ [s.arrived] } := by
  have running : s.phase ≠ .ended := by simp [selecting]
  refine ⟨fun number lost => ?_, fun held number lost => ?_, fun entry there number arrival => ?_,
    fun _ => accounted.open_ running, accounted.unheld⟩
  · rcases List.mem_append.mp lost with before | now
    · exact accounted.preceded number before
    · cases List.mem_singleton.mp now
      refine .of_none fun entry there later => ?_
      cases entry with
      | none => exact accounted.open_ running there
      | some entry =>
        obtain ⟨m, arrival, after⟩ := later
        exact absurd (accounted.earlier entry there m arrival) (Nat.lt_asymm after)
  · rcases List.mem_append.mp lost with before | now
    · obtain reporting | told := accounted.told held number before
      · simp [selecting] at reporting
      · exact .inr told
    · cases List.mem_singleton.mp now
      exact .inl rfl
  · exact Nat.lt_succ_of_lt (accounted.earlier entry there number arrival)

/-- An item that has a place is queued. -/
theorem queued (accounted : s.Accounted) (selecting : s.phase = .selecting) (held : s.held = true)
    (item : Except BleError Bytes) :
    Accounted { s with arrived := s.arrived + 1, queue := s.queue ++ [⟨.arrival s.arrived, item⟩] } := by
  have running : s.phase ≠ .ended := by simp [selecting]
  have told : ∀ number ∈ s.lost, ∃ entry ∈ s.stream, isReport s.peer number entry := by
    intro number lost
    obtain reporting | told := accounted.told held number lost
    · simp [selecting] at reporting
    · exact told
  have stream : PumpQueue.stream { s with arrived := s.arrived + 1, queue := s.queue ++ [⟨.arrival s.arrived, item⟩] } =
      s.stream ++ [some ⟨.arrival s.arrived, item⟩] := stream_queue _ rfl rfl
  refine ⟨fun number lost => ?_, fun _ number lost => ?_, fun entry there number arrival => ?_, fun _ ended => ?_,
    fun dropped => absurd (held.symm.trans dropped) Bool.noConfusion⟩
  · rw [stream]
    exact (accounted.preceded number lost).concat fun _ => told number lost
  · obtain ⟨entry, there, report⟩ := told number lost
    rw [stream]
    exact .inr ⟨entry, List.mem_append_left _ there, report⟩
  · rw [stream] at there
    rcases List.mem_append.mp there with before | now
    · exact Nat.lt_succ_of_lt (accounted.earlier entry before number arrival)
    · cases List.mem_singleton.mp now
      cases arrival
      exact Nat.lt_succ_self _
  · rw [stream] at ended
    rcases List.mem_append.mp ended with before | now
    · exact accounted.open_ running before
    · simp at now

/-- A loss is reported. -/
theorem reported (accounted : s.Accounted) {number : Nat} (reporting : s.phase = .reporting number) (held : s.held = true) :
    Accounted { s with phase := .selecting, queue := s.queue ++ [⟨.loss number, .error (recvQueueFull s.peer)⟩] } := by
  have stream : PumpQueue.stream
      { s with phase := .selecting, queue := s.queue ++ [⟨.loss number, .error (recvQueueFull s.peer)⟩] } =
      s.stream ++ [some ⟨.loss number, .error (recvQueueFull s.peer)⟩] := stream_queue _ rfl rfl
  refine ⟨fun other lost => ?_, fun _ other lost => ?_, fun entry there m arrival => ?_, fun _ ended => ?_,
    fun dropped => absurd (held.symm.trans dropped) Bool.noConfusion⟩
  · rw [stream]
    refine (accounted.preceded other lost).concat fun later => ?_
    obtain ⟨m, arrival, _⟩ := later
    simp at arrival
  · rw [stream]
    obtain same | ⟨entry, there, report⟩ := accounted.told held other lost
    · cases reporting.symm.trans same
      exact .inr ⟨_, List.mem_append_right _ List.mem_cons_self, rfl⟩
    · exact .inr ⟨entry, List.mem_append_left _ there, report⟩
  · rw [stream] at there
    rcases List.mem_append.mp there with before | now
    · exact accounted.earlier entry before m arrival
    · cases List.mem_singleton.mp now
      simp at arrival
  · rw [stream] at ended
    rcases List.mem_append.mp ended with before | now
    · exact accounted.open_ (by simp [reporting]) before
    · simp at now

/-- A step that leaves the stream, and reports nothing. -/
theorem of_same (accounted : s.Accounted) (peer : s'.peer = s.peer) (lost : s'.lost = s.lost) (stream : s'.stream = s.stream)
    (arrived : s.arrived ≤ s'.arrived) (running : s'.phase ≠ .ended → s.phase ≠ .ended)
    (told : s'.held = true → s.held = true ∧ ∀ number, s.phase = .reporting number → s'.phase = .reporting number)
    (unheld : s'.held = false → s'.queue = []) : s'.Accounted := by
  refine ⟨fun number was => ?_, fun held number was => ?_, fun entry there number arrival => ?_, fun on => ?_, unheld⟩
  · rw [peer, stream]
    exact accounted.preceded number (lost ▸ was)
  · rw [stream, peer]
    obtain ⟨before, still⟩ := told held
    obtain reporting | there := accounted.told before number (lost ▸ was)
    · exact .inl (still number reporting)
    · exact .inr there
  · rw [stream] at there
    exact Nat.lt_of_lt_of_le (accounted.earlier entry there number arrival) arrived
  · rw [stream]
    exact accounted.open_ (running on)

/-- The end is returned once nothing is left. -/
theorem closed (accounted : s.Accounted) (held : s.held = true) (empty : s.queue = []) (ended : s.phase = .ended) :
    Accounted { s with returned := s.returned ++ [none] } := by
  have before : s.stream = s.returned := by simp [stream, empty]
  have after : PumpQueue.stream { s with returned := s.returned ++ [none] } = s.stream ++ [none] := by
    rw [before]
    simp [stream, empty]
  have told : ∀ number ∈ s.lost, ∃ entry ∈ s.stream, isReport s.peer number entry := by
    intro number lost
    obtain reporting | told := accounted.told held number lost
    · simp [ended] at reporting
    · exact told
  refine ⟨fun number lost => ?_, fun _ number lost => ?_, fun entry there number arrival => ?_,
    fun on => absurd ended on, fun _ => empty⟩
  · rw [after]
    exact (accounted.preceded number lost).concat fun _ => told number lost
  · obtain ⟨entry, there, report⟩ := told number lost
    rw [after]
    exact .inr ⟨entry, List.mem_append_left _ there, report⟩
  · rw [after] at there
    rcases List.mem_append.mp there with there | now
    · exact accounted.earlier entry there number arrival
    · simp at now

/-- Without its consumer the queue is gone, and what was returned stays. -/
theorem released (accounted : s.Accounted) : Accounted { s with held := false, queue := [] } := by
  have initial : PumpQueue.stream { s with held := false, queue := [] } <+: s.stream := by
    unfold stream
    rw [List.map_nil, List.append_nil]
    exact List.prefix_append _ _
  exact ⟨fun number lost => (accounted.preceded number lost).of_initial initial, fun held => absurd held Bool.noConfusion,
    fun entry there => accounted.earlier entry (initial.subset there),
    fun on there => accounted.open_ on (initial.subset there), fun _ => rfl⟩

end Accounted

theorem step_accounted {label : PumpStep} (accounted : s.Accounted) (fits : ReportFits s label = true)
    (stepped : step s label = some s') : s'.Accounted := by
  cases step_cases stepped with
  | gone _ dropped =>
    exact accounted.of_same rfl rfl rfl (Nat.le_succ _) (fun on => absurd rfl on)
      (fun held => absurd (dropped.symm.trans held) Bool.noConfusion) accounted.unheld
  | queued selecting held _ => exact accounted.queued selecting held _
  | dropped selecting _ _ => exact accounted.dropped selecting
  | reported reporting held _ => exact accounted.reported reporting held
  | unreported reporting full =>
    have dropped : s.held = false := by
      cases held : s.held with
      | false => rfl
      | true =>
        simp only [ReportFits, held, Bool.not_true, Bool.false_or, decide_eq_true_eq] at fits
        exact absurd ⟨held, fits⟩ full
    exact accounted.of_same rfl rfl rfl (Nat.le_refl _) (fun _ => by simp [reporting])
      (fun held => absurd (dropped.symm.trans held) Bool.noConfusion) accounted.unheld
  | finish selecting =>
    exact accounted.of_same rfl rfl rfl (Nat.le_refl _) (fun on => absurd rfl on)
      (fun held => ⟨held, by simp [selecting]⟩) accounted.unheld
  | @taken entry queue held first =>
    refine accounted.of_same rfl rfl ?_ (Nat.le_refl _) id (fun _ => ⟨held, fun _ => id⟩)
      (fun dropped => absurd (held.symm.trans dropped) Bool.noConfusion)
    simp [stream, first]
  | ended held empty ended => exact accounted.closed held empty ended
  | release _ => exact accounted.released

/-- Where every report of a loss finds a place, the consumer is told of each
loss before anything that came after it. -/
theorem run_lossReported (run : machine.Run (fun (_ : Unit) s label => ReportFits s label = true) (fun _ _ _ _ => ()) () () s) :
    s.LossReported := by
  have accounted : s.Accounted := by
    refine run.invariant (P := fun _ s => s.Accounted) ?_ ?_
    · rintro _ ⟨peer, rfl⟩
      exact ⟨by simp, by simp, by simp [stream], by simp [stream], by simp⟩
    · intro _ _ _ _ _ accounted fits stepped
      exact step_accounted accounted fits stepped
  intro number lost
  exact (accounted.preceded number lost).of_initial (List.prefix_append _ _)

/-- One item more arrives than the queue holds. -/
def overfull : List PumpStep := List.replicate 65 (.deliver (.ok [0]))

/-- Item 64 was lost, and item 65 came after nothing but other items. -/
def silentLoss (s : PumpQueue) : Bool :=
  let later : QueueEntry := ⟨.arrival 65, .ok [0]⟩
  decide (s.lost = [64] ∧ s.returned[64]? = some (some later)) &&
    (s.returned.take 64).all fun entry => entry.any fun entry : QueueEntry => decide (entry.item = .ok [0])

theorem silentLoss_unreported (silent : s.silentLoss = true) : ¬s.LossReported := by
  intro reported
  simp only [silentLoss, Bool.and_eq_true, decide_eq_true_eq, List.all_eq_true, Option.any_eq_true] at silent
  obtain ⟨⟨lost, later⟩, items⟩ := silent
  have place : s.returned.take 64 ++ [some ⟨.arrival 65, .ok [0]⟩] <+: s.returned := by
    have taken := List.take_prefix 65 s.returned
    rw [List.take_add_one, later] at taken
    exact taken
  obtain ⟨report, there, rfl⟩ := reported 64 (by simp [lost]) _ _ place ⟨65, rfl, by decide⟩
  obtain ⟨_, ⟨⟩, item⟩ := items _ there
  simp at item

/-- The consumer reads all it was left and one item more, and is never told
of the loss. -/
theorem not_lossReported : ¬ ∀ s : PumpQueue, machine.Reach s → s.LossReported := by
  intro claim
  obtain ⟨s, reach, silent⟩ := Machine.Reach.exists_of_follow machine silentLoss ⟨⟨"a"⟩, rfl⟩
    (overfull ++ .report :: List.replicate 64 .recv ++ [.deliver (.ok [0]), .recv]) (by decide +kernel)
  exact silentLoss_unreported silent (claim s reach)

/-- A consumer that reads one item just then is told of the loss in time. -/
theorem run_lossReported_read : ∃ s : PumpQueue, s.lost = [64] ∧ s.returned.length = 66 ∧ s.LossReported := by
  obtain ⟨_, s, run, read⟩ := Machine.Run.exists_of_follow machine (fun (_ : Unit) s label => ReportFits s label = true)
    (fun _ _ _ _ => ()) () (fun _ s => decide (s.lost = [64] ∧ s.returned.length = 66)) ⟨⟨"a"⟩, rfl⟩
    (overfull ++ .recv :: .report :: .recv :: .deliver (.ok [0]) :: List.replicate 64 .recv) (by decide +kernel)
  obtain ⟨lost, length⟩ := of_decide_eq_true read
  exact ⟨s, lost, length, run_lossReported run⟩

end PumpQueue

end BleGatt
