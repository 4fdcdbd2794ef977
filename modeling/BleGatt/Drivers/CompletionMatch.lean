import BleGatt.Drivers.GattOperations
import BleGatt.Lib.FifoMatch

namespace BleGatt
open Std

/-! Whether a callback finds the id of its own operation. -/

namespace ClientBridge

structure Matches (s : ClientBridge) : Prop where
  /-- What comes under an id is its own operation's. -/
  own : ∀ (n : Nat) (operation : Operation), s.operations[n]? = some operation → ∀ told ∈ operation.told,
    ∀ m, told.completes = some m → m = n
  /-- A callback of the GATT that has the address is reported. -/
  reported : ∀ (n : Nat) (operation : Operation) (success : Bool), s.operations[n]? = some operation →
    operation.completed = some success → ∃ told ∈ operation.told, told.completes = some n ∧ told.success = success
  /-- What is cancelled before it is accepted is never issued, and its id
  waits nowhere. -/
  cancelled : ∀ (n : Nat) (operation : Operation), s.operations[n]? = some operation → operation.cancelled = true →
    operation.accepted = none ∧ ∀ queue, n ∉ s.pendingIds queue
  /-- What is still to complete has its id. -/
  live : ∀ n ∈ s.issued, ∀ (operation : Operation) (gatt : Nat), s.operations[n]? = some operation →
    operation.accepted = some gatt → s.connectedGatts[operation.address]? = some gatt →
      n ∈ s.pendingIds operation.queue
  /-- So has what is to be retried. -/
  waiting : ∀ n ∈ s.pendingRetries, ∀ operation : Operation, s.operations[n]? = some operation →
    s.connectedGatts[operation.address]? = some operation.session → n ∈ s.pendingIds operation.queue

/-- The platform has it still to complete, for this GATT. -/
def underWay (gatt n : Nat) (s : ClientBridge) : Bool :=
  decide (n ∈ s.issued) && s.operations[n]?.any fun operation => decide (operation.accepted = some gatt)

/-- Only operations under way on its GATT wait before it. -/
def unblocked (number : Nat) (operation : Operation) (s : ClientBridge) : Bool :=
  ((s.pendingIds operation.queue).takeWhile fun n => decide (n ≠ number)).all fun n => s.underWay operation.session n

/-- The attempt is not cancelled, is its GATT's, and finds what it is made
on. -/
def comesToStack (attempting : Attempting) (operation : Operation) (enabled : Bool) (s : ClientBridge) : Bool :=
  (decide (attempting.count = 0) || decide (attempting.number ∈ s.pendingRetries)) &&
    decide (s.gattSessions[operation.address]? = some operation.session) && s.startable operation enabled

/-- An operation is accepted only behind operations that are under way on
the same GATT. `closeConnection` removes no id of the GATT that has the address
since, and no queue that an attempt of it has got. -/
def keepsOrder (s : ClientBridge) : ClientStep → Bool
  | .attempt enabled accepted => s.attempting.all fun attempting => s.operations[attempting.number]?.all fun operation =>
      !s.comesToStack attempting operation enabled ||
        (!attempting.removed && (!accepted || s.unblocked attempting.number operation))
  | .clear _ queue => (s.pendingIds queue).all fun n => s.operations[n]?.all fun operation =>
      decide (s.connectedGatts[operation.address]? ≠ some operation.session)
  | _ => true

/-- What an attempt may do. -/
inductive Attempted (s : ClientBridge) (number count : Nat) (operation : Operation) (removed startable accepted : Bool) :
    ClientBridge → Prop
  /-- It was cancelled. -/
  | ignored : Attempted s number count operation removed startable accepted s
  | failed (waiting : count = 0 ∨ number ∈ s.pendingRetries) : Attempted s number count operation removed startable accepted
      (({ s with pendingRetries := s.pendingRetries.erase number }.dequeue operation.queue number).tell number
        { completes := none, value := [], success := false })
  | issued (ids : List Nat) (gatt : Nat) (yes : accepted = true) (started : startable = true)
      (owner : s.connectedGatts[operation.address]? = some gatt)
      (session : s.gattSessions[operation.address]? = some operation.session)
      (queued : ids = if count = 0 ∧ removed = false then s.pendingIds operation.queue ++ [number]
        else s.pendingIds operation.queue)
      (waiting : count = 0 ∨ number ∈ s.pendingRetries) :
      Attempted s number count operation removed startable accepted
        { ({ s with pendingRetries := s.pendingRetries.erase number }.setQueue operation.queue ids).change number
            (fun operation => { operation with accepted := some gatt }) with issued := s.issued ++ [number] }
  | postponed (ids : List Nat) (started : startable = true)
      (session : s.gattSessions[operation.address]? = some operation.session)
      (queued : ids = if count = 0 ∧ removed = false then s.pendingIds operation.queue ++ [number]
        else s.pendingIds operation.queue)
      (waiting : count = 0 ∨ number ∈ s.pendingRetries) :
      Attempted s number count operation removed startable accepted
        { ({ s with pendingRetries := s.pendingRetries.erase number }.setQueue operation.queue ids).change number
            (fun operation => { operation with posted := some (count + 1) }) with
          pendingRetries := s.pendingRetries.erase number ++ [number] }

section Attempts

variable {s : ClientBridge} {number count : Nat} {operation : Operation} {removed startable accepted : Bool}

theorem setQueue_self (queue : OperationQueue) : s.setQueue queue (s.pendingIds queue) = s := by
  have same : (fun other => if other = queue then s.pendingIds queue else s.pendingIds other) = s.pendingIds := by
    funext other
    split
    · rename_i here
      rw [here]
    · rfl
  unfold setQueue
  rw [same]

theorem setQueue_setQueue (queue : OperationQueue) (first second : List Nat) :
    (s.setQueue queue first).setQueue queue second = s.setQueue queue second := by
  unfold setQueue
  dsimp only
  congr 1
  funext other
  split <;> rfl

@[simp] theorem setQueue_pendingIds_self (queue : OperationQueue) (ids : List Nat) :
    (s.setQueue queue ids).pendingIds queue = ids := if_pos rfl

theorem dequeue_append (queue : OperationQueue) (unqueued : number ∉ s.pendingIds queue) :
    (s.setQueue queue (s.pendingIds queue ++ [number])).dequeue queue number = s.dequeue queue number := by
  unfold dequeue
  rw [setQueue_setQueue, setQueue_pendingIds_self, List.erase_append_right _ unqueued, List.erase_cons_head,
    List.append_nil, List.erase_of_not_mem unqueued]

theorem dequeue_absent (queue : OperationQueue) (unqueued : number ∉ s.pendingIds queue) : s.dequeue queue number = s := by
  unfold dequeue
  rw [List.erase_of_not_mem unqueued, setQueue_self]

theorem attempt_cases (fresh : count = 0 → number ∉ s.pendingRetries ∧ number ∉ s.pendingIds operation.queue) :
    Attempted s number count operation removed startable accepted
      (s.attempt number count operation removed startable accepted) := by
  by_cases first : count = 0
  · obtain ⟨unposted, unqueued⟩ := fresh first
    subst first
    have same : { s with pendingRetries := s.pendingRetries.erase number } = s := by
      rw [List.erase_of_not_mem unposted]
    have fails : Attempted s number 0 operation removed startable accepted
        ((s.dequeue operation.queue number).tell number { completes := none, value := [], success := false }) := by
      have after : Attempted s number 0 operation removed startable accepted _ := .failed (.inl rfl)
      rwa [same] at after
    -- the queue, as the attempt leaves it in the map
    have queued : (if removed = false then s.setQueue operation.queue (s.pendingIds operation.queue ++ [number]) else s) =
        s.setQueue operation.queue (if 0 = 0 ∧ removed = false then s.pendingIds operation.queue ++ [number]
          else s.pendingIds operation.queue) := by
      cases removed with
      | false => simp
      | true => simp [setQueue_self]
    have dequeued : (if removed = false then s.setQueue operation.queue (s.pendingIds operation.queue ++ [number])
        else s).dequeue operation.queue number = s.dequeue operation.queue number := by
      split
      · exact dequeue_append _ unqueued
      · rfl
    unfold attempt
    simp only [Nat.lt_irrefl, false_and, if_false, true_and]
    split
    · rwa [dequeue_absent _ unqueued] at fails
    · rename_i current
      rw [ne_eq, not_not] at current
      split
      · rename_i gatt owner
        have owner : s.connectedGatts[operation.address]? = some gatt := by
          cases removed <;> exact owner
        split
        · rename_i yes
          have after : Attempted s number 0 operation removed true accepted _ :=
            .issued _ gatt yes rfl owner current rfl (.inl rfl)
          rw [queued]
          rwa [same] at after
        · split
          · have after : Attempted s number 0 operation removed true accepted _ := .postponed _ rfl current rfl (.inl rfl)
            rw [queued]
            rwa [same, List.erase_of_not_mem unposted] at after
          · rwa [dequeued]
      · rwa [dequeued]
  · have later : 0 < count := Nat.pos_of_ne_zero first
    unfold attempt
    simp only [later, true_and, if_true, first, false_and, if_false]
    split
    · exact .ignored
    · rename_i there
      rw [not_not] at there
      split
      · exact .failed (.inr there)
      · rename_i current
        rw [ne_eq, not_not] at current
        have kept := setQueue_self (s := { s with pendingRetries := s.pendingRetries.erase number }) operation.queue
        have queued : s.pendingIds operation.queue = if count = 0 ∧ removed = false
            then s.pendingIds operation.queue ++ [number] else s.pendingIds operation.queue :=
          (if_neg fun both => first both.1).symm
        split
        · rename_i gatt owner
          split
          · rename_i yes
            have after : Attempted s number count operation removed true accepted _ :=
              .issued _ gatt yes rfl owner current queued (.inr there)
            rwa [kept] at after
          · split
            · have after : Attempted s number count operation removed true accepted _ :=
                .postponed _ rfl current queued (.inr there)
              rwa [kept] at after
            · exact .failed (.inr there)
        · exact .failed (.inr there)

theorem Attempted.attempting {after : ClientBridge}
    (attempted : Attempted s number count operation removed startable accepted after) :
    after.attempting = s.attempting := by
  cases attempted <;> rfl

end Attempts

/-- What a step does. What takes `gattLock` finds it free. -/
inductive Stepped (s : ClientBridge) : ClientStep → ClientBridge → Prop
  | same (label : ClientStep) : Stepped s label s
  | connectGatt (address : PeerAddress) :
      Stepped s (.connectGatt address) { s with gatts := s.gatts ++ [{ address := address }] }
  | stored {gatt : Nat} {opened : OpenedGatt} (free : s.attempting = none) (here : s.gatts[gatt]? = some opened)
      (unstored : opened.stored = false) : Stepped s (.store gatt) (s.store gatt opened.address)
  | lost {label : ClientStep} (free : s.attempting = none) (address : PeerAddress) :
      Stepped s label ((s.remove address).clearPendingOperations address)
  | discovered {label : ClientStep} (free : s.attempting = none) (found : PeerMap (List DiscoveredCharacteristic)) :
      Stepped s label { s with pendingCharacteristics := found }
  | closedAll (free : s.attempting = none) : Stepped s .closeAllClientGatts s.closeAllClientGatts
  | closed (free : s.attempting = none) (address : PeerAddress) (closings : List (PeerAddress × Clearing)) :
      Stepped s (.closeConnection address) { s.remove address with closings := closings }
  | cleared {label : ClientStep} (closings : List (PeerAddress × Clearing)) :
      Stepped s label { s with closings := closings }
  | clear {closing : Nat} (queue : OperationQueue) (closings : List (PeerAddress × Clearing)) :
      Stepped s (.clear closing queue) { s.clear queue with closings := closings }
  | requested (free : s.attempting = none) (operation : Operation)
      (new : operation = {
        kind := operation.kind, address := operation.address, uuid := operation.uuid, session := operation.session }) :
      Stepped s (.request operation.kind operation.address operation.uuid operation.session) (s.request operation)
  | retried {number count : Nat} {operation : Operation} (free : s.attempting = none)
      (here : s.operations[number]? = some operation) (posted : operation.posted = some count) :
      Stepped s (.retry number) (s.retry number count operation)
  | attempted {attempting : Attempting} {operation : Operation} (enabled accepted : Bool)
      (holds : s.attempting = some attempting) (here : s.operations[attempting.number]? = some operation) :
      Stepped s (.attempt enabled accepted)
        ({ s with attempting := none }.attempt attempting.number attempting.count operation attempting.removed
          (s.startable operation enabled) accepted)
  | cancelled {number : Nat} (free : s.attempting = none) :
      Stepped s (.cancelPendingOperation number) (s.cancelPendingOperation number)
  | completed {number gatt : Nat} {operation : Operation} {completion : Completion} (free : s.attempting = none)
      (value : Bytes) (success : Bool)
      (oldest : (s.issued.find? fun number => s.operations[number]?.any fun operation =>
        decide (operation.accepted = some gatt) && decide (operation.kind.completion = completion)) = some number)
      (here : s.operations[number]? = some operation) :
      Stepped s (.complete gatt completion value success) (s.complete number gatt operation completion value success)

theorem step_cases {s s' : ClientBridge} {label : ClientStep} (step : s.step label = some s') : Stepped s label s' := by
  obtain ⟨waits, step⟩ := Option.ite_none_left_eq_some.mp step
  have free : label.unlocked = false → s.attempting = none := by
    intro locks
    cases held : s.attempting with
    | none => rfl
    | some attempting => exact absurd ⟨by rw [held]; rfl, locks⟩ waits
  unfold take at step
  cases label with
  | connectGatt address =>
    cases Option.some.inj step
    exact .connectGatt address
  | store gatt =>
    obtain ⟨opened, here, moved⟩ := Option.bind_eq_some_iff.mp step
    obtain ⟨here, unstored⟩ := Option.filter_eq_some_iff.mp here
    cases Option.some.inj moved
    exact .stored (free rfl) here (by simpa using unstored)
  | onDisconnected gatt =>
    obtain ⟨opened, _, moved⟩ := Option.bind_eq_some_iff.mp step
    cases Option.some.inj moved
    unfold onDisconnected
    split
    · exact .lost (free rfl) _
    · exact .same _
  | onServicesDiscovered gatt discovered =>
    obtain ⟨opened, _, moved⟩ := Option.bind_eq_some_iff.mp step
    cases Option.some.inj moved
    unfold onServicesDiscovered
    split
    · split
      · exact .discovered (free rfl) _
      · exact .lost (free rfl) _
    · exact .same _
  | closeAllClientGatts =>
    cases Option.some.inj step
    exact .closedAll (free rfl)
  | closeConnection address =>
    cases Option.some.inj step
    unfold closeConnection
    split
    · exact .same _
    · exact .closed (free rfl) address _
  | clear closing queue =>
    obtain ⟨⟨address, clearing⟩, _, moved⟩ := Option.bind_eq_some_iff.mp step
    obtain ⟨next, _, moved⟩ := Option.bind_eq_some_iff.mp moved
    cases Option.some.inj moved
    exact .clear queue _
  | cleared closing =>
    obtain ⟨⟨address, clearing⟩, _, moved⟩ := Option.bind_eq_some_iff.mp step
    cases Option.some.inj moved
    exact .cleared _
  | request kind address uuid session =>
    cases Option.some.inj step
    exact .requested (free rfl) { kind := kind, address := address, uuid := uuid, session := session } rfl
  | retry number =>
    obtain ⟨operation, here, moved⟩ := Option.bind_eq_some_iff.mp step
    obtain ⟨count, posted, moved⟩ := Option.bind_eq_some_iff.mp moved
    cases Option.some.inj moved
    exact .retried (free rfl) here posted
  | attempt enabled accepted =>
    obtain ⟨attempting, holds, moved⟩ := Option.bind_eq_some_iff.mp step
    obtain ⟨operation, here, moved⟩ := Option.bind_eq_some_iff.mp moved
    cases Option.some.inj moved
    rw [attemptOperation_eq]
    exact .attempted enabled accepted holds here
  | cancelPendingOperation number =>
    simp only [Option.ite_none_right_eq_some, Option.some.injEq] at step
    obtain ⟨_, rfl⟩ := step
    exact .cancelled (free rfl)
  | complete gatt completion value success =>
    obtain ⟨number, oldest, moved⟩ := Option.bind_eq_some_iff.mp step
    obtain ⟨operation, here, moved⟩ := Option.bind_eq_some_iff.mp moved
    cases Option.some.inj moved
    exact .completed (free rfl) value success oldest here

/-- `connect` wrote it to the maps. -/
def Stored (s : ClientBridge) (gatt : Nat) : Prop := ∃ opened, s.gatts[gatt]? = some opened ∧ opened.stored = true

/-- A GATT's operations of a queue that the platform has still to complete. -/
def outstanding (gatt : Nat) (queue : OperationQueue) (s : ClientBridge) : List Nat :=
  s.issued.filter fun n => s.operations[n]?.any fun operation =>
    decide (operation.accepted = some gatt) && decide (operation.queue = queue)

structure Entry (n : Nat) (operation : Operation) : Prop where
  own : ∀ told ∈ operation.told, ∀ m, told.completes = some m → m = n
  reported : ∀ success, operation.completed = some success →
    ∃ told ∈ operation.told, told.completes = some n ∧ told.success = success
  cancelled : operation.cancelled = true → operation.accepted = none
  pending : operation.accepted = none → operation.completed = none
  posted : ∀ count, operation.posted = some count → 0 < count

/-- Every queue begins with what is under way on the GATT that has the
address, in the order it was issued. -/
structure Matching (s : ClientBridge) : Prop where
  sessions : s.gattSessions = s.connectedGatts
  owner : ∀ (address : PeerAddress) (gatt : Nat), s.connectedGatts[address]? = some gatt → s.Stored gatt
  queued : ∀ queue n, n ∈ s.pendingIds queue → ∃ operation, s.operations[n]? = some operation ∧
    operation.queue = queue ∧ (operation.accepted ≠ none ∨ n ∈ s.pendingRetries)
  distinct : ∀ queue, (s.pendingIds queue).Nodup
  retries : ∀ n ∈ s.pendingRetries, ∃ operation, s.operations[n]? = some operation ∧ operation.accepted = none ∧
    operation.cancelled = false ∧ s.Stored operation.session ∧
      (s.connectedGatts[operation.address]? = some operation.session → n ∈ s.pendingIds operation.queue)
  single : s.pendingRetries.Nodup
  issued : ∀ n ∈ s.issued, ∃ operation, s.operations[n]? = some operation ∧
    operation.accepted = some operation.session ∧ operation.completed = none ∧ s.Stored operation.session
  once : s.issued.Nodup
  first : ∀ (queue : OperationQueue) (gatt : Nat), s.connectedGatts[queue.address]? = some gatt →
    s.outstanding gatt queue <+: s.pendingIds queue
  entry : ∀ (n : Nat) (operation : Operation), s.operations[n]? = some operation → Entry n operation

section Outstanding

variable {s s' : ClientBridge} {gatt n : Nat} {queue : OperationQueue}

theorem mem_outstanding : n ∈ s.outstanding gatt queue ↔ n ∈ s.issued ∧ ∃ operation, s.operations[n]? = some operation ∧
    operation.accepted = some gatt ∧ operation.queue = queue := by
  unfold outstanding
  rw [List.mem_filter, Option.any_eq_true]
  simp only [Bool.and_eq_true, decide_eq_true_eq]

/-- Only what is issued counts, by its GATT and its queue. -/
theorem outstanding_congr (issued : s'.issued = s.issued) (same : ∀ n ∈ s.issued,
    (s'.operations[n]?.map fun operation => (operation.accepted, operation.queue)) =
      s.operations[n]?.map fun operation => (operation.accepted, operation.queue)) :
    s'.outstanding gatt queue = s.outstanding gatt queue := by
  unfold outstanding
  rw [issued]
  refine List.filter_congr fun n there => ?_
  have eq := same n there
  cases here : s.operations[n]? with
  | none =>
    rw [here, Option.map_none, Option.map_eq_none_iff] at eq
    rw [eq]
  | some operation =>
    rw [here, Option.map_some] at eq
    obtain ⟨after, there', eq⟩ := Option.map_eq_some_iff.mp eq
    obtain ⟨accepted, queue⟩ := Prod.mk.inj eq
    rw [there', Option.any_some, Option.any_some, accepted, queue]

end Outstanding

namespace Matching

variable {s : ClientBridge} {number : Nat} {f : Operation → Operation}

/-- A change of what an operation was told, of its `Runnable` or of its
completion. -/
theorem change (held : Matching s) (queue : ∀ operation, (f operation).queue = operation.queue)
    (address : ∀ operation, (f operation).address = operation.address)
    (session : ∀ operation, (f operation).session = operation.session)
    (accepted : ∀ operation, (f operation).accepted = operation.accepted)
    (completed : number ∈ s.issued → ∀ operation, (f operation).completed = operation.completed)
    (cancelled : number ∈ s.pendingRetries → ∀ operation, (f operation).cancelled = operation.cancelled)
    (entry : ∀ operation, s.operations[number]? = some operation → Entry number (f operation)) :
    Matching (s.change number f) := by
  have lookup : ∀ {n : Nat} {operation : Operation}, s.operations[n]? = some operation →
      (s.change number f).operations[n]? = some (if n = number then f operation else operation) := by
    intro n operation here
    refine (TaskList.getElem?_modify f).trans ?_
    rw [here]
    split <;> rfl
  refine ⟨held.sessions, held.owner, ?_, held.distinct, ?_, held.single, ?_, held.once, ?_, ?_⟩
  · intro at_ n there
    obtain ⟨operation, here, own, waits⟩ := held.queued at_ n there
    refine ⟨_, lookup here, ?_⟩
    split
    · exact ⟨(queue operation).trans own, by rw [accepted]; exact waits⟩
    · exact ⟨own, waits⟩
  · intro n there
    obtain ⟨operation, here, unaccepted, live, stored, waits⟩ := held.retries n there
    refine ⟨_, lookup here, ?_⟩
    split
    · rename_i same
      subst same
      rw [accepted, cancelled there, session, address, queue]
      exact ⟨unaccepted, live, stored, waits⟩
    · exact ⟨unaccepted, live, stored, waits⟩
  · intro n there
    obtain ⟨operation, here, issued, pending, stored⟩ := held.issued n there
    refine ⟨_, lookup here, ?_⟩
    split
    · rename_i same
      subst same
      rw [accepted, session, completed there]
      exact ⟨issued, pending, stored⟩
    · exact ⟨issued, pending, stored⟩
  · intro at_ gatt owner
    have same : (s.change number f).outstanding gatt at_ = s.outstanding gatt at_ := by
      refine outstanding_congr rfl fun n there => ?_
      obtain ⟨operation, here, _⟩ := held.issued n there
      rw [lookup here, here, Option.map_some, Option.map_some]
      split
      · rw [accepted, queue]
      · rfl
    rw [same]
    exact held.first at_ gatt owner
  · intro n operation there
    rcases TaskList.of_modify there with ⟨before, here, rfl, rfl⟩ | ⟨_, here⟩
    · exact entry before here
    · exact held.entry n operation here

/-- An operation that is not issued is given up. -/
theorem withdrawn (held : Matching s) (unissued : number ∉ s.issued) :
    Matching { s with
      pendingRetries := s.pendingRetries.erase number
      pendingIds := fun queue => (s.pendingIds queue).erase number } := by
  refine ⟨held.sessions, held.owner, ?_, ?_, ?_, held.single.erase number, held.issued, held.once, ?_, held.entry⟩
  · intro queue n there
    obtain ⟨other, there⟩ := (held.distinct queue).mem_erase_iff.mp there
    obtain ⟨operation, here, own, waits⟩ := held.queued queue n there
    refine ⟨operation, here, own, waits.imp id fun waits => ?_⟩
    exact held.single.mem_erase_iff.mpr ⟨other, waits⟩
  · exact fun queue => (held.distinct queue).erase number
  · intro n there
    obtain ⟨other, there⟩ := held.single.mem_erase_iff.mp there
    obtain ⟨operation, here, unaccepted, live, stored, waits⟩ := held.retries n there
    refine ⟨operation, here, unaccepted, live, stored, fun current => ?_⟩
    exact (held.distinct _).mem_erase_iff.mpr ⟨other, waits current⟩
  · intro queue gatt owner
    exact FifoMatch.withdrawn (held.first queue gatt owner) fun there => unissued (mem_outstanding.mp there).1

/-- Its id waits in its own queue only. -/
theorem dequeue_eq (held : Matching s) {queue : OperationQueue}
    (own : ∀ operation, s.operations[number]? = some operation → operation.queue = queue) :
    { s with pendingRetries := s.pendingRetries.erase number }.dequeue queue number = { s with
      pendingRetries := s.pendingRetries.erase number
      pendingIds := fun queue => (s.pendingIds queue).erase number } := by
  unfold dequeue setQueue
  dsimp only
  congr 1
  funext other
  split
  · rename_i same
    rw [same]
  · rename_i elsewhere
    rw [List.erase_of_not_mem]
    intro there
    obtain ⟨operation, here, its, _⟩ := held.queued other number there
    exact elsewhere (its.symm.trans (own operation here))

/-- An operation that waits, or a new one, comes to the stack; `ids` is its
queue then. -/
structure Comes (s : ClientBridge) (number : Nat) (operation : Operation) (ids : List Nat) : Prop where
  here : s.operations[number]? = some operation
  unaccepted : operation.accepted = none
  pending : operation.completed = none
  live : operation.cancelled = false
  unissued : number ∉ s.issued
  within : number ∈ ids
  distinct : ids.Nodup
  others : ∀ n, n ≠ number → (n ∈ ids ↔ n ∈ s.pendingIds operation.queue)
  grown : ids = s.pendingIds operation.queue ∨ ids = s.pendingIds operation.queue ++ [number]
  waits : ∀ queue, number ∈ s.pendingIds queue → queue = operation.queue

theorem comes_pendingIds {operation : Operation} {ids : List Nat} (comes : Comes s number operation ids) {n : Nat}
    {queue : OperationQueue} (other : n ≠ number) :
    n ∈ (s.setQueue operation.queue ids).pendingIds queue ↔ n ∈ s.pendingIds queue := by
  unfold setQueue
  dsimp only
  split
  · rename_i same
    rw [same]
    exact comes.others n other
  · exact Iff.rfl

theorem comes_distinct (held : Matching s) {operation : Operation} {ids : List Nat}
    (comes : Comes s number operation ids) (queue : OperationQueue) :
    ((s.setQueue operation.queue ids).pendingIds queue).Nodup := by
  unfold setQueue
  dsimp only
  split
  · exact comes.distinct
  · exact held.distinct queue

theorem comes_first (held : Matching s) {operation : Operation} {ids : List Nat} (comes : Comes s number operation ids)
    {queue : OperationQueue} {gatt : Nat} (owner : s.connectedGatts[queue.address]? = some gatt) :
    s.outstanding gatt queue <+: (s.setQueue operation.queue ids).pendingIds queue := by
  have first := held.first queue gatt owner
  unfold setQueue
  dsimp only
  split
  · rename_i same
    subst same
    rcases comes.grown with rfl | rfl
    · exact first
    · exact first.trans (List.prefix_append _ _)
  · exact first

theorem postponed (held : Matching s) {operation : Operation} {ids : List Nat} (comes : Comes s number operation ids)
    (stored : s.Stored operation.session) (count : Nat) :
    Matching { ({ s with pendingRetries := s.pendingRetries.erase number }.setQueue operation.queue ids).change number
        (fun operation => { operation with posted := some (count + 1) }) with
      pendingRetries := s.pendingRetries.erase number ++ [number] } := by
  have before : Matching { s.setQueue operation.queue ids with
      pendingRetries := s.pendingRetries.erase number ++ [number] } := by
    have retried : ∀ n, n ∈ s.pendingRetries.erase number ++ [number] ↔ n = number ∨ n ∈ s.pendingRetries := by
      intro n
      rw [List.mem_append, List.mem_singleton, held.single.mem_erase_iff]
      by_cases same : n = number <;> simp [same]
    refine ⟨held.sessions, held.owner, ?_, comes_distinct held comes, ?_, ?_, held.issued, held.once, ?_, held.entry⟩
    · intro queue n there
      by_cases same : n = number
      · subst same
        refine ⟨operation, comes.here, ?_, .inr ((retried n).mpr (.inl rfl))⟩
        unfold setQueue at there
        dsimp only at there
        split at there
        · rename_i own
          exact own.symm
        · exact (comes.waits queue there).symm
      · obtain ⟨found, here, own, waits⟩ := held.queued queue n ((comes_pendingIds comes same).mp there)
        exact ⟨found, here, own, waits.imp id fun waits => (retried n).mpr (.inr waits)⟩
    · intro n there
      by_cases same : n = number
      · subst same
        refine ⟨operation, comes.here, comes.unaccepted, comes.live, stored, fun _ => ?_⟩
        rw [show ({ s.setQueue operation.queue ids with
          pendingRetries := s.pendingRetries.erase n ++ [n] } : ClientBridge).pendingIds operation.queue = ids from
          if_pos rfl]
        exact comes.within
      · obtain ⟨found, here, unaccepted, live, kept, waits⟩ := held.retries n (((retried n).mp there).resolve_left same)
        exact ⟨found, here, unaccepted, live, kept, fun current => (comes_pendingIds comes same).mpr (waits current)⟩
    · refine (List.perm_append_singleton number _).nodup_iff.mpr (List.nodup_cons.mpr ⟨?_, held.single.erase number⟩)
      exact held.single.not_mem_erase
    · exact fun queue gatt owner => comes_first held comes owner
  refine before.change (fun _ => rfl) (fun _ => rfl) (fun _ => rfl) (fun _ => rfl) (fun _ _ => rfl) (fun _ _ => rfl) ?_
  intro found here
  have entry := held.entry number found here
  refine ⟨entry.own, entry.reported, entry.cancelled, entry.pending, fun _ posted => ?_⟩
  cases posted
  exact Nat.succ_pos count

theorem accepted (held : Matching s) {operation : Operation} {ids : List Nat} (comes : Comes s number operation ids)
    (owner : s.connectedGatts[operation.address]? = some operation.session)
    (unblocked : ∀ m ∈ ids.takeWhile (fun m => decide (m ≠ number)), s.underWay operation.session m = true) :
    Matching { ({ s with pendingRetries := s.pendingRetries.erase number }.setQueue operation.queue ids).change number
        (fun found => { found with accepted := some operation.session }) with issued := s.issued ++ [number] } := by
  have lookup : ∀ {n : Nat} {found : Operation}, n ≠ number → s.operations[n]? = some found →
      (s.operations.modify number fun found => { found with accepted := some operation.session })[n]? = some found := by
    intro n found other here
    exact (TaskList.getElem?_modify _).trans ((if_neg other).trans here)
  have itself : (s.operations.modify number fun found => { found with accepted := some operation.session })[number]? =
      some { operation with accepted := some operation.session } :=
    (TaskList.getElem?_modify _).trans ((if_pos rfl).trans (by rw [comes.here]; rfl))
  have stored : s.Stored operation.session := held.owner _ _ owner
  refine ⟨held.sessions, held.owner, ?_, comes_distinct held comes, ?_, held.single.erase number, ?_, ?_, ?_, ?_⟩
  · intro queue n there
    by_cases same : n = number
    · subst same
      refine ⟨_, itself, ?_, .inl (by simp)⟩
      change n ∈ (s.setQueue operation.queue ids).pendingIds queue at there
      unfold setQueue at there
      dsimp only at there
      split at there
      · rename_i own
        exact own.symm
      · exact (comes.waits queue there).symm
    · obtain ⟨found, here, own, waits⟩ := held.queued queue n ((comes_pendingIds comes same).mp there)
      exact ⟨found, lookup same here, own, waits.imp id fun waits => (held.single.mem_erase_iff).mpr ⟨same, waits⟩⟩
  · intro n there
    obtain ⟨other, there⟩ := (held.single.mem_erase_iff).mp there
    obtain ⟨found, here, unaccepted, live, kept, waits⟩ := held.retries n there
    exact ⟨found, lookup other here, unaccepted, live, kept, fun current => (comes_pendingIds comes other).mpr (waits current)⟩
  · intro n there
    rcases List.mem_append.mp there with before | last
    · have other : n ≠ number := by
        rintro rfl
        exact comes.unissued before
      obtain ⟨found, here, rest⟩ := held.issued n before
      exact ⟨found, lookup other here, rest⟩
    · rw [List.mem_singleton] at last
      subst last
      exact ⟨_, itself, rfl, comes.pending, stored⟩
  · exact (List.perm_append_singleton number _).nodup_iff.mpr (List.nodup_cons.mpr ⟨comes.unissued, held.once⟩)
  · intro queue gatt at_
    have first := comes_first held comes at_
    -- the new one is the last that its GATT has of its queue
    have grown : ((s.issued ++ [number]).filter fun n =>
        (s.operations.modify number fun found => { found with accepted := some operation.session })[n]?.any fun found =>
          decide (found.accepted = some gatt) && decide (found.queue = queue)) =
        s.outstanding gatt queue ++ if operation.session = gatt ∧ operation.queue = queue then [number] else [] := by
      rw [List.filter_append]
      congr 1
      · refine List.filter_congr fun n there => ?_
        obtain ⟨found, here, _⟩ := held.issued n there
        have other : n ≠ number := by
          rintro rfl
          exact comes.unissued there
        rw [lookup other here, here]
      · rw [List.filter_cons, List.filter_nil, itself]
        change (if (decide (some operation.session = some gatt) && decide (operation.queue = queue)) = true
          then [number] else []) = _
        simp only [Option.some.injEq, Bool.and_eq_true, decide_eq_true_eq]
    suffices within : s.outstanding gatt queue ++
        (if operation.session = gatt ∧ operation.queue = queue then [number] else []) <+:
          (s.setQueue operation.queue ids).pendingIds queue by
      rw [← grown] at within
      exact within
    split
    · rename_i own
      obtain ⟨rfl, rfl⟩ := own
      have ids_eq : (s.setQueue operation.queue ids).pendingIds operation.queue = ids := setQueue_pendingIds_self _ _
      rw [ids_eq] at first ⊢
      refine FifoMatch.started first comes.distinct comes.within
        (fun there => comes.unissued (mem_outstanding.mp there).1) ?_
      intro m earlier
      have under := unblocked m earlier
      unfold underWay at under
      rw [Bool.and_eq_true, decide_eq_true_eq, Option.any_eq_true] at under
      obtain ⟨issued, found, here, accepted⟩ := under
      have other : m ≠ number := by
        have passed := List.mem_takeWhile_imp earlier
        simpa using passed
      obtain ⟨again, there, own, _⟩ :=
        held.queued operation.queue m ((comes.others m other).mp (List.takeWhile_subset _ earlier))
      cases here.symm.trans there
      exact mem_outstanding.mpr ⟨issued, found, here, of_decide_eq_true accepted, own⟩
    · rw [List.append_nil]
      exact first
  · intro n found there
    rcases TaskList.of_modify there with ⟨old, here, rfl, rfl⟩ | ⟨_, here⟩
    · cases comes.here.symm.trans here
      have entry := held.entry n operation here
      refine ⟨entry.own, entry.reported, fun cancelled => ?_, fun none_ => by simp at none_, entry.posted⟩
      rw [comes.live] at cancelled
      simp at cancelled
    · exact held.entry n found here

/-- What a new operation is, and one that waits. -/
structure Attemptable (s : ClientBridge) (number count : Nat) (operation : Operation) : Prop where
  here : s.operations[number]? = some operation
  fresh : count = 0 → operation.accepted = none ∧ operation.cancelled = false ∧ number ∉ s.issued ∧
    number ∉ s.pendingRetries ∧ ∀ queue, number ∉ s.pendingIds queue

/-- The attempt that holds `gattLock` may be made. -/
def Ready (s : ClientBridge) : Prop :=
  ∀ attempting, s.attempting = some attempting → ∃ operation, Attemptable s attempting.number attempting.count operation

/-- Who holds `gattLock` is not its concern. -/
theorem Attemptable.unlocked {count : Nat} {operation : Operation} (able : Attemptable s number count operation) :
    Attemptable { s with attempting := none } number count operation := ⟨able.here, able.fresh⟩

theorem Attemptable.untouched {count : Nat} {operation : Operation} (able : Attemptable s number count operation)
    (first : count = 0) : number ∉ s.pendingRetries ∧ number ∉ s.pendingIds operation.queue := by
  obtain ⟨_, _, _, unposted, unqueued⟩ := able.fresh first
  exact ⟨unposted, unqueued _⟩

theorem Ready.able (ready : Ready s) {attempting : Attempting} {operation : Operation}
    (holds : s.attempting = some attempting) (here : s.operations[attempting.number]? = some operation) :
    Attemptable s attempting.number attempting.count operation := by
  obtain ⟨found, able⟩ := ready attempting holds
  cases here.symm.trans able.here
  exact able

/-- A step that issues and posts nothing leaves an attempt under way as it was. -/
theorem Ready.kept (ready : Ready s) {after : ClientBridge}
    (holds : ∀ attempting, after.attempting = some attempting →
      ∃ before, s.attempting = some before ∧ before.number = attempting.number ∧ before.count = attempting.count)
    (operations : after.operations = s.operations) (issued : after.issued = s.issued)
    (retries : after.pendingRetries = s.pendingRetries)
    (queues : ∀ queue, after.pendingIds queue ⊆ s.pendingIds queue) : Ready after := by
  intro attempting there
  obtain ⟨before, held, number, count⟩ := holds attempting there
  obtain ⟨operation, able⟩ := ready before held
  rw [number, count] at able
  refine ⟨operation, operations ▸ able.here, fun first => ?_⟩
  obtain ⟨unaccepted, live, unissued, unposted, unqueued⟩ := able.fresh first
  rw [← issued] at unissued
  rw [← retries] at unposted
  exact ⟨unaccepted, live, unissued, unposted, fun queue there => unqueued queue (queues queue there)⟩

theorem unissued (held : Matching s) {count : Nat} {operation : Operation} (ready : Attemptable s number count operation)
    (waiting : count = 0 ∨ number ∈ s.pendingRetries) :
    operation.accepted = none ∧ operation.cancelled = false ∧ number ∉ s.issued := by
  rcases waiting with first | waits
  · obtain ⟨unaccepted, live, unissued, _⟩ := ready.fresh first
    exact ⟨unaccepted, live, unissued⟩
  · obtain ⟨found, here, unaccepted, live, _⟩ := held.retries number waits
    cases ready.here.symm.trans here
    refine ⟨unaccepted, live, fun issued => ?_⟩
    obtain ⟨again, there, accepted, _⟩ := held.issued number issued
    cases here.symm.trans there
    simp [unaccepted] at accepted

theorem comes (held : Matching s) {count : Nat} {operation : Operation} (ready : Attemptable s number count operation)
    (waiting : count = 0 ∨ number ∈ s.pendingRetries)
    (owner : s.connectedGatts[operation.address]? = some operation.session) :
    Comes s number operation
      (if count = 0 then s.pendingIds operation.queue ++ [number] else s.pendingIds operation.queue) := by
  obtain ⟨unaccepted, live, unissued⟩ := held.unissued ready waiting
  have pending := (held.entry number operation ready.here).pending unaccepted
  have waits : ∀ queue, number ∈ s.pendingIds queue → queue = operation.queue := by
    intro queue there
    obtain ⟨found, here, own, _⟩ := held.queued queue number there
    cases ready.here.symm.trans here
    exact own.symm
  by_cases first : count = 0
  · obtain ⟨_, _, _, _, unqueued⟩ := ready.fresh first
    rw [if_pos first]
    refine ⟨ready.here, unaccepted, pending, live, unissued, ?_, ?_, ?_, .inr rfl, waits⟩
    · exact List.mem_append_right _ (List.mem_singleton_self _)
    · exact (List.perm_append_singleton number _).nodup_iff.mpr (List.nodup_cons.mpr ⟨unqueued _, held.distinct _⟩)
    · intro n other
      rw [List.mem_append, List.mem_singleton, or_iff_left other]
  · obtain ⟨found, here, _, _, _, current⟩ := held.retries number (waiting.resolve_left first)
    cases ready.here.symm.trans here
    rw [if_neg first]
    exact ⟨ready.here, unaccepted, pending, live, unissued, current owner, held.distinct _, fun _ _ => Iff.rfl, .inl rfl,
      waits⟩

theorem attempted (held : Matching s) {count : Nat} {operation : Operation} {removed startable accepted : Bool}
    {after : ClientBridge} (ready : Attemptable s number count operation)
    (kept : startable = true → s.gattSessions[operation.address]? = some operation.session →
      count = 0 ∨ number ∈ s.pendingRetries → removed = false ∧ (accepted = true → s.unblocked number operation = true))
    (attempted : Attempted s number count operation removed startable accepted after) : Matching after := by
  cases attempted with
  | ignored => exact held
  | failed waiting =>
    obtain ⟨_, _, unissued⟩ := held.unissued ready waiting
    have own : ∀ found, s.operations[number]? = some found → found.queue = operation.queue := by
      intro found here
      cases ready.here.symm.trans here
      rfl
    rw [held.dequeue_eq own]
    refine (held.withdrawn unissued).change (fun _ => rfl) (fun _ => rfl) (fun _ => rfl) (fun _ => rfl) (fun _ _ => rfl)
      (fun _ _ => rfl) fun found here => ?_
    have entry := held.entry number found here
    refine ⟨fun told there m completes => ?_, fun success completed => ?_, entry.cancelled, entry.pending, entry.posted⟩
    · rcases List.mem_append.mp there with before | last
      · exact entry.own told before m completes
      · rw [List.mem_singleton] at last
        subst last
        cases completes
    · obtain ⟨told, there, reports⟩ := entry.reported success completed
      exact ⟨told, List.mem_append_left _ there, reports⟩
  | issued ids gatt yes started owner session queued waiting =>
    obtain ⟨unremoved, unblocked⟩ := kept started session waiting
    rw [held.sessions] at session
    cases session.symm.trans owner
    have comes := held.comes ready waiting session
    rw [unremoved] at queued
    simp only [and_true] at queued
    rw [← queued] at comes
    refine held.accepted comes session fun m earlier => ?_
    have clear := unblocked yes
    unfold ClientBridge.unblocked at clear
    refine List.all_eq_true.mp clear m ?_
    rcases comes.grown with rfl | rfl
    · exact earlier
    · have passing : ∀ n ∈ s.pendingIds operation.queue, decide (n ≠ number) = true := by
        rintro n there
        rw [decide_eq_true_eq]
        rintro rfl
        have distinct := (List.perm_append_singleton n _).nodup_iff.mp comes.distinct
        exact (List.nodup_cons.mp distinct).1 there
      rw [List.takeWhile_append_of_pos passing] at earlier
      rw [List.takeWhile_eq_self_iff.mpr passing]
      simpa using earlier
  | postponed ids started session queued waiting =>
    obtain ⟨unremoved, _⟩ := kept started session waiting
    rw [held.sessions] at session
    have comes := held.comes ready waiting session
    rw [unremoved] at queued
    simp only [and_true] at queued
    rw [← queued] at comes
    exact held.postponed comes (held.owner _ _ session) _

/-- A new one has been nowhere yet. -/
theorem new_ready (held : Matching s) {operation : Operation}
    (new : operation = {
      kind := operation.kind, address := operation.address, uuid := operation.uuid, session := operation.session }) :
    Attemptable (s.request operation) s.operations.length 0 operation := by
  have beyond : ∀ found, s.operations[s.operations.length]? ≠ some found := by
    intro found here
    exact absurd (TaskList.lt_length here) (Nat.lt_irrefl _)
  refine ⟨List.getElem?_concat_length, fun _ => ⟨by rw [new], by rw [new], ?_, ?_, ?_⟩⟩
  · intro there
    obtain ⟨found, here, _⟩ := held.issued _ there
    exact beyond found here
  · intro there
    obtain ⟨found, here, _⟩ := held.retries _ there
    exact beyond found here
  · intro queue there
    obtain ⟨found, here, _⟩ := held.queued queue _ there
    exact beyond found here

theorem requested (held : Matching s) {operation : Operation}
    (new : operation = {
      kind := operation.kind, address := operation.address, uuid := operation.uuid, session := operation.session }) :
    Matching (s.request operation) := by
  refine ⟨held.sessions, held.owner, ?_, held.distinct, ?_, held.single, ?_, held.once, ?_, ?_⟩
  · intro queue n there
    obtain ⟨found, here, rest⟩ := held.queued queue n there
    exact ⟨found, TaskList.getElem?_append_of here _, rest⟩
  · intro n there
    obtain ⟨found, here, rest⟩ := held.retries n there
    exact ⟨found, TaskList.getElem?_append_of here _, rest⟩
  · intro n there
    obtain ⟨found, here, rest⟩ := held.issued n there
    exact ⟨found, TaskList.getElem?_append_of here _, rest⟩
  · intro queue gatt owner
    have same : (s.request operation).outstanding gatt queue = s.outstanding gatt queue := by
      refine outstanding_congr rfl fun n there => ?_
      obtain ⟨found, here, _⟩ := held.issued n there
      have after : (s.request operation).operations[n]? = some found := TaskList.getElem?_append_of here _
      rw [after, here]
    rw [same]
    exact held.first queue gatt owner
  · intro n found there
    rcases TaskList.of_append there with here | ⟨rfl, rfl⟩
    · exact held.entry n found here
    · rw [new]
      exact ⟨by simp, by simp, by simp, by simp, by simp⟩

/-- Who holds `gattLock` is not its concern. -/
theorem unlocked (held : Matching s) (attempting : Option Attempting) : Matching { s with attempting := attempting } :=
  ⟨held.sessions, held.owner, held.queued, held.distinct, held.retries, held.single, held.issued, held.once, held.first,
    held.entry⟩

theorem retried (held : Matching s) (count : Nat) (operation : Operation) : Matching (s.retry number count operation) := by
  refine Matching.unlocked (s := s.change number fun operation => { operation with posted := none }) ?_ _
  refine held.change (fun _ => rfl) (fun _ => rfl) (fun _ => rfl) (fun _ => rfl) (fun _ _ => rfl) (fun _ _ => rfl) ?_
  intro found here
  have entry := held.entry number found here
  exact ⟨entry.own, entry.reported, entry.cancelled, entry.pending, by simp⟩

theorem cancelled (held : Matching s) : Matching (s.cancelPendingOperation number) := by
  have marks : ∀ after : ClientBridge, Matching after → number ∉ after.pendingRetries → Matching (after.change number
      fun operation => { operation with cancelled := operation.cancelled || operation.accepted.isNone }) := by
    intro after held unposted
    refine held.change (fun _ => rfl) (fun _ => rfl) (fun _ => rfl) (fun _ => rfl) (fun _ _ => rfl)
      (fun posted => absurd posted unposted) fun found here => ?_
    have entry := held.entry number found here
    refine ⟨entry.own, entry.reported, fun cancelled => ?_, entry.pending, entry.posted⟩
    rcases Bool.or_eq_true_iff.mp cancelled with before | unaccepted
    · exact entry.cancelled before
    · exact Option.isNone_iff_eq_none.mp unaccepted
  unfold cancelPendingOperation
  dsimp only
  split
  · rename_i posted
    obtain ⟨operation, here, unaccepted, _⟩ := held.retries number posted
    have unissued : number ∉ s.issued := by
      intro there
      obtain ⟨again, at_, accepted, _⟩ := held.issued number there
      cases here.symm.trans at_
      simp [unaccepted] at accepted
    exact marks _ (held.withdrawn unissued) held.single.not_mem_erase
  · rename_i unposted
    exact marks s held unposted

theorem queue_completion {left right : Operation} (same : left.queue = right.queue) :
    left.kind.completion = right.kind.completion := by
  unfold Operation.queue at same
  cases leftKind : left.kind <;> cases rightKind : right.kind <;> simp [leftKind, rightKind] at same <;> rfl

/-- The oldest of its kind is the first of its queue that its GATT has. -/
theorem outstanding_oldest (held : Matching s) {gatt : Nat} {operation : Operation} {completion : Completion}
    (oldest : (s.issued.find? fun number => s.operations[number]?.any fun operation =>
      decide (operation.accepted = some gatt) && decide (operation.kind.completion = completion)) = some number)
    (here : s.operations[number]? = some operation) :
    operation.accepted = some gatt ∧ number ∈ s.issued ∧
    s.outstanding gatt operation.queue =
        number :: { s with issued := s.issued.erase number }.outstanding gatt operation.queue ∧
      ∀ other queue, ¬(other = gatt ∧ queue = operation.queue) →
        { s with issued := s.issued.erase number }.outstanding other queue = s.outstanding other queue := by
  obtain ⟨found, before, after, issued, earlier⟩ := List.find?_eq_some_iff_append.mp oldest
  rw [here, Option.any_some, Bool.and_eq_true, decide_eq_true_eq, decide_eq_true_eq] at found
  obtain ⟨accepted, kind⟩ := found
  have once := held.once
  rw [issued] at once
  have absent : number ∉ before := by
    intro there
    exact (List.nodup_append.mp once).2.2 number there number List.mem_cons_self rfl
  have erased : s.issued.erase number = before ++ after := by
    rw [issued, List.erase_append_right _ absent, List.erase_cons_head]
  refine ⟨accepted, by rw [issued]; simp, ?_, ?_⟩
  · unfold outstanding
    dsimp only
    rw [erased, issued, List.filter_append, List.filter_append, List.filter_cons_of_pos (by simp [here, accepted])]
    have none_ : (before.filter fun n => s.operations[n]?.any fun found =>
        decide (found.accepted = some gatt) && decide (found.queue = operation.queue)) = [] := by
      refine List.filter_eq_nil_iff.mpr fun n there matched => ?_
      obtain ⟨found, at_, same⟩ := Option.any_eq_true _ _ |>.mp matched
      rw [Bool.and_eq_true, decide_eq_true_eq, decide_eq_true_eq] at same
      have apart := earlier n there
      rw [at_, Option.any_some, same.1, queue_completion same.2, kind] at apart
      simp at apart
    rw [none_, List.nil_append, List.nil_append]
  · intro other queue apart
    unfold outstanding
    dsimp only
    rw [erased, issued, List.filter_append, List.filter_append, List.filter_cons_of_neg]
    rw [here, Option.any_some, accepted, Bool.and_eq_true, decide_eq_true_eq, decide_eq_true_eq, Option.some.injEq]
    rintro ⟨rfl, rfl⟩
    exact apart ⟨rfl, rfl⟩

/-- The GATT has its address, and the queue begins with the operation's own
id. -/
theorem complete_eq {gatt : Nat} {operation : Operation} {completion : Completion} {value : Bytes} {success : Bool}
    {tail : List Nat} (owner : s.connectedGatts[operation.address]? = some gatt)
    (queue : s.pendingIds operation.queue = number :: tail) :
    s.complete number gatt operation completion value success =
      ({ s with issued := s.issued.erase number }.setQueue operation.queue tail).change number fun operation =>
        { operation with
          completed := some success
          told := operation.told ++
            [(⟨some number, if completion = Completion.onCharacteristicRead then value else [], success⟩ : Told)] } := by
  have owns : ({ s with issued := s.issued.erase number } : ClientBridge).owns gatt operation.address = true :=
    decide_eq_true owner
  simp only [complete, owns, if_true, ClientBridge.change, queue, tell, setQueue, List.modify_modify_eq]
  rfl

theorem completed (held : Matching s) {gatt : Nat} {operation : Operation} {completion : Completion} (value : Bytes)
    (success : Bool)
    (oldest : (s.issued.find? fun number => s.operations[number]?.any fun operation =>
      decide (operation.accepted = some gatt) && decide (operation.kind.completion = completion)) = some number)
    (here : s.operations[number]? = some operation) :
    Matching (s.complete number gatt operation completion value success) := by
  obtain ⟨accepted, issued, head, others⟩ := held.outstanding_oldest oldest here
  have remaining : ∀ n ∈ s.issued.erase number, n ∈ s.issued := fun n => List.mem_of_mem_erase
  by_cases owner : s.connectedGatts[operation.address]? = some gatt
  · have first := held.first operation.queue gatt ((Operation.queue_address operation).symm ▸ owner)
    rw [head] at first
    obtain ⟨tail, queue, follows⟩ := FifoMatch.completed first
    have distinct := held.distinct operation.queue
    rw [queue, List.nodup_cons] at distinct
    have popped : Matching ({ s with issued := s.issued.erase number }.setQueue operation.queue tail) := by
      have within : ∀ {at_ n}, n ∈ ({ s with issued := s.issued.erase number }.setQueue operation.queue tail).pendingIds at_ →
          n ∈ s.pendingIds at_ := by
        intro at_ n there
        unfold setQueue at there
        dsimp only at there
        split at there
        · rename_i same
          rw [same, queue]
          exact List.mem_cons_of_mem _ there
        · exact there
      refine ⟨held.sessions, held.owner, fun at_ n there => held.queued at_ n (within there), ?_, ?_, held.single, ?_,
        held.once.erase number, ?_, held.entry⟩
      · intro at_
        unfold setQueue
        dsimp only
        split
        · exact distinct.2
        · exact held.distinct at_
      · intro n there
        obtain ⟨found, at_, unaccepted, live, stored, waits⟩ := held.retries n there
        refine ⟨found, at_, unaccepted, live, stored, fun current => ?_⟩
        have before := waits current
        unfold setQueue
        dsimp only
        split
        · rename_i same
          rw [same, queue] at before
          rcases List.mem_cons.mp before with rfl | later
          · cases here.symm.trans at_
            simp [accepted] at unaccepted
          · exact later
        · exact before
      · intro n there
        exact held.issued n (remaining n there)
      · intro at_ other has
        unfold setQueue
        dsimp only
        split
        · rename_i same
          subst same
          have its : other = gatt := by
            rw [Operation.queue_address] at has
            exact Option.some.inj (has.symm.trans owner)
          subst its
          exact follows
        · rename_i elsewhere
          have first := held.first at_ other has
          rw [← others other at_ fun both => elsewhere both.2] at first
          exact first
    rw [complete_eq owner queue]
    refine popped.change (fun _ => rfl) (fun _ => rfl) (fun _ => rfl) (fun _ => rfl)
      (fun there => absurd there held.once.not_mem_erase) (fun _ _ => rfl) fun found at_ => ?_
    cases here.symm.trans at_
    have entry := held.entry number operation here
    refine ⟨fun told there m completes => ?_, fun said completed => ?_, entry.cancelled,
      fun unaccepted => ?_, entry.posted⟩
    · rcases List.mem_append.mp there with before | last
      · exact entry.own told before m completes
      · rw [List.mem_singleton] at last
        subst last
        exact (Option.some.inj completes).symm
    · cases completed
      exact ⟨_, List.mem_append_right _ (List.mem_singleton_self _), rfl, rfl⟩
    · exact absurd (accepted.symm.trans unaccepted) (by simp)
  · have after : s.complete number gatt operation completion value success =
        { s with issued := s.issued.erase number } := by
      have lost : ({ s with issued := s.issued.erase number } : ClientBridge).owns gatt operation.address = false :=
        decide_eq_false owner
      simp only [complete, lost, Bool.false_eq_true, if_false]
    rw [after]
    refine ⟨held.sessions, held.owner, held.queued, held.distinct, held.retries, held.single, ?_, held.once.erase number, ?_,
      held.entry⟩
    · intro n there
      exact held.issued n (remaining n there)
    · intro at_ other has
      have elsewhere : ¬(other = gatt ∧ at_ = operation.queue) := by
        rintro ⟨rfl, rfl⟩
        rw [Operation.queue_address] at has
        exact owner has
      rw [others other at_ elsewhere]
      exact held.first at_ other has

/-- What stays where the maps of an address change and its queues are as
they were, or emptied. -/
theorem owners (held : Matching s) {after : ClientBridge} (operations : after.operations = s.operations)
    (retries : after.pendingRetries = s.pendingRetries) (issued : after.issued = s.issued)
    (sessions : after.gattSessions = after.connectedGatts)
    (owner : ∀ (address : PeerAddress) (gatt : Nat), after.connectedGatts[address]? = some gatt → after.Stored gatt)
    (stored : ∀ gatt, s.Stored gatt → after.Stored gatt)
    (queues : ∀ queue, after.pendingIds queue = s.pendingIds queue ∨ after.pendingIds queue = [])
    (waits : ∀ n (operation : Operation), n ∈ s.pendingRetries → s.operations[n]? = some operation →
      after.connectedGatts[operation.address]? = some operation.session →
        s.connectedGatts[operation.address]? = some operation.session ∧
          after.pendingIds operation.queue = s.pendingIds operation.queue)
    (first : ∀ (queue : OperationQueue) (gatt : Nat), after.connectedGatts[queue.address]? = some gatt →
      s.outstanding gatt queue <+: after.pendingIds queue) : Matching after := by
  have within : ∀ {queue n}, n ∈ after.pendingIds queue → n ∈ s.pendingIds queue := by
    intro queue n there
    rcases queues queue with same | empty
    · rw [same] at there
      exact there
    · rw [empty] at there
      simp at there
  refine ⟨sessions, owner, ?_, ?_, ?_, ?_, ?_, ?_, ?_, ?_⟩
  · intro queue n there
    rw [operations, retries]
    exact held.queued queue n (within there)
  · intro queue
    rcases queues queue with same | empty
    · rw [same]
      exact held.distinct queue
    · rw [empty]
      exact List.nodup_nil
  · intro n there
    rw [retries] at there
    obtain ⟨operation, here, unaccepted, live, kept, waiting⟩ := held.retries n there
    rw [operations]
    refine ⟨operation, here, unaccepted, live, stored _ kept, fun current => ?_⟩
    obtain ⟨before, same⟩ := waits n operation there here current
    rw [same]
    exact waiting before
  · rw [retries]
    exact held.single
  · intro n there
    rw [issued] at there
    obtain ⟨operation, here, accepted, pending, kept⟩ := held.issued n there
    rw [operations]
    exact ⟨operation, here, accepted, pending, stored _ kept⟩
  · rw [issued]
    exact held.once
  · intro queue gatt has
    rw [outstanding_congr issued fun n _ => by rw [operations]]
    exact first queue gatt has
  · rw [operations]
    exact held.entry

/-- The address has no GATT any more, whatever becomes of its queues. -/
theorem removed (held : Matching s) (address : PeerAddress) (found : PeerMap (List DiscoveredCharacteristic))
    (ids : OperationQueue → List Nat) (closings : List (PeerAddress × Clearing))
    (kept : ∀ queue, queue.address ≠ address → ids queue = s.pendingIds queue)
    (queues : ∀ queue, ids queue = s.pendingIds queue ∨ ids queue = []) :
    Matching { s with
      connectedGatts := s.connectedGatts.erase address, gattSessions := s.gattSessions.erase address
      pendingCharacteristics := found, pendingIds := ids, closings := closings } := by
  have elsewhere : ∀ {at_ gatt}, (s.connectedGatts.erase address)[at_]? = some gatt →
      at_ ≠ address ∧ s.connectedGatts[at_]? = some gatt := by
    intro at_ gatt has
    rw [FiniteMap.getElem?_erase] at has
    split at has
    · simp at has
    · rename_i other
      exact ⟨other, has⟩
  refine held.owners rfl rfl rfl ?_ ?_ (fun _ => id) queues ?_ ?_
  · dsimp only
    rw [held.sessions]
  · intro at_ gatt has
    exact held.owner at_ gatt (elsewhere has).2
  · intro n operation _ _ has
    obtain ⟨other, before⟩ := elsewhere has
    exact ⟨before, kept _ (by rw [Operation.queue_address]; exact other)⟩
  · intro queue gatt has
    obtain ⟨other, before⟩ := elsewhere has
    dsimp only
    rw [kept queue other]
    exact held.first queue gatt before

theorem stored (held : Matching s) {gatt : Nat} {opened : OpenedGatt} (here : s.gatts[gatt]? = some opened)
    (unstored : opened.stored = false) : Matching (s.store gatt opened.address) := by
  have new : ¬s.Stored gatt := by
    rintro ⟨found, at_, stored⟩
    cases here.symm.trans at_
    simp [unstored] at stored
  have now : (s.store gatt opened.address).Stored gatt := by
    refine ⟨{ opened with stored := true }, ?_, rfl⟩
    refine (TaskList.getElem?_modify _).trans ((if_pos rfl).trans ?_)
    rw [here]
    rfl
  have still : ∀ other, s.Stored other → (s.store gatt opened.address).Stored other := by
    rintro other ⟨found, at_, stored⟩
    by_cases same : other = gatt
    · exact same ▸ now
    · exact ⟨found, (TaskList.getElem?_modify _).trans ((if_neg same).trans at_), stored⟩
  have has : ∀ {at_ : PeerAddress} {other : Nat}, (s.store gatt opened.address).connectedGatts[at_]? = some other →
      other = gatt ∨ s.connectedGatts[at_]? = some other := by
    intro at_ other has
    change (s.connectedGatts.insert opened.address gatt)[at_]? = some other at has
    rw [FiniteMap.getElem?_insert] at has
    split at has
    · exact .inl (Option.some.inj has).symm
    · exact .inr has
  refine held.owners rfl rfl rfl ?_ ?_ still (fun _ => .inl rfl) ?_ ?_
  · unfold store
    dsimp only
    rw [held.sessions]
  · intro at_ other found
    rcases has found with rfl | before
    · exact now
    · exact still other (held.owner at_ other before)
  · intro n operation there at_ found
    rcases has found with same | before
    · obtain ⟨again, at_again, _, _, stored, _⟩ := held.retries n there
      cases at_.symm.trans at_again
      exact absurd (same ▸ stored) new
    · exact ⟨before, rfl⟩
  · intro queue other found
    rcases has found with rfl | before
    · -- nothing was issued on it before it is stored
      have none_ : s.outstanding other queue = [] := by
        refine List.eq_nil_iff_forall_not_mem.mpr fun n there => ?_
        obtain ⟨issued, operation, at_, accepted, _⟩ := mem_outstanding.mp there
        obtain ⟨again, at_again, its, _, stored⟩ := held.issued n issued
        cases at_.symm.trans at_again
        cases accepted.symm.trans its
        exact new stored
      rw [none_]
      exact List.nil_prefix
    · exact held.first queue other before

theorem clear (held : Matching s) {queue : OperationQueue} (closings : List (PeerAddress × Clearing))
    (others : (s.pendingIds queue).all (fun n => s.operations[n]?.all fun operation =>
      decide (s.connectedGatts[operation.address]? ≠ some operation.session)) = true) :
    Matching { s.clear queue with closings := closings } := by
  have stale : ∀ n (operation : Operation), n ∈ s.pendingIds queue → s.operations[n]? = some operation →
      s.connectedGatts[operation.address]? ≠ some operation.session := by
    intro n operation there here
    have apart := List.all_eq_true.mp others n there
    rw [here, Option.all_some, decide_eq_true_eq] at apart
    exact apart
  refine held.owners rfl rfl rfl held.sessions held.owner (fun _ => id) ?_ ?_ ?_
  · intro other
    unfold ClientBridge.clear setQueue
    dsimp only
    split
    · exact .inr rfl
    · exact .inl rfl
  · intro n operation posted here current
    refine ⟨current, ?_⟩
    unfold ClientBridge.clear setQueue
    dsimp only
    split
    · rename_i same
      obtain ⟨again, at_, _, _, _, waits⟩ := held.retries n posted
      cases here.symm.trans at_
      exact absurd current (stale n operation (same ▸ waits current) here)
    · rfl
  · intro other gatt has
    unfold ClientBridge.clear setQueue
    dsimp only
    split
    · rename_i same
      subst same
      have none_ : s.outstanding gatt other = [] := by
        refine List.eq_nil_iff_forall_not_mem.mpr fun n there => ?_
        obtain ⟨issued, operation, here, accepted, own⟩ := mem_outstanding.mp there
        obtain ⟨again, at_, its, _⟩ := held.issued n issued
        cases here.symm.trans at_
        cases accepted.symm.trans its
        refine stale n operation ((held.first other _ has).subset there) here ?_
        rw [← Operation.queue_address, own]
        exact has
      rw [none_]
    · exact held.first other gatt has

theorem step (held : Matching s) (ready : Ready s) {s' : ClientBridge} {label : ClientStep}
    (ok : s.keepsOrder label = true) (stepped : Stepped s label s') : Matching s' := by
  cases stepped with
  | same => exact held
  | connectGatt address =>
    have still : ∀ gatt, s.Stored gatt → ({ s with gatts := s.gatts ++ [{ address := address }] } : ClientBridge).Stored gatt := by
      rintro gatt ⟨opened, here, stored⟩
      exact ⟨opened, TaskList.getElem?_append_of here _, stored⟩
    exact held.owners rfl rfl rfl held.sessions (fun at_ gatt has => still gatt (held.owner at_ gatt has)) still
      (fun _ => .inl rfl) (fun _ _ _ _ has => ⟨has, rfl⟩) held.first
  | stored free here unstored => exact held.stored here unstored
  | lost free address =>
    refine held.removed address _ _ _ ?_ ?_
    · intro queue other
      exact if_neg other
    · intro queue
      by_cases same : queue.address = address
      · exact .inr (if_pos same)
      · exact .inl (if_neg same)
  | discovered free found =>
    exact held.owners rfl rfl rfl held.sessions held.owner (fun _ => id) (fun _ => .inl rfl)
      (fun _ _ _ _ has => ⟨has, rfl⟩) held.first
  | closedAll =>
    exact held.owners rfl rfl rfl rfl (by simp [closeAllClientGatts]) (fun _ => id) (fun _ => .inr rfl)
      (by simp [closeAllClientGatts]) (by simp [closeAllClientGatts])
  | closed free address closings => exact held.removed address _ s.pendingIds closings (fun _ _ => rfl) fun _ => .inl rfl
  | cleared closings =>
    exact held.owners rfl rfl rfl held.sessions held.owner (fun _ => id) (fun _ => .inl rfl)
      (fun _ _ _ _ has => ⟨has, rfl⟩) held.first
  | clear queue closings => exact held.clear closings ok
  | requested free operation new => exact held.requested new
  | retried free here posted => exact held.retried _ _
  | @attempted attempting operation enabled accepted holds here =>
    have able := (ready.able holds here).unlocked
    refine (held.unlocked none).attempted able ?_ (attempt_cases able.untouched)
    · intro started session waiting
      have comes : s.comesToStack attempting operation enabled = true := by
        unfold comesToStack
        rw [Bool.and_eq_true, Bool.and_eq_true, Bool.or_eq_true, decide_eq_true_eq, decide_eq_true_eq, decide_eq_true_eq]
        exact ⟨⟨waiting, session⟩, started⟩
      unfold keepsOrder at ok
      dsimp only at ok
      rw [holds, Option.all_some, here, Option.all_some, comes, Bool.not_true, Bool.false_or, Bool.and_eq_true,
        Bool.not_eq_true', Bool.or_eq_true, Bool.not_eq_true'] at ok
      refine ⟨ok.1, fun yes => ok.2.resolve_left ?_⟩
      rw [yes]
      simp
  | cancelled => exact held.cancelled
  | completed free value success oldest here => exact held.completed value success oldest here

/-- Whatever comes to be, an attempt that holds `gattLock` may go on. -/
theorem ready (held : Matching s) (ready : Ready s) {s' : ClientBridge} {label : ClientStep}
    (stepped : Stepped s label s') : Ready s' := by
  have vacant : ∀ {after : ClientBridge}, after.attempting = none → Ready after := by
    intro after none_ attempting holds
    rw [none_] at holds
    simp at holds
  have same : ∀ attempting, s.attempting = some attempting →
      ∃ before, s.attempting = some before ∧ before.number = attempting.number ∧ before.count = attempting.count :=
    fun attempting holds => ⟨attempting, holds, rfl, rfl⟩
  cases stepped with
  | same => exact ready
  | connectGatt address => exact ready.kept same rfl rfl rfl fun _ => List.Subset.refl _
  | stored free here unstored => exact vacant free
  | lost free address => exact vacant free
  | discovered free found => exact vacant free
  | closedAll free => exact vacant free
  | closed free address closings => exact vacant free
  | cleared closings => exact ready.kept same rfl rfl rfl fun _ => List.Subset.refl _
  | clear queue closings =>
    refine ready.kept ?_ rfl rfl rfl fun other => ?_
    · intro attempting holds
      change s.attempting.map _ = some attempting at holds
      obtain ⟨before, held, rfl⟩ := Option.map_eq_some_iff.mp holds
      exact ⟨before, held, rfl, rfl⟩
    · change (s.setQueue queue []).pendingIds other ⊆ s.pendingIds other
      unfold setQueue
      dsimp only
      split
      · exact List.nil_subset _
      · exact List.Subset.refl _
  | requested free operation new =>
    intro attempting holds
    cases Option.some.inj holds
    exact ⟨operation, held.new_ready new⟩
  | @retried number count operation free here posted =>
    intro attempting holds
    cases Option.some.inj holds
    have later : 0 < count := (held.entry number operation here).posted count posted
    refine ⟨{ operation with posted := none }, ?_, fun first => absurd first later.ne'⟩
    exact (TaskList.getElem?_modify _).trans ((if_pos rfl).trans (by rw [here]; rfl))
  | attempted enabled accepted holds here =>
    have able := (ready.able holds here).unlocked
    exact vacant (Attempted.attempting (attempt_cases able.untouched))
  | @cancelled number free =>
    refine vacant ?_
    unfold cancelPendingOperation
    dsimp only
    split <;> exact free
  | completed free value success oldest here =>
    refine vacant ?_
    unfold complete
    dsimp only
    split
    · split <;> exact free
    · exact free

theorem run {h : Unit} (run : machine.Run (fun _ s label => s.keepsOrder label = true) (fun _ _ _ _ => ()) () h s) :
    Matching s := by
  have both : Matching s ∧ Ready s := by
    refine run.invariant (P := fun _ s => Matching s ∧ Ready s) ?_ ?_
    · rintro s rfl
      refine ⟨⟨rfl, by simp, by simp, fun _ => List.nodup_nil, by simp, List.nodup_nil, by simp, List.nodup_nil, by simp,
        by simp⟩, fun attempting holds => ?_⟩
      simp at holds
    · intro _ s label s' _ held ok step
      exact ⟨held.1.step held.2 ok (step_cases step), held.1.ready held.2 (step_cases step)⟩
  exact both.1

theorem matched (held : Matching s) : Matches s where
  own n operation here := (held.entry n operation here).own
  reported n operation success here := (held.entry n operation here).reported success
  cancelled n operation here cancelled := by
    have unaccepted := (held.entry n operation here).cancelled cancelled
    refine ⟨unaccepted, fun queue there => ?_⟩
    obtain ⟨found, at_, _, accepted | waits⟩ := held.queued queue n there
    · cases here.symm.trans at_
      exact accepted unaccepted
    · obtain ⟨again, at_again, _, live, _⟩ := held.retries n waits
      cases here.symm.trans at_again
      simp [live] at cancelled
  live n issued operation gatt here accepted owner := by
    refine (held.first operation.queue gatt ((Operation.queue_address operation).symm ▸ owner)).subset ?_
    exact mem_outstanding.mpr ⟨issued, operation, here, accepted, rfl⟩
  waiting n there operation here current := by
    obtain ⟨again, at_, _, _, _, waits⟩ := held.retries n there
    cases here.symm.trans at_
    exact waits current

end Matching

/-- In every run in which each operation is accepted in its order and no
`closeConnection` takes the ids of a later connection. -/
theorem run_matches {h : Unit} {s : ClientBridge}
    (run : machine.Run (fun _ s label => s.keepsOrder label = true) (fun _ _ _ _ => ()) () h s) : Matches s :=
  (Matching.run run).matched

def readCharacteristic : CharacteristicUuid := ⟨3⟩

/-- A connection whose characteristics are found. -/
def connects (gatt : Nat) : List ClientStep :=
  [.connectGatt ⟨"AA"⟩, .store gatt, .onServicesDiscovered gatt (some [{ uuid := readCharacteristic, cccd := true }])]

/-- A read that is refused once, and is retried. -/
def readsTwice : List ClientStep :=
  connects 0 ++
    [.request .read ⟨"AA"⟩ readCharacteristic 0, .attempt true false, .retry 0, .attempt true true,
     .complete 0 .onCharacteristicRead [7] true]

/-- The connection is closed, and the next one's read is accepted before
`closeConnection` has removed the ids. -/
def closesLate : List ClientStep :=
  connects 0 ++ [.closeConnection ⟨"AA"⟩] ++ connects 1 ++
    [.request .read ⟨"AA"⟩ readCharacteristic 1, .attempt true true, .clear 0 (.reads ⟨"AA"⟩),
     .complete 1 .onCharacteristicRead [7] true]

theorem run_matches_retried : ∃ s, Matches s ∧ s.operations.any (fun operation =>
    decide (operation.told = [{ completes := some 0, value := [7], success := true }])) = true := by
  obtain ⟨_, s, run, told⟩ := Machine.Run.exists_of_follow machine (fun _ s label => s.keepsOrder label = true)
    (fun _ _ _ _ => ()) ()
    (fun _ s => s.operations.any fun operation =>
      decide (operation.told = [{ completes := some 0, value := [7], success := true }])) rfl readsTwice (by decide +kernel)
  exact ⟨s, run_matches run, told⟩

/-- The callback of the new connection's read finds no id. -/
theorem not_matches : ¬ ∀ s : ClientBridge, machine.Reach s → Matches s := by
  intro claim
  obtain ⟨s, reach, silent⟩ := Machine.Reach.exists_of_follow machine
    (fun s => s.operations.any fun operation => decide (operation.completed = some true) && decide (operation.told = []))
    rfl closesLate (by decide +kernel)
  obtain ⟨operation, there, silent⟩ := List.any_eq_true.mp silent
  rw [Bool.and_eq_true, decide_eq_true_eq, decide_eq_true_eq] at silent
  obtain ⟨n, here⟩ := List.mem_iff_getElem?.mp there
  obtain ⟨told, reported, _⟩ := (claim s reach).reported n operation true here silent.1
  rw [silent.2] at reported
  simp at reported

end ClientBridge

end BleGatt
