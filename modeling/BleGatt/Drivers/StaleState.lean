import BleGatt.Drivers.ClientPriority

namespace BleGatt
open Std

/-! What `BleGattBridge` still knows of an address that has no GATT. -/

namespace ClientBridge

/-- The GATTs and their closings stay as they are, and only new ids are
queued that may be. -/
structure QueuesOnly (new : OperationQueue → Nat → Prop) (s s' : ClientBridge) : Prop where
  connected : s'.connectedGatts = s.connectedGatts
  sessions : s'.gattSessions = s.gattSessions
  characteristics : s'.pendingCharacteristics = s.pendingCharacteristics
  closings : s'.closings = s.closings
  operations : ∀ n : Nat, s'.operations[n]?.map Operation.queue = s.operations[n]?.map Operation.queue
  ids : ∀ (queue : OperationQueue) (n : Nat), n ∈ s'.pendingIds queue → n ∈ s.pendingIds queue ∨ new queue n

namespace QueuesOnly

variable {new : OperationQueue → Nat → Prop} {s s' s'' : ClientBridge} {number : Nat}

theorem refl (s : ClientBridge) : QueuesOnly new s s :=
  ⟨rfl, rfl, rfl, rfl, fun _ => rfl, fun _ _ there => .inl there⟩

theorem change (first : QueuesOnly new s s') {f : Operation → Operation} (same : ∀ operation, (f operation).queue = operation.queue) :
    QueuesOnly new s (s'.change number f) := by
  refine ⟨first.connected, first.sessions, first.characteristics, first.closings, fun n => ?_, first.ids⟩
  rw [← first.operations n]
  unfold ClientBridge.change
  dsimp only
  rw [List.getElem?_modify, Option.map_eq_map, Option.map_map]
  congr 1
  funext operation
  dsimp only [Function.comp_apply]
  split
  · exact same operation
  · rfl

theorem tell (first : QueuesOnly new s s') (told : Told) : QueuesOnly new s (s'.tell number told) :=
  first.change fun _ => rfl

theorem setQueue (first : QueuesOnly new s s') {queue : OperationQueue} {ids : List Nat}
    (known : ∀ n ∈ ids, n ∈ s'.pendingIds queue ∨ new queue n) : QueuesOnly new s (s'.setQueue queue ids) := by
  refine ⟨first.connected, first.sessions, first.characteristics, first.closings, first.operations, fun other n there => ?_⟩
  unfold ClientBridge.setQueue at there
  dsimp only at there
  split at there
  · rename_i same
    subst same
    obtain before | now := known n there
    · exact first.ids other n before
    · exact .inr now
  · exact first.ids other n there

theorem dequeue (first : QueuesOnly new s s') (queue : OperationQueue) : QueuesOnly new s (s'.dequeue queue number) :=
  first.setQueue fun _ there => .inl (List.mem_of_mem_erase there)

end QueuesOnly

variable {s s' : ClientBridge} {number count : Nat} {operation : Operation} {removed startable enabled accepted : Bool}

/-- An attempt queues its own id, and only for the session that is current. -/
theorem attempt_queuesOnly : QueuesOnly (fun queue n => queue = operation.queue ∧ n = number ∧
    s.gattSessions[operation.address]? = some operation.session) s
      (s.attempt number count operation removed startable accepted) := by
  unfold attempt
  dsimp only
  split
  · exact .refl s
  · generalize retry : (if 0 < count then { s with pendingRetries := s.pendingRetries.erase number } else s) = s₁
    have first : QueuesOnly (fun queue n => queue = operation.queue ∧ n = number ∧
        s.gattSessions[operation.address]? = some operation.session) s s₁ := by
      rw [← retry]
      split
      · exact ⟨rfl, rfl, rfl, rfl, fun _ => rfl, fun _ _ there => .inl there⟩
      · exact .refl s
    split
    · refine QueuesOnly.tell ?_ _
      split
      · exact first.dequeue _
      · exact first
    · rename_i session
      generalize queued : (if count = 0 ∧ removed = false
        then s₁.setQueue operation.queue (s₁.pendingIds operation.queue ++ [number]) else s₁) = s₂
      have second : QueuesOnly (fun queue n => queue = operation.queue ∧ n = number ∧
          s.gattSessions[operation.address]? = some operation.session) s s₂ := by
        rw [← queued]
        split
        · refine first.setQueue fun n there => ?_
          rcases List.mem_append.mp there with before | now
          · exact .inl before
          · rw [not_ne_iff, first.sessions] at session
            exact .inr ⟨rfl, List.mem_singleton.mp now, session⟩
        · exact first
      split
      · rename_i gatt _
        split
        · have issued : QueuesOnly _ s (s₂.change number fun operation => { operation with accepted := some gatt }) :=
            second.change fun _ => rfl
          exact ⟨issued.connected, issued.sessions, issued.characteristics, issued.closings, issued.operations, issued.ids⟩
        · split
          · have postponed : QueuesOnly _ s (s₂.change number fun operation => { operation with posted := some (count + 1) }) :=
              second.change fun _ => rfl
            exact ⟨postponed.connected, postponed.sessions, postponed.characteristics, postponed.closings,
              postponed.operations, postponed.ids⟩
          · exact (second.dequeue _).tell _
      · exact (second.dequeue _).tell _

/-- A completion takes an id out of its queue. -/
theorem complete_queuesOnly {new : OperationQueue → Nat → Prop} {gatt : Nat} {completion : Completion} {value : Bytes}
    {success : Bool} : QueuesOnly new s (s.complete number gatt operation completion value success) := by
  unfold complete
  dsimp only
  have first : QueuesOnly new s { s with issued := s.issued.erase number } :=
    ⟨rfl, rfl, rfl, rfl, fun _ => rfl, fun _ _ there => .inl there⟩
  split
  · have second : QueuesOnly new s ({ s with issued := s.issued.erase number }.change number fun operation =>
        { operation with completed := some success }) := first.change fun _ => rfl
    split
    · exact second
    · rename_i requestId rest ids
      refine (second.setQueue fun n there => ?_).tell _
      exact .inl (by rw [ids]; exact List.mem_cons_of_mem _ there)
  · exact first

theorem cancel_queuesOnly {new : OperationQueue → Nat → Prop} : QueuesOnly new s (s.cancelPendingOperation number) := by
  unfold cancelPendingOperation
  dsimp only
  have marked : QueuesOnly new s (s.change number fun operation =>
      { operation with cancelled := operation.cancelled || operation.accepted.isNone }) := (QueuesOnly.refl s).change fun _ => rfl
  split
  · exact ⟨marked.connected, marked.sessions, marked.characteristics, marked.closings, marked.operations,
      fun queue n there => marked.ids queue n (List.mem_of_mem_erase there)⟩
  · exact marked

/-- A closing has still to come to a queue. -/
def Covers (sweep : List CharacteristicUuid) : Clearing → OperationQueue → Prop
  | .reads, _ => True
  | .writes, .reads _ => False
  | .writes, _ => True
  | .subscribes, .subscribes _ uuid => uuid ∈ sweep
  | _, _ => False

theorem mem_subscribeKeys {n : Nat} {address : PeerAddress} {uuid : CharacteristicUuid}
    (there : n ∈ s.pendingIds (.subscribes address uuid))
    (queued : ∀ queue n, n ∈ s.pendingIds queue → ∃ operation, s.operations[n]? = some operation ∧ operation.queue = queue) :
    uuid ∈ s.subscribeKeys address := by
  obtain ⟨operation, here, own⟩ := queued _ n there
  have uuid_eq : operation.uuid = uuid := by
    unfold Operation.queue at own
    split at own
    · simp at own
    · simp at own
    · exact (OperationQueue.subscribes.inj own).2
  unfold subscribeKeys
  refine List.mem_map.mpr ⟨operation, List.mem_filter.mpr ⟨List.mem_of_getElem? here, ?_⟩, uuid_eq⟩
  rw [own, uuid_eq, Bool.and_eq_true, decide_eq_true_eq, decide_eq_true_eq]
  exact ⟨rfl, List.ne_nil_of_mem there⟩

/-- The queues of its address that a removal leaves are still come to. -/
theorem Covers.clear {sweeps : Nat → List CharacteristicUuid} {closing : Nat} {clearing next : Clearing}
    {queue other : OperationQueue} (covers : Covers (sweeps closing) clearing other) (moved : clearing.next queue = some next)
    (apart : other ≠ queue) (address : other.address = queue.address)
    (keys : ∀ uuid, other = .subscribes queue.address uuid → uuid ∈ s.subscribeKeys queue.address) :
    Covers (PriorityBridge.sweep (.clear closing queue) s sweeps closing) next other := by
  cases clearing with
  | reads =>
    cases queue with
    | reads address =>
      cases Option.some.inj moved
      cases other with
      | reads _ => exact absurd (congrArg OperationQueue.reads address) apart
      | writes _ => trivial
      | subscribes _ _ => trivial
    | writes _ => simp [Clearing.next] at moved
    | subscribes _ _ => simp [Clearing.next] at moved
  | writes =>
    cases queue with
    | reads _ => simp [Clearing.next] at moved
    | writes address =>
      cases Option.some.inj moved
      cases other with
      | reads _ => exact covers
      | writes _ => exact absurd (congrArg OperationQueue.writes address) apart
      | subscribes other uuid =>
        cases address
        rw [PriorityBridge.sweep, Function.update_self]
        exact keys uuid rfl
    | subscribes _ _ => simp [Clearing.next] at moved
  | subscribes =>
    cases queue with
    | reads _ => simp [Clearing.next] at moved
    | writes _ => simp [Clearing.next] at moved
    | subscribes address removed =>
      cases Option.some.inj moved
      cases other with
      | reads _ => exact covers
      | writes _ => exact covers
      | subscribes other uuid =>
        cases address
        rw [PriorityBridge.sweep, Function.update_self]
        refine List.mem_filter.mpr ⟨covers, decide_eq_true ?_⟩
        rintro rfl
        exact apart rfl
  | _ => simp [Clearing.next] at moved

/-- What is kept of an address is kept next to its GATT, or a closing comes to
it. -/
structure Owned (sweeps : Nat → List CharacteristicUuid) (s : ClientBridge) : Prop where
  sessions : s.gattSessions = s.connectedGatts
  characteristics : ∀ address : PeerAddress, s.connectedGatts[address]? = none → s.pendingCharacteristics[address]? = none
  queued : ∀ queue n, n ∈ s.pendingIds queue → ∃ operation, s.operations[n]? = some operation ∧ operation.queue = queue
  ids : ∀ queue n, n ∈ s.pendingIds queue → s.connectedGatts[queue.address]? = none →
    ∃ closing clearing, s.closings[closing]? = some (queue.address, clearing) ∧ Covers (sweeps closing) clearing queue

namespace Owned

variable {sweeps : Nat → List CharacteristicUuid} {address : PeerAddress}

theorem queuesOnly {new : OperationQueue → Nat → Prop} (owned : Owned sweeps s) (only : QueuesOnly new s s')
    (current : ∀ queue n, new queue n → s.connectedGatts[queue.address]? ≠ none ∧
      ∃ operation, s.operations[n]? = some operation ∧ operation.queue = queue) : Owned sweeps s' := by
  refine ⟨?_, fun address absent => ?_, fun queue n there => ?_, fun queue n there absent => ?_⟩
  · rw [only.sessions, only.connected, owned.sessions]
  · rw [only.connected] at absent
    rw [only.characteristics]
    exact owned.characteristics address absent
  · have before : ∃ operation, s.operations[n]? = some operation ∧ operation.queue = queue := by
      obtain before | now := only.ids queue n there
      · exact owned.queued queue n before
      · exact (current queue n now).2
    obtain ⟨operation, here, own⟩ := before
    have same := only.operations n
    rw [here, Option.map_some, own] at same
    exact Option.map_eq_some_iff.mp same
  · rw [only.connected] at absent
    rw [only.closings]
    obtain before | now := only.ids queue n there
    · exact owned.ids queue n before absent
    · exact absurd absent (current queue n now).1

/-- An operation of the current session is attempted. -/
theorem attempt (owned : Owned sweeps s) (here : s.operations[number]?.map Operation.queue = some operation.queue) :
    Owned sweeps (s.attempt number count operation removed startable accepted) := by
  refine owned.queuesOnly attempt_queuesOnly ?_
  rintro _ _ ⟨rfl, rfl, session⟩
  rw [owned.sessions] at session
  refine ⟨by rw [operation.queue_address, session]; simp, ?_⟩
  exact Option.map_eq_some_iff.mp here

/-- Who holds `gattLock` is nothing of an address. -/
theorem unlocked (owned : Owned sweeps s) (attempting : Option Attempting) :
    Owned sweeps { s with attempting := attempting } :=
  ⟨owned.sessions, owned.characteristics, owned.queued, owned.ids⟩

theorem request (owned : Owned sweeps s) : Owned sweeps (s.request operation) := by
  refine ⟨owned.sessions, owned.characteristics, fun queue n there => ?_, owned.ids⟩
  obtain ⟨earlier, here, own⟩ := owned.queued queue n there
  exact ⟨earlier, TaskList.getElem?_append_of here _, own⟩

theorem retry (owned : Owned sweeps s) : Owned sweeps (s.retry number count operation) := by
  have only : QueuesOnly (fun _ _ => False) s (s.change number fun operation => { operation with posted := none }) :=
    (QueuesOnly.refl s).change fun _ => rfl
  exact (owned.queuesOnly only fun _ _ never => never.elim).unlocked _

/-- A connection is lost: nothing of its address is left. -/
theorem lost (owned : Owned sweeps s) (address : PeerAddress) :
    Owned sweeps ((s.remove address).clearPendingOperations address) := by
  refine ⟨?_, fun other absent => ?_, fun queue n there => ?_, fun queue n there absent => ?_⟩
  · exact congrArg (·.erase address) owned.sessions
  · have gone : (s.connectedGatts.erase address)[other]? = none := absent
    show (s.pendingCharacteristics.erase address)[other]? = none
    rw [FiniteMap.getElem?_erase] at gone ⊢
    split
    · rfl
    · rename_i apart
      rw [if_neg apart] at gone
      exact owned.characteristics other gone
  · simp only [clearPendingOperations, remove] at there
    split at there
    · simp at there
    · exact owned.queued queue n there
  · simp only [clearPendingOperations, remove] at there absent ⊢
    split at there
    · simp at there
    · rename_i apart
      rw [FiniteMap.getElem?_erase, if_neg apart] at absent
      exact owned.ids queue n there absent

theorem discovered (owned : Owned sweeps s) {gatt : Nat} (owner : s.owns gatt address = true)
    (found : List DiscoveredCharacteristic) :
    Owned sweeps { s with pendingCharacteristics := s.pendingCharacteristics.insert address found } := by
  refine ⟨owned.sessions, fun other absent => ?_, owned.queued, owned.ids⟩
  show (s.pendingCharacteristics.insert address found)[other]? = none
  rw [FiniteMap.getElem?_insert]
  split
  · rename_i same
    subst same
    have present : s.connectedGatts[other]? = some gatt := of_decide_eq_true owner
    have none_ : s.connectedGatts[other]? = none := absent
    rw [none_] at present
    simp at present
  · exact owned.characteristics other absent

theorem store (owned : Owned sweeps s) (gatt : Nat) (address : PeerAddress) : Owned sweeps (s.store gatt address) := by
  have before : ∀ other : PeerAddress, (s.connectedGatts.insert address gatt)[other]? = none → s.connectedGatts[other]? = none := by
    intro other absent
    rw [FiniteMap.getElem?_insert] at absent
    split at absent
    · simp at absent
    · exact absent
  exact ⟨congrArg (·.insert address gatt) owned.sessions, fun other absent => owned.characteristics other (before other absent),
    owned.queued, fun queue n there absent => owned.ids queue n there (before _ absent)⟩

/-- A connection is closed: what is left of its address is still to be
cleared. -/
theorem closeConnection (owned : Owned sweeps s) (address : PeerAddress) : Owned sweeps (s.closeConnection address) := by
  unfold ClientBridge.closeConnection
  split
  · exact owned
  · refine ⟨congrArg (·.erase address) owned.sessions, fun other absent => ?_, owned.queued, fun queue n there absent => ?_⟩
    · have gone : (s.connectedGatts.erase address)[other]? = none := absent
      show (s.pendingCharacteristics.erase address)[other]? = none
      rw [FiniteMap.getElem?_erase] at gone ⊢
      split
      · rfl
      · rename_i apart
        rw [if_neg apart] at gone
        exact owned.characteristics other gone
    · have gone : (s.connectedGatts.erase address)[queue.address]? = none := absent
      rw [FiniteMap.getElem?_erase] at gone
      dsimp only
      by_cases same : queue.address = address
      · refine ⟨s.closings.length, .reads, ?_, trivial⟩
        rw [List.getElem?_concat_length, same]
      · rw [if_neg same] at gone
        obtain ⟨closing, clearing, here, covers⟩ := owned.ids queue n there gone
        exact ⟨closing, clearing, TaskList.getElem?_append_of here _, covers⟩

/-- The next removal of a closing. -/
theorem clear (owned : Owned sweeps s) {closing : Nat} {queue : OperationQueue} {clearing next : Clearing}
    (here : s.closings[closing]? = some (queue.address, clearing)) (moved : clearing.next queue = some next) :
    let s' := { s.clear queue with closings := s.closings.set closing (queue.address, next) }
    Owned (PriorityBridge.sweep (.clear closing queue) s' sweeps) s' := by
  dsimp only
  generalize cleared : { s.clear queue with closings := s.closings.set closing (queue.address, next) } = s'
  have connected : s'.connectedGatts = s.connectedGatts := by rw [← cleared]; rfl
  have sessions : s'.gattSessions = s.gattSessions := by rw [← cleared]; rfl
  have characteristics : s'.pendingCharacteristics = s.pendingCharacteristics := by rw [← cleared]; rfl
  have operations : s'.operations = s.operations := by rw [← cleared]; rfl
  have closings : s'.closings = s.closings.set closing (queue.address, next) := by rw [← cleared]
  have fewer : ∀ {other n}, n ∈ s'.pendingIds other → other ≠ queue ∧ n ∈ s.pendingIds other := by
    intro other n there
    rw [← cleared] at there
    simp only [ClientBridge.clear, ClientBridge.setQueue] at there
    split at there
    · simp at there
    · rename_i apart
      exact ⟨apart, there⟩
  have queued : ∀ other n, n ∈ s'.pendingIds other → ∃ operation, s'.operations[n]? = some operation ∧ operation.queue = other := by
    intro other n there
    rw [operations]
    exact owned.queued other n (fewer there).2
  refine ⟨by rw [sessions, connected, owned.sessions], ?_, queued, fun other n there absent => ?_⟩
  · rw [connected, characteristics]
    exact owned.characteristics
  · rw [connected] at absent
    obtain ⟨apart, before⟩ := fewer there
    obtain ⟨k, clearing', at_, covers⟩ := owned.ids other n before absent
    rw [closings]
    by_cases same : k = closing
    · subst same
      obtain ⟨address_eq, rfl⟩ := Prod.mk.inj (Option.some.inj (at_.symm.trans here))
      refine ⟨k, next, by rw [TaskList.getElem?_set_self here, address_eq], ?_⟩
      exact covers.clear moved apart address_eq fun uuid is_ => mem_subscribeKeys (is_ ▸ there) queued
    · refine ⟨k, clearing', by rw [List.getElem?_set_ne (Ne.symm same)]; exact at_, ?_⟩
      have untouched : PriorityBridge.sweep (.clear closing queue) s' sweeps k = sweeps k := by
        cases queue with
        | reads address => rfl
        | writes address => exact Function.update_of_ne same _ _
        | subscribes address uuid => exact Function.update_of_ne same _ _
      rw [untouched]
      exact covers

/-- Its iterator has come to every subscription. -/
theorem cleared (owned : Owned sweeps s) {closing : Nat} {address : PeerAddress}
    (here : s.closings[closing]? = some (address, .subscribes)) (swept : sweeps closing = []) :
    Owned sweeps { s with closings := s.closings.set closing (address, .over) } := by
  refine ⟨owned.sessions, owned.characteristics, owned.queued, fun queue n there absent => ?_⟩
  obtain ⟨k, clearing, at_, covers⟩ := owned.ids queue n there absent
  dsimp only
  by_cases same : k = closing
  · subst same
    obtain ⟨_, rfl⟩ := Prod.mk.inj (Option.some.inj (at_.symm.trans here))
    rw [swept] at covers
    cases queue <;> simp [Covers] at covers
  · exact ⟨k, clearing, by rw [List.getElem?_set_ne (Ne.symm same)]; exact at_, covers⟩

theorem closeAllClientGatts (sweeps : Nat → List CharacteristicUuid) (s : ClientBridge) :
    Owned sweeps s.closeAllClientGatts := by
  refine ⟨rfl, fun address _ => ?_, fun queue n there => ?_, fun queue n there => ?_⟩
  · exact ExtTreeMap.getElem?_empty
  · exact absurd there List.not_mem_nil
  · exact absurd there List.not_mem_nil

end Owned

end ClientBridge

namespace PriorityBridge

/-- An address without a GATT has no priority. -/
def Untreated (connected : PeerMap Nat) (lowered : List PeerAddress) (fallbacks : PeerMap Nat) : Prop :=
  ∀ address : PeerAddress, connected[address]? = none → address ∉ lowered ∧ fallbacks[address]? = none

structure Kept (s : PriorityBridge) : Prop where
  owned : ClientBridge.Owned s.sweeps s.client
  untreated : Untreated s.client.connectedGatts s.priorityLowered s.priorityFallbacks

variable {s s' : PriorityBridge} {address : PeerAddress} {gatt : Nat}

theorem rearm_untreated (untreated : Untreated s.client.connectedGatts s.priorityLowered s.priorityFallbacks)
    (present : s.client.connectedGatts[address]? ≠ none) :
    Untreated s.client.connectedGatts (s.rearmPriorityFallback address gatt).priorityLowered
      (s.rearmPriorityFallback address gatt).priorityFallbacks := by
  unfold rearmPriorityFallback
  split
  · exact untreated
  · intro other absent
    refine ⟨(untreated other absent).1, ?_⟩
    rw [FiniteMap.getElem?_insert, if_neg]
    · exact (untreated other absent).2
    · rintro rfl
      exact present absent

/-- The GATT of an address is gone, and with it what its priority was. -/
theorem forget_untreated {connected : PeerMap Nat} (untreated : Untreated connected s.priorityLowered s.priorityFallbacks) :
    Untreated (connected.erase address) (s.forgetPriority address).priorityLowered
      (s.forgetPriority address).priorityFallbacks := by
  intro other absent
  unfold forgetPriority
  dsimp only
  rw [FiniteMap.getElem?_erase] at absent ⊢
  by_cases same : other = address
  · simp [same]
  · rw [if_neg same] at absent ⊢
    obtain ⟨unlowered, none_⟩ := untreated other absent
    exact ⟨fun there => unlowered (List.mem_filter.mp there).1, none_⟩

/-- A priority that a caller asks for, or a fallback that runs. -/
theorem lower_untreated (untreated : Untreated s.client.connectedGatts s.priorityLowered s.priorityFallbacks)
    (present : s.client.connectedGatts[address]? ≠ none) :
    Untreated s.client.connectedGatts (s.priorityLowered.insert address) (s.priorityFallbacks.erase address) := by
  intro other absent
  have apart : other ≠ address := by
    rintro rfl
    exact present absent
  rw [FiniteMap.getElem?_erase, if_neg apart, List.mem_insert_iff]
  obtain ⟨unlowered, none_⟩ := untreated other absent
  exact ⟨fun there => there.elim apart unlowered, none_⟩

theorem erase_untreated {connected : PeerMap Nat} {lowered : List PeerAddress} {fallbacks : PeerMap Nat}
    (untreated : Untreated connected lowered fallbacks) (address : PeerAddress) :
    Untreated connected lowered (fallbacks.erase address) := by
  intro other absent
  rw [FiniteMap.getElem?_erase]
  refine ⟨(untreated other absent).1, ?_⟩
  split
  · rfl
  · exact (untreated other absent).2

namespace Kept

theorem requestConnectionPriority (kept : Kept s) (address : PeerAddress) (session : Nat) (priority : ConnectionPriority) :
    Kept (s.requestConnectionPriority address session priority) := by
  unfold PriorityBridge.requestConnectionPriority
  split
  · split
    · rename_i gatt there
      exact ⟨kept.owned, lower_untreated kept.untreated (by rw [there]; simp)⟩
    · exact kept
  · exact kept

theorem fallback (kept : Kept s) (number : Nat) (posted : PriorityFallback) : Kept (s.fallback number posted) := by
  unfold PriorityBridge.fallback
  dsimp only
  split
  · split
    · rename_i owns
      rw [Bool.and_eq_true] at owns
      have present : s.client.connectedGatts[posted.address]? = some posted.gatt := of_decide_eq_true owns.1
      exact ⟨kept.owned, lower_untreated kept.untreated (by rw [present]; simp)⟩
    · exact ⟨kept.owned, erase_untreated kept.untreated _⟩
  · exact ⟨kept.owned, kept.untreated⟩

/-- The priorities and the GATTs are as they were. -/
theorem moved (kept : Kept s) {client : ClientBridge} {sweeps : Nat → List CharacteristicUuid}
    (owned : ClientBridge.Owned sweeps client) (same : client.connectedGatts = s.client.connectedGatts) :
    Kept { s with client := client, sweeps := sweeps } := by
  refine ⟨owned, ?_⟩
  rw [same]
  exact kept.untreated

/-- A GATT that has its address is lost. -/
theorem lost (kept : Kept s) {opened : OpenedGatt} (here : s.client.gatts[gatt]? = some opened)
    (owns : s.client.owns gatt opened.address = true) :
    Kept { s.lose gatt with
      client := (s.client.remove opened.address).clearPendingOperations opened.address
      sweeps := s.sweeps } := by
  have same : s.lose gatt = s.forgetPriority opened.address := by
    unfold lose
    rw [here]
    exact if_pos owns
  rw [same]
  exact ⟨kept.owned.lost opened.address, forget_untreated kept.untreated⟩

theorem not_lost (kept : Kept s) {opened : OpenedGatt} (here : s.client.gatts[gatt]? = some opened)
    (owns : ¬s.client.owns gatt opened.address = true) : Kept { s.lose gatt with client := s.client, sweeps := s.sweeps } := by
  have same : s.lose gatt = s := by
    unfold lose
    rw [here]
    exact if_neg owns
  rw [same]
  exact kept

theorem store (kept : Kept s) (gatt : Nat) (address : PeerAddress) :
    Kept { s with client := s.client.store gatt address } := by
  refine ⟨kept.owned.store gatt address, fun other absent => kept.untreated other ?_⟩
  have gone : (s.client.connectedGatts.insert address gatt)[other]? = none := absent
  rw [FiniteMap.getElem?_insert] at gone
  split at gone
  · simp at gone
  · exact gone

theorem rearmForWrite (kept : Kept s) (address : PeerAddress) (uuid : CharacteristicUuid) (session : Nat) :
    Untreated s.client.connectedGatts (s.rearmForWrite address uuid session).priorityLowered
      (s.rearmForWrite address uuid session).priorityFallbacks := by
  unfold PriorityBridge.rearmForWrite
  split
  · split
    · rename_i there _
      exact rearm_untreated kept.untreated (by rw [there]; simp)
    · exact kept.untreated
  · exact kept.untreated

/-- What the attempts and completions of the rest are to the priorities. -/
theorem prioritise (kept : Kept s) (label : ClientStep) (still : ∀ gatt, label ≠ .onDisconnected gatt ∧
    label ≠ .onServicesDiscovered gatt none) :
    Untreated s.client.connectedGatts (s.prioritise label).priorityLowered (s.prioritise label).priorityFallbacks := by
  unfold PriorityBridge.prioritise
  split
  · exact absurd rfl (still _).1
  · exact absurd rfl (still _).2
  · unfold PriorityBridge.attemptWrite
    split
    · split
      · split
        · exact kept.rearmForWrite _ _ _
        · exact kept.untreated
      · exact kept.untreated
    · exact kept.untreated
  · unfold PriorityBridge.onDescriptorWrite
    split
    · split
      · rename_i owns
        simp only [Bool.and_eq_true] at owns
        have present : s.client.connectedGatts[_]? = some _ := of_decide_eq_true owns.1.1
        exact rearm_untreated kept.untreated (by rw [present]; simp)
      · exact kept.untreated
    · exact kept.untreated
  · exact kept.untreated

end Kept

/-- A step of the rest keeps what is known next to the GATTs. -/
theorem step_client {label : ClientStep} {client : ClientBridge} (kept : Kept s)
    (untreated : ClosedUntreated s (.client label) = true) (swept : s.swept label = true)
    (stepped : s.client.step label = some client) :
    Kept { s.prioritise label with client := client, sweeps := sweep label client s.sweeps } := by
  obtain ⟨_, stepped⟩ := Option.ite_none_left_eq_some.mp stepped
  cases label with
  | connectGatt address =>
    cases Option.some.inj stepped
    have owned := kept.owned
    exact ⟨⟨owned.sessions, owned.characteristics, owned.queued, owned.ids⟩, kept.untreated⟩
  | store gatt =>
    obtain ⟨opened, _, moved⟩ := Option.bind_eq_some_iff.mp stepped
    cases Option.some.inj moved
    exact kept.store gatt opened.address
  | onDisconnected gatt =>
    obtain ⟨opened, here, moved⟩ := Option.bind_eq_some_iff.mp stepped
    cases Option.some.inj moved
    unfold ClientBridge.onDisconnected
    split
    · rename_i owns
      exact kept.lost here owns
    · rename_i owns
      exact kept.not_lost here owns
  | onServicesDiscovered gatt discovered =>
    obtain ⟨opened, here, moved⟩ := Option.bind_eq_some_iff.mp stepped
    cases Option.some.inj moved
    unfold ClientBridge.onServicesDiscovered
    cases discovered with
    | some found =>
      split
      · rename_i owns
        exact kept.moved (kept.owned.discovered owns found) rfl
      · exact kept
    | none =>
      split
      · rename_i owns
        exact kept.lost here owns
      · rename_i owns
        exact kept.not_lost here owns
  | closeAllClientGatts =>
    cases Option.some.inj stepped
    simp only [ClosedUntreated, Bool.and_eq_true, List.isEmpty_iff, ExtTreeMap.isEmpty_iff] at untreated
    obtain ⟨lowered, fallbacks⟩ := untreated
    refine ⟨.closeAllClientGatts _ _, fun other _ => ?_⟩
    show other ∉ s.priorityLowered ∧ s.priorityFallbacks[other]? = none
    rw [lowered, fallbacks]
    simp
  | closeConnection address =>
    cases Option.some.inj stepped
    refine ⟨kept.owned.closeConnection address, ?_⟩
    unfold ClientBridge.closeConnection
    split
    · exact kept.untreated
    · rename_i gatt there
      simp only [ClosedUntreated, there, Option.isNone_some, Bool.false_or, treated, Bool.not_eq_true', Bool.or_eq_false_iff,
        decide_eq_false_iff_not, Option.isSome_eq_false_iff, Option.isNone_iff_eq_none] at untreated
      intro other absent
      have gone : (s.client.connectedGatts.erase address)[other]? = none := absent
      rw [FiniteMap.getElem?_erase] at gone
      by_cases same : other = address
      · rw [same]
        exact untreated
      · rw [if_neg same] at gone
        exact kept.untreated other gone
  | clear closing queue =>
    obtain ⟨⟨address, clearing⟩, found, moved⟩ := Option.bind_eq_some_iff.mp stepped
    obtain ⟨here, own⟩ := Option.filter_eq_some_iff.mp found
    obtain ⟨next, advanced, moved⟩ := Option.bind_eq_some_iff.mp moved
    cases Option.some.inj moved
    have address_eq : address = queue.address := of_decide_eq_true own
    subst address_eq
    exact ⟨kept.owned.clear here advanced, kept.untreated⟩
  | cleared closing =>
    obtain ⟨⟨address, clearing⟩, found, moved⟩ := Option.bind_eq_some_iff.mp stepped
    obtain ⟨here, stage⟩ := Option.filter_eq_some_iff.mp found
    cases Option.some.inj moved
    have stage_eq : clearing = .subscribes := of_decide_eq_true stage
    rw [stage_eq] at here
    exact ⟨kept.owned.cleared here (List.isEmpty_iff.mp swept), kept.untreated⟩
  | request kind address uuid session =>
    cases Option.some.inj stepped
    exact kept.moved kept.owned.request rfl
  | retry number =>
    obtain ⟨operation, here, moved⟩ := Option.bind_eq_some_iff.mp stepped
    obtain ⟨count, posted, moved⟩ := Option.bind_eq_some_iff.mp moved
    cases Option.some.inj moved
    exact kept.moved kept.owned.retry rfl
  | attempt enabled accepted =>
    obtain ⟨attempting, _, moved⟩ := Option.bind_eq_some_iff.mp stepped
    obtain ⟨operation, here, moved⟩ := Option.bind_eq_some_iff.mp moved
    cases Option.some.inj moved
    rw [ClientBridge.attemptOperation_eq]
    refine ⟨(kept.owned.unlocked none).attempt (by rw [here]; rfl), ?_⟩
    dsimp only
    rw [ClientBridge.attempt_queuesOnly.connected]
    exact kept.prioritise _ (by simp)
  | cancelPendingOperation number =>
    obtain ⟨_, ⟨⟩⟩ := Option.ite_none_right_eq_some.mp stepped
    have only : ClientBridge.QueuesOnly (fun _ _ => False) s.client (s.client.cancelPendingOperation number) :=
      ClientBridge.cancel_queuesOnly
    exact kept.moved (kept.owned.queuesOnly only fun _ _ never => never.elim) only.connected
  | complete gatt completion value success =>
    obtain ⟨number, oldest, moved⟩ := Option.bind_eq_some_iff.mp stepped
    obtain ⟨operation, here, moved⟩ := Option.bind_eq_some_iff.mp moved
    cases Option.some.inj moved
    have only : ClientBridge.QueuesOnly (fun _ _ => False) s.client
        (s.client.complete number gatt operation completion value success) := ClientBridge.complete_queuesOnly
    refine ⟨kept.owned.queuesOnly only fun _ _ never => never.elim, ?_⟩
    dsimp only
    rw [only.connected]
    exact kept.prioritise _ (by simp)

theorem step_kept {label : PriorityStep} (kept : Kept s) (untreated : ClosedUntreated s label = true)
    (stepped : step s label = some s') : Kept s' := by
  cases label with
  | client label =>
    obtain ⟨swept, moved⟩ := Option.ite_none_right_eq_some.mp stepped
    obtain ⟨client, took, rfl⟩ := Option.map_eq_some_iff.mp moved
    exact step_client kept untreated swept took
  | onConnected gatt =>
    obtain ⟨_, ⟨⟩⟩ := Option.ite_none_right_eq_some.mp stepped
    exact ⟨kept.owned, kept.untreated⟩
  | requestConnectionPriority address session priority =>
    obtain ⟨_, ⟨⟩⟩ := Option.ite_none_left_eq_some.mp stepped
    exact kept.requestConnectionPriority address session priority
  | fallback number =>
    obtain ⟨_, stepped⟩ := Option.ite_none_left_eq_some.mp stepped
    obtain ⟨posted, _, rfl⟩ := Option.map_eq_some_iff.mp stepped
    exact kept.fallback number posted

/-- No `closeConnection` of an address is still clearing. -/
def Settled (address : PeerAddress) (s : PriorityBridge) : Prop :=
  ∀ clearing, (address, clearing) ∈ s.client.closings → clearing = .over

/-- Nothing is known of an address but its GATT. -/
structure Forgotten (address : PeerAddress) (s : PriorityBridge) : Prop where
  characteristics : s.client.pendingCharacteristics[address]? = none
  ids : ∀ queue : OperationQueue, queue.address = address → s.client.pendingIds queue = []
  lowered : address ∉ s.priorityLowered
  fallback : s.priorityFallbacks[address]? = none

theorem Kept.forgotten (kept : Kept s) (absent : s.client.connectedGatts[address]? = none) (settled : s.Settled address) :
    s.Forgotten address := by
  obtain ⟨unlowered, no_fallback⟩ := kept.untreated address absent
  refine ⟨kept.owned.characteristics address absent, fun queue own => ?_, unlowered, no_fallback⟩
  subst own
  rw [List.eq_nil_iff_forall_not_mem]
  intro n there
  obtain ⟨closing, clearing, here, covers⟩ := kept.owned.ids queue n there absent
  rw [settled clearing (List.mem_of_getElem? here)] at covers
  exact covers.elim

/-- What is kept of an address is kept next to its GATT, and a connection that
is stored where there was none starts without it, with the priority's
treatment. -/
structure ClientStateOwned (s : PriorityBridge) : Prop where
  session : ∀ address : PeerAddress, s.client.connectedGatts[address]? = none → s.client.gattSessions[address]? = none
  forgotten : ∀ address : PeerAddress, s.client.connectedGatts[address]? = none → s.Settled address → s.Forgotten address
  reconnect : ∀ (gatt : Nat) (opened : OpenedGatt) (s' : PriorityBridge), s.client.gatts[gatt]? = some opened →
    s.client.connectedGatts[opened.address]? = none → s.Settled opened.address →
      s.step (.client (.store gatt)) = some s' → s'.client.connectedGatts[opened.address]? = some gatt ∧
        s'.Forgotten opened.address ∧ (s'.rearmPriorityFallback opened.address gatt).priorityFallbacks[opened.address]?.isSome = true

/-- In every run in which no priority is left behind by a `closeConnection` or
by a power-off. -/
theorem run_clientStateOwned {h : Unit} (run : machine.Run (fun _ s label => ClosedUntreated s label = true)
    (fun h _ _ _ => h) () h s) : ClientStateOwned s := by
  have kept : Kept s := by
    refine run.invariant (P := fun _ s => Kept s) ?_ ?_
    · rintro _ rfl
      refine ⟨⟨rfl, fun _ _ => ExtTreeMap.getElem?_empty, fun _ _ there => ?_, fun _ _ there => ?_⟩, fun address _ => ?_⟩
      · exact absurd there List.not_mem_nil
      · exact absurd there List.not_mem_nil
      · exact ⟨List.not_mem_nil, ExtTreeMap.getElem?_empty⟩
    · intro _ _ _ _ _ kept untreated stepped
      exact step_kept kept untreated stepped
  refine ⟨fun address absent => by rw [kept.owned.sessions]; exact absent, fun address => kept.forgotten,
    fun gatt opened s' here absent settled stepped => ?_⟩
  simp only [step, swept, if_true] at stepped
  obtain ⟨client, took, rfl⟩ := Option.map_eq_some_iff.mp stepped
  obtain ⟨_, took⟩ := Option.ite_none_left_eq_some.mp took
  obtain ⟨found, at_, stored⟩ := Option.bind_eq_some_iff.mp took
  cases Option.some.inj (here.symm.trans (Option.filter_eq_some_iff.mp at_).1)
  cases Option.some.inj stored
  have forgotten := kept.forgotten absent settled
  refine ⟨?_, ⟨forgotten.characteristics, forgotten.ids, forgotten.lowered, forgotten.fallback⟩, ?_⟩
  · show (s.client.connectedGatts.insert opened.address gatt)[opened.address]? = some gatt
    rw [FiniteMap.getElem?_insert, if_pos rfl]
  · have unlowered : opened.address ∉ (s.prioritise (.store gatt)).priorityLowered := forgotten.lowered
    rw [rearmPriorityFallback, if_neg unlowered]
    dsimp only
    rw [FiniteMap.getElem?_insert, if_pos rfl]
    rfl

/-- A subscription succeeds, and its fallback lowers the priority. -/
def lowers : List PriorityStep :=
  let peer : PeerAddress := ⟨"p"⟩
  [.client (.connectGatt peer), .client (.store 0), .onConnected 0,
    .client (.onServicesDiscovered 0 (some [{ uuid := ⟨1⟩, cccd := true }])),
    .client (.request .subscribe peer ⟨1⟩ 0), .client (.attempt true true), .client (.complete 0 .onDescriptorWrite [] true), .fallback 0]

/-- It is lost, and dialled again. -/
theorem run_clientStateOwned_redialled : ∃ s : PriorityBridge,
    s.requested = [(0, .high), (0, .balanced)] ∧ s.client.gatts.length = 2 ∧ ClientStateOwned s := by
  obtain ⟨_, s, run, good⟩ := Machine.Run.exists_of_follow machine (fun _ s label => ClosedUntreated s label = true)
    (fun (h : Unit) _ _ _ => h) ()
    (fun _ s => decide (s.requested = [(0, .high), (0, .balanced)]) && decide (s.client.gatts.length = 2)) (s := {}) rfl
    (lowers ++ [.client (.onDisconnected 0), .client (.connectGatt ⟨"p"⟩)]) (by decide +kernel)
  simp only [Bool.and_eq_true, decide_eq_true_eq] at good
  exact ⟨s, good.1, good.2, run_clientStateOwned run⟩

/-- The adapter goes down instead. -/
theorem not_clientStateOwned : ¬∀ s : PriorityBridge, machine.Reach s → ClientStateOwned s := by
  intro all
  obtain ⟨s, reach, bad⟩ := Machine.Reach.exists_of_follow machine (fun s => s.client.connectedGatts[(⟨"p"⟩ : PeerAddress)]?.isNone &&
    decide (s.priorityLowered = [⟨"p"⟩]) && s.client.closings.isEmpty) (s := {}) rfl
    (lowers ++ [.client .closeAllClientGatts]) (by decide +kernel)
  simp only [Bool.and_eq_true, Option.isNone_iff_eq_none, decide_eq_true_eq, List.isEmpty_iff] at bad
  obtain ⟨⟨absent, lowered⟩, none_⟩ := bad
  have settled : s.Settled ⟨"p"⟩ := by
    intro clearing there
    rw [none_] at there
    simp at there
  have forgotten := (all s reach).forgotten ⟨"p"⟩ absent settled
  exact forgotten.lowered (by rw [lowered]; exact List.mem_cons_self)

end PriorityBridge
end BleGatt
