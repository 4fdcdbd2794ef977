import BleGatt.Entities.Models
import BleGatt.Lib.FiniteMap
import BleGatt.Lib.Machine
import BleGatt.Lib.TaskList

namespace BleGatt
open Std

/-! The operations of `BleGattBridge`: the ids that wait for the platform's
callbacks, the retries on a busy stack, and what the end of a connection does
to them. A request goes by its number, which is its id. A GATT goes by its
number, which is Rust's session for it too. -/

/-- `GATT_BUSY_MAX_RETRIES`. -/
def gattBusyMaxRetries : Nat := 6

inductive OperationKind
  | read
  | write (value : Bytes) (withoutResponse : Bool)
  | subscribe
  deriving DecidableEq

/-- The callback that completes an operation. -/
inductive Completion
  | onCharacteristicRead
  | onCharacteristicWrite
  | onDescriptorWrite
  deriving DecidableEq

def OperationKind.completion : OperationKind → Completion
  | .read => .onCharacteristicRead
  | .write _ _ => .onCharacteristicWrite
  | .subscribe => .onDescriptorWrite

/-- A queue of `pendingReadIds`, `pendingWriteIds` or `pendingSubscribeIds`. -/
inductive OperationQueue
  | reads (address : PeerAddress)
  | writes (address : PeerAddress)
  | subscribes (address : PeerAddress) (uuid : CharacteristicUuid)
  deriving DecidableEq

def OperationQueue.address : OperationQueue → PeerAddress
  | .reads address | .writes address | .subscribes address _ => address

/-- What Rust is told under an id. -/
structure Told where
  /-- The operation whose callback it is, if it is one's. -/
  completes : Option Nat
  value : Bytes
  success : Bool
  deriving DecidableEq

structure Operation where
  kind : OperationKind
  address : PeerAddress
  uuid : CharacteristicUuid
  session : Nat
  /-- The attempt its `Runnable` is to make. -/
  posted : Option Nat := none
  /-- The GATT that accepted it. -/
  accepted : Option Nat := none
  /-- `cancelPendingOperation` came before it was accepted. -/
  cancelled : Bool := false
  /-- What its callback said, if that was its GATT's and that had the address. -/
  completed : Option Bool := none
  told : List Told := []
  deriving DecidableEq

/-- Where its id waits. -/
def Operation.queue (operation : Operation) : OperationQueue :=
  match operation.kind with
  | .read => .reads operation.address
  | .write _ _ => .writes operation.address
  | .subscribe => .subscribes operation.address operation.uuid

theorem Operation.queue_address (operation : Operation) : operation.queue.address = operation.address := by
  unfold Operation.queue
  split <;> rfl

structure DiscoveredCharacteristic where
  uuid : CharacteristicUuid
  /-- It has the descriptor that enables its notifications. -/
  cccd : Bool
  deriving DecidableEq

structure OpenedGatt where
  address : PeerAddress
  /-- `connect` wrote it to `connectedGatts`. -/
  stored : Bool := false
  deriving DecidableEq

/-- How far a `closeConnection` that left `gattLock` came in
`clearPendingOperations`. -/
inductive Clearing
  | reads
  | writes
  | subscribes
  | over
  deriving DecidableEq

/-- An attempt that holds `gattLock` and has got its queue. -/
structure Attempting where
  number : Nat
  count : Nat
  queue : OperationQueue
  /-- A removal outside `gattLock` took the queue out of its map since. -/
  removed : Bool := false
  deriving DecidableEq

structure ClientBridge where
  gatts : List OpenedGatt := []
  connectedGatts : PeerMap Nat := ∅
  gattSessions : PeerMap Nat := ∅
  pendingCharacteristics : PeerMap (List DiscoveredCharacteristic) := ∅
  /-- A queue that the maps do not have is empty. -/
  pendingIds : OperationQueue → List Nat := fun _ => []
  pendingRetries : List Nat := []
  operations : List Operation := []
  /-- What the platform has still to complete, in the order it was issued. -/
  issued : List Nat := []
  closings : List (PeerAddress × Clearing) := []
  /-- The attempt that is being made, under `gattLock`. -/
  attempting : Option Attempting := none

inductive ClientStep
  /-- `connect` called `connectGatt`. -/
  | connectGatt (address : PeerAddress)
  /-- `connect` takes `gattLock` and stores its GATT. -/
  | store (gatt : Nat)
  /-- `onConnectionStateChange` with `STATE_DISCONNECTED`. -/
  | onDisconnected (gatt : Nat)
  /-- The characteristics, or none where the discovery failed. -/
  | onServicesDiscovered (gatt : Nat) (discovered : Option (List DiscoveredCharacteristic))
  /-- The adapter goes down. -/
  | closeAllClientGatts
  /-- `closeConnection` under `gattLock`. -/
  | closeConnection (address : PeerAddress)
  /-- Its next removal, without the lock. -/
  | clear (closing : Nat) (queue : OperationQueue)
  | cleared (closing : Nat)
  /-- `readCharacteristic`, `writeCharacteristic` or `subscribeCharacteristic`
  takes `gattLock` and gets its queue. -/
  | request (kind : OperationKind) (address : PeerAddress) (uuid : CharacteristicUuid) (session : Nat)
  /-- So does the `Runnable` of a retry. -/
  | retry (number : Nat)
  /-- The attempt goes on to its end and leaves `gattLock`. `enabled` is what
  `setCharacteristicNotification` returns, and `accepted` what the stack
  says. -/
  | attempt (enabled accepted : Bool)
  | cancelPendingOperation (number : Nat)
  /-- The callback of a GATT's oldest operation of a kind. -/
  | complete (gatt : Nat) (completion : Completion) (value : Bytes) (success : Bool)

namespace ClientBridge

def change (number : Nat) (f : Operation → Operation) (s : ClientBridge) : ClientBridge :=
  { s with operations := s.operations.modify number f }

def tell (number : Nat) (told : Told) (s : ClientBridge) : ClientBridge :=
  s.change number fun operation => { operation with told := operation.told ++ [told] }

def setQueue (queue : OperationQueue) (ids : List Nat) (s : ClientBridge) : ClientBridge :=
  { s with pendingIds := fun other => if other = queue then ids else s.pendingIds other }

def dequeue (queue : OperationQueue) (number : Nat) (s : ClientBridge) : ClientBridge :=
  s.setQueue queue ((s.pendingIds queue).erase number)

def findCharacteristic (address : PeerAddress) (uuid : CharacteristicUuid) (s : ClientBridge) :
    Option DiscoveredCharacteristic :=
  s.pendingCharacteristics[address]?.bind fun found => found.find? fun characteristic => decide (characteristic.uuid = uuid)

/-- What the three attempts share, under `gattLock`. `startable` says that
the operation finds what it is made on. A queue that was removed is not its
map's any more, and an id that it takes waits in no queue. -/
def attempt (number count : Nat) (operation : Operation) (removed startable accepted : Bool) (s : ClientBridge) :
    ClientBridge :=
  let failed : Told := { completes := none, value := [], success := false }
  if 0 < count ∧ number ∉ s.pendingRetries then s
  else
    let s := if 0 < count then { s with pendingRetries := s.pendingRetries.erase number } else s
    if s.gattSessions[operation.address]? ≠ some operation.session then
      (if 0 < count then s.dequeue operation.queue number else s).tell number failed
    else
      let s :=
        if count = 0 ∧ removed = false then s.setQueue operation.queue (s.pendingIds operation.queue ++ [number]) else s
      match s.connectedGatts[operation.address]?, startable with
      | some gatt, true =>
        if accepted then
          { s.change number fun operation => { operation with accepted := some gatt } with issued := s.issued ++ [number] }
        else if count < gattBusyMaxRetries then
          { s.change number fun operation => { operation with posted := some (count + 1) } with
            pendingRetries := s.pendingRetries ++ [number] }
        else (s.dequeue operation.queue number).tell number failed
      | _, _ => (s.dequeue operation.queue number).tell number failed

def attemptRead (number count : Nat) (operation : Operation) (removed accepted : Bool) (s : ClientBridge) : ClientBridge :=
  s.attempt number count operation removed (s.findCharacteristic operation.address operation.uuid).isSome accepted

def attemptWrite (number count : Nat) (operation : Operation) (removed accepted : Bool) (s : ClientBridge) : ClientBridge :=
  s.attempt number count operation removed (s.findCharacteristic operation.address operation.uuid).isSome accepted

/-- Local delivery has to be enabled first. -/
def attemptSubscribe (number count : Nat) (operation : Operation) (removed enabled accepted : Bool) (s : ClientBridge) :
    ClientBridge :=
  s.attempt number count operation removed
    ((s.findCharacteristic operation.address operation.uuid).any DiscoveredCharacteristic.cccd && enabled) accepted

def attemptOperation (number count : Nat) (operation : Operation) (removed enabled accepted : Bool) (s : ClientBridge) :
    ClientBridge :=
  match operation.kind with
  | .read => s.attemptRead number count operation removed accepted
  | .write _ _ => s.attemptWrite number count operation removed accepted
  | .subscribe => s.attemptSubscribe number count operation removed enabled accepted

/-- The operation finds what it is made on. -/
def startable (operation : Operation) (enabled : Bool) (s : ClientBridge) : Bool :=
  match operation.kind, s.findCharacteristic operation.address operation.uuid with
  | .subscribe, some characteristic => characteristic.cccd && enabled
  | _, found => found.isSome

theorem attemptOperation_eq (number count : Nat) (operation : Operation) (removed enabled accepted : Bool)
    (s : ClientBridge) : s.attemptOperation number count operation removed enabled accepted =
      s.attempt number count operation removed (s.startable operation enabled) accepted := by
  unfold attemptOperation startable
  cases kind : operation.kind with
  | read => rfl
  | write value withoutResponse => rfl
  | subscribe =>
    unfold attemptSubscribe
    cases s.findCharacteristic operation.address operation.uuid <;> rfl

/-- A new request is attempted at once. -/
def request (operation : Operation) (s : ClientBridge) : ClientBridge :=
  { s with
    operations := s.operations ++ [operation]
    attempting := some { number := s.operations.length, count := 0, queue := operation.queue } }

def retry (number count : Nat) (operation : Operation) (s : ClientBridge) : ClientBridge :=
  { s.change number fun operation => { operation with posted := none } with
    attempting := some { number := number, count := count, queue := operation.queue } }

/-- Its `Runnable` may have been dispatched already: it is not taken back
here. -/
def cancelPendingOperation (number : Nat) (s : ClientBridge) : ClientBridge :=
  let s := s.change number fun operation => { operation with cancelled := operation.cancelled || operation.accepted.isNone }
  if number ∈ s.pendingRetries then
    { s with
      pendingRetries := s.pendingRetries.erase number
      pendingIds := fun queue => (s.pendingIds queue).erase number }
  else s

/-- The check under `gattLock`: the GATT still has its address. -/
def owns (gatt : Nat) (address : PeerAddress) (s : ClientBridge) : Bool := decide (s.connectedGatts[address]? = some gatt)

/-- `onCharacteristicRead`, `onCharacteristicWrite` and `onDescriptorWrite`. -/
def complete (number gatt : Nat) (operation : Operation) (completion : Completion) (value : Bytes) (success : Bool)
    (s : ClientBridge) : ClientBridge :=
  let s := { s with issued := s.issued.erase number }
  if s.owns gatt operation.address then
    let s := s.change number fun operation => { operation with completed := some success }
    match s.pendingIds operation.queue with
    | [] => s
    | requestId :: rest =>
      (s.setQueue operation.queue rest).tell requestId
        { completes := some number
          value := if completion = .onCharacteristicRead then value else []
          success := success }
  else s

def clearPendingOperations (address : PeerAddress) (s : ClientBridge) : ClientBridge :=
  { s with pendingIds := fun queue => if queue.address = address then [] else s.pendingIds queue }

/-- The address has no GATT any more. -/
def remove (address : PeerAddress) (s : ClientBridge) : ClientBridge :=
  { s with
    connectedGatts := s.connectedGatts.erase address
    gattSessions := s.gattSessions.erase address
    pendingCharacteristics := s.pendingCharacteristics.erase address }

def store (gatt : Nat) (address : PeerAddress) (s : ClientBridge) : ClientBridge :=
  { s with
    gatts := s.gatts.modify gatt fun opened => { opened with stored := true }
    connectedGatts := s.connectedGatts.insert address gatt
    gattSessions := s.gattSessions.insert address gatt }

def closeConnection (address : PeerAddress) (s : ClientBridge) : ClientBridge :=
  match s.connectedGatts[address]? with
  | none => s
  | some _ => { s.remove address with closings := s.closings ++ [(address, .reads)] }

def closeAllClientGatts (s : ClientBridge) : ClientBridge :=
  { s with connectedGatts := ∅, gattSessions := ∅, pendingCharacteristics := ∅, pendingIds := fun _ => [] }

def onServicesDiscovered (gatt : Nat) (address : PeerAddress) (discovered : Option (List DiscoveredCharacteristic))
    (s : ClientBridge) : ClientBridge :=
  if s.owns gatt address then
    match discovered with
    | some found => { s with pendingCharacteristics := s.pendingCharacteristics.insert address found }
    | none => (s.remove address).clearPendingOperations address
  else s

def onDisconnected (gatt : Nat) (address : PeerAddress) (s : ClientBridge) : ClientBridge :=
  if s.owns gatt address then (s.remove address).clearPendingOperations address else s

end ClientBridge

/-- The removal of a queue, and where it leaves `clearPendingOperations`. The
subscriptions' queues go one by one. -/
def Clearing.next : Clearing → OperationQueue → Option Clearing
  | .reads, .reads _ => some .writes
  | .writes, .writes _ => some .subscribes
  | .subscribes, .subscribes _ _ => some .subscribes
  | _, _ => none

/-- It is made without `gattLock`, or by the attempt that holds it. -/
def ClientStep.unlocked : ClientStep → Bool
  | .connectGatt _ | .clear _ _ | .cleared _ | .attempt _ _ => true
  | _ => false

namespace ClientBridge

/-- A queue leaves its map. The attempt that has got it keeps it. -/
def clear (queue : OperationQueue) (s : ClientBridge) : ClientBridge :=
  { s.setQueue queue [] with attempting := s.attempting.map fun attempting =>
    { attempting with removed := attempting.removed || decide (attempting.queue = queue) } }

def take (s : ClientBridge) : ClientStep → Option ClientBridge
  | .connectGatt address => some { s with gatts := s.gatts ++ [{ address := address }] }
  | .store gatt => do
    let opened ← s.gatts[gatt]?.filter fun opened => !opened.stored
    some (s.store gatt opened.address)
  | .onDisconnected gatt => do
    let opened ← s.gatts[gatt]?
    some (s.onDisconnected gatt opened.address)
  | .onServicesDiscovered gatt discovered => do
    let opened ← s.gatts[gatt]?
    some (s.onServicesDiscovered gatt opened.address discovered)
  | .closeAllClientGatts => some s.closeAllClientGatts
  | .closeConnection address => some (s.closeConnection address)
  | .clear closing queue => do
    let (address, clearing) ← s.closings[closing]?.filter fun found => decide (found.1 = queue.address)
    let next ← clearing.next queue
    some { s.clear queue with closings := s.closings.set closing (address, next) }
  | .cleared closing => do
    let (address, _) ← s.closings[closing]?.filter fun found => decide (found.2 = .subscribes)
    some { s with closings := s.closings.set closing (address, .over) }
  | .request kind address uuid session =>
    some (s.request { kind := kind, address := address, uuid := uuid, session := session })
  | .retry number => do
    let operation ← s.operations[number]?
    let count ← operation.posted
    some (s.retry number count operation)
  | .attempt enabled accepted => do
    let attempting ← s.attempting
    let operation ← s.operations[attempting.number]?
    some ({ s with attempting := none }.attemptOperation attempting.number attempting.count operation attempting.removed
      enabled accepted)
  | .cancelPendingOperation number =>
    if number < s.operations.length then some (s.cancelPendingOperation number) else none
  | .complete gatt completion value success => do
    let number ← s.issued.find? fun number => s.operations[number]?.any fun operation =>
      decide (operation.accepted = some gatt) && decide (operation.kind.completion = completion)
    let operation ← s.operations[number]?
    some (s.complete number gatt operation completion value success)

/-- While an attempt is made, what takes `gattLock` waits. -/
def step (s : ClientBridge) (label : ClientStep) : Option ClientBridge :=
  if s.attempting.isSome ∧ label.unlocked = false then none else s.take label

/-- The bridge's operations, over every order of its callers' steps, of its
retries and of the platform's callbacks. -/
def machine : Machine ClientBridge ClientStep where
  Init s := s = {}
  step := step

end ClientBridge

end BleGatt
