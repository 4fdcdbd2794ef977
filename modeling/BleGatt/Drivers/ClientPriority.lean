import BleGatt.Drivers.GattOperations

namespace BleGatt
open Std

/-! The connection priority of `BleGattBridge`: what the automatic treatment of
a connection's first writes remembers of an address, next to its GATT, its
session, its characteristics and its pending ids. -/

/-- A `Runnable` that `rearmPriorityFallback` posted. -/
structure PriorityFallback where
  address : PeerAddress
  gatt : Nat
  ran : Bool := false
  deriving DecidableEq

structure PriorityBridge where
  client : ClientBridge := {}
  priorityLowered : List PeerAddress := []
  /-- By their number. -/
  priorityFallbacks : PeerMap Nat := ∅
  fallbacks : List PriorityFallback := []
  /-- What the GATTs were asked for, in order. -/
  requested : List (Nat × ConnectionPriority) := []
  /-- The subscriptions that a `closeConnection` has still to come to. -/
  sweeps : Nat → List CharacteristicUuid := fun _ => []

inductive PriorityStep
  /-- What the bridge does apart from its priorities. -/
  | client (label : ClientStep)
  /-- `onConnectionStateChange` with `STATE_CONNECTED`. -/
  | onConnected (gatt : Nat)
  | requestConnectionPriority (address : PeerAddress) (session : Nat) (priority : ConnectionPriority)
  /-- A fallback runs. One that was taken back may have been dispatched
  already. -/
  | fallback (number : Nat)

namespace ClientBridge

/-- The operation that a callback completes. -/
def completing (gatt : Nat) (completion : Completion) (s : ClientBridge) : Option Operation := do
  let number ← s.issued.find? fun number => s.operations[number]?.any fun operation =>
    decide (operation.accepted = some gatt) && decide (operation.kind.completion = completion)
  s.operations[number]?

/-- The keys of `pendingSubscribeIds` with an address. -/
def subscribeKeys (address : PeerAddress) (s : ClientBridge) : List CharacteristicUuid :=
  (s.operations.filter fun operation => decide (operation.queue = .subscribes address operation.uuid) &&
    decide (s.pendingIds operation.queue ≠ [])).map Operation.uuid

end ClientBridge

namespace PriorityBridge

def rearmPriorityFallback (address : PeerAddress) (gatt : Nat) (s : PriorityBridge) : PriorityBridge :=
  if address ∈ s.priorityLowered then s
  else { s with
    fallbacks := s.fallbacks ++ [{ address := address, gatt := gatt }]
    priorityFallbacks := s.priorityFallbacks.insert address s.fallbacks.length }

/-- The two removals that a lost connection comes with. -/
def forgetPriority (address : PeerAddress) (s : PriorityBridge) : PriorityBridge :=
  { s with
    priorityLowered := s.priorityLowered.filter fun other => decide (other ≠ address)
    priorityFallbacks := s.priorityFallbacks.erase address }

/-- It is lost, or its services are not found, while it has its address. -/
def lose (gatt : Nat) (s : PriorityBridge) : PriorityBridge :=
  match s.client.gatts[gatt]? with
  | some opened => if s.client.owns gatt opened.address then s.forgetPriority opened.address else s
  | none => s

/-- A new write that can start pushes the fallback out. -/
def rearmForWrite (address : PeerAddress) (uuid : CharacteristicUuid) (session : Nat) (s : PriorityBridge) :
    PriorityBridge :=
  if s.client.gattSessions[address]? = some session then
    match s.client.connectedGatts[address]?, s.client.findCharacteristic address uuid with
    | some gatt, some _ => s.rearmPriorityFallback address gatt
    | _, _ => s
  else s

/-- The attempt is the first of a write. -/
def attemptWrite (s : PriorityBridge) : PriorityBridge :=
  match s.client.attempting with
  | some attempting =>
    match s.client.operations[attempting.number]? with
    | some { kind := .write _ _, address, uuid, session, .. } =>
      if attempting.count = 0 then s.rearmForWrite address uuid session else s
    | _ => s
  | none => s

/-- A subscription that succeeded arms the fallback. -/
def onDescriptorWrite (gatt : Nat) (success : Bool) (s : PriorityBridge) : PriorityBridge :=
  match s.client.completing gatt .onDescriptorWrite with
  | some operation =>
    if s.client.owns gatt operation.address && decide (s.client.pendingIds operation.queue ≠ []) && success then
      s.rearmPriorityFallback operation.address gatt
    else s
  | none => s

/-- What a step of the rest is to the priorities. -/
def prioritise (label : ClientStep) (s : PriorityBridge) : PriorityBridge :=
  match label with
  | .onDisconnected gatt | .onServicesDiscovered gatt none => s.lose gatt
  | .attempt _ _ => s.attemptWrite
  | .complete gatt .onDescriptorWrite _ success => s.onDescriptorWrite gatt success
  | _ => s

/-- The iterator over the subscriptions starts, or removes one. It comes to
every key that it starts with. -/
def sweep (label : ClientStep) (client : ClientBridge) (sweeps : Nat → List CharacteristicUuid) :
    Nat → List CharacteristicUuid :=
  match label with
  | .clear closing (.writes address) => Function.update sweeps closing (client.subscribeKeys address)
  | .clear closing (.subscribes _ uuid) =>
    Function.update sweeps closing ((sweeps closing).filter fun other => decide (other ≠ uuid))
  | _ => sweeps

def swept (s : PriorityBridge) : ClientStep → Bool
  | .cleared closing => (s.sweeps closing).isEmpty
  | _ => true

def requestConnectionPriority (address : PeerAddress) (session : Nat) (priority : ConnectionPriority) (s : PriorityBridge) :
    PriorityBridge :=
  if s.client.gattSessions[address]? = some session then
    match s.client.connectedGatts[address]? with
    | some gatt =>
      { s with
        priorityLowered := s.priorityLowered.insert address
        priorityFallbacks := s.priorityFallbacks.erase address
        requested := s.requested ++ [(gatt, priority)] }
    | none => s
  else s

/-- It acts if it is still the map's, and its GATT still has the address. -/
def fallback (number : Nat) (posted : PriorityFallback) (s : PriorityBridge) : PriorityBridge :=
  let s := { s with fallbacks := s.fallbacks.set number { posted with ran := true } }
  if s.priorityFallbacks[posted.address]? = some number then
    let s := { s with priorityFallbacks := s.priorityFallbacks.erase posted.address }
    if s.client.owns posted.gatt posted.address && decide (posted.address ∉ s.priorityLowered) then
      { s with
        priorityLowered := s.priorityLowered.insert posted.address
        requested := s.requested ++ [(posted.gatt, .balanced)] }
    else s
  else s

def step (s : PriorityBridge) : PriorityStep → Option PriorityBridge
  | .client label =>
    if s.swept label then
      (s.client.step label).map fun client => { s.prioritise label with client := client, sweeps := sweep label client s.sweeps }
    else none
  | .onConnected gatt =>
    if gatt < s.client.gatts.length then some { s with requested := s.requested ++ [(gatt, .high)] } else none
  | .requestConnectionPriority address session priority =>
    if s.client.attempting.isSome then none else some (s.requestConnectionPriority address session priority)
  | .fallback number =>
    if s.client.attempting.isSome then none
    else (s.fallbacks[number]?.filter fun posted => !posted.ran).map fun posted => s.fallback number posted

/-- The bridge with its priorities, in any order of what it is asked and of
what it is told. -/
def machine : Machine PriorityBridge PriorityStep where
  Init s := s = {}
  step := step

/-- The automatic treatment remembers something of an address. -/
def treated (address : PeerAddress) (s : PriorityBridge) : Bool :=
  decide (address ∈ s.priorityLowered) || s.priorityFallbacks[address]?.isSome

/-- `closeConnection` does not find an address with a priority, and no
power-off finds one at all. -/
def ClosedUntreated (s : PriorityBridge) : PriorityStep → Bool
  | .client (.closeConnection address) => s.client.connectedGatts[address]?.isNone || !s.treated address
  | .client .closeAllClientGatts => s.priorityLowered.isEmpty && s.priorityFallbacks.isEmpty
  | _ => true

end PriorityBridge
end BleGatt
