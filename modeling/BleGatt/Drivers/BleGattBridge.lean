import BleGatt.Entities.Models
import BleGatt.Lib.FiniteMap
import BleGatt.Lib.Machine

namespace BleGatt
open Std

/-! The client half of `BleGattBridge`: which `BluetoothGatt` has an address,
and which callbacks are passed on to Rust. -/

structure BluetoothGatt where
  address : PeerAddress
  /-- `connect` wrote it to `connectedGatts`. -/
  stored : Bool := false
  /-- `closeConnection` closed it. A callback may be on its way still. -/
  abandoned : Bool := false
  /-- `discoverServices` returned false, and its callback is about to report
  that. -/
  refused : Bool := false
  /-- Its last callback closed it. -/
  closed : Bool := false

inductive GattCallback
  /-- `STATE_CONNECTED`, and what `discoverServices` returned. -/
  | connected (started : Bool)
  | disconnected
  | servicesDiscovered (success : Bool)
  deriving DecidableEq

/-- What Rust is told. -/
inductive NativeCall
  | onConnected (address : PeerAddress)
  | onDisconnected (address : PeerAddress)
  deriving DecidableEq

/-- The client half of the bridge. A GATT goes by its number, in the order
they were created. -/
structure BleGattBridge where
  gatts : List BluetoothGatt
  connectedGatts : PeerMap Nat
  calls : List NativeCall

inductive BridgeStep
  /-- `connect` where there is no adapter. -/
  | noAdapter (address : PeerAddress)
  /-- `connect` called `connectGatt`, and callbacks may come. -/
  | connectGatt (address : PeerAddress)
  /-- `connect` takes `gattLock` and stores its GATT. -/
  | store (number : Nat)
  | closeConnection (address : PeerAddress)
  /-- The callbacks of one GATT come one after another. -/
  | callback (number : Nat) (callback : GattCallback)
  /-- The callback that was refused `discoverServices` goes on. No lock keeps
  the others out since. -/
  | reportRefused (number : Nat)

namespace BleGattBridge

def report (call : NativeCall) (s : BleGattBridge) : BleGattBridge :=
  { s with calls := s.calls ++ [call] }

def close (number : Nat) (s : BleGattBridge) : BleGattBridge :=
  { s with gatts := s.gatts.modify number fun gatt => { gatt with closed := true } }

def remove (address : PeerAddress) (s : BleGattBridge) : BleGattBridge :=
  { s with connectedGatts := s.connectedGatts.erase address }

/-- The check under `gattLock`: the GATT still has its address. -/
def owns (number : Nat) (gatt : BluetoothGatt) (s : BleGattBridge) : Bool :=
  decide (s.connectedGatts[gatt.address]? = some number)

def store (number : Nat) (gatt : BluetoothGatt) (s : BleGattBridge) : BleGattBridge :=
  { s with
    connectedGatts := s.connectedGatts.insert gatt.address number
    gatts := s.gatts.modify number fun gatt => { gatt with stored := true } }

def closeConnection (address : PeerAddress) (s : BleGattBridge) : BleGattBridge :=
  match s.connectedGatts[address]? with
  | none => s
  | some existing =>
    { s.remove address with gatts := s.gatts.modify existing fun gatt => { gatt with abandoned := true } }

/-- `onConnectionStateChange` with `STATE_CONNECTED`, up to `discoverServices`. -/
def onStateConnected (number : Nat) (started : Bool) (s : BleGattBridge) : BleGattBridge :=
  if started then s
  else { s with gatts := s.gatts.modify number fun gatt => { gatt with refused := true } }

/-- No callback is guaranteed where `discoverServices` is refused. The owner is
not looked up here. -/
def reportRefused (number : Nat) (gatt : BluetoothGatt) (s : BleGattBridge) : BleGattBridge :=
  (s.report (.onDisconnected gatt.address)).close number

/-- `onConnectionStateChange` with `STATE_DISCONNECTED`. -/
def onStateDisconnected (number : Nat) (gatt : BluetoothGatt) (s : BleGattBridge) : BleGattBridge :=
  if s.owns number gatt then ((s.remove gatt.address).report (.onDisconnected gatt.address)).close number
  else s.close number

def onServicesDiscovered (number : Nat) (gatt : BluetoothGatt) (success : Bool) (s : BleGattBridge) :
    BleGattBridge :=
  if s.owns number gatt then
    if success then s.report (.onConnected gatt.address)
    else ((s.remove gatt.address).report (.onDisconnected gatt.address)).close number
  else s.close number

def onCallback (number : Nat) (gatt : BluetoothGatt) (callback : GattCallback) (s : BleGattBridge) : BleGattBridge :=
  match callback with
  | .connected started => s.onStateConnected number started
  | .disconnected => s.onStateDisconnected number gatt
  | .servicesDiscovered success => s.onServicesDiscovered number gatt success

def step (s : BleGattBridge) : BridgeStep → Option BleGattBridge
  | .noAdapter address => some (s.report (.onDisconnected address))
  | .connectGatt address => some { s with gatts := s.gatts ++ [{ address := address }] }
  | .store number => do
    let gatt ← s.gatts[number]?.filter fun gatt => !gatt.stored
    some (s.store number gatt)
  | .closeConnection address => some (s.closeConnection address)
  | .callback number callback => do
    let gatt ← s.gatts[number]?.filter fun gatt => !gatt.closed && !gatt.refused
    some (s.onCallback number gatt callback)
  | .reportRefused number => do
    let gatt ← s.gatts[number]?.filter fun gatt => !gatt.closed && gatt.refused
    some (s.reportRefused number gatt)

/-- The bridge, over every order of its callers' steps and the platform's
callbacks. -/
def machine : Machine BleGattBridge BridgeStep where
  Init s := s = { gatts := [], connectedGatts := ∅, calls := [] }
  step := step

/-- No GATT was created for the address since. -/
def newest (number : Nat) (address : PeerAddress) (s : BleGattBridge) : Bool :=
  (s.gatts.drop (number + 1)).all fun later => decide (later.address ≠ address)

end BleGattBridge

/-- What a callback says of its link. -/
def GattCallback.tells (address : PeerAddress) : GattCallback → List NativeCall
  | .connected true => []
  | .connected false => [.onDisconnected address]
  | .disconnected => [.onDisconnected address]
  | .servicesDiscovered true => [.onConnected address]
  | .servicesDiscovered false => [.onDisconnected address]

/-- A callback as it was passed on, or was not. -/
structure Heard where
  address : PeerAddress
  callback : GattCallback
  /-- Its GATT was the last one created for the address. -/
  newest : Bool
  abandoned : Bool
  /-- What Rust was told. -/
  calls : List NativeCall

/-- The callback that a step is the end of. -/
def BridgeStep.heard : BridgeStep → Option (Nat × GattCallback)
  | .callback _ (.connected false) => none
  | .callback number what => some (number, what)
  | .reportRefused number => some (number, .connected false)
  | _ => none

namespace BleGattBridge

def hear (log : List Heard) (s : BleGattBridge) (label : BridgeStep) (s' : BleGattBridge) : List Heard :=
  match label.heard with
  | some (number, callback) =>
    match s.gatts[number]? with
    | none => log
    | some gatt =>
      log ++ [{
        address := gatt.address
        callback := callback
        newest := s.newest number gatt.address
        abandoned := gatt.abandoned
        calls := s'.calls.drop s.calls.length }]
  | none => log

/-- Only the last GATT of an address, unless `closeConnection` closed it,
speaks for it, and it is always passed on. -/
def Attributed (log : List Heard) : Prop :=
  ∀ heard ∈ log, (heard.calls ≠ [] → heard.newest = true ∧ heard.abandoned = false) ∧
    (heard.newest = true → heard.abandoned = false → heard.calls = heard.callback.tells heard.address)

/-- The map and the callbacks agree on who has the address: no GATT is stored
over a newer one, none is ended before it is stored or while a newer one is
about to be, and that `discoverServices` was refused is reported while its GATT
is still the last one. -/
def agrees (s : BleGattBridge) : BridgeStep → Bool
  | .store number => s.gatts[number]?.all fun gatt => s.newest number gatt.address
  | .callback number callback => s.gatts[number]?.all fun gatt =>
    let current := s.newest number gatt.address && !gatt.abandoned
    match callback with
    | .connected _ => true
    | _ => (!s.owns number gatt || s.newest number gatt.address) && (!current || gatt.stored)
  | .reportRefused number => s.gatts[number]?.all fun gatt => s.newest number gatt.address && !gatt.abandoned
  | _ => true

/-- The map has open GATTs of its addresses, and each address's last one once
it is stored. -/
structure Owning (s : BleGattBridge) : Prop where
  held : ∀ (address : PeerAddress) (number : Nat), s.connectedGatts[address]? = some number →
    ∃ gatt, s.gatts[number]? = some gatt ∧ gatt.address = address ∧ gatt.stored = true ∧ gatt.abandoned = false
  owner : ∀ (number : Nat) (gatt : BluetoothGatt), s.gatts[number]? = some gatt →
    s.newest number gatt.address = true → gatt.stored = true → gatt.abandoned = false → gatt.closed = false →
      s.connectedGatts[gatt.address]? = some number
  stored : ∀ (number : Nat) (gatt : BluetoothGatt), s.gatts[number]? = some gatt → gatt.abandoned = true →
    gatt.stored = true

theorem newest_iff {s : BleGattBridge} {number : Nat} {address : PeerAddress} :
    s.newest number address = true ↔ ∀ (n : Nat) (gatt : BluetoothGatt), number < n → s.gatts[n]? = some gatt →
      gatt.address ≠ address := by
  unfold newest
  rw [List.all_eq_true]
  simp only [decide_eq_true_eq]
  constructor
  · intro none_later n gatt after here
    refine none_later gatt (List.mem_of_getElem? (i := n - (number + 1)) ?_)
    rw [List.getElem?_drop, ← here]
    congr 1
    omega
  · intro none_later gatt member
    obtain ⟨k, here⟩ := List.getElem?_of_mem member
    rw [List.getElem?_drop] at here
    exact none_later _ gatt (by omega) here

section Modify

variable {gatts : List BluetoothGatt} {number n : Nat} {f : BluetoothGatt → BluetoothGatt}

theorem of_modify {gatt : BluetoothGatt} (there : (gatts.modify number f)[n]? = some gatt) :
    n ≠ number ∧ gatts[n]? = some gatt ∨ n = number ∧ ∃ old, gatts[n]? = some old ∧ gatt = f old := by
  by_cases same : n = number
  · subst same
    rw [List.getElem?_modify_eq, Option.map_eq_map, Option.map_eq_some_iff] at there
    obtain ⟨old, here, rfl⟩ := there
    exact .inr ⟨rfl, old, here, rfl⟩
  · rw [List.getElem?_modify_ne f gatts (Ne.symm same)] at there
    exact .inl ⟨same, there⟩

/-- Which GATT is the last one is told by the addresses alone. -/
theorem newest_modify {s s' : BleGattBridge} {address : PeerAddress} (gatts : s'.gatts = s.gatts.modify number f)
    (keeps : ∀ gatt, (f gatt).address = gatt.address) (last : s'.newest n address = true) :
    s.newest n address = true := by
  rw [newest_iff] at last ⊢
  intro k gatt after here
  by_cases same : k = number
  · subst same
    have there : s'.gatts[k]? = some (f gatt) := by
      rw [gatts, List.getElem?_modify_eq, here]
      rfl
    have apart := last k (f gatt) after there
    rwa [keeps] at apart
  · refine last k gatt after ?_
    rw [gatts, List.getElem?_modify_ne f s.gatts (Ne.symm same)]
    exact here

end Modify

namespace Owning

variable {s : BleGattBridge}

theorem connectGatt (owning : Owning s) (address : PeerAddress) :
    Owning { s with gatts := s.gatts ++ [{ address := address }] } := by
  have cases : ∀ {n : Nat} {gatt : BluetoothGatt}, (s.gatts ++ [{ address := address }])[n]? = some gatt →
      s.gatts[n]? = some gatt ∨ gatt = { address := address } := by
    intro n gatt there
    rw [List.getElem?_append] at there
    split at there
    · exact .inl there
    · exact .inr (List.mem_singleton.mp (List.mem_of_getElem? there))
  constructor
  · intro q number at_q
    obtain ⟨gatt, here, rest⟩ := owning.held q number at_q
    exact ⟨gatt, (List.getElem?_append_left (List.getElem?_eq_some_iff.mp here).1).trans here, rest⟩
  · intro number gatt there last stored not_abandoned not_closed
    rcases cases there with here | rfl
    · refine owning.owner number gatt here ?_ stored not_abandoned not_closed
      rw [newest_iff] at last ⊢
      intro n later after at_n
      exact last n later after ((List.getElem?_append_left (List.getElem?_eq_some_iff.mp at_n).1).trans at_n)
    · simp at stored
  · intro number gatt there abandoned
    rcases cases there with here | rfl
    · exact owning.stored number gatt here abandoned
    · simp at abandoned

/-- The last GATT of its address is stored. -/
theorem store (owning : Owning s) {number : Nat} {gatt : BluetoothGatt} (here : s.gatts[number]? = some gatt)
    (unstored : gatt.stored = false) (newest : s.newest number gatt.address = true) :
    Owning (s.store number gatt) := by
  have keeps : ∀ gatt : BluetoothGatt, ({ gatt with stored := true } : BluetoothGatt).address = gatt.address :=
    fun _ => rfl
  constructor
  · intro q n at_q
    unfold BleGattBridge.store at at_q ⊢
    dsimp only at at_q ⊢
    rw [FiniteMap.getElem?_insert] at at_q
    split at at_q
    · rename_i own
      obtain rfl := Option.some.inj at_q
      have not_abandoned : gatt.abandoned = false := by
        by_contra abandoned
        rw [Bool.not_eq_false] at abandoned
        rw [owning.stored number gatt here abandoned] at unstored
        simp at unstored
      refine ⟨{ gatt with stored := true }, ?_, own.symm, rfl, not_abandoned⟩
      rw [List.getElem?_modify_eq, here]
      rfl
    · obtain ⟨old, at_n, own, stored, rest⟩ := owning.held q n at_q
      refine ⟨old, ?_, own, stored, rest⟩
      rw [List.getElem?_modify_ne, at_n]
      rintro rfl
      obtain rfl := Option.some.inj (here.symm.trans at_n)
      rw [stored] at unstored
      simp at unstored
  · intro n old there last stored not_abandoned not_closed
    have last' := newest_modify rfl keeps last
    unfold BleGattBridge.store
    dsimp only
    rw [FiniteMap.getElem?_insert]
    rcases of_modify there with ⟨other, at_n⟩ | ⟨rfl, found, at_n, rfl⟩
    · by_cases own : old.address = gatt.address
      · -- two last GATTs of one address are one
        rw [own] at last'
        rcases Nat.lt_or_gt_of_ne other with before | after
        · exact absurd rfl (newest_iff.mp last' number gatt before here)
        · exact absurd own (newest_iff.mp newest n old after at_n)
      · rw [if_neg own]
        exact owning.owner n old at_n last' stored not_abandoned not_closed
    · obtain rfl := Option.some.inj (here.symm.trans at_n)
      exact if_pos rfl
  · intro n old there abandoned
    rcases of_modify there with ⟨_, at_n⟩ | ⟨rfl, found, at_n, rfl⟩
    · exact owning.stored n old at_n abandoned
    · rfl

/-- What only ends a GATT, or is none of its owner's. -/
theorem modify (owning : Owning s) (number : Nat) {f : BluetoothGatt → BluetoothGatt}
    (keeps : ∀ gatt, (f gatt).address = gatt.address ∧ (f gatt).stored = gatt.stored ∧
      (f gatt).abandoned = gatt.abandoned)
    (ends : ∀ gatt, (f gatt).closed = false → gatt.closed = false) :
    Owning { s with gatts := s.gatts.modify number f } := by
  constructor
  · intro q n at_q
    obtain ⟨gatt, here, own, stored, not_abandoned⟩ := owning.held q n at_q
    obtain ⟨address, stays, left⟩ := keeps gatt
    dsimp only
    by_cases same : n = number
    · subst same
      refine ⟨f gatt, ?_, address.trans own, stays.trans stored, left.trans not_abandoned⟩
      rw [List.getElem?_modify_eq, here]
      rfl
    · refine ⟨gatt, ?_, own, stored, not_abandoned⟩
      rw [List.getElem?_modify_ne _ _ (Ne.symm same)]
      exact here
  · intro n gatt there last stored not_abandoned not_closed
    have last' := newest_modify (f := f) rfl (fun gatt => (keeps gatt).1) last
    rcases of_modify there with ⟨_, here⟩ | ⟨rfl, old, here, rfl⟩
    · exact owning.owner n gatt here last' stored not_abandoned not_closed
    · obtain ⟨address, stays, left⟩ := keeps old
      rw [address] at last' ⊢
      exact owning.owner n old here last' (stays.symm.trans stored) (left.symm.trans not_abandoned) (ends old not_closed)
  · intro n gatt there abandoned
    rcases of_modify there with ⟨_, here⟩ | ⟨rfl, old, here, rfl⟩
    · exact owning.stored n gatt here abandoned
    · obtain ⟨_, stays, left⟩ := keeps old
      exact stays.trans (owning.stored n old here (left.symm.trans abandoned))

theorem close (owning : Owning s) (number : Nat) : Owning (s.close number) :=
  owning.modify number (fun _ => ⟨rfl, rfl, rfl⟩) fun _ is => by simp at is

theorem refuse (owning : Owning s) (number : Nat) :
    Owning { s with gatts := s.gatts.modify number fun gatt => { gatt with refused := true } } :=
  owning.modify number (fun _ => ⟨rfl, rfl, rfl⟩) fun _ => id

/-- The GATT of an address is closed, one way or another, and forgotten. -/
theorem retires (owning : Owning s) {address : PeerAddress} {number : Nat} {f : BluetoothGatt → BluetoothGatt}
    (holder : s.connectedGatts[address]? = some number) (keeps : ∀ gatt, (f gatt).address = gatt.address)
    (stays : ∀ gatt, (f gatt).stored = gatt.stored)
    (done : ∀ gatt, (f gatt).abandoned = true ∨ (f gatt).closed = true) :
    Owning { s.remove address with gatts := s.gatts.modify number f } := by
  obtain ⟨gatt, here, own, stored, _⟩ := owning.held address number holder
  constructor
  · intro q n at_q
    unfold remove at at_q
    dsimp only at at_q ⊢
    rw [FiniteMap.getElem?_erase] at at_q
    split at at_q
    · simp at at_q
    · rename_i elsewhere
      obtain ⟨old, at_n, own', rest⟩ := owning.held q n at_q
      refine ⟨old, ?_, own', rest⟩
      rw [List.getElem?_modify_ne, at_n]
      rintro rfl
      obtain rfl := Option.some.inj (here.symm.trans at_n)
      exact elsewhere (own'.symm.trans own)
  · intro n old there last stored' not_abandoned not_closed
    have last' := newest_modify rfl keeps last
    rcases of_modify there with ⟨other, at_n⟩ | ⟨rfl, found, at_n, rfl⟩
    · have entry := owning.owner n old at_n last' stored' not_abandoned not_closed
      unfold remove
      dsimp only
      rw [FiniteMap.getElem?_erase, if_neg, entry]
      intro same
      rw [same, holder] at entry
      exact other (Option.some.inj entry).symm
    · rcases done found with abandoned | closed
      · rw [abandoned] at not_abandoned
        simp at not_abandoned
      · rw [closed] at not_closed
        simp at not_closed
  · intro n old there abandoned
    rcases of_modify there with ⟨_, at_n⟩ | ⟨rfl, found, at_n, rfl⟩
    · exact owning.stored n old at_n abandoned
    · obtain rfl := Option.some.inj (here.symm.trans at_n)
      rw [stays]
      exact stored

theorem closeConnection (owning : Owning s) (address : PeerAddress) : Owning (s.closeConnection address) := by
  unfold BleGattBridge.closeConnection
  split
  · exact owning
  · rename_i existing holder
    exact owning.retires holder (fun _ => rfl) (fun _ => rfl) (fun _ => .inl rfl)

/-- Its owner's link ended. -/
theorem lost (owning : Owning s) {number : Nat} {gatt : BluetoothGatt} (holder : s.owns number gatt = true) :
    Owning (((s.remove gatt.address).report (.onDisconnected gatt.address)).close number) := by
  have retired := owning.retires (f := fun gatt => { gatt with closed := true }) (of_decide_eq_true holder)
    (fun _ => rfl) (fun _ => rfl) (fun _ => .inr rfl)
  exact ⟨retired.held, retired.owner, retired.stored⟩

theorem reportRefused (owning : Owning s) (number : Nat) (gatt : BluetoothGatt) :
    Owning (s.reportRefused number gatt) := by
  have closed := owning.close number
  exact ⟨closed.held, closed.owner, closed.stored⟩

theorem onCallback (owning : Owning s) (number : Nat) (gatt : BluetoothGatt) (callback : GattCallback) :
    Owning (s.onCallback number gatt callback) := by
  unfold BleGattBridge.onCallback
  cases callback with
  | connected started =>
    dsimp only
    unfold onStateConnected
    split
    · exact owning
    · exact owning.refuse number
  | disconnected =>
    dsimp only
    unfold onStateDisconnected
    split
    · rename_i holder
      exact owning.lost holder
    · exact owning.close number
  | servicesDiscovered success =>
    dsimp only
    unfold onServicesDiscovered
    split
    · rename_i holder
      split
      · exact ⟨owning.held, owning.owner, owning.stored⟩
      · exact owning.lost holder
    · exact owning.close number

theorem step (owning : Owning s) {label : BridgeStep} {s' : BleGattBridge} (ok : s.agrees label = true)
    (step : s.step label = some s') : Owning s' := by
  unfold BleGattBridge.step at step
  cases label with
  | noAdapter address =>
    cases Option.some.inj step
    exact ⟨owning.held, owning.owner, owning.stored⟩
  | connectGatt address =>
    cases Option.some.inj step
    exact owning.connectGatt address
  | store number =>
    simp only [Option.bind_eq_some_iff, Option.bind_eq_bind, Option.filter_eq_some_iff, Bool.not_eq_true'] at step
    obtain ⟨gatt, ⟨here, unstored⟩, done⟩ := step
    cases Option.some.inj done
    simp only [agrees, here, Option.all_some] at ok
    exact owning.store here unstored ok
  | closeConnection address =>
    cases Option.some.inj step
    exact owning.closeConnection address
  | callback number callback =>
    simp only [Option.bind_eq_some_iff, Option.bind_eq_bind] at step
    obtain ⟨gatt, _, done⟩ := step
    cases Option.some.inj done
    exact owning.onCallback number gatt callback
  | reportRefused number =>
    simp only [Option.bind_eq_some_iff, Option.bind_eq_bind] at step
    obtain ⟨gatt, _, done⟩ := step
    cases Option.some.inj done
    exact owning.reportRefused number gatt

end Owning

/-- Whether a callback is passed on where it ends. -/
def speaks (number : Nat) (gatt : BluetoothGatt) (callback : GattCallback) (s : BleGattBridge) : Bool :=
  match callback with
  | .connected _ => true
  | _ => s.owns number gatt

theorem onCallback_calls (number : Nat) (gatt : BluetoothGatt) (callback : GattCallback) (s : BleGattBridge)
    (ends : callback ≠ .connected false) : (s.onCallback number gatt callback).calls =
      s.calls ++ if s.speaks number gatt callback then callback.tells gatt.address else [] := by
  unfold onCallback speaks
  cases callback with
  | connected started =>
    cases started with
    | true => simp [onStateConnected, GattCallback.tells]
    | false => exact absurd rfl ends
  | disconnected =>
    dsimp only
    unfold onStateDisconnected
    split
    · rfl
    · exact (List.append_nil _).symm
  | servicesDiscovered success =>
    dsimp only
    unfold onServicesDiscovered
    split
    · cases success <;> rfl
    · exact (List.append_nil _).symm

/-- The last GATT of an address speaks for it. -/
theorem Owning.speaks {s : BleGattBridge} (owning : Owning s) {number : Nat} {gatt : BluetoothGatt}
    {callback : GattCallback} (here : s.gatts[number]? = some gatt) (not_closed : gatt.closed = false)
    (ok : s.agrees (.callback number callback) = true) (last : s.newest number gatt.address = true)
    (not_abandoned : gatt.abandoned = false) : s.speaks number gatt callback = true := by
  unfold BleGattBridge.speaks
  simp only [agrees, here, Option.all_some, last, not_abandoned] at ok
  have owner : gatt.stored = true → s.owns number gatt = true := fun stored =>
    decide_eq_true (owning.owner number gatt here last stored not_abandoned not_closed)
  cases callback with
  | connected started => rfl
  | disconnected =>
    obtain ⟨_, stored⟩ : _ ∧ gatt.stored = true := by simpa using ok
    exact owner stored
  | servicesDiscovered success =>
    obtain ⟨_, stored⟩ : _ ∧ gatt.stored = true := by simpa using ok
    exact owner stored

/-- Who is heard is the last GATT of its address. -/
theorem Owning.spoke {s : BleGattBridge} (owning : Owning s) {number : Nat} {gatt : BluetoothGatt}
    {callback : GattCallback} (here : s.gatts[number]? = some gatt) (ends : callback ≠ .connected false)
    (ok : s.agrees (.callback number callback) = true) (spoke : s.speaks number gatt callback = true)
    (told : callback.tells gatt.address ≠ []) :
    s.newest number gatt.address = true ∧ gatt.abandoned = false := by
  unfold BleGattBridge.speaks at spoke
  simp only [agrees, here, Option.all_some] at ok
  have owner : s.owns number gatt = true → gatt.abandoned = false := by
    intro holds
    obtain ⟨gatt', here', _, _, not_abandoned⟩ := owning.held gatt.address number (of_decide_eq_true holds)
    obtain rfl := Option.some.inj (here.symm.trans here')
    exact not_abandoned
  cases callback with
  | connected started =>
    cases started with
    | true => exact absurd rfl told
    | false => exact absurd rfl ends
  | disconnected =>
    dsimp only at spoke ok
    rw [spoke] at ok
    simp only [Bool.not_true, Bool.false_or, Bool.and_eq_true] at ok
    exact ⟨ok.1, owner spoke⟩
  | servicesDiscovered success =>
    dsimp only at spoke ok
    rw [spoke] at ok
    simp only [Bool.not_true, Bool.false_or, Bool.and_eq_true] at ok
    exact ⟨ok.1, owner spoke⟩

/-- A callback that ends with its step: what Rust is told of it. -/
theorem Attributed.heard {log : List Heard} {s s' : BleGattBridge} (attributed : Attributed log) {label : BridgeStep}
    {number : Nat} {callback : GattCallback} {gatt : BluetoothGatt} (ends : label.heard = some (number, callback))
    (here : s.gatts[number]? = some gatt) {told : List NativeCall} (calls : s'.calls = s.calls ++ told)
    (only : told ≠ [] → s.newest number gatt.address = true ∧ gatt.abandoned = false)
    (always : s.newest number gatt.address = true → gatt.abandoned = false → told = callback.tells gatt.address) :
    Attributed (hear log s label s') := by
  unfold hear
  simp only [ends, here, calls, List.drop_left]
  intro heard member
  rcases List.mem_append.mp member with before | last
  · exact attributed heard before
  · obtain rfl := List.mem_singleton.mp last
    exact ⟨only, always⟩

theorem hear_silent {log : List Heard} {s s' : BleGattBridge} {label : BridgeStep} (silent : label.heard = none) :
    hear log s label s' = log := by
  unfold hear
  rw [silent]

theorem Attributed.step {log : List Heard} {s s' : BleGattBridge} (attributed : Attributed log) (owning : Owning s)
    {label : BridgeStep} (ok : s.agrees label = true) (step : s.step label = some s') :
    Attributed (hear log s label s') := by
  unfold BleGattBridge.step at step
  cases label with
  | noAdapter address => exact attributed
  | connectGatt address => exact attributed
  | store number => exact attributed
  | closeConnection address => exact attributed
  | callback number callback =>
    simp only [Option.bind_eq_some_iff, Option.bind_eq_bind, Option.filter_eq_some_iff, Bool.and_eq_true,
      Bool.not_eq_true'] at step
    obtain ⟨gatt, ⟨here, not_closed, _⟩, done⟩ := step
    cases Option.some.inj done
    by_cases refused : callback = .connected false
    · subst refused
      rw [hear_silent rfl]
      exact attributed
    · have ends : BridgeStep.heard (.callback number callback) = some (number, callback) := by
        unfold BridgeStep.heard
        split <;> simp_all
      refine attributed.heard ends here (onCallback_calls number gatt callback s refused) ?_ ?_
      · intro told
        split at told
        · rename_i spoke
          exact owning.spoke here refused ok spoke told
        · exact absurd rfl told
      · intro newest not_abandoned
        exact if_pos (owning.speaks here not_closed ok newest not_abandoned)
  | reportRefused number =>
    simp only [Option.bind_eq_some_iff, Option.bind_eq_bind, Option.filter_eq_some_iff] at step
    obtain ⟨gatt, ⟨here, _⟩, done⟩ := step
    cases Option.some.inj done
    simp only [agrees, here, Option.all_some, Bool.and_eq_true, Bool.not_eq_true'] at ok
    have calls : (s.reportRefused number gatt).calls = s.calls ++ [.onDisconnected gatt.address] := rfl
    exact attributed.heard rfl here calls (fun _ => ok) fun _ _ => rfl

theorem run_attributed {log : List Heard} {s : BleGattBridge}
    (run : machine.Run (fun _ s label => s.agrees label = true) hear [] log s) : Attributed log := by
  have both : Owning s ∧ Attributed log := by
    refine run.invariant (P := fun log s => Owning s ∧ Attributed log) ?_ ?_
    · rintro s rfl
      exact ⟨⟨by simp, by simp, by simp⟩, by simp [Attributed]⟩
    · intro log s label s' _ kept ok step
      exact ⟨kept.1.step ok step, kept.2.step kept.1 ok step⟩
  exact both.2

/-- A link is lost, and the address is dialled again before the last word of
the GATT that `closeConnection` closed. -/
def redial : List BridgeStep :=
  [.connectGatt ⟨"a"⟩, .store 0, .callback 0 (.connected true), .closeConnection ⟨"a"⟩, .connectGatt ⟨"a"⟩, .store 1,
    .callback 0 .disconnected, .callback 1 (.servicesDiscovered true), .callback 1 .disconnected, .connectGatt ⟨"a"⟩,
    .store 2, .callback 2 (.connected false), .reportRefused 2]

/-- What Rust was told at each callback. -/
def told (log : List Heard) : List (List NativeCall) :=
  log.map Heard.calls

theorem run_attributed_redial : ∃ log, Attributed log ∧
    told log = [[], [], [.onConnected ⟨"a"⟩], [.onDisconnected ⟨"a"⟩], [.onDisconnected ⟨"a"⟩]] := by
  obtain ⟨log, _, run, heard⟩ := Machine.Run.exists_of_follow machine (fun _ s label => s.agrees label = true) hear []
    (fun log _ => decide (told log = [[], [], [.onConnected ⟨"a"⟩], [.onDisconnected ⟨"a"⟩], [.onDisconnected ⟨"a"⟩]])) rfl redial
    (by decide +kernel)
  exact ⟨log, run_attributed run, of_decide_eq_true heard⟩

/-- A dial fails before it is stored; and a GATT that is refused
`discoverServices` says so once `closeConnection` closed it and it is replaced. -/
def crossed : List BridgeStep :=
  [.connectGatt ⟨"a"⟩, .callback 0 .disconnected, .store 0, .connectGatt ⟨"b"⟩, .store 1,
    .callback 1 (.connected false), .closeConnection ⟨"b"⟩, .connectGatt ⟨"b"⟩, .store 2, .reportRefused 1]

/-- The last GATT of an address was not passed on. -/
def discards (log : List Heard) : Bool :=
  log.any fun heard => heard.newest && !heard.abandoned && decide (heard.calls ≠ heard.callback.tells heard.address)

/-- Another GATT spoke for its address. -/
def misattributes (log : List Heard) : Bool :=
  log.any fun heard => !heard.newest && decide (heard.calls ≠ [])

theorem not_attributed : ∃ log s, machine.Run (fun _ _ _ => True) hear [] log s ∧ discards log = true ∧
    misattributes log = true ∧ ¬ Attributed log := by
  obtain ⟨log, s, run, heard⟩ := Machine.Run.exists_of_follow machine (fun _ _ _ => True) hear []
    (fun log _ => discards log && misattributes log) rfl crossed (by decide +kernel)
  rw [Bool.and_eq_true] at heard
  refine ⟨log, s, run, heard.1, heard.2, fun attributed => ?_⟩
  have stale := heard.2
  unfold misattributes at stale
  simp only [List.any_eq_true, Bool.and_eq_true, Bool.not_eq_true', decide_eq_true_eq] at stale
  obtain ⟨other, member, old, told⟩ := stale
  have last := ((attributed other member).1 told).1
  rw [old] at last
  simp at last

end BleGattBridge

end BleGatt
