import BleGatt.Lib.FiniteMap

namespace BleGatt
open Std

/-- A reading of the monotonic clock, in nanoseconds. -/
abbrev Instant := Nat

abbrev Duration := Nat

def Duration.ofSecs (secs : Nat) : Duration := secs * 1000000000

/-- The first nanosecond an `Instant` cannot hold: its seconds are an `i64`. -/
def Instant.limit : Nat := 2 ^ 63 * 1000000000

/-- `Instant + Duration`. `none` is the panic of an overflowing addition. -/
def Instant.plus (at_ : Instant) (d : Duration) : Option Instant :=
  if at_ + d < Instant.limit then some (at_ + d) else none

theorem Instant.plus_eq_some {at_ sum : Instant} {d : Duration} :
    Instant.plus at_ d = some sum ↔ at_ + d < Instant.limit ∧ sum = at_ + d := by
  unfold Instant.plus
  split <;> simp_all [eq_comm]

abbrev Bytes := List UInt8

/-- An opaque peer identifier. Only its order, that of the string, is used. -/
structure PeerAddress where
  addr : String
  deriving DecidableEq, Repr

instance : Ord PeerAddress := ⟨compareOn PeerAddress.addr⟩

instance : TransOrd PeerAddress := inferInstanceAs (TransCmp (compareOn PeerAddress.addr))

instance : LawfulEqOrd PeerAddress where
  eq_of_compare {a b} same := by
    have addrs : a.addr = b.addr := LawfulEqOrd.eq_of_compare same
    cases a
    exact congrArg PeerAddress.mk addrs

/-- A map keyed by peer address. Rust's `HashMap` iterates in no order that a
caller may rely on; this one iterates by address. -/
abbrev PeerMap (ν : Type) := ExtTreeMap PeerAddress ν compare

structure ServiceUuid where
  uuid : BitVec 128
  deriving DecidableEq

structure CharacteristicUuid where
  uuid : BitVec 128
  deriving DecidableEq

instance : Ord CharacteristicUuid := ⟨compareOn fun characteristic => characteristic.uuid.toNat⟩

instance : TransOrd CharacteristicUuid := inferInstanceAs (TransCmp (compareOn _))

instance : LawfulEqOrd CharacteristicUuid where
  eq_of_compare {a b} same := by
    have numbers : a.uuid.toNat = b.uuid.toNat := LawfulEqOrd.eq_of_compare same
    cases a
    exact congrArg CharacteristicUuid.mk (BitVec.eq_of_toNat_eq numbers)

inductive Role
  | central
  | peripheral
  deriving DecidableEq, Repr

/-- What a driver can do on this device, probed while the radio is on. -/
structure CapabilityReport where
  central : Bool := false
  peripheral : Bool := false
  deriving DecidableEq, Repr

inductive RadioStatus
  | on
  /-- The adapter exists but is switched off. -/
  | off
  /-- No usable adapter for this device's role. -/
  | unsupported
  deriving DecidableEq, Repr

/-- The lifecycle events of a driver, both roles, with inbound writes. -/
inductive GattEvent
  | connected (peer : PeerAddress) (localRole : Role) (session : Option UInt64)
  | disconnected (peer : PeerAddress) (localRole : Role) (session : Option UInt64)
  | characteristicWritten (peer : PeerAddress) (characteristic : CharacteristicUuid) (value : Bytes)
  | lagged (dropped : UInt64)
  | radioChanged (status : RadioStatus)

structure GattCharacteristicSpec where
  uuid : CharacteristicUuid
  readable : Bool
  writable : Bool
  notifiable : Bool
  initialValue : Bytes
  deriving DecidableEq

/-- A service with its advertisement data. -/
structure GattServiceSpec where
  uuid : ServiceUuid
  characteristics : List GattCharacteristicSpec
  manufacturerData : List (UInt16 × Bytes) := []
  serviceData : List (ServiceUuid × Bytes) := []
  localName : Option String := none
  deriving DecidableEq

/-- How a central asks for the connection interval. -/
inductive ConnectionPriority
  | lowPower
  | balanced
  | high
  deriving DecidableEq

/-- The errors a driver reports. -/
inductive BleError
  | adapterUnavailable (reason : String)
  | adapterBusy (reason : String)
  | peripheralUnsupported
  | unsupported (reason : String)
  | connectFailed (peer reason : String)
  | gatt (reason : String)
  | gattBusy (reason : String)
  | notConnected (peer : String)
  | transport (reason : String)
  deriving DecidableEq, Repr

/-- A UUID as it is printed: 32 hex digits in groups of 8, 4, 4, 4 and 12. -/
def uuidText (uuid : BitVec 128) : String :=
  let digits := uuid.toHex.toList
  let group := fun first count => String.ofList ((digits.drop first).take count)
  String.intercalate "-" [group 0 8, group 8 4, group 12 4, group 16 4, group 20 12]

namespace GattServiceSpec

/-- Refuses a name that would collide with the service's own data. -/
def validate (spec : GattServiceSpec) : Except BleError Unit :=
  if spec.localName.isSome && (spec.serviceData.lookup spec.uuid).isSome then
    .error (.gatt s!"local_name and service_data under the advertised service {uuidText spec.uuid.uuid} cannot both be set: the name is sent as that service data")
  else .ok ()

/-- The same UUID and characteristics, whatever the advertisement data. -/
def sameService (spec other : GattServiceSpec) : Bool :=
  spec.uuid == other.uuid && spec.characteristics == other.characteristics

theorem sameService_refl (spec : GattServiceSpec) : spec.sameService spec := by
  simp [sameService]

theorem sameService_symm {spec other : GattServiceSpec} (same : spec.sameService other) :
    other.sameService spec := by
  simp only [sameService, Bool.and_eq_true, beq_iff_eq] at same ⊢
  exact ⟨same.1.symm, same.2.symm⟩

theorem sameService_trans {a b c : GattServiceSpec} (ab : a.sameService b) (bc : b.sameService c) :
    a.sameService c := by
  simp only [sameService, Bool.and_eq_true, beq_iff_eq] at ab bc ⊢
  exact ⟨ab.1.trans bc.1, ab.2.trans bc.2⟩

end GattServiceSpec

end BleGatt
