import BleGatt.Connection.PeerLink

namespace BleGatt

/-! The port every driver implements, with the trait's own defaults, and what
its consumers ask of it when they start. -/

/-- A driver whose state is `σ`. What `scan` and `connect` hand out is passed
on as it is. -/
structure Driver (σ Scan Connection : Type) where
  capabilities : StateM σ CapabilityReport
  scan (service : ServiceUuid) : StateM σ (Except BleError Scan)
  connect (peer : PeerAddress) : StateM σ (Except BleError Connection)
  advertise (service : GattServiceSpec) : StateM σ (Except BleError Unit)
  updateAdvertisement (service : GattServiceSpec) : StateM σ (Except BleError Unit) :=
    pure (.error (.unsupported "updating the advertisement on this driver"))
  servedService : σ → Option GattServiceSpec
  stopAdvertising : StateM σ (Except BleError Unit)
  close : StateM σ (Except BleError Unit) := pure (.ok ())
  notify (characteristic : CharacteristicUuid) (value : Bytes) : StateM σ (Except BleError Unit)
  notifyPeer (peer : PeerAddress) (session : Option UInt64) (characteristic : CharacteristicUuid) (value : Bytes) :
    StateM σ (Except BleError Unit)
  disconnectPeer (peer : PeerAddress) (session : Option UInt64) : StateM σ (Except BleError Unit)
  notifyMaxLen (peer : PeerAddress) (session : Option UInt64) : StateM σ (Option Nat) := pure none
  /-- The radio's usability right now. -/
  radioStatus : σ → RadioStatus := fun _ => .on

/-- A call of one of its methods, `events` apart. -/
inductive DriverRequest
  | capabilities
  | scan (service : ServiceUuid)
  | connect (peer : PeerAddress)
  | advertise (service : GattServiceSpec)
  | updateAdvertisement (service : GattServiceSpec)
  | servedService
  | stopAdvertising
  | close
  | notify (characteristic : CharacteristicUuid) (value : Bytes)
  | notifyPeer (peer : PeerAddress) (session : Option UInt64) (characteristic : CharacteristicUuid) (value : Bytes)
  | disconnectPeer (peer : PeerAddress) (session : Option UInt64)
  | notifyMaxLen (peer : PeerAddress) (session : Option UInt64)
  | radioStatus
  deriving DecidableEq

inductive DriverReply (Scan Connection : Type)
  | capabilities (report : CapabilityReport)
  | scan (result : Except BleError Scan)
  | connect (result : Except BleError Connection)
  | done (result : Except BleError Unit)
  | servedService (service : Option GattServiceSpec)
  | notifyMaxLen (len : Option Nat)
  | radioStatus (status : RadioStatus)

/-- A call, or what happens to the driver in between. -/
inductive DriverInput (Outside : Type)
  | call (call : DriverRequest)
  | outside (event : Outside)

namespace Driver

variable {σ Scan Connection Outside : Type} (driver : Driver σ Scan Connection) (moves : Outside → σ → σ)

def call (driver : Driver σ Scan Connection) : DriverRequest → StateM σ (DriverReply Scan Connection)
  | .capabilities => .capabilities <$> driver.capabilities
  | .scan service => .scan <$> driver.scan service
  | .connect peer => .connect <$> driver.connect peer
  | .advertise service => .done <$> driver.advertise service
  | .updateAdvertisement service => .done <$> driver.updateAdvertisement service
  | .servedService => fun s => (.servedService (driver.servedService s), s)
  | .stopAdvertising => .done <$> driver.stopAdvertising
  | .close => .done <$> driver.close
  | .notify characteristic value => .done <$> driver.notify characteristic value
  | .notifyPeer peer session characteristic value => .done <$> driver.notifyPeer peer session characteristic value
  | .disconnectPeer peer session => .done <$> driver.disconnectPeer peer session
  | .notifyMaxLen peer session => .notifyMaxLen <$> driver.notifyMaxLen peer session
  | .radioStatus => fun s => (.radioStatus (driver.radioStatus s), s)

/-- The state one input leads to. -/
def next (s : σ) : DriverInput Outside → σ
  | .call call => (driver.call call s).2
  | .outside event => moves event s

def after (s : σ) (inputs : List (DriverInput Outside)) : σ := inputs.foldl (driver.next moves) s

/-- What the calls of a sequence return. -/
def replies (s : σ) : List (DriverInput Outside) → List (DriverReply Scan Connection)
  | [] => []
  | .call call :: rest => (driver.call call s).1 :: replies (driver.next moves s (.call call)) rest
  | .outside event :: rest => replies (driver.next moves s (.outside event)) rest

/-- The status `Adapter::new` publishes first. -/
def adapterStatus (s : σ) : RadioStatus := driver.radioStatus s

/-- `assess_radio`: the capabilities are only asked for while the radio is on. -/
def assessRadio (cfg : PeerLinkConfig) : StateM σ RadioStatus := fun s =>
  match driver.radioStatus s with
  | .on => (driver.capabilities s).map (cfg.assessRadio .on) id
  | other => (other, s)

/-- The worker of a `PeerLink`, once it has assessed its driver's radio. -/
def startPeerLink (cfg : PeerLinkConfig) (clock : Instant) (s : σ) : Worker :=
  .start cfg (driver.assessRadio cfg s).1 clock

end Driver

end BleGatt
