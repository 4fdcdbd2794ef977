import BleGatt.Entities.Models
import BleGatt.Lib.FiniteMap
import BleGatt.Lib.Machine
import BleGatt.Lib.TaskList

namespace BleGatt
open Std

/-! The peripheral half of `LinuxDriver`: which centrals it serves, and the
tasks that watch their links. `advertise` and `stop_advertising` have
`advertise_lock`, and go from one await to the next. -/

/-- How far the task of `spawn_peripheral_disconnect_watch` came. -/
inductive WatchPhase
  /-- Its central is in `served_peers`, and it is not spawned yet. -/
  | admitted
  | watching
  /-- It is done watching, for whatever reason, and takes its locks. -/
  | ending
  | over
  deriving DecidableEq

structure ServedWatch where
  address : PeerAddress
  session : Nat
  phase : WatchPhase := .admitted
  /-- An abort stops it at its next await. -/
  aborted : Bool := false
  deriving DecidableEq

/-- It runs, and nothing stops it. -/
def ServedWatch.live (watch : ServedWatch) : Bool :=
  !watch.aborted && match watch.phase with
    | .watching | .ending => true
    | .admitted | .over => false

/-- Who has `advertise_lock`, and how far it came. -/
inductive ServerOperation
  | idle
  /-- `advertise` forgot the served service. -/
  | advertising
  /-- It aborted these tasks; BlueZ has its application. -/
  | registering (generation : Nat) (aborted : List Nat)
  /-- BlueZ serves it. -/
  | serving (generation : Nat) (aborted : List Nat)
  /-- It is the current one; BlueZ has the advertisement. -/
  | switched
  /-- `stop_advertising` forgot the served service. -/
  | stopping
  /-- No handler is current. -/
  | invalidated
  | releasing (aborted : List Nat)
  | released
  deriving DecidableEq

/-- The watchers it aborted, while it has not released their centrals. -/
def ServerOperation.aborted : ServerOperation → List Nat
  | .registering _ aborted | .serving _ aborted | .releasing aborted => aborted
  | _ => []

structure LinuxServer where
  advertiseGeneration : Nat := 1
  generationCounter : Nat := 1
  /-- The generations of the applications BlueZ was given. -/
  handlers : List Nat := []
  servedPeers : PeerMap Nat := ∅
  nextSession : Nat := 1
  watches : List ServedWatch := []
  serverWatch : List Nat := []
  operation : ServerOperation := .idle
  /-- Every peripheral-role `Disconnected`. -/
  disconnected : List (PeerAddress × Option Nat) := []

inductive LinuxServerStep
  | advertise
  | stopAdvertising
  /-- It goes on. -/
  | proceed
  /-- BlueZ takes the application, or the advertisement, or does not. -/
  | answer (ok : Bool)
  /-- Its future is dropped. -/
  | drop
  /-- A subscription or a write reaches a handler. -/
  | admitCentral (address : PeerAddress)
  /-- The handler spawns the watcher, and registers it. -/
  | watch (number : Nat)
  /-- The link is lost, or its last notify session is. -/
  | lose (number : Nat)
  | retire (number : Nat)
  /-- A dial of the central half takes a session. -/
  | dial

namespace LinuxServer

/-- `server_watch.drain(..)`. -/
def abortWatchers (s : LinuxServer) : LinuxServer :=
  { s with
    watches := s.watches.mapIdx fun n watch => if n ∈ s.serverWatch then { watch with aborted := true } else watch
    serverWatch := [] }

/-- `release_served_peers`, or what `advertise` does in its place. -/
def releaseServedPeers (s : LinuxServer) : LinuxServer :=
  { s with servedPeers := ∅, disconnected := s.disconnected ++ s.servedPeers.keys.map fun address => (address, none) }

/-- `advertise` and `stop_advertising`. -/
def proceed (s : LinuxServer) : Option LinuxServer :=
  match s.operation with
  | .advertising =>
    some { s.abortWatchers with
      operation := .registering (s.generationCounter + 1) s.serverWatch
      generationCounter := s.generationCounter + 1
      handlers := s.handlers ++ [s.generationCounter + 1] }
  | .serving generation _ =>
    some { s.releaseServedPeers with operation := .switched, advertiseGeneration := generation }
  | .stopping =>
    some { s with
      operation := .invalidated
      advertiseGeneration := s.generationCounter + 1
      generationCounter := s.generationCounter + 1 }
  | .invalidated => some { s.abortWatchers with operation := .releasing s.serverWatch }
  | .releasing _ => some { s.releaseServedPeers with operation := .released }
  | .released => some { s with operation := .idle }
  | .idle | .registering _ _ | .switched => none

def answer (ok : Bool) (s : LinuxServer) : Option LinuxServer :=
  match s.operation with
  | .registering generation aborted =>
    some { s with operation := if ok then .serving generation aborted else .idle }
  | .switched => some { s with operation := .idle }
  | _ => none

/-- It can be dropped at its awaits. -/
def drop (s : LinuxServer) : Option LinuxServer :=
  match s.operation with
  | .registering _ _ | .serving _ _ | .switched | .releasing _ | .released => some { s with operation := .idle }
  | .idle | .advertising | .stopping | .invalidated => none

/-- A handler of the current generation admits a central it does not serve. -/
def admitCentral (address : PeerAddress) (s : LinuxServer) : LinuxServer :=
  if s.advertiseGeneration ∈ s.handlers ∧ s.servedPeers[address]? = none then
    { s with
      servedPeers := s.servedPeers.insert address s.nextSession
      nextSession := s.nextSession + 1
      watches := s.watches ++ [{ address := address, session := s.nextSession }] }
  else s

/-- The end of the watcher: only the session it watched is its own. -/
def retire (number : Nat) (watch : ServedWatch) (s : LinuxServer) : LinuxServer :=
  let ended := { s with watches := s.watches.set number { watch with phase := .over } }
  if s.servedPeers[watch.address]? = some watch.session then
    { ended with
      servedPeers := s.servedPeers.erase watch.address
      disconnected := s.disconnected ++ [(watch.address, some watch.session)] }
  else ended

def step (s : LinuxServer) : LinuxServerStep → Option LinuxServer
  | .advertise => if s.operation = .idle then some { s with operation := .advertising } else none
  | .stopAdvertising => if s.operation = .idle then some { s with operation := .stopping } else none
  | .proceed => s.proceed
  | .answer ok => s.answer ok
  | .drop => s.drop
  | .admitCentral address => some (s.admitCentral address)
  | .watch number => do
    let watch ← s.watches[number]?.filter fun watch => decide (watch.phase = .admitted)
    some { s with
      watches := s.watches.set number { watch with phase := .watching, aborted := false }
      serverWatch := s.serverWatch ++ [number] }
  | .lose number => do
    let watch ← s.watches[number]?.filter fun watch => decide (watch.phase = .watching)
    some { s with watches := s.watches.set number { watch with phase := .ending } }
  | .retire number => do
    let watch ← s.watches[number]?.filter fun watch => decide (watch.phase = .ending)
    some (s.retire number watch)
  | .dial => some { s with nextSession := s.nextSession + 1 }

/-- Every run of the server: calls of `advertise` and `stop_advertising` with
BlueZ's answers, subscriptions and writes, and lost links. -/
def machine : Machine LinuxServer LinuxServerStep where
  Init s := s = {}
  step := step

end LinuxServer

end BleGatt
