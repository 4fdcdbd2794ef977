import BleGatt.Entities.Models
import BleGatt.Lib.FiniteMap
import BleGatt.Lib.Machine
import BleGatt.Lib.TaskList

namespace BleGatt
open Std

/-! The GATT handlers of `LinuxDriver` next to the calls that replace them.
Every statement that takes one of the two locks between them, leaves it or
writes what it protects is a step of its own. -/

/-- `GENERATION_PUBLISH_MAX_POLLS`. -/
def generationPublishMaxPolls : Nat := 200

/-- What a handler was called for. -/
inductive HandlerCall
  | write (value : Bytes)
  | subscribe
  deriving DecidableEq

/-- A statement of a handler that someone else can observe. -/
inductive HandlerAct
  | store
  | addWriter
  | admitCentral
  | connected
  | written
  deriving DecidableEq

/-- What a handler of the current generation does, in order. -/
def HandlerCall.acts : HandlerCall → List HandlerAct
  | .write _ => [.store, .admitCentral, .connected, .written]
  | .subscribe => [.addWriter, .admitCentral, .connected]

inductive HandlerPhase
  /-- Before its next look at the generation. -/
  | polling
  /-- `watch_notify_sessions` looks with the admission lock in hand. -/
  | looking
  /-- The write handler takes the admission lock. -/
  | waiting
  /-- It has the admission lock, and compares the generation next. -/
  | admitted
  /-- It has both locks, and this left to do. -/
  | acting (left : List HandlerAct)
  | returned
  deriving DecidableEq

/-- One run of a handler that `advertise` built. -/
structure HandlerRun where
  generation : Nat
  characteristic : CharacteristicUuid
  peer : PeerAddress
  call : HandlerCall
  polls : Nat := 0
  session : Option Nat := none
  phase : HandlerPhase := .polling

/-- Who has `advertise_lock`, and how far it came. -/
inductive GenerationOperation
  | idle
  | advertising (service : GattServiceSpec)
  /-- `advertise` reserved its number, and builds its handlers. -/
  | building (generation : Nat) (service : GattServiceSpec)
  /-- BlueZ is asked to serve the application. -/
  | registering (generation : Nat)
  /-- BlueZ serves it. -/
  | served (generation : Nat)
  /-- It has the admission lock. -/
  | admission (generation : Nat)
  /-- It published its number, and has both locks. -/
  | switched
  /-- It released these centrals, and has the admission lock. -/
  | drained (released : List PeerAddress)
  /-- BlueZ is asked to take the advertisement. -/
  | publishing
  | stopping
  /-- `stop_advertising` reserved a number that no handler has. -/
  | invalidating (generation : Nat)
  | invalidated
  /-- It has the admission lock. -/
  | releasing
  | released

/-- The number it reserved, until it publishes it. -/
def GenerationOperation.pending : GenerationOperation → Option Nat
  | .building generation _ | .registering generation | .served generation | .admission generation
  | .invalidating generation => some generation
  | _ => none

inductive LockHolder
  | operation
  | handler (number : Nat)
  deriving DecidableEq

structure LinuxGenerations where
  /-- What `advertise_generation` guards, and who has that lock. -/
  advertiseGeneration : Nat := 1
  generationLock : Option LockHolder := none
  generationCounter : Nat := 1
  /-- The numbers of the calls of `advertise`, oldest first. -/
  built : List Nat := []
  operation : GenerationOperation := .idle
  /-- Who has the lock on `notify_writers`, under which centrals are admitted. -/
  admissionLock : Option LockHolder := none
  notifyWriters : List (CharacteristicUuid × PeerAddress) := []
  values : List (CharacteristicUuid × Bytes) := []
  servedPeers : PeerMap Nat := ∅
  nextSession : Nat := 1
  /-- Everything sent on `events_tx`, oldest first. -/
  events : List GattEvent := []
  handlers : List HandlerRun := []

inductive GenerationStep
  | advertise (service : GattServiceSpec)
  | stopAdvertising
  /-- The call that has `advertise_lock` goes on. -/
  | proceed
  /-- BlueZ takes what it is asked to take, or does not. -/
  | answer (ok : Bool)
  /-- The future of that call is dropped. -/
  | drop
  /-- BlueZ calls a handler, or a subscription reaches it. -/
  | call (run : HandlerRun)
  /-- A handler goes on. -/
  | handler (number : Nat)
  /-- A handler is dropped at an await. -/
  | dropHandler (number : Nat)
  /-- A served central is lost. -/
  | lose (peer : PeerAddress)

namespace LinuxGenerations

def store (characteristic : CharacteristicUuid) (value : Bytes) (s : LinuxGenerations) : LinuxGenerations :=
  { s with values := (characteristic, value) :: s.values.filter fun entry => decide (entry.1 ≠ characteristic) }

/-- The `Disconnected` of centrals that are released. -/
def announceReleased (released : List PeerAddress) (s : LinuxGenerations) : LinuxGenerations :=
  { s with events := s.events ++ released.map fun peer => .disconnected peer .peripheral none }

/-- `advertise` and `stop_advertising`. -/
def proceed (s : LinuxGenerations) : Option LinuxGenerations :=
  match s.operation with
  | .advertising service =>
    let generation := s.generationCounter + 1
    some { s with
      generationCounter := generation
      built := s.built ++ [generation]
      operation := .building generation service }
  | .building generation service =>
    some { service.characteristics.foldl (fun s spec => s.store spec.uuid spec.initialValue) s with
      operation := .registering generation }
  | .served generation =>
    if s.admissionLock = none then some { s with admissionLock := some .operation, operation := .admission generation }
    else none
  | .admission generation =>
    if s.generationLock = none then
      some { s with generationLock := some .operation, advertiseGeneration := generation, operation := .switched }
    else none
  | .switched =>
    some { s with servedPeers := ∅, generationLock := none, operation := .drained s.servedPeers.keys }
  | .drained released =>
    some { s.announceReleased released with notifyWriters := [], admissionLock := none, operation := .publishing }
  | .stopping =>
    let generation := s.generationCounter + 1
    some { s with generationCounter := generation, operation := .invalidating generation }
  | .invalidating generation =>
    if s.generationLock = none then some { s with advertiseGeneration := generation, operation := .invalidated } else none
  | .invalidated =>
    if s.admissionLock = none then some { s with admissionLock := some .operation, operation := .releasing } else none
  | .releasing =>
    some { s.announceReleased s.servedPeers.keys with
      servedPeers := ∅, notifyWriters := [], admissionLock := none, operation := .released }
  | .released => some { s with operation := .idle }
  | .idle | .registering _ | .publishing => none

def answer (ok : Bool) (s : LinuxGenerations) : Option LinuxGenerations :=
  match s.operation with
  | .registering generation => some { s with operation := if ok then .served generation else .idle }
  | .publishing => some { s with operation := .idle }
  | _ => none

/-- It can be dropped at its awaits, and lets go of what it has. -/
def drop (s : LinuxGenerations) : Option LinuxGenerations :=
  match s.operation with
  | .registering _ | .served _ | .publishing | .invalidated | .released => some { s with operation := .idle }
  | .admission _ => some { s with admissionLock := none, operation := .idle }
  | _ => none

def setRun (number : Nat) (run : HandlerRun) (s : LinuxGenerations) : LinuxGenerations :=
  { s with handlers := s.handlers.set number run }

/-- One statement of a handler between its check of the generation and the
end of its critical section. -/
def act (number : Nat) (run : HandlerRun) (act : HandlerAct) (left : List HandlerAct) (s : LinuxGenerations) :
    LinuxGenerations :=
  let next := { run with phase := .acting left }
  match act with
  | .store =>
    match run.call with
    | .write value => (s.store run.characteristic value).setRun number next
    | .subscribe => s.setRun number next
  | .addWriter => { s with notifyWriters := s.notifyWriters ++ [(run.characteristic, run.peer)] }.setRun number next
  | .admitCentral =>
    match s.servedPeers[run.peer]? with
    | some session =>
      match run.call with
      | .write _ => s.setRun number { next with session := some session }
      -- a served central that subscribes again is not announced again
      | .subscribe => s.setRun number { next with phase := .acting [] }
    | none =>
      { s with
        servedPeers := s.servedPeers.insert run.peer s.nextSession
        nextSession := s.nextSession + 1 }.setRun number { next with session := some s.nextSession }
  | .connected =>
    { s with events := s.events ++ [GattEvent.connected run.peer .peripheral (run.session.map UInt64.ofNat)] }.setRun number next
  | .written =>
    match run.call with
    | .write value =>
      { s with events := s.events ++ [GattEvent.characteristicWritten run.peer run.characteristic value] }.setRun number next
    | .subscribe => s.setRun number next

/-- A handler goes from one of its statements to the next. -/
def advance (number : Nat) (run : HandlerRun) (s : LinuxGenerations) : Option LinuxGenerations :=
  let published := decide (run.generation ≤ s.advertiseGeneration)
  let spent := decide (generationPublishMaxPolls ≤ run.polls)
  match run.phase with
  | .polling =>
    match run.call with
    | .write _ =>
      if spent then some (s.setRun number { run with phase := .waiting })
      else if s.generationLock = none then
        some (s.setRun number (if published then { run with phase := .waiting } else { run with polls := run.polls + 1 }))
      else none
    | .subscribe =>
      if s.admissionLock = none then
        some ({ s with admissionLock := some (.handler number) }.setRun number { run with phase := .looking })
      else none
  | .looking =>
    if s.generationLock = none then
      if published || spent then some (s.setRun number { run with phase := .admitted })
      else some ({ s with admissionLock := none }.setRun number { run with polls := run.polls + 1, phase := .polling })
    else none
  | .waiting =>
    if s.admissionLock = none then
      some ({ s with admissionLock := some (.handler number) }.setRun number { run with phase := .admitted })
    else none
  | .admitted =>
    if s.generationLock = none then
      if run.generation = s.advertiseGeneration then
        some ({ s with generationLock := some (.handler number) }.setRun number { run with phase := .acting run.call.acts })
      else some ({ s with admissionLock := none }.setRun number { run with phase := .returned })
    else none
  | .acting (act :: left) => some (s.act number run act left)
  | .acting [] =>
    some ({ s with generationLock := none, admissionLock := none }.setRun number { run with phase := .returned })
  | .returned => none

def step (s : LinuxGenerations) : GenerationStep → Option LinuxGenerations
  | .advertise service =>
    match s.operation with
    | .idle => some { s with operation := .advertising service }
    | _ => none
  | .stopAdvertising =>
    match s.operation with
    | .idle => some { s with operation := .stopping }
    | _ => none
  | .proceed => s.proceed
  | .answer ok => s.answer ok
  | .drop => s.drop
  | .call run =>
    if run.generation ∈ s.built ∧ run.polls = 0 ∧ run.phase = .polling then some { s with handlers := s.handlers ++ [run] }
    else none
  | .handler number => do
    let run ← s.handlers[number]?
    s.advance number run
  | .dropHandler number => do
    let run ← s.handlers[number]?.filter fun run => decide (run.phase = .polling ∨ run.phase = .waiting)
    some (s.setRun number { run with phase := .returned })
  | .lose peer =>
    if s.admissionLock = none then
      some { s with
        servedPeers := s.servedPeers.erase peer
        events := s.events ++
          s.servedPeers[peer]?.toList.map fun session => .disconnected peer .peripheral (some (.ofNat session)) }
    else none

/-- The calls of `advertise` and `stop_advertising` with BlueZ's answers, and
the handlers of every generation, in any order. -/
def machine : Machine LinuxGenerations GenerationStep where
  Init s := s = {}
  step := step

end LinuxGenerations

end BleGatt
