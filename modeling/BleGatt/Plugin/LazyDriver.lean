import BleGatt.Hal.Driver
import BleGatt.Lib.Broadcast

namespace BleGatt

/-! A driver built on first use, which stands in front of the real one: what
passes through it, and what does not. -/

def eventChannelCapacity : Nat := 64

/-- `LazyDriver` over a driver whose state is `σ`. -/
structure LazyDriver (σ : Type) where
  cell : Option σ := none
  /-- How often `build` was called. -/
  attempts : Nat := 0
  /-- The channel that every subscription reads. -/
  events : Broadcast GattEvent := {}

namespace LazyDriver

variable {σ Scan Connection Outside α : Type} (build : Nat → Except BleError σ) (inner : Driver σ Scan Connection)
  (moves : Outside → σ → σ)

/-- `inner`: the driver, built by the first call that can. -/
def acquire : StateM (LazyDriver σ) (Except BleError σ) := fun lazy =>
  match lazy.cell with
  | some driver => (.ok driver, lazy)
  | none =>
    match build lazy.attempts with
    | .ok driver => (.ok driver, { lazy with cell := some driver, attempts := lazy.attempts + 1 })
    | .error err => (.error err, { lazy with attempts := lazy.attempts + 1 })

/-- A method that is passed on once there is a driver. -/
def forward (op : StateM σ α) (failed : BleError → α) : StateM (LazyDriver σ) α := fun lazy =>
  match acquire build lazy with
  | (.ok driver, lazy) => ((op driver).1, { lazy with cell := some (op driver).2 })
  | (.error err, lazy) => (failed err, lazy)

/-- `impl Driver for LazyDriver`. It leaves `radio_status` at the trait's
default. -/
def driver : Driver (LazyDriver σ) Scan Connection where
  capabilities := forward build inner.capabilities fun _ => {}
  scan service := forward build (inner.scan service) .error
  connect peer := forward build (inner.connect peer) .error
  advertise service := forward build (inner.advertise service) .error
  updateAdvertisement service := forward build (inner.updateAdvertisement service) .error
  servedService lazy := lazy.cell.bind inner.servedService
  stopAdvertising := forward build inner.stopAdvertising .error
  -- building a driver just to close it would hold up an exit
  close lazy :=
    match lazy.cell with
    | some driver => ((inner.close driver).1, { lazy with cell := some (inner.close driver).2 })
    | none => (.ok (), lazy)
  notify characteristic value := forward build (inner.notify characteristic value) .error
  notifyPeer peer session characteristic value :=
    forward build (inner.notifyPeer peer session characteristic value) .error
  disconnectPeer peer session := forward build (inner.disconnectPeer peer session) .error
  notifyMaxLen peer session := forward build (inner.notifyMaxLen peer session) fun _ => none

/-- What happens outside happens to the driver behind it. -/
def lift (event : Outside) (lazy : LazyDriver σ) : LazyDriver σ := { lazy with cell := lazy.cell.map (moves event) }

end LazyDriver

/-- What a `LazyDriver` does. -/
inductive LazyInput (Outside : Type)
  | input (input : DriverInput Outside)
  /-- The driver's own stream has an event, and the pump republishes it. -/
  | pump (event : GattEvent)
  /-- `events`. -/
  | subscribe
  | recv (subscription : Nat)

namespace LazyDriver

variable {σ Scan Connection Outside : Type} (build : Nat → Except BleError σ) (inner : Driver σ Scan Connection)
  (moves : Outside → σ → σ)

def step (lazy : LazyDriver σ) : LazyInput Outside → Option (LazyDriver σ)
  | .input input => some ((driver build inner).next (lift moves) lazy input)
  | .pump event => if lazy.cell.isSome then some { lazy with events := lazy.events.send event } else none
  | .subscribe => some { lazy with events := lazy.events.subscribe }
  | .recv subscription => do
    let events ← lazy.events.recv eventChannelCapacity subscription
    some { lazy with events := events }

def machine : Machine (LazyDriver σ) (LazyInput Outside) where
  Init lazy := lazy = {}
  step := step build inner moves

/-- What the driver's own stream had, from its construction on. -/
def noteYielded (yielded : List GattEvent) (_ : LazyDriver σ) (input : LazyInput Outside) (_ : LazyDriver σ) :
    List GattEvent :=
  match input with
  | .pump event => yielded ++ [event]
  | _ => yielded

/-- The radio is on whenever its status is asked for. -/
def RadioOn (s : σ) : List (DriverInput Outside) → Prop
  | [] => True
  | input :: rest =>
    (input = .call .radioStatus → inner.radioStatus s = .on) ∧ RadioOn (inner.next moves s input) rest

/-- The driver in front is as the driver behind it, from here on. -/
structure Transparent (yielded : List GattEvent) (lazy : LazyDriver σ) (s : σ) (inputs : List (DriverInput Outside)) :
    Prop where
  /-- Every call returns the same. -/
  replies : (driver build inner).replies (lift moves) lazy inputs = inner.replies moves s inputs
  /-- Every subscription is told of all that the driver's stream had since. -/
  events : ∀ (n : Nat) (receiver : Receiver GattEvent), lazy.events.receivers[n]? = some receiver →
    Tells yielded receiver.start receiver.got receiver.next
  /-- An `Adapter` or a `PeerLink` that asks for the radio starts the same. -/
  starts : ∀ before rest, inputs = before ++ .call .radioStatus :: rest →
    (driver build inner).adapterStatus ((driver build inner).after (lift moves) lazy before) =
        inner.adapterStatus (inner.after moves s before) ∧
      ∀ cfg clock, (driver build inner).startPeerLink cfg clock ((driver build inner).after (lift moves) lazy before) =
        inner.startPeerLink cfg clock (inner.after moves s before)

section Built

variable {build inner moves} {lazy : LazyDriver σ} {s : σ}

theorem forward_built {α : Type} {op : StateM σ α} {failed : BleError → α} (built : lazy.cell = some s) :
    forward build op failed lazy = ((op s).1, { lazy with cell := some (op s).2 }) := by
  unfold forward acquire
  rw [built]

theorem map_forward_built {α β : Type} {op : StateM σ α} {failed : BleError → α} (built : lazy.cell = some s)
    (reply : α → β) : (reply <$> forward build op failed : StateM (LazyDriver σ) β) lazy =
      (((reply <$> op : StateM σ β) s).1, { lazy with cell := some ((reply <$> op : StateM σ β) s).2 }) := by
  change (reply (forward build op failed lazy).1, (forward build op failed lazy).2) = _
  rw [forward_built built]
  rfl

/-- A call of anything but the radio's status is passed on. -/
theorem call_built {call : DriverRequest} (built : lazy.cell = some s) (other : call ≠ .radioStatus) :
    (driver build inner).call call lazy =
      ((inner.call call s).1, { lazy with cell := some (inner.call call s).2 }) := by
  cases call with
  | radioStatus => exact absurd rfl other
  | servedService =>
    cases lazy
    cases built
    rfl
  | close =>
    cases lazy
    cases built
    rfl
  | _ => exact map_forward_built built _

/-- The driver behind it goes on as if it were called itself. -/
theorem next_built (built : lazy.cell = some s) (input : DriverInput Outside) :
    (driver build inner).next (lift moves) lazy input = { lazy with cell := some (inner.next moves s input) } := by
  cases lazy
  cases built
  cases input with
  | outside event => rfl
  | call call =>
    by_cases radio : call = .radioStatus
    · subst radio
      rfl
    · exact congrArg Prod.snd (call_built rfl radio)

theorem after_built (built : lazy.cell = some s) (inputs : List (DriverInput Outside)) :
    (driver build inner).after (lift moves) lazy inputs = { lazy with cell := some (inner.after moves s inputs) } := by
  induction inputs generalizing lazy s with
  | nil =>
    cases lazy
    cases built
    rfl
  | cons input rest ih =>
    change (driver build inner).after (lift moves) ((driver build inner).next (lift moves) lazy input) rest = _
    rw [next_built built, ih rfl]
    rfl

/-- The replies are the same exactly where the radio is found on. -/
theorem replies_built (built : lazy.cell = some s) (inputs : List (DriverInput Outside)) :
    (driver build inner).replies (lift moves) lazy inputs = inner.replies moves s inputs ↔
      RadioOn inner moves s inputs := by
  induction inputs generalizing lazy s with
  | nil => exact ⟨fun _ => trivial, fun _ => rfl⟩
  | cons input rest ih =>
    have next : ({ lazy with cell := some (inner.next moves s input) } : LazyDriver σ).cell = some _ := rfl
    have later := ih next
    cases input with
    | outside event =>
      unfold Driver.replies RadioOn
      rw [next_built built, later]
      simp
    | call call =>
      unfold Driver.replies RadioOn
      rw [next_built built, List.cons.injEq, later]
      refine and_congr_left' ?_
      by_cases radio : call = .radioStatus
      · subst radio
        change (DriverReply.radioStatus .on = DriverReply.radioStatus (inner.radioStatus s)) ↔ _
        simp [eq_comm]
      · rw [call_built built radio]
        simp [radio]

theorem radioOn_at {before rest : List (DriverInput Outside)}
    (on : RadioOn inner moves s (before ++ .call .radioStatus :: rest)) :
    inner.radioStatus (inner.after moves s before) = .on := by
  induction before generalizing s with
  | nil => exact on.1 rfl
  | cons input before ih => exact ih on.2

/-- Where the radio is found on, the radio and the capabilities are asked for
as they would be behind it. -/
theorem assessRadio_built (built : lazy.cell = some s) (on : inner.radioStatus s = .on) (cfg : PeerLinkConfig) :
    ((driver build inner).assessRadio cfg lazy).1 = (inner.assessRadio cfg s).1 := by
  have passed : forward build inner.capabilities (fun _ => {}) lazy = _ := forward_built built
  unfold Driver.assessRadio
  rw [on]
  change cfg.assessRadio .on (forward build inner.capabilities (fun _ => {}) lazy).1 = _
  rw [passed]
  rfl

end Built

section Run

variable {build inner moves} {lazy : LazyDriver σ} {s : σ} {yielded : List GattEvent}

theorem forward_events {α : Type} (op : StateM σ α) (failed : BleError → α) :
    (forward build op failed lazy).2.events = lazy.events := by
  have acquired : (acquire build lazy).2.events = lazy.events := by
    unfold acquire
    split
    · rfl
    · split <;> rfl
  unfold forward
  split
  · rename_i driver after got
    rw [got] at acquired
    exact acquired
  · rename_i err after got
    rw [got] at acquired
    exact acquired

/-- No call touches the subscriptions. -/
theorem next_events (input : DriverInput Outside) :
    ((driver build inner).next (lift moves) lazy input).events = lazy.events := by
  cases input with
  | outside event => rfl
  | call call =>
    cases call with
    | servedService => rfl
    | radioStatus => rfl
    | close =>
      obtain ⟨cell, attempts, events⟩ := lazy
      cases cell <;> rfl
    | _ => exact forward_events _ _

theorem told_step {after : LazyDriver σ} {input : LazyInput Outside}
    (held : lazy.events.sent = yielded ∧ lazy.events.Told)
    (stepped : step build inner moves lazy input = some after) :
    after.events.sent = noteYielded yielded lazy input after ∧ after.events.Told := by
  obtain ⟨sent, told⟩ := held
  cases input with
  | input input =>
    cases Option.some.inj stepped
    rw [next_events]
    exact ⟨sent, told⟩
  | pump event =>
    simp only [step, Option.ite_none_right_eq_some, Option.some.injEq] at stepped
    obtain ⟨_, rfl⟩ := stepped
    exact ⟨congrArg (· ++ [event]) sent, told.send event⟩
  | subscribe =>
    cases Option.some.inj stepped
    exact ⟨sent, told.subscribe⟩
  | recv subscription =>
    obtain ⟨events, read, stepped⟩ := Option.bind_eq_some_iff.mp stepped
    cases Option.some.inj stepped
    refine ⟨?_, told.recv read⟩
    obtain ⟨receiver, _, read⟩ := Option.bind_eq_some_iff.mp read
    obtain ⟨new, _, read⟩ := Option.bind_eq_some_iff.mp read
    cases Option.some.inj read
    exact sent

theorem run_told (run : (machine build inner moves).Run (fun _ _ _ => True) noteYielded [] yielded lazy) :
    lazy.events.sent = yielded ∧ lazy.events.Told := by
  refine Machine.Run.invariant (P := fun yielded lazy => lazy.events.sent = yielded ∧ lazy.events.Told) ?_ ?_ run
  · rintro lazy rfl
    exact ⟨rfl, fun n receiver there => by simp at there⟩
  · intro yielded lazy input after _ held _ stepped
    exact told_step held stepped

/-- However it was built and whatever was subscribed before: it stands for the
driver behind it exactly where that one's radio is on whenever it is asked. -/
theorem run_transparent_iff
    (run : (machine build inner moves).Run (fun _ _ _ => True) noteYielded [] yielded lazy)
    (built : lazy.cell = some s) (inputs : List (DriverInput Outside)) :
    Transparent build inner moves yielded lazy s inputs ↔ RadioOn inner moves s inputs := by
  refine ⟨fun same => (replies_built built inputs).mp same.replies, fun on => ?_⟩
  obtain ⟨sent, told⟩ := run_told run
  refine ⟨(replies_built built inputs).mpr on, ?_, ?_⟩
  · intro n receiver there
    rw [← sent]
    exact told n receiver there
  · rintro before rest rfl
    have found := radioOn_at on
    rw [after_built built]
    refine ⟨found.symm, fun cfg clock => ?_⟩
    unfold Driver.startPeerLink
    rw [assessRadio_built rfl found]

end Run

/-- A driver whose state is its radio's, and which does nothing else. -/
def radioOnly : Driver RadioStatus Unit Unit where
  capabilities := pure { central := true, peripheral := true }
  scan _ := pure (.ok ())
  connect peer := pure (.error (.connectFailed peer.addr "no peer"))
  advertise _ := pure (.ok ())
  servedService _ := none
  stopAdvertising := pure (.ok ())
  notify _ _ := pure (.ok ())
  notifyPeer _ _ _ _ := pure (.ok ())
  disconnectPeer _ _ := pure (.ok ())
  radioStatus status := status

/-- Subscribed before it is built, at the second attempt. -/
def builtSecond (status : RadioStatus) : Nat → Except BleError RadioStatus
  | 0 => .error (.adapterUnavailable "off")
  | _ => .ok status

def buildSteps : List (LazyInput RadioStatus) :=
  [.subscribe, .input (.call .stopAdvertising), .input (.call .stopAdvertising)]

theorem run_transparent_iff_on : ∃ yielded lazy,
    Transparent (builtSecond .on) radioOnly (fun status _ => status) yielded lazy .on
      [.call .radioStatus, .call .capabilities] := by
  obtain ⟨yielded, lazy, run, built⟩ := Machine.Run.exists_of_follow
    (machine (builtSecond .on) radioOnly fun status _ => status) (fun _ _ _ => True) noteYielded []
    (fun _ lazy => decide (lazy.cell = some .on)) rfl
    (buildSteps ++ [.pump (.radioChanged .on), .recv 0]) (by decide +kernel)
  exact ⟨yielded, lazy, (run_transparent_iff run (of_decide_eq_true built) _).mpr ⟨fun _ => rfl, fun asked => by simp at asked, trivial⟩⟩

/-- The radio is off when its status is first asked for. -/
theorem not_transparent : ¬ ∀ (σ Scan Connection Outside : Type) (build : Nat → Except BleError σ)
    (inner : Driver σ Scan Connection) (moves : Outside → σ → σ) (yielded : List GattEvent) (lazy : LazyDriver σ) (s : σ),
      (machine build inner moves).Run (fun _ _ _ => True) noteYielded [] yielded lazy → lazy.cell = some s →
        ∀ inputs, Transparent build inner moves yielded lazy s inputs := by
  intro claim
  obtain ⟨yielded, lazy, run, built⟩ := Machine.Run.exists_of_follow
    (machine (builtSecond .off) radioOnly fun status _ => status) (fun _ _ _ => True) noteYielded []
    (fun _ lazy => decide (lazy.cell = some .off)) rfl buildSteps (by decide +kernel)
  have same := (claim RadioStatus Unit Unit RadioStatus _ _ _ yielded lazy .off run (of_decide_eq_true built)
    [.call .radioStatus]).starts [] [] rfl
  have asked : RadioStatus.on = .off := same.1
  simp at asked

end LazyDriver

end BleGatt
