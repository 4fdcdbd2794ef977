import BleGatt.Lib.Signal
import BleGatt.Profile.Datagram.Serve

namespace BleGatt

/-- How long the task of `spawn_reassembly` sleeps before it expires. -/
def ReassemblyLimits.tick (limits : ReassemblyLimits) : Duration := max (limits.reassemblyTimeout / 4) (.ofSecs 1)

/-- Where the task of `spawn_reassembly` is. -/
inductive ReassemblyPhase
  /-- In its `select!`, with the sleep ending at `wake`. -/
  | waiting (wake : Instant)
  /-- In the middle of `overflow.raise()`. -/
  | raising
  /-- Awaiting a place for a message in `out`. -/
  | sending (message : Bytes)
  /-- Returned or cancelled, with `out` dropped. -/
  | ended
  deriving DecidableEq

/-- Where the party that ends the channel is: `spawn_link_loss_watch` for a
dialled channel, `serve` for a served one. -/
inductive OwnerPhase
  | watching
  /-- In the middle of `overflow.raise()`; `last` where the channel ends next. -/
  | raising (last : Bool)
  | ending
  | ended
  deriving DecidableEq

/-- The arms of the `select!` of `recv`. -/
inductive Arm
  | inbound
  | notified
  deriving DecidableEq

def Arm.other : Arm → Arm
  | .inbound => .notified
  | .notified => .inbound

/-- Where the one receiver is. -/
inductive ReceiverPhase
  /-- No `recv` is under way. -/
  | idle
  /-- At the top of the loop of `recv`. -/
  | checking
  /-- In the `select!`, until it is polled. -/
  | parked
  /-- Being polled, with these arms left. -/
  | polling (left : List Arm)
  /-- The channel was dropped. -/
  | gone
  deriving DecidableEq

/-- The receiving half of a `DatagramChannel`, with the tasks that feed it and
end it. -/
structure Inbound where
  role : Role
  peer : PeerAddress
  clock : Instant
  reassembler : Reassembler
  task : ReassemblyPhase
  /-- `abort` was called on the task. -/
  aborted : Bool := false
  owner : OwnerPhase := .watching
  /-- `serve` dropped its end of the fragment queue. -/
  fragmentsClosed : Bool := false
  overflow : Signal := {}
  /-- What `out` holds. -/
  queue : List Bytes := []
  receiver : ReceiverPhase := .idle
  /-- What `recv` has returned, oldest first. -/
  received : List (Option (Except BleError Bytes)) := []

/-- A step of one of the parties, or of the clock. -/
inductive InboundStep
  | elapse (time : Duration)
  /-- `fragments.next()` gives an item. -/
  | arrive (raw : Except BleError Bytes)
  | fragmentsEnd
  /-- The sleep of the reassembly task is over. -/
  | expire
  /-- The second half of the reassembly task's `raise`. -/
  | raised
  | enqueue
  | sendFailed
  /-- An abort takes effect. -/
  | cancelled
  /-- The first half of the owner's `raise`. -/
  | gap (last : Bool)
  | gapRaised
  /-- The owner ends the channel. -/
  | lost
  /-- `recv` is called. -/
  | call
  | check
  | poll (first : Arm)
  | arm
  /-- The caller drops the future of `recv`. -/
  | cancelRecv
  | drop

namespace Inbound

/-- The report of a gap. -/
def overflowError (peer : PeerAddress) : BleError :=
  .gatt ("inbound overflow from " ++ peer.addr ++ ": fragments were dropped and at least one message is lost")

/-- The top of the loop: every pass sleeps anew. -/
def rearm (cfg : DatagramConfig) (s : Inbound) : Inbound := { s with task := .waiting (s.clock + cfg.limits.tick) }

/-- The `fragments.next()` arm of the reassembly task, up to its next await. -/
def incoming (cfg : DatagramConfig) (raw : Except BleError Bytes) (s : Inbound) : Inbound :=
  match raw with
  | .error _ => { s with overflow := s.overflow.store, task := .raising }
  | .ok raw =>
    match FragmentHeader.parse raw with
    | none => s.rearm cfg
    | some (header, payload) =>
      let accepted := s.reassembler.accept header payload s.clock
      let s := { s with reassembler := accepted.2 }
      match accepted.1 with
      | .complete message => { s with task := .sending message }
      | .pending => s.rearm cfg
      | .rejected _ => s.rearm cfg

/-- A `recv` returns. -/
def return_ (item : Option (Except BleError Bytes)) (s : Inbound) : Inbound :=
  { s with receiver := .idle, received := s.received ++ [item] }

/-- An arm was pending. -/
def pend (left : List Arm) (s : Inbound) : Inbound :=
  { s with receiver := if left.isEmpty then .parked else .polling left }

/-- One arm of the `select!` of `recv` is polled. -/
def pollArm (arm : Arm) (left : List Arm) (s : Inbound) : Inbound :=
  match arm with
  | .inbound =>
    match s.queue with
    | message :: queue => { s with queue := queue }.return_ (some (.ok message))
    | [] => if s.task = .ended then s.return_ none else s.pend left
  | .notified =>
    match s.overflow.wake with
    | some overflow => { s with overflow := overflow, receiver := .checking }
    | none => s.pend left

def step (cfg : DatagramConfig) (s : Inbound) : InboundStep → Option Inbound
  | .elapse time =>
    match s.task with
    -- a sleep that is over is taken before any more time passes
    | .waiting wake => if s.clock + time ≤ wake then some { s with clock := s.clock + time } else none
    | _ => some { s with clock := s.clock + time }
  | .arrive raw =>
    -- what `serve` passes on is never an error
    match s.task with
    | .waiting _ => if s.role = .central ∨ raw.isOk then some (s.incoming cfg raw) else none
    | _ => none
  | .fragmentsEnd =>
    match s.task with
    | .waiting _ => if s.role = .central ∨ s.fragmentsClosed then some { s with task := .ended } else none
    | _ => none
  | .expire =>
    match s.task with
    | .waiting wake =>
      if wake ≤ s.clock then some ({ s with reassembler := s.reassembler.expire s.clock }.rearm cfg) else none
    | _ => none
  | .raised =>
    match s.task with
    | .raising => some ({ s with overflow := s.overflow.notify, reassembler := .new cfg.limits }.rearm cfg)
    | _ => none
  | .enqueue =>
    match s.task with
    | .sending message =>
      if s.receiver ≠ .gone ∧ s.queue.length < cfg.inboundQueueDepth then
        some ({ s with queue := s.queue ++ [message] }.rearm cfg)
      else none
    | _ => none
  | .sendFailed =>
    match s.task with
    | .sending _ => if s.receiver = .gone then some { s with task := .ended } else none
    | _ => none
  | .cancelled =>
    match s.task with
    | .waiting _ | .sending _ => if s.aborted then some { s with task := .ended } else none
    | _ => none
  | .gap last =>
    -- only `serve` raises a gap and keeps the channel
    if s.owner = .watching ∧ (last ∨ s.role = .peripheral) then
      some { s with overflow := s.overflow.store, owner := .raising last }
    else none
  | .gapRaised =>
    match s.owner with
    | .raising last => some { s with overflow := s.overflow.notify, owner := if last then .ending else .watching }
    | _ => none
  | .lost =>
    if s.owner = .watching ∨ s.owner = .ending then
      match s.role with
      | .central => some { s with owner := .ended, aborted := true }
      | .peripheral => some { s with owner := .ended, fragmentsClosed := true }
    else none
  | .call => if s.receiver = .idle then some { s with receiver := .checking } else none
  | .check =>
    if s.receiver = .checking then
      some (if s.overflow.flagged then { s with overflow := s.overflow.take }.return_ (some (.error (overflowError s.peer)))
        else { s with receiver := .parked })
    else none
  | .poll first => if s.receiver = .parked then some { s with receiver := .polling [first, first.other] } else none
  | .arm =>
    match s.receiver with
    | .polling (arm :: left) => some (s.pollArm arm left)
    | _ => none
  | .cancelRecv =>
    if s.receiver = .parked then some { s with receiver := .idle } else none
  | .drop => if s.receiver = .idle then some { s with receiver := .gone, aborted := true } else none

/-- A channel just set up by `connect` or `serve`. -/
def start (cfg : DatagramConfig) (role : Role) (peer : PeerAddress) (now : Instant) : Inbound :=
  { role := role
    peer := peer
    clock := now
    reassembler := .new cfg.limits
    task := .waiting (now + cfg.limits.tick) }

/-- The receiving half of a channel under every order in which fragments, the
clock, its tasks and its receiver can act. -/
def machine (cfg : DatagramConfig) : Machine Inbound InboundStep where
  Init s := ∃ role peer now, s = start cfg role peer now
  step := step cfg

/-- What a step does, and what it checks. -/
inductive Stepped (cfg : DatagramConfig) (s : Inbound) : InboundStep → Inbound → Prop
  | elapse {time : Duration} (timely : ∀ wake, s.task = .waiting wake → s.clock + time ≤ wake) :
      Stepped cfg s (.elapse time) { s with clock := s.clock + time }
  | arrive {wake : Instant} {raw : Except BleError Bytes} (waiting : s.task = .waiting wake) :
      Stepped cfg s (.arrive raw) (s.incoming cfg raw)
  | fragmentsEnd {wake : Instant} (waiting : s.task = .waiting wake) :
      Stepped cfg s .fragmentsEnd { s with task := .ended }
  | expire {wake : Instant} (waiting : s.task = .waiting wake) (due : wake ≤ s.clock) :
      Stepped cfg s .expire ({ s with reassembler := s.reassembler.expire s.clock }.rearm cfg)
  | raised (raising : s.task = .raising) :
      Stepped cfg s .raised ({ s with overflow := s.overflow.notify, reassembler := .new cfg.limits }.rearm cfg)
  | enqueue {message : Bytes} (sending : s.task = .sending message) (room : s.queue.length < cfg.inboundQueueDepth) :
      Stepped cfg s .enqueue ({ s with queue := s.queue ++ [message] }.rearm cfg)
  | sendFailed {message : Bytes} (sending : s.task = .sending message) :
      Stepped cfg s .sendFailed { s with task := .ended }
  | cancelled (aborted : s.aborted = true) : Stepped cfg s .cancelled { s with task := .ended }
  | gap {last : Bool} (watching : s.owner = .watching) :
      Stepped cfg s (.gap last) { s with overflow := s.overflow.store, owner := .raising last }
  | gapRaised {last : Bool} (raising : s.owner = .raising last) :
      Stepped cfg s .gapRaised
        { s with overflow := s.overflow.notify, owner := if last then .ending else .watching }
  | lost {aborted closed : Bool} :
      Stepped cfg s .lost { s with owner := .ended, aborted := aborted, fragmentsClosed := closed }
  | call (idle : s.receiver = .idle) : Stepped cfg s .call { s with receiver := .checking }
  | checkUp (checking : s.receiver = .checking) (up : s.overflow.flagged = true) :
      Stepped cfg s .check ({ s with overflow := s.overflow.take }.return_ (some (.error (overflowError s.peer))))
  | checkDown (checking : s.receiver = .checking) (down : s.overflow.flagged = false) :
      Stepped cfg s .check { s with receiver := .parked }
  | poll {first : Arm} (parked : s.receiver = .parked) :
      Stepped cfg s (.poll first) { s with receiver := .polling [first, first.other] }
  | arm {arm : Arm} {left : List Arm} (polling : s.receiver = .polling (arm :: left)) :
      Stepped cfg s .arm (s.pollArm arm left)
  | cancelRecv (parked : s.receiver = .parked) : Stepped cfg s .cancelRecv { s with receiver := .idle }
  | drop (idle : s.receiver = .idle) : Stepped cfg s .drop { s with receiver := .gone, aborted := true }

theorem step_cases {cfg : DatagramConfig} {s s' : Inbound} {label : InboundStep} (stepped : step cfg s label = some s') :
    Stepped cfg s label s' := by
  cases label with
  | elapse time =>
    dsimp only [step] at stepped
    split at stepped
    · rename_i wake waiting
      obtain ⟨timely, ⟨⟩⟩ := Option.ite_none_right_eq_some.mp stepped
      refine .elapse fun later asleep => ?_
      cases waiting.symm.trans asleep
      exact timely
    · rename_i awake
      cases Option.some.inj stepped
      exact .elapse fun wake waiting => absurd waiting (awake wake)
  | arrive raw =>
    dsimp only [step] at stepped
    split at stepped
    · rename_i waiting
      obtain ⟨_, ⟨⟩⟩ := Option.ite_none_right_eq_some.mp stepped
      exact .arrive waiting
    · simp at stepped
  | fragmentsEnd =>
    dsimp only [step] at stepped
    split at stepped
    · rename_i waiting
      obtain ⟨_, ⟨⟩⟩ := Option.ite_none_right_eq_some.mp stepped
      exact .fragmentsEnd waiting
    · simp at stepped
  | expire =>
    dsimp only [step] at stepped
    split at stepped
    · rename_i waiting
      obtain ⟨due, ⟨⟩⟩ := Option.ite_none_right_eq_some.mp stepped
      exact .expire waiting due
    · simp at stepped
  | raised =>
    dsimp only [step] at stepped
    split at stepped
    · rename_i raising
      cases Option.some.inj stepped
      exact .raised raising
    · simp at stepped
  | enqueue =>
    dsimp only [step] at stepped
    split at stepped
    · rename_i sending
      obtain ⟨room, ⟨⟩⟩ := Option.ite_none_right_eq_some.mp stepped
      exact .enqueue sending room.2
    · simp at stepped
  | sendFailed =>
    dsimp only [step] at stepped
    split at stepped
    · rename_i sending
      obtain ⟨_, ⟨⟩⟩ := Option.ite_none_right_eq_some.mp stepped
      exact .sendFailed sending
    · simp at stepped
  | cancelled =>
    dsimp only [step] at stepped
    split at stepped
    all_goals first
      | (obtain ⟨aborted, ⟨⟩⟩ := Option.ite_none_right_eq_some.mp stepped
         exact .cancelled aborted)
      | simp at stepped
  | gap last =>
    obtain ⟨watching, ⟨⟩⟩ := Option.ite_none_right_eq_some.mp stepped
    exact .gap watching.1
  | gapRaised =>
    dsimp only [step] at stepped
    split at stepped
    · rename_i raising
      cases Option.some.inj stepped
      exact .gapRaised raising
    · simp at stepped
  | lost =>
    obtain ⟨_, ended⟩ := Option.ite_none_right_eq_some.mp stepped
    split at ended <;> (cases Option.some.inj ended; exact .lost)
  | call =>
    obtain ⟨idle, ⟨⟩⟩ := Option.ite_none_right_eq_some.mp stepped
    exact .call idle
  | check =>
    obtain ⟨checking, looked⟩ := Option.ite_none_right_eq_some.mp stepped
    cases up : s.overflow.flagged with
    | true =>
      rw [up, if_pos rfl] at looked
      cases Option.some.inj looked
      exact .checkUp checking up
    | false =>
      rw [up, if_neg Bool.false_ne_true] at looked
      cases Option.some.inj looked
      exact .checkDown checking up
  | poll first =>
    obtain ⟨parked, ⟨⟩⟩ := Option.ite_none_right_eq_some.mp stepped
    exact .poll parked
  | arm =>
    dsimp only [step] at stepped
    split at stepped
    · rename_i polling
      cases Option.some.inj stepped
      exact .arm polling
    · simp at stepped
  | cancelRecv =>
    obtain ⟨parked, ⟨⟩⟩ := Option.ite_none_right_eq_some.mp stepped
    exact .cancelRecv parked
  | drop =>
    obtain ⟨idle, ⟨⟩⟩ := Option.ite_none_right_eq_some.mp stepped
    exact .drop idle

end Inbound

end BleGatt
