import BleGatt.Iroh.Transport

namespace BleGatt.Iroh
open Std

/-! What each step of the transport does, and under which of its guards. -/

/-- `forget_connection` has not taken it out yet. -/
def ConnectionPhase.live : ConnectionPhase → Bool
  | .releasing _ | .draining | .over => false
  | _ => true

/-- `close_sent` has not returned. -/
def ConnectionPhase.early : ConnectionPhase → Bool
  | .forgetting | .releasing _ | .draining | .over => false
  | _ => true

/-- It has not come to its `select!`. -/
def LinkPhase.fresh : LinkPhase → Bool
  | .attaching | .attached | .dialQueued | .dialing | .starting => true
  | _ => false

namespace Transport

/-- The link that the step ends, and not for a close. -/
def endsOtherwise (label : TransportStep) (s : Transport) : Option Nat :=
  match label with
  | .dialed link false => some link
  | .endLink link cause => if cause = .closedByApplication then none else some link
  | .forward link _ => if s.tasks[link]?.any fun task => task.sendEnded then some link else none
  | .proceed link =>
    if s.tasks[link]?.any fun task => decide (task.phase = .fired) && !s.inUse task.address then some link else none
  | _ => none

/-- What a step does. -/
inductive Stepped (s : Transport) : TransportStep → Transport → Prop
  /-- The packet goes nowhere. -/
  | ignored {address : PeerAddress} {packet : Bytes} {room : Bool} : Stepped s (.send address packet room) s
  | ticked (elapsed : Duration) : Stepped s (.tick elapsed) { s with now := s.now + elapsed }
  | peerSet (endpoint : EndpointId) (address : PeerAddress) :
      Stepped s (.setPeerAddress endpoint address) (s.setPeerAddress endpoint address)
  | peerForgotten (endpoint : EndpointId) : Stepped s (.forgetPeer endpoint) (s.forgetPeer endpoint)
  | closeLink (address : PeerAddress) : Stepped s (.closeLink address) (s.closeLink address)
  | attach (address : PeerAddress) (role : Role) : Stepped s (.attach address role) (s.attach address role)
  | inserted {link : Nat} {task : LinkTask} (here : s.tasks[link]? = some task) (phase : task.phase = .attaching) :
      Stepped s (.proceed link)
        { s.setTask link { task with phase := .attached } with links := s.links.insert task.address link }
  | dialStarted {address : PeerAddress} {packet : Bytes} {room : Bool} (free : s.links[address]? = none) :
      Stepped s (.send address packet room) (s.startDial address packet)
  /-- The link in the table has ended. -/
  | stale {address : PeerAddress} {packet : Bytes} {room : Bool} {link : Nat} {task : LinkTask} (after : Transport)
      (listed : s.links[address]? = some link) (here : s.tasks[link]? = some task) (phase : task.phase = .over) :
      Stepped s (.send address packet room) after
  | queued {address : PeerAddress} {packet : Bytes} {link : Nat} {task : LinkTask}
      (listed : s.links[address]? = some link) (here : s.tasks[link]? = some task) (phase : task.phase ≠ .over) :
      Stepped s (.send address packet true) (s.queuePacket link task packet)
  | refused {address : PeerAddress} {packet : Bytes} {link : Nat} {task : LinkTask}
      (listed : s.links[address]? = some link) (here : s.tasks[link]? = some task) :
      Stepped s (.send address packet false) (s.dropPacket link task packet)
  /-- A link goes on by itself. -/
  | moved {link : Nat} {task : LinkTask} (phase : LinkPhase) (here : s.tasks[link]? = some task)
      (dials : phase.dials = task.phase.dials) (runs : phase.runs = task.phase.runs)
      (ended : phase.ended = task.phase.ended) (fresh : phase.fresh = true → task.phase.fresh = true)
      (settled : phase ≠ .running ∧ phase ≠ .noticed ∧ phase ≠ .fired ∧ phase ≠ .over ∧ phase ≠ .attaching)
      (before : task.phase ≠ .over ∧ task.phase ≠ .attaching) :
      Stepped s (.proceed link) (s.setTask link { task with phase := phase })
  | registered {link : Nat} {task : LinkTask} (here : s.tasks[link]? = some task) (phase : task.phase = .starting) :
      Stepped s (.proceed link) (s.setTask link { task with phase := .running })
  | cameUp {link : Nat} {task : LinkTask} (here : s.tasks[link]? = some task) (phase : task.phase = .dialing) :
      Stepped s (.dialed link true)
        { s.setTask link { task with phase := .starting } with answered := s.answered.erase task.address }
  | dialFailed {label : TransportStep} {link : Nat} {task : LinkTask} (permit : Bool)
      (here : s.tasks[link]? = some task) (phase : task.phase = .dialing) (cancelled : Bool)
      (how : cancelled = true ∨ s.endsOtherwise label = some link) :
      Stepped s label
        (s.setTask link { task with phase := .failing, cancelled := cancelled, closePermit := permit })
  | noticed {link : Nat} {task : LinkTask} (here : s.tasks[link]? = some task) (phase : task.phase = .running)
      (permit : task.releasePermit = true) :
      Stepped s (.notice link) (s.setTask link { task with phase := .noticed, releasePermit := false })
  | checked {link : Nat} {task : LinkTask} (here : s.tasks[link]? = some task) (phase : task.phase = .noticed) :
      Stepped s (.proceed link) (s.setTask link
        { task with phase := .running, releaseArmed := if s.inUse task.address then task.releaseArmed else true })
  | fired {link : Nat} {task : LinkTask} (here : s.tasks[link]? = some task) (phase : task.phase = .running)
      (armed : task.releaseArmed = true) : Stepped s (.fire link) (s.setTask link { task with phase := .fired })
  | disarmed {link : Nat} {task : LinkTask} (here : s.tasks[link]? = some task) (phase : task.phase = .fired)
      (used : s.inUse task.address = true) :
      Stepped s (.proceed link) (s.setTask link { task with phase := .running, releaseArmed := false })
  /-- The loop of a link ends. -/
  | ended {label : TransportStep} {link : Nat} {task : LinkTask} (after : LinkTask)
      (here : s.tasks[link]? = some task) (phase : task.phase = .running ∨ task.phase = .fired)
      (address : after.address = task.address) (ending : after.phase = .ending)
      (sendEnded : after.sendEnded = task.sendEnded)
      (queue : after.toSend = task.toSend ∧ after.parked = task.parked ∧ after.sending = task.sending ∧
        after.outbound <:+ task.outbound)
      (released : after.releasedHere = true → task.releasedHere = true ∨ s.inUse task.address = false)
      (untaken : task.sendEnded = false → after.outbound = task.outbound)
      (how : after.closedByApplication = true ∨ s.endsOtherwise label = some link) :
      Stepped s label (s.setTask link after)
  | finished {link : Nat} {task : LinkTask} (answered : PeerMap (Option Instant)) (here : s.tasks[link]? = some task)
      (phase : task.phase = .finishing) (owner : s.links[task.address]? = some link) :
      Stepped s (.proceed link)
        { s.setTask link { task with phase := .over } with
          answered := answered
          links := s.links.erase task.address
          learned :=
            if s.learned[task.address]?.any fun learned => decide (learned.connections = ∅ ∧ learned.ended = ∅) then
              s.learned.erase task.address
            else s.learned }
  | removed {link : Nat} {task : LinkTask} (here : s.tasks[link]? = some task) (phase : task.phase = .removing)
      (owner : s.links[task.address]? = some link) :
      Stepped s (.proceed link)
        { s.setTask link { task with phase := .over } with links := s.links.erase task.address }
  /-- Another link has the address by now. -/
  | outlived {link : Nat} {task : LinkTask} (here : s.tasks[link]? = some task)
      (phase : task.phase = .finishing ∨ task.phase = .removing) (other : s.links[task.address]? ≠ some link) :
      Stepped s (.proceed link) (s.setTask link { task with phase := .over })
  | forwarded {link : Nat} {task : LinkTask} {next : Outgoing} {rest : List Outgoing} {room : Bool}
      (here : s.tasks[link]? = some task) (phase : task.phase = .running) (head : task.outbound = next :: rest)
      (open_ : task.sendEnded = false) :
      Stepped s (.forward link room) (s.setTask link { task with outbound := rest, toSend := task.toSend ++ [next] })
  | shed {link packet : Nat} {task : LinkTask} {rest : List Outgoing} {room : Bool} (here : s.tasks[link]? = some task)
      (phase : task.phase = .running) (head : task.outbound = .packet packet :: rest) :
      Stepped s (.forward link room)
        { (s.setTask link { task with outbound := rest }).setFate packet (.dropped s.now) with
          dropped := s.dropped.insert task.address s.now }
  | parked {link barrier : Nat} {task : LinkTask} {rest : List Outgoing} {room : Bool}
      (here : s.tasks[link]? = some task) (phase : task.phase = .running)
      (head : task.outbound = .barrier barrier :: rest) (open_ : task.sendEnded = false) :
      Stepped s (.forward link room) (s.setTask link { task with outbound := rest, parked := task.parked ++ [barrier] })
  | unparked {link barrier : Nat} {task : LinkTask} (here : s.tasks[link]? = some task)
      (sends : task.phase.sends = true) (waits : barrier ∈ task.parked) :
      Stepped s (.unpark link barrier) (s.setTask link
        { task with parked := task.parked.erase barrier, toSend := task.toSend ++ [.barrier barrier] })
  | sentOut {link packet : Nat} {task : LinkTask} {rest : List Outgoing} (here : s.tasks[link]? = some task)
      (sends : task.phase.sends = true) (open_ : task.sendEnded = false) (head : task.toSend = .packet packet :: rest) :
      Stepped s (.takeOut link)
        ((s.setTask link { task with toSend := rest, sending := true }).setFate packet .sent)
  | reached {link barrier : Nat} {task : LinkTask} {rest : List Outgoing} (here : s.tasks[link]? = some task)
      (sends : task.phase.sends = true) (head : task.toSend = .barrier barrier :: rest) :
      Stepped s (.takeOut link)
        { s.setTask link { task with toSend := rest } with
          barriers := s.barriers.modify barrier fun barrier => { barrier with reached := true } }
  | sendReturned {link : Nat} {task : LinkTask} (ok : Bool) (here : s.tasks[link]? = some task)
      (sends : task.phase.sends = true) (busy : task.sending = true) :
      Stepped s (.sent link ok) (s.setTask link { task with sending := false, sendEnded := !ok })
  | aborted {link : Nat} {task : LinkTask} (here : s.tasks[link]? = some task) (ended : task.phase.ended = true) :
      Stepped s (.abort link) (s.setTask link { task with sending := false, sendEnded := true })
  | handshaken (endpoint : EndpointId) :
      Stepped s (.handshake endpoint) { s with connections := s.connections ++ [{ endpoint := endpoint }] }
  | learnt {number : Nat} {connection : IrohConnection} {address : PeerAddress}
      (here : s.connections[number]? = some connection) (phase : connection.phase = .established) :
      Stepped s (.learn number address) ((s.learn connection.endpoint number address).setConnection number
        { connection with used := connection.used ++ [address] })
  | marked {number : Nat} {connection : IrohConnection} (here : s.connections[number]? = some connection)
      (phase : connection.phase = .closing) :
      Stepped s (.hook number) ((s.connectionClosing number).setConnection number { connection with phase := .marked })
  /-- A connection goes on by itself, and `close_sent` does not return
  true. -/
  | went {label : TransportStep} {number : Nat} {connection : IrohConnection} (phase : ConnectionPhase)
      (sent : Option Bool) (closed closing : Instant) (here : s.connections[number]? = some connection)
      (early : connection.phase.early = true) (live : phase.live = true)
      (counted : phase = .built → connection.built.isSome = true)
      (unbarred : phase ≠ .found ∧ phase ≠ .barring ∧ phase ≠ .barred)
      (answer : sent = connection.sent ∨ sent = some false ∧ phase = .forgetting) :
      Stepped s label (s.setConnection number
        { connection with phase := phase, sent := sent, closed := closed, closing := closing })
  | counted {number : Nat} {connection : IrohConnection} (here : s.connections[number]? = some connection)
      (unbuilt : connection.built = none) :
      Stepped s (.build number) (s.setConnection number { connection with built := some s.packets.length })
  | drained {number : Nat} {connection : IrohConnection} (here : s.connections[number]? = some connection) :
      Stepped s (.drain number) (s.setConnection number { connection with drained := true })
  | found {number : Nat} {connection : IrohConnection} (here : s.connections[number]? = some connection)
      (phase : connection.phase = .built) :
      Stepped s (.hook number) (s.setConnection number { connection with
        phase := .found
        addresses := (s.learned.filter fun _ learned => decide (number ∈ learned.connections)).keys })
  | lookedUp {number : Nat} {connection : IrohConnection} (here : s.connections[number]? = some connection)
      (phase : connection.phase = .found) :
      Stepped s (.hook number) (s.setConnection number { connection with
        phase := .barring
        links := connection.addresses.filterMap fun address => s.links[address]?
        barrier := none })
  | barrierQueued {number link : Nat} {connection : IrohConnection} {task : LinkTask} {rest : List Nat}
      (here : s.connections[number]? = some connection) (phase : connection.phase = .barring)
      (none_ : connection.barrier = none) (next : connection.links = link :: rest)
      (there : s.tasks[link]? = some task) :
      Stepped s (.hook number)
        { (s.setTask link { task with outbound := task.outbound ++ [.barrier s.barriers.length] }).setConnection number
            { connection with barrier := some s.barriers.length } with
          barriers := s.barriers ++ [{ link := link, mark := s.packets.length }] }
  | linkGone {number link : Nat} {connection : IrohConnection} {task : LinkTask} {rest : List Nat}
      (here : s.connections[number]? = some connection) (phase : connection.phase = .barring)
      (none_ : connection.barrier = none) (next : connection.links = link :: rest)
      (there : s.tasks[link]? = some task) (over_ : task.phase = .over) :
      Stepped s (.hook number) (s.setConnection number { connection with links := rest })
  | answered {number waiting : Nat} {connection : IrohConnection} {barrier : Barrier}
      (here : s.connections[number]? = some connection) (phase : connection.phase = .barring)
      (some_ : connection.barrier = some waiting) (there : s.barriers[waiting]? = some barrier)
      (done : barrier.reached = true ∨ s.barrierLost waiting barrier = true) :
      Stepped s (.hook number) (s.setConnection number
        { connection with barrier := none, links := connection.links.tail })
  | barred {number : Nat} {connection : IrohConnection} (here : s.connections[number]? = some connection)
      (phase : connection.phase = .barring) (none_ : connection.barrier = none) (all : connection.links = []) :
      Stepped s (.hook number) (s.setConnection number { connection with phase := .barred })
  | closeSent {number : Nat} {connection : IrohConnection} (here : s.connections[number]? = some connection)
      (phase : connection.phase = .barred)
      (kept : ∀ address ∈ connection.addresses, ∀ at_, s.dropped[address]? = some at_ → at_ < connection.since) :
      Stepped s (.hook number) (s.setConnection number { connection with phase := .forgetting, sent := some true })
  | forgot {number : Nat} {connection : IrohConnection} (here : s.connections[number]? = some connection)
      (phase : connection.phase = .forgetting) :
      Stepped s (.hook number) ((s.forgetConnection number).setConnection number
        { connection with phase := .releasing (s.releasedBy number) })
  | released {number : Nat} {connection : IrohConnection} {released : List PeerAddress}
      (here : s.connections[number]? = some connection) (phase : connection.phase = .releasing released) :
      Stepped s (.hook number) ((s.releaseLinks released).setConnection number { connection with phase := .draining })
  | forgotten {number : Nat} {connection : IrohConnection} (here : s.connections[number]? = some connection)
      (phase : connection.phase = .draining) :
      Stepped s (.hook number) ((s.connectionDrained number).setConnection number { connection with phase := .over })

section Steps

variable {s s' : Transport}

theorem dialOnSend_cases (address : PeerAddress) (packet : Bytes) (s : Transport) :
    s.dialOnSend address packet = s ∨ s.dialOnSend address packet = s.startDial address packet := by
  unfold dialOnSend
  split
  · exact .inr rfl
  · exact .inl rfl

theorem send_cases {address : PeerAddress} {packet : Bytes} {room : Bool}
    (sent : s.send address packet room = some s') : Stepped s (.send address packet room) s' := by
  unfold send at sent
  split at sent
  · rename_i free
    cases Option.some.inj sent
    rcases dialOnSend_cases address packet s with same | dials
    · rw [same]
      exact .ignored
    · rw [dials]
      exact .dialStarted free
  · rename_i link listed
    obtain ⟨task, here, sent⟩ := Option.bind_eq_some_iff.mp sent
    split at sent
    · rename_i phase
      exact .stale s' listed here phase
    · rename_i phase
      split at sent
      · rename_i taken
        simp only [Option.ite_none_right_eq_some, Option.some.injEq] at sent
        obtain ⟨_, rfl⟩ := sent
        rw [taken]
        exact .queued listed here phase
      · rename_i full
        simp only [Option.ite_none_right_eq_some, Option.some.injEq] at sent
        obtain ⟨_, rfl⟩ := sent
        rw [Bool.not_eq_true] at full
        rw [full]
        exact .refused listed here

theorem proceed_cases {link : Nat} {task : LinkTask} (here : s.tasks[link]? = some task)
    (moved : s.proceed link task = some s') : Stepped s (.proceed link) s' := by
  have goesOn : ∀ (before phase : LinkPhase), task.phase = before → phase.dials = before.dials →
      phase.runs = before.runs → phase.ended = before.ended → phase.fresh = false ∨ before.fresh = true →
        (phase ≠ .running ∧ phase ≠ .noticed ∧ phase ≠ .fired ∧ phase ≠ .over ∧ phase ≠ .attaching) →
          (before ≠ .over ∧ before ≠ .attaching) →
            Stepped s (.proceed link) (s.setTask link { task with phase := phase }) := by
    rintro before phase rfl dials runs ended fresh settled known
    refine .moved phase here dials runs ended (fun is => ?_) settled known
    rcases fresh with not_ | was
    · rw [not_] at is
      simp at is
    · exact was
  unfold proceed at moved
  split at moved
  · rename_i phase
    cases Option.some.inj moved
    exact .inserted here phase
  · rename_i phase
    cases Option.some.inj moved
    exact goesOn _ .starting phase rfl rfl rfl (.inr rfl) (by decide) (by decide)
  · rename_i phase
    cases Option.some.inj moved
    exact goesOn _ .dialing phase rfl rfl rfl (.inr rfl) (by decide) (by decide)
  · rename_i phase
    cases Option.some.inj moved
    exact goesOn _ .removing phase rfl rfl rfl (.inl rfl) (by decide) (by decide)
  · rename_i phase
    cases Option.some.inj moved
    unfold removeLink
    split
    · rename_i owner
      exact .removed here phase owner
    · rename_i other
      exact .outlived here (.inr phase) other
  · rename_i phase
    cases Option.some.inj moved
    exact .registered here phase
  · rename_i phase
    cases Option.some.inj moved
    exact .checked here phase
  · rename_i phase
    split at moved
    · rename_i used
      cases Option.some.inj moved
      exact .disarmed here phase used
    · rename_i unused
      cases Option.some.inj moved
      rw [Bool.not_eq_true] at unused
      refine .ended _ here (.inr phase) rfl rfl rfl ⟨rfl, rfl, rfl, List.suffix_rfl⟩ (fun _ => .inr unused)
        (fun _ => rfl) (.inr ?_)
      unfold endsOtherwise
      dsimp only
      rw [here, Option.any_some, decide_eq_true phase, unused]
      rfl
  · rename_i phase
    cases Option.some.inj moved
    exact goesOn _ .unlisted phase rfl rfl rfl (.inl rfl) (by decide) (by decide)
  · rename_i phase
    cases Option.some.inj moved
    exact goesOn _ .disconnecting phase rfl rfl rfl (.inl rfl) (by decide) (by decide)
  · rename_i phase
    cases Option.some.inj moved
    exact goesOn _ .finishing phase rfl rfl rfl (.inl rfl) (by decide) (by decide)
  · rename_i phase
    cases Option.some.inj moved
    unfold finishLink
    dsimp only
    split
    · rename_i owner
      exact .finished _ here phase owner
    · rename_i other
      exact .outlived here (.inl phase) other
  · simp at moved
  · simp at moved
  · simp at moved

theorem endLink_cases {link : Nat} {task : LinkTask} {cause : LinkEnd} (here : s.tasks[link]? = some task)
    (phase : task.phase = .running) (moved : s.endLink link task cause = some s') :
    Stepped s (.endLink link cause) s' := by
  have unreleased : ∀ after : LinkTask, after.releasedHere = task.releasedHere → after.releasedHere = true →
      task.releasedHere = true ∨ s.inUse task.address = false := by
    intro after same released
    exact .inl (same ▸ released)
  unfold endLink at moved
  split at moved
  · cases Option.some.inj moved
    exact .ended _ here (.inl phase) rfl rfl rfl ⟨rfl, rfl, rfl, List.suffix_rfl⟩ (unreleased _ rfl)
      (fun _ => rfl) (.inr rfl)
  · simp only [Option.ite_none_right_eq_some, Option.some.injEq] at moved
    obtain ⟨_, rfl⟩ := moved
    exact .ended _ here (.inl phase) rfl rfl rfl ⟨rfl, rfl, rfl, List.suffix_rfl⟩ (unreleased _ rfl)
      (fun _ => rfl) (.inl rfl)
  · simp only [Option.ite_none_right_eq_some, Option.some.injEq] at moved
    obtain ⟨_, rfl⟩ := moved
    exact .ended _ here (.inl phase) rfl rfl rfl ⟨rfl, rfl, rfl, List.suffix_rfl⟩ (unreleased _ rfl)
      (fun _ => rfl) (.inr rfl)
  · cases Option.some.inj moved
    exact .ended _ here (.inl phase) rfl rfl rfl ⟨rfl, rfl, rfl, List.suffix_rfl⟩ (unreleased _ rfl)
      (fun _ => rfl) (.inr rfl)

theorem forward_cases {link : Nat} {task : LinkTask} {room : Bool} (here : s.tasks[link]? = some task)
    (phase : task.phase = .running) (moved : s.forward link task room = some s') :
    Stepped s (.forward link room) s' := by
  unfold forward at moved
  split at moved
  · simp at moved
  · rename_i next rest head
    split at moved
    · rename_i gone
      cases Option.some.inj moved
      refine .ended _ here (.inl phase) rfl rfl rfl ⟨rfl, rfl, rfl, ?_⟩ .inl (fun open_ => ?_) (.inr ?_)
      · rw [head]
        exact List.suffix_cons next rest
      · exact absurd (gone.symm.trans open_) (by decide)
      · unfold endsOtherwise
        dsimp only
        rw [here, Option.any_some, gone]
        rfl
    · rename_i open_
      rw [Bool.not_eq_true] at open_
      split at moved
      · simp only [Option.ite_none_right_eq_some, Option.some.injEq] at moved
        obtain ⟨_, rfl⟩ := moved
        exact .forwarded here phase head open_
      · simp only [Option.ite_none_right_eq_some] at moved
        obtain ⟨_, moved⟩ := moved
        cases next with
        | packet packet =>
          cases Option.some.inj moved
          exact .shed here phase head
        | barrier barrier =>
          cases Option.some.inj moved
          exact .parked here phase head open_

theorem takeOut_cases {link : Nat} {task : LinkTask} (here : s.tasks[link]? = some task)
    (sends : task.phase.sends = true) (open_ : task.sendEnded = false) (moved : s.takeOut link task = some s') :
    Stepped s (.takeOut link) s' := by
  unfold takeOut at moved
  split at moved
  · simp at moved
  · rename_i packet rest head
    cases Option.some.inj moved
    exact .sentOut here sends open_ head
  · rename_i barrier rest head
    cases Option.some.inj moved
    exact .reached here sends head

theorem bar_cases {number : Nat} {connection : IrohConnection} (here : s.connections[number]? = some connection)
    (phase : connection.phase = .barring) (moved : s.bar number connection = some s') :
    Stepped s (.hook number) s' := by
  unfold bar at moved
  split at moved
  · rename_i waiting links some_
    obtain ⟨barrier, there, moved⟩ := Option.bind_eq_some_iff.mp moved
    simp only [Option.ite_none_right_eq_some, Option.some.injEq, Bool.or_eq_true] at moved
    obtain ⟨done, rfl⟩ := moved
    exact .answered here phase some_ there done
  · rename_i link rest none_ next
    obtain ⟨task, there, moved⟩ := Option.bind_eq_some_iff.mp moved
    split at moved
    · rename_i gone
      cases Option.some.inj moved
      exact .linkGone here phase none_ next there gone
    · simp only [Option.ite_none_right_eq_some, Option.some.injEq] at moved
      obtain ⟨_, rfl⟩ := moved
      exact .barrierQueued here phase none_ next there
  · rename_i none_ all
    cases Option.some.inj moved
    exact .barred here phase none_ all

theorem hook_cases {number : Nat} {connection : IrohConnection} (here : s.connections[number]? = some connection)
    (moved : s.hook number connection = some s') : Stepped s (.hook number) s' := by
  unfold hook at moved
  split at moved
  · simp at moved
  · simp at moved
  · rename_i phase
    cases Option.some.inj moved
    exact .marked here phase
  · rename_i phase
    split at moved
    · cases Option.some.inj moved
      exact .went .forgetting (some false) _ _ here (by rw [phase]; rfl) rfl (by simp) (by decide) (.inr ⟨rfl, rfl⟩)
    · simp only [Option.ite_none_right_eq_some, Option.some.injEq] at moved
      obtain ⟨counted, rfl⟩ := moved
      exact .went .built connection.sent _ _ here (by rw [phase]; rfl) rfl (fun _ => counted) (by decide) (.inl rfl)
  · rename_i phase
    cases Option.some.inj moved
    exact .found here phase
  · rename_i phase
    cases Option.some.inj moved
    exact .lookedUp here phase
  · rename_i phase
    exact bar_cases here phase moved
  · rename_i phase
    split at moved
    · cases Option.some.inj moved
      exact .went .lossy connection.sent _ _ here (by rw [phase]; rfl) rfl (by simp) (by decide) (.inl rfl)
    · rename_i kept
      cases Option.some.inj moved
      refine .closeSent here phase fun address member at_ there => ?_
      simp only [List.any_eq_true, not_exists, not_and] at kept
      have before := kept address member
      rw [there, Option.any_some, decide_eq_true_eq] at before
      exact Nat.lt_of_not_le before
  · rename_i phase
    simp only [Option.ite_none_right_eq_some, Option.some.injEq] at moved
    obtain ⟨_, rfl⟩ := moved
    exact .went .forgetting (some false) _ _ here (by rw [phase]; rfl) rfl (by simp) (by decide) (.inr ⟨rfl, rfl⟩)
  · rename_i phase
    cases Option.some.inj moved
    exact .forgot here phase
  · rename_i released phase
    cases Option.some.inj moved
    exact .released here phase
  · rename_i phase
    simp only [Option.ite_none_right_eq_some, Option.some.injEq] at moved
    obtain ⟨_, rfl⟩ := moved
    exact .forgotten here phase
  · simp at moved

theorem step_cases {label : TransportStep} (step : s.step label = some s') : Stepped s label s' := by
  unfold Transport.step at step
  cases label with
  | attach address role =>
    cases Option.some.inj step
    exact .attach address role
  | send address packet room => exact send_cases step
  | closeLink address =>
    cases Option.some.inj step
    exact .closeLink address
  | setPeerAddress endpoint address =>
    cases Option.some.inj step
    exact .peerSet endpoint address
  | forgetPeer endpoint =>
    cases Option.some.inj step
    exact .peerForgotten endpoint
  | tick elapsed =>
    cases Option.some.inj step
    exact .ticked elapsed
  | proceed link =>
    obtain ⟨task, here, moved⟩ := Option.bind_eq_some_iff.mp step
    exact proceed_cases here moved
  | dialed link ok =>
    obtain ⟨task, here, moved⟩ := Option.bind_eq_some_iff.mp step
    obtain ⟨here, phase⟩ := Option.filter_eq_some_iff.mp here
    rw [decide_eq_true_eq] at phase
    cases Option.some.inj moved
    cases ok with
    | true => exact .cameUp here phase
    | false => exact .dialFailed task.closePermit here phase task.cancelled (.inr rfl)
  | cancel link =>
    obtain ⟨task, here, moved⟩ := Option.bind_eq_some_iff.mp step
    obtain ⟨here, ready⟩ := Option.filter_eq_some_iff.mp here
    rw [Bool.and_eq_true, decide_eq_true_eq] at ready
    cases Option.some.inj moved
    exact .dialFailed false here ready.1 true (.inl rfl)
  | notice link =>
    obtain ⟨task, here, moved⟩ := Option.bind_eq_some_iff.mp step
    obtain ⟨here, ready⟩ := Option.filter_eq_some_iff.mp here
    rw [Bool.and_eq_true, decide_eq_true_eq] at ready
    cases Option.some.inj moved
    exact .noticed here ready.1 ready.2
  | fire link =>
    obtain ⟨task, here, moved⟩ := Option.bind_eq_some_iff.mp step
    obtain ⟨here, ready⟩ := Option.filter_eq_some_iff.mp here
    rw [Bool.and_eq_true, decide_eq_true_eq] at ready
    cases Option.some.inj moved
    exact .fired here ready.1 ready.2
  | endLink link cause =>
    obtain ⟨task, here, moved⟩ := Option.bind_eq_some_iff.mp step
    obtain ⟨here, phase⟩ := Option.filter_eq_some_iff.mp here
    exact endLink_cases here (of_decide_eq_true phase) moved
  | forward link room =>
    obtain ⟨task, here, moved⟩ := Option.bind_eq_some_iff.mp step
    obtain ⟨here, phase⟩ := Option.filter_eq_some_iff.mp here
    exact forward_cases here (of_decide_eq_true phase) moved
  | unpark link barrier =>
    obtain ⟨task, here, moved⟩ := Option.bind_eq_some_iff.mp step
    obtain ⟨here, ready⟩ := Option.filter_eq_some_iff.mp here
    simp only [Bool.and_eq_true, decide_eq_true_eq] at ready
    cases Option.some.inj moved
    exact .unparked here ready.1.1 ready.2.1
  | takeOut link =>
    obtain ⟨task, here, moved⟩ := Option.bind_eq_some_iff.mp step
    obtain ⟨here, ready⟩ := Option.filter_eq_some_iff.mp here
    simp only [Bool.and_eq_true, Bool.not_eq_true'] at ready
    exact takeOut_cases here ready.1.1 ready.1.2 moved
  | sent link ok =>
    obtain ⟨task, here, moved⟩ := Option.bind_eq_some_iff.mp step
    obtain ⟨here, ready⟩ := Option.filter_eq_some_iff.mp here
    rw [Bool.and_eq_true] at ready
    cases Option.some.inj moved
    exact .sendReturned ok here ready.1 ready.2
  | abort link =>
    obtain ⟨task, here, moved⟩ := Option.bind_eq_some_iff.mp step
    obtain ⟨here, ready⟩ := Option.filter_eq_some_iff.mp here
    simp only [Bool.and_eq_true, Bool.not_eq_true'] at ready
    cases Option.some.inj moved
    exact .aborted here ready.1.2
  | handshake endpoint =>
    cases Option.some.inj step
    exact .handshaken endpoint
  | learn number address =>
    obtain ⟨connection, here, moved⟩ := Option.bind_eq_some_iff.mp step
    obtain ⟨here, phase⟩ := Option.filter_eq_some_iff.mp here
    cases Option.some.inj moved
    exact .learnt here (of_decide_eq_true phase)
  | close number =>
    obtain ⟨connection, here, moved⟩ := Option.bind_eq_some_iff.mp step
    obtain ⟨here, phase⟩ := Option.filter_eq_some_iff.mp here
    rw [decide_eq_true_eq] at phase
    cases Option.some.inj moved
    exact .went .closing connection.sent _ _ here (by rw [phase]; rfl) rfl (by simp) (by decide) (.inl rfl)
  | reason number byPeer =>
    obtain ⟨connection, here, moved⟩ := Option.bind_eq_some_iff.mp step
    obtain ⟨here, phase⟩ := Option.filter_eq_some_iff.mp here
    rw [decide_eq_true_eq] at phase
    cases Option.some.inj moved
    cases byPeer with
    | true => exact .went .forgetting connection.sent _ _ here (by rw [phase]; rfl) rfl (by simp) (by decide) (.inl rfl)
    | false => exact .went .building connection.sent _ _ here (by rw [phase]; rfl) rfl (by simp) (by decide) (.inl rfl)
  | build number =>
    obtain ⟨connection, here, moved⟩ := Option.bind_eq_some_iff.mp step
    obtain ⟨here, unbuilt⟩ := Option.filter_eq_some_iff.mp here
    cases Option.some.inj moved
    exact .counted here (Option.isNone_iff_eq_none.mp unbuilt)
  | drain number =>
    obtain ⟨connection, here, moved⟩ := Option.bind_eq_some_iff.mp step
    cases Option.some.inj moved
    exact .drained here
  | hook number =>
    obtain ⟨connection, here, moved⟩ := Option.bind_eq_some_iff.mp step
    exact hook_cases here moved
  | abandonBarriers number =>
    obtain ⟨connection, here, moved⟩ := Option.bind_eq_some_iff.mp step
    obtain ⟨here, ready⟩ := Option.filter_eq_some_iff.mp here
    rw [Bool.and_eq_true, decide_eq_true_eq] at ready
    cases Option.some.inj moved
    exact .went .forgetting (some false) _ _ here (by rw [ready.1]; rfl) rfl (by simp) (by decide) (.inr ⟨rfl, rfl⟩)

end Steps

end Transport

end BleGatt.Iroh
