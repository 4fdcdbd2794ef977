import BleGatt.Profile.Datagram.Inbound
import BleGatt.Profile.Datagram.ReassemblySound

namespace BleGatt
open Std

namespace Reassembler

/-- No partial message had run out at `swept`. -/
def Recent (swept : Instant) (r : Reassembler) : Prop :=
  ∀ (x : UInt32) (message : PartialMessage), r.partials[x]? = some message →
    swept ≤ message.startedAt + r.limits.reassemblyTimeout

section Recent
variable {swept now : Instant} {r : Reassembler}

theorem recent_new (limits : ReassemblyLimits) : (new limits).Recent swept := fun x message held => by simp [new] at held

theorem recent_expire : (r.expire now).Recent now := by
  intro x message held
  obtain ⟨_, young⟩ := of_live held
  exact Nat.sub_le_iff_le_add'.mp (Nat.le_of_lt young)

theorem Recent.remove (recent : r.Recent now) (msgId : UInt32) : (r.remove msgId).Recent now := by
  intro x message held
  rw [getElem?_remove] at held
  split at held
  · simp at held
  · exact recent x message held

theorem Recent.evict (recent : r.Recent now) : r.evictIfAtCapacity.Recent now := by
  intro x message held
  rw [limits_evictIfAtCapacity]
  obtain gone | left := evicted_or_kept (r := r) (x := x)
  · simp [gone] at held
  · exact recent x message (left ▸ held)

theorem Recent.put {msgId : UInt32} {message : PartialMessage} (recent : r.Recent now)
    (young : now ≤ message.startedAt + r.limits.reassemblyTimeout) : (r.put msgId message).Recent now := by
  intro x other held
  rw [getElem?_put] at held
  split at held
  · cases held
    exact young
  · exact recent x other held

/-- A call that gets past the first checks leaves no message that has run out. -/
theorem Exit.recent {call : Call} {answer : Accept} {r' : Reassembler} (exit : Exit r call answer r')
    (well_formed : call.wellFormed r.limits = true) : r'.Recent call.now := by
  have expired : (r.expire call.now).Recent call.now := recent_expire
  cases exit with
  | malformed bad => exact absurd (bad.symm.trans well_formed) Bool.noConfusion
  | whole | inconsistent | tooLarge | completed => exact expired.remove _
  | declared | duplicate => exact expired
  | started => exact expired.evict.put (Nat.le_add_right _ _)
  | restarted => exact expired.put (Nat.le_add_right _ _)
  | @stored message _ _ held =>
    have young : call.now ≤ message.startedAt + r.limits.reassemblyTimeout := expired _ message held
    exact expired.put young

theorem Exit.malformed_eq {call : Call} {answer : Accept} {r' : Reassembler} (exit : Exit r call answer r')
    (malformed : call.wellFormed r.limits = false) : r' = r ∧ ∃ reason, answer = .rejected reason := by
  cases exit with
  | malformed _ => exact ⟨rfl, _, rfl⟩
  | _ => simp_all

end Recent

end Reassembler

namespace Inbound

/-- The fragment makes `accept` expire what has run out. -/
def expires (raw : Bytes) (s : Inbound) : Bool :=
  match FragmentHeader.parse raw with
  | some (header, payload) => Call.wellFormed s.reassembler.limits ⟨header, payload, s.clock⟩
  | none => false

/-- When the partial messages were last expired, or thrown away. -/
def sweep (swept : Instant) (s : Inbound) : InboundStep → Inbound → Instant
  | .arrive (.ok raw), _ => if s.expires raw then s.clock else swept
  | .expire, _ | .raised, _ => s.clock
  | _, _ => swept

/-- The task waits with partial messages for at most a tick after it last
expired them. -/
def Swept (cfg : DatagramConfig) (swept : Instant) (s : Inbound) : InboundStep → Bool
  | .elapse time =>
    match s.task with
    | .waiting _ => s.reassembler.partials.isEmpty || decide (s.clock + time ≤ swept + cfg.limits.tick)
    | _ => true
  | .enqueue => s.reassembler.partials.isEmpty || decide (s.clock ≤ swept + cfg.limits.tick)
  | _ => true

/-- What was last expired at `swept`, and how long ago that is. -/
structure Aired (cfg : DatagramConfig) (swept : Instant) (s : Inbound) : Prop where
  limits : s.reassembler.limits = cfg.limits
  recent : s.reassembler.Recent swept
  waited : ∀ wake, s.task = .waiting wake →
    s.reassembler.partials.isEmpty = true ∨ s.clock ≤ swept + cfg.limits.tick

theorem pollArm_task {arm : Arm} {left : List Arm} {s : Inbound} : (s.pollArm arm left).reassembler = s.reassembler ∧
    (s.pollArm arm left).task = s.task ∧ (s.pollArm arm left).clock = s.clock := by
  unfold pollArm
  split
  · split
    · exact ⟨rfl, rfl, rfl⟩
    · split <;> exact ⟨rfl, rfl, rfl⟩
  · split <;> exact ⟨rfl, rfl, rfl⟩

namespace Aired

variable {cfg : DatagramConfig} {swept : Instant} {s s' : Inbound}

/-- A step that leaves the table, and the task where it does not wait. -/
theorem of_same (aired : Aired cfg swept s) (table : s'.reassembler = s.reassembler)
    (waits : ∀ wake, s'.task = .waiting wake → s'.clock = s.clock ∧ s.task = .waiting wake) : Aired cfg swept s' := by
  refine ⟨table ▸ aired.limits, table ▸ aired.recent, fun wake waiting => ?_⟩
  obtain ⟨clock, before⟩ := waits wake waiting
  rw [table, clock]
  exact aired.waited wake before

/-- A step that expires. -/
theorem of_swept (limits : s'.reassembler.limits = cfg.limits) (recent : s'.reassembler.Recent s.clock)
    (clock : s'.clock = s.clock) : Aired cfg s.clock s' :=
  ⟨limits, recent, fun _ _ => .inr (clock ▸ Nat.le_add_right _ _)⟩

theorem incoming (aired : Aired cfg swept s) {wake : Instant} (waiting : s.task = .waiting wake)
    (raw : Except BleError Bytes) :
    Aired cfg (sweep swept s (.arrive raw) (s.incoming cfg raw)) (s.incoming cfg raw) := by
  have ignored : Aired cfg swept (s.rearm cfg) := ⟨aired.limits, aired.recent, fun _ _ => aired.waited wake waiting⟩
  cases raw with
  | error _ => exact aired.of_same rfl (by rintro _ ⟨⟩)
  | ok raw =>
    unfold Inbound.incoming sweep expires
    cases parsed : FragmentHeader.parse raw with
    | none =>
      dsimp only
      rw [parsed]
      exact ignored
    | some fragment =>
      obtain ⟨header, payload⟩ := fragment
      dsimp only
      rw [parsed]
      have exit := s.reassembler.accept_exit ⟨header, payload, s.clock⟩
      have limits := exit.limits
      dsimp only at exit limits ⊢
      generalize s.reassembler.accept header payload s.clock = accepted at exit limits ⊢
      obtain ⟨answer, r'⟩ := accepted
      by_cases well_formed : Call.wellFormed s.reassembler.limits ⟨header, payload, s.clock⟩ = true
      · have recent := exit.recent well_formed
        rw [if_pos well_formed]
        cases answer <;> exact of_swept (limits.trans aired.limits) recent rfl
      · rw [if_neg well_formed]
        obtain ⟨rfl, reason, rfl⟩ := exit.malformed_eq (Bool.not_eq_true _ ▸ well_formed)
        exact ignored

theorem step {label : InboundStep} (aired : Aired cfg swept s) (timely : Swept cfg swept s label = true)
    (stepped : Inbound.step cfg s label = some s') : Aired cfg (sweep swept s label s') s' := by
  cases step_cases stepped with
  | @elapse time bound =>
    refine ⟨aired.limits, aired.recent, fun wake waiting => ?_⟩
    have waiting' : s.task = .waiting wake := waiting
    simp only [Swept, waiting', Bool.or_eq_true, decide_eq_true_eq] at timely
    exact timely
  | @arrive wake raw waiting => exact aired.incoming waiting raw
  | expire => exact of_swept aired.limits Reassembler.recent_expire rfl
  | raised => exact of_swept rfl (Reassembler.recent_new _) rfl
  | enqueue =>
    refine ⟨aired.limits, aired.recent, fun _ _ => ?_⟩
    simp only [Swept, Bool.or_eq_true, decide_eq_true_eq] at timely
    exact timely
  | fragmentsEnd | sendFailed | cancelled => exact aired.of_same rfl (by rintro _ ⟨⟩)
  | arm polling =>
    obtain ⟨table, task, clock⟩ := pollArm_task
    exact aired.of_same table (fun _ waiting => ⟨clock, task.symm.trans waiting⟩)
  | _ => exact aired.of_same rfl (fun _ waiting => ⟨rfl, waiting⟩)

end Aired

/-- Whenever the task waits, no partial message is older than the timeout and
a tick. -/
theorem run_idleExpiry {cfg : DatagramConfig} {swept : Instant} {s : Inbound}
    (run : (machine cfg).Run (fun swept s label => Swept cfg swept s label = true) sweep 0 swept s) {wake : Instant}
    (waiting : s.task = .waiting wake) {x : UInt32} {message : PartialMessage}
    (held : s.reassembler.partials[x]? = some message) :
    s.clock - message.startedAt ≤ cfg.reassemblyTimeout + cfg.limits.tick := by
  have aired : Aired cfg swept s := run.invariant
    (fun s first => by
      obtain ⟨role, peer, now, rfl⟩ := first
      exact ⟨rfl, Reassembler.recent_new _, fun _ _ => .inl (by simp [start, Reassembler.new])⟩)
    (fun _ _ _ _ _ aired timely stepped => aired.step timely stepped)
  have young := aired.recent x message held
  rw [aired.limits] at young
  obtain empty | soon := aired.waited wake waiting
  · rw [ExtTreeMap.isEmpty_iff.mp empty] at held
    simp at held
  · have late : s.clock ≤ message.startedAt + cfg.reassemblyTimeout + cfg.limits.tick :=
      soon.trans (Nat.add_le_add_right young _)
    exact Nat.sub_le_iff_le_add'.mpr (late.trans_eq (Nat.add_assoc _ _ _))

/-- Half a message, and `writes` writes too short for a header, `apart` after
it and after each other. -/
def halfAndForeign (apart : Duration) (writes : Nat) : List InboundStep :=
  .arrive (.ok [1, 0, 0, 0, 0, 0, 2, 0, 7]) ::
    (List.replicate writes [InboundStep.elapse apart, .arrive (.ok [0])]).flatten

/-- The task waits at `clock` with the half message buffered since 0. -/
def holdsHalf (clock : Instant) (s : Inbound) : Bool :=
  decide (s.clock = clock) && (s.reassembler.partials[(1 : UInt32)]?.any fun message => message.startedAt == 0) &&
    match s.task with
    | .waiting _ => true
    | _ => false

theorem holdsHalf_iff {clock : Instant} {s : Inbound} : holdsHalf clock s = true ↔
    s.clock = clock ∧ (∃ message, s.reassembler.partials[(1 : UInt32)]? = some message ∧ message.startedAt = 0) ∧
      ∃ wake, s.task = .waiting wake := by
  unfold holdsHalf
  cases s.task <;> simp [Option.any_eq_true]

def halfConfig : DatagramConfig := { service := ⟨0⟩, characteristic := ⟨1⟩ }

/-- A write of a foreign byte every 7 s keeps half a message for 42 s, with a
timeout of 30 s and a tick of 7.5 s. -/
theorem not_idleExpiry : ¬ ∀ (cfg : DatagramConfig) (s : Inbound), (machine cfg).Reach s →
    ∀ (wake : Instant), s.task = .waiting wake → ∀ (x : UInt32) (message : PartialMessage),
      s.reassembler.partials[x]? = some message →
      s.clock - message.startedAt ≤ cfg.reassemblyTimeout + cfg.limits.tick := by
  intro claim
  obtain ⟨s, reach, kept⟩ := Machine.Reach.exists_of_follow (machine halfConfig) (holdsHalf (Duration.ofSecs 42))
    ⟨.central, ⟨"a"⟩, 0, rfl⟩ (halfAndForeign (Duration.ofSecs 7) 6) (by decide +kernel)
  obtain ⟨clock, ⟨message, held, start⟩, wake, waiting⟩ := holdsHalf_iff.mp kept
  have young := claim _ s reach wake waiting _ message held
  rw [clock, start] at young
  exact absurd young (by decide)

/-- A foreign write 3 s on puts the timer off by no more than a tick. -/
theorem run_idleExpiry_half : ∃ s : Inbound, s.clock = Duration.ofSecs 6 ∧
    ∃ message, s.reassembler.partials[(1 : UInt32)]? = some message ∧
      s.clock - message.startedAt ≤ halfConfig.reassemblyTimeout + halfConfig.limits.tick := by
  obtain ⟨swept, s, run, kept⟩ := Machine.Run.exists_of_follow (machine halfConfig)
    (fun swept s label => Swept halfConfig swept s label = true) sweep 0 (fun _ => holdsHalf (Duration.ofSecs 6))
    ⟨.central, ⟨"a"⟩, 0, rfl⟩ (halfAndForeign (Duration.ofSecs 3) 2) (by decide +kernel)
  obtain ⟨clock, ⟨message, held, _⟩, wake, waiting⟩ := holdsHalf_iff.mp kept
  exact ⟨s, clock, message, held, run_idleExpiry run waiting held⟩

end Inbound

end BleGatt
