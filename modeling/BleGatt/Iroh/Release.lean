import BleGatt.Iroh.Learned

namespace BleGatt.Iroh
open Std

/-! The release of a link: it comes only when no connection is recorded for
the address, and the end of the last connection is not lost. -/

/-- A connection is recorded for the address. -/
def Used (learned : PeerMap Learned) (address : PeerAddress) : Prop :=
  ∃ entry, learned[address]? = some entry ∧ entry.connections ≠ ∅

/-- `forget_connection` took the last connection out there, and is about to
notify the links. -/
def Releasing (connections : List IrohConnection) (address : PeerAddress) : Prop :=
  ∃ (c : Nat) (connection : IrohConnection) (released : List PeerAddress), connections[c]? = some connection ∧
    connection.phase = .releasing released ∧ address ∈ released

namespace Transport

/-- A link that ends as released does so while nothing is recorded. -/
def ReleasesUnused (s : Transport) : Prop :=
  ∀ (label : TransportStep) (s' : Transport) (n : Nat) (task : LinkTask), s.step label = some s' →
    s'.tasks[n]? = some task → task.releasedHere = true →
      (∃ before, s.tasks[n]? = some before ∧ before.releasedHere = true) ∨ ¬ Used s.learned task.address

/-- Every link that waits on an address whose last connection was forgotten
has its permit, or its timer. -/
structure ReleaseAtOnce (s : Transport) : Prop where
  safe : s.ReleasesUnused
  kept : ∀ (n : Nat) (task : LinkTask), s.tasks[n]? = some task → task.phase = .running → task.forgotten = true →
    ¬ Used s.learned task.address → task.releasePermit = true ∨ task.releaseArmed = true

/-- The same, or the call that forgot the last connection is about to give
it the permit. -/
structure ReleaseKept (s : Transport) : Prop where
  safe : s.ReleasesUnused
  kept : ∀ (n : Nat) (task : LinkTask), s.tasks[n]? = some task → task.phase = .running → task.forgotten = true →
    ¬ Used s.learned task.address →
      task.releasePermit = true ∨ task.releaseArmed = true ∨ Releasing s.connections task.address
  given : ∀ (n c : Nat) (task : LinkTask) (connection : IrohConnection) (released : List PeerAddress),
    s.tasks[n]? = some task → task.phase = .running → s.connections[c]? = some connection →
      connection.phase = .releasing released → task.address ∈ released →
        ∃ s', s.step (.hook c) = some s' ∧ s'.tasks[n]? = some { task with releasePermit := true }

theorem inUse_iff {address : PeerAddress} {s : Transport} : s.inUse address = true ↔ Used s.learned address := by
  unfold inUse
  rw [Option.any_eq_true]
  constructor
  · rintro ⟨entry, there, used⟩
    exact ⟨entry, there, of_decide_eq_true used⟩
  · rintro ⟨entry, there, used⟩
    exact ⟨entry, there, decide_eq_true used⟩

theorem releasesUnused {s : Transport} (reach : machine.Reach s) : s.ReleasesUnused := by
  intro label s' n task step there released
  -- a link that a step puts in the place of another, as released as it was
  have set : ∀ {link : Nat} {before new : LinkTask}, (s.tasks.set link new)[n]? = some task →
      s.tasks[link]? = some before → new.releasedHere = before.releasedHere →
        ∃ before, s.tasks[n]? = some before ∧ before.releasedHere = true := by
    intro link before new there here same
    obtain ⟨rfl, rfl⟩ | ⟨_, was⟩ := TaskList.of_set there
    · exact ⟨before, here, same ▸ released⟩
    · exact ⟨task, was, released⟩
  have started : ∀ {new : LinkTask}, new.releasedHere = false → (s.tasks ++ [new])[n]? = some task →
      ∃ before, s.tasks[n]? = some before ∧ before.releasedHere = true := by
    intro new fresh there
    obtain was | ⟨_, rfl⟩ := TaskList.of_append there
    · exact ⟨task, was, released⟩
    · rw [fresh] at released
      simp at released
  have mapped : ∀ {f : LinkTask → LinkTask}, (∀ task, (f task).releasedHere = task.releasedHere) →
      (s.tasks.map f)[n]? = some task → ∃ before, s.tasks[n]? = some before ∧ before.releasedHere = true := by
    intro f same there
    rw [List.getElem?_map] at there
    obtain ⟨before, was, rfl⟩ := Option.map_eq_some_iff.mp there
    exact ⟨before, was, same before ▸ released⟩
  cases step_cases step with
  | closeLink address => exact .inl (mapped (fun task => by split <;> rfl) there)
  | forgot | released => exact .inl (mapped (fun task => by split <;> rfl) there)
  | attach address role => exact .inl (started rfl there)
  | dialStarted free => exact .inl (started rfl there)
  | stale after listed here phase => exact absurd phase ((Registered.of_reach reach).not_over listed here)
  | ended after here phase address ending sendEnded queue unused =>
    obtain ⟨rfl, rfl⟩ | ⟨_, was⟩ := TaskList.of_set there
    · rcases unused released with old | unused
      · exact .inl ⟨_, here, old⟩
      · refine .inr fun used => ?_
        rw [address, ← inUse_iff, unused] at used
        simp at used
    · exact .inl ⟨task, was, released⟩
  | inserted here | cameUp here | registered here | checked here | noticed here | fired here | disarmed here
  | dialFailed _ here | moved _ here | finished _ here | removed here | outlived here | queued _ here
  | forwarded here | shed here | parked here | unparked here | sentOut here | reached here | sendReturned _ here
  | aborted here | barrierQueued _ _ _ _ here => exact .inl (set there here rfl)
  | _ => exact .inl ⟨task, there, released⟩

end Transport

/-- A link that waits knows of the end of the last connection, or is about
to. -/
structure Woken (learned : PeerMap Learned) (connections : List IrohConnection) (task : LinkTask) : Prop where
  fresh : task.phase.fresh = true → task.forgotten = false
  woken : task.phase = .running → task.forgotten = true → Used learned task.address ∨ task.releasePermit = true ∨
    task.releaseArmed = true ∨ Releasing connections task.address

namespace Used

variable {s : Transport} {learned : PeerMap Learned} {address at_ : PeerAddress}

/-- An entry without connections goes. -/
theorem erase (used : Used learned address)
    (empty : (learned[at_]?.any fun entry => decide (entry.connections = ∅ ∧ entry.ended = ∅)) = true) :
    Used (learned.erase at_) address := by
  obtain ⟨entry, there, used⟩ := used
  refine ⟨entry, ?_, used⟩
  rw [FiniteMap.getElem?_erase, if_neg]
  · exact there
  · rintro rfl
    rw [there, Option.any_some, decide_eq_true_eq] at empty
    exact used empty.1

theorem learn (used : Used s.learned address) (endpoint : EndpointId) (number : Nat) (at_ : PeerAddress) :
    Used (s.learn endpoint number at_).learned address := by
  obtain ⟨joined, learned, _⟩ := s.learn_learned endpoint number at_
  obtain ⟨entry, there, used⟩ := used
  unfold Used
  rw [learned, FiniteMap.getElem?_insert]
  split
  · exact ⟨_, rfl, Finset.insert_ne_empty _ _⟩
  · exact ⟨entry, there, used⟩

theorem closing (used : Used s.learned address) (number : Nat) : Used (s.connectionClosing number).learned address := by
  obtain ⟨entry, there, used⟩ := used
  unfold Used Transport.connectionClosing
  rw [ExtTreeMap.getElem?_map, there]
  exact ⟨_, rfl, used⟩

theorem drain (used : Used s.learned address) (number : Nat) : Used (s.connectionDrained number).learned address := by
  obtain ⟨entry, there, used⟩ := used
  unfold Used Transport.connectionDrained
  rw [ExtTreeMap.getElem?_filterMap', there, Option.bind_some, if_pos (.inl used)]
  exact ⟨_, rfl, used⟩

/-- Either another connection is left, or it was the last. -/
theorem forget (used : Used s.learned address) (number : Nat) :
    Used (s.forgetConnection number).learned address ∨ address ∈ s.releasedBy number := by
  obtain ⟨entry, there, used⟩ := used
  have after : (s.forgetConnection number).learned[address]? = some (if number ∈ entry.connections then
      { entry with connections := entry.connections.erase number, ended := insert number entry.ended }
      else entry) := by
    unfold Transport.forgetConnection
    rw [ExtTreeMap.getElem?_map, there]
    rfl
  by_cases member : number ∈ entry.connections
  · rw [if_pos member] at after
    by_cases last : entry.connections.erase number = ∅
    · refine .inr ?_
      unfold Transport.releasedBy
      rw [ExtTreeMap.mem_keys, ExtTreeMap.mem_iff_isSome_getElem?, ExtTreeMap.getElem?_filter', there,
        Option.filter_some_pos (by simp [member, last])]
      rfl
    · exact .inl ⟨_, after, last⟩
  · rw [if_neg member] at after
    exact .inl ⟨_, after, used⟩

end Used

theorem Releasing.set {connections : List IrohConnection} {address : PeerAddress} {number : Nat}
    {connection new : IrohConnection} (held : Releasing connections address)
    (here : connections[number]? = some connection)
    (kept : ∀ released, connection.phase = .releasing released → address ∈ released →
      new.phase = .releasing released) : Releasing (connections.set number new) address := by
  obtain ⟨c, found, released, there, phase, member⟩ := held
  by_cases same : c = number
  · subst same
    cases here.symm.trans there
    exact ⟨c, new, released, TaskList.getElem?_set_self here, kept released phase member, member⟩
  · exact ⟨c, found, released, by rw [TaskList.getElem?_set here, if_neg same, there], phase, member⟩

namespace Woken

variable {learned learned' : PeerMap Learned} {connections connections' : List IrohConnection} {task new : LinkTask}

theorem mono (held : Woken learned connections task)
    (used : Used learned task.address → Used learned' task.address ∨ Releasing connections' task.address)
    (releasing : Releasing connections task.address → Releasing connections' task.address) :
    Woken learned' connections' task := by
  refine ⟨held.fresh, fun phase forgotten => ?_⟩
  rcases held.woken phase forgotten with recorded | permit | armed | pending
  · exact (used recorded).imp_right fun pending => .inr (.inr pending)
  · exact .inr (.inl permit)
  · exact .inr (.inr (.inl armed))
  · exact .inr (.inr (.inr (releasing pending)))

/-- A link that does not wait. -/
theorem of_apart (held : Woken learned connections task) (apart : new.phase ≠ .running)
    (fresh : new.phase.fresh = true → task.phase.fresh = true) (same : new.forgotten = task.forgotten) :
    Woken learned connections new := by
  refine ⟨fun is => ?_, fun phase => absurd phase apart⟩
  rw [same]
  exact held.fresh (fresh is)

/-- A step that says nothing of its release. -/
theorem same (held : Woken learned connections task) (address : new.address = task.address)
    (phase : new.phase = task.phase) (permit : new.releasePermit = task.releasePermit)
    (armed : new.releaseArmed = task.releaseArmed) (forgotten : new.forgotten = task.forgotten) :
    Woken learned connections new := by
  constructor
  · rw [phase, forgotten]
    exact held.fresh
  · rw [phase, forgotten, address, permit, armed]
    exact held.woken

theorem step {s s' : Transport} {label : TransportStep}
    (held : TaskList.Each (fun _ => Woken s.learned s.connections) s.tasks) (registered : Registered s.links s.tasks)
    (stepped : Transport.Stepped s label s') :
    TaskList.Each (fun _ => Woken s'.learned s'.connections) s'.tasks := by
  -- a connection goes on that released nothing
  have goes : ∀ {number : Nat} {connection new : IrohConnection}, s.connections[number]? = some connection →
      (∀ released, connection.phase ≠ .releasing released) →
        TaskList.Each (fun _ => Woken s.learned (s.connections.set number new)) s.tasks := by
    intro number connection new here apart
    exact held.imp fun _ _ was => was.mono .inl fun releasing => releasing.set here fun released phase =>
      absurd phase (apart released)
  cases stepped with
  | stale after listed here phase => exact absurd phase (registered.not_over listed here)
  | closeLink address =>
    refine held.map fun _ task was => ?_
    split
    · exact was.same rfl rfl rfl rfl rfl
    · exact was
  | attach address role => exact held.start ⟨fun _ => rfl, by simp⟩
  | dialStarted free => exact held.start ⟨fun _ => rfl, by simp⟩
  | inserted here phase =>
    exact held.set ((held _ _ here).of_apart (by simp) (fun _ => by rw [phase]; rfl) rfl)
  | cameUp here phase => exact held.set ((held _ _ here).of_apart (by simp) (fun _ => by rw [phase]; rfl) rfl)
  | moved phase here dials runs ended fresh settled => exact held.set ((held _ _ here).of_apart settled.1 fresh rfl)
  | dialFailed permit here phase =>
    exact held.set ((held _ _ here).of_apart (by simp) (by simp [LinkPhase.fresh]) rfl)
  | @finished link task answered here phase owner =>
    have ended : TaskList.Each (fun _ => Woken s.learned s.connections)
        (s.tasks.set link { task with phase := .over }) :=
      held.set ((held _ _ here).of_apart (by simp) (by simp [LinkPhase.fresh]) rfl)
    refine ended.imp fun _ _ was => was.mono (fun used => ?_) id
    dsimp only
    split
    · rename_i empty
      exact .inl (used.erase empty)
    · exact .inl used
  | noticed here | fired here | removed here | outlived here =>
    exact held.set ((held _ _ here).of_apart (by simp) (by simp [LinkPhase.fresh]) rfl)
  | ended after here phase address ending =>
    refine held.set ⟨?_, ?_⟩
    · rw [ending]
      simp [LinkPhase.fresh]
    · rw [ending]
      simp
  | registered here phase =>
    have unforgotten := (held _ _ here).fresh (by rw [phase]; rfl)
    refine held.set ⟨fun _ => unforgotten, fun _ forgotten => ?_⟩
    change _ = true at forgotten
    rw [unforgotten] at forgotten
    simp at forgotten
  | @checked link task here phase =>
    refine held.set ⟨by simp [LinkPhase.fresh], fun _ _ => ?_⟩
    by_cases used : s.inUse task.address = true
    · exact .inl (Transport.inUse_iff.mp used)
    · refine .inr (.inr (.inl ?_))
      dsimp only
      rw [if_neg used]
  | disarmed here phase used =>
    exact held.set ⟨by simp [LinkPhase.fresh], fun _ _ => .inl (Transport.inUse_iff.mp used)⟩
  | queued _ here | forwarded here | shed here | parked here | unparked here | sentOut here | reached here
  | sendReturned _ here | aborted here => exact held.set ((held _ _ here).same rfl rfl rfl rfl rfl)
  | barrierQueued here phase none_ next there =>
    refine TaskList.Each.set (goes here (by simp [phase])) ?_
    exact Woken.same (goes here (by simp [phase]) _ _ there) rfl rfl rfl rfl rfl
  | handshaken endpoint =>
    refine held.imp fun _ _ was => was.mono .inl ?_
    rintro ⟨c, connection, released, there, rest⟩
    exact ⟨c, connection, released, TaskList.getElem?_append_of there _, rest⟩
  | @learnt number connection address here phase =>
    refine TaskList.Each.imp (goes here (by simp [phase])) fun _ _ was => was.mono (fun used => ?_) id
    exact .inl (used.learn connection.endpoint number address)
  | @marked number connection here phase =>
    refine TaskList.Each.imp (goes here (by simp [phase])) fun _ _ was => was.mono (fun used => ?_) id
    exact .inl (used.closing number)
  | went phase sent closed closing here early =>
    refine goes here fun released phase => ?_
    rw [phase] at early
    simp [ConnectionPhase.early] at early
  | found here phase | lookedUp here phase | linkGone here phase | answered here phase | barred here phase
  | closeSent here phase => exact goes here (by simp [phase])
  | counted here | drained here =>
    exact held.imp fun _ _ was => was.mono .inl fun releasing => releasing.set here fun _ phase _ => phase
  | @forgot number connection here phase =>
    have gone : TaskList.Each (fun _ => Woken s.learned
        (s.connections.set number { connection with phase := .releasing (s.releasedBy number) })) s.tasks :=
      goes here (by simp [phase])
    refine gone.map fun _ task was => ?_
    have kept : Used s.learned task.address → Used (s.forgetConnection number).learned task.address ∨
        Releasing (s.connections.set number { connection with phase := .releasing (s.releasedBy number) })
          task.address := by
      refine fun used => (used.forget number).imp_right fun member => ?_
      exact ⟨number, _, _, TaskList.getElem?_set_self here, rfl, member⟩
    split
    · rename_i recorded
      obtain ⟨entry, there, member⟩ := (Option.any_eq_true _ _).mp recorded.2
      refine ⟨fun fresh => ?_, fun _ _ => ?_⟩
      · have releaser := recorded.1
        cases at_ : task.phase <;> simp_all [LinkPhase.fresh, LinkPhase.hasReleaser]
      · have used : Used s.learned task.address := ⟨entry, there, Finset.ne_empty_of_mem (of_decide_eq_true member)⟩
        exact (kept used).imp_right fun pending => .inr (.inr pending)
    · exact was.mono kept id
  | @released number connection released here phase =>
    refine held.map fun _ task was => ?_
    split
    · exact ⟨was.fresh, fun _ _ => .inr (.inl rfl)⟩
    · rename_i apart
      refine ⟨was.fresh, fun waits forgotten => ?_⟩
      rcases was.woken waits forgotten with recorded | permit | armed | pending
      · exact .inl recorded
      · exact .inr (.inl permit)
      · exact .inr (.inr (.inl armed))
      · refine .inr (.inr (.inr (pending.set here fun other same member => ?_)))
        cases ConnectionPhase.releasing.inj (phase.symm.trans same)
        exact absurd ⟨by rw [waits]; rfl, member⟩ apart
  | @forgotten number connection here phase =>
    refine TaskList.Each.imp (goes here (by simp [phase])) fun _ _ was => was.mono (fun used => ?_) id
    exact .inl (used.drain number)
  | _ => exact held

end Woken

namespace Transport

section Reach

variable {s : Transport}

theorem reach_woken (reach : machine.Reach s) : TaskList.Each (fun _ => Woken s.learned s.connections) s.tasks := by
  refine Machine.Reach.invariant (P := fun s => TaskList.Each (fun _ => Woken s.learned s.connections) s.tasks) ?_ ?_
    reach
  · rintro s ⟨dialer, rfl⟩ n task there
    simp at there
  · intro s label s' previous held step
    exact Woken.step held (Registered.of_reach previous) (step_cases step)

/-- `forget_connection` goes on to the releasers. -/
theorem hook_releases {n c : Nat} {task : LinkTask} {connection : IrohConnection} {released : List PeerAddress}
    (there : s.tasks[n]? = some task) (waits : task.phase = .running) (here : s.connections[c]? = some connection)
    (phase : connection.phase = .releasing released) (member : task.address ∈ released) :
    ∃ s', s.step (.hook c) = some s' ∧ s'.tasks[n]? = some { task with releasePermit := true } := by
  refine ⟨(s.releaseLinks released).setConnection c { connection with phase := .draining }, ?_, ?_⟩
  · unfold step
    dsimp only
    rw [here, Option.bind_eq_bind, Option.bind_some]
    unfold hook
    rw [phase]
  · change (s.releaseLinks released).tasks[n]? = _
    unfold releaseLinks
    dsimp only
    rw [List.getElem?_map, there, Option.map_some, if_pos ⟨by rw [waits]; rfl, member⟩]

theorem reach_releaseKept (reach : machine.Reach s) : ReleaseKept s := by
  refine ⟨releasesUnused reach, ?_, ?_⟩
  · intro n task there waits forgotten unused
    exact (((reach_woken reach) n task there).woken waits forgotten).resolve_left unused
  · intro n c task connection released there waits here phase member
    exact hook_releases there waits here phase member

end Reach

/-- Two connections use a link, and the peer closes both. -/
def bothClose (address : PeerAddress) : List TransportStep :=
  [.handshake 7, .handshake 7, .learn 0 address, .learn 1 address,
    .close 0, .hook 0, .reason 0 true, .hook 0, .hook 0, .close 1, .hook 1, .reason 1 true, .hook 1]

theorem reach_releaseKept_given : ∃ s, ReleaseKept s ∧ s.tasks[0]?.map (fun task => task.releasePermit) = some true := by
  obtain ⟨s, reach, ended⟩ := Machine.Reach.exists_of_follow machine
    (fun s => decide (s.tasks[0]?.map (fun task => task.releasePermit) = some true))
    ⟨true, rfl⟩ (linkUp ⟨"AA"⟩ .peripheral 0 ++ bothClose ⟨"AA"⟩ ++ [.hook 1]) (by decide +kernel)
  exact ⟨s, reach_releaseKept reach, of_decide_eq_true ended⟩

/-- Between the two locks of the second `forget_connection`. -/
theorem not_releaseAtOnce : ¬ ∀ s : Transport, machine.Reach s → ReleaseAtOnce s := by
  intro claim
  obtain ⟨s, reach, ended⟩ := Machine.Reach.exists_of_follow machine
    (fun s => decide (s.learned[(⟨"AA"⟩ : PeerAddress)]?.map (fun entry => entry.connections) = some ∅) &&
      s.tasks[0]?.any fun task : LinkTask => decide (task.address = ⟨"AA"⟩ ∧ task.phase = .running ∧
        task.forgotten = true ∧ task.releasePermit = false ∧ task.releaseArmed = false))
    ⟨true, rfl⟩ (linkUp ⟨"AA"⟩ .peripheral 0 ++ bothClose ⟨"AA"⟩) (by decide +kernel)
  rw [Bool.and_eq_true, Option.any_eq_true] at ended
  obtain ⟨empty, task, there, waits⟩ := ended
  obtain ⟨address, phase, forgotten, permit, armed⟩ := of_decide_eq_true waits
  have unused : ¬ Used s.learned task.address := by
    rintro ⟨entry, known, used⟩
    have none_ := of_decide_eq_true empty
    rw [← address, known, Option.map_some, Option.some.injEq] at none_
    exact used none_
  rcases (claim s reach).kept 0 task there phase forgotten unused with given | timed
  · rw [permit] at given
    simp at given
  · rw [armed] at timed
    simp at timed

end Transport

end BleGatt.Iroh
