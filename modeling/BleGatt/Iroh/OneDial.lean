import BleGatt.Iroh.LinkTable

namespace BleGatt.Iroh
open Std

/-! No needless dial: what the table of links says of the dials that are
pending and the links that run. -/

/-- A dial to the address is pending, or a link to it runs. -/
def LinkPhase.active (phase : LinkPhase) : Bool := phase.dials || phase.runs

namespace Transport

structure OneDial (s : Transport) : Prop where
  /-- A `send` that starts a link. -/
  starts : ∀ (address : PeerAddress) (packet : Bytes) (room : Bool) (s' : Transport),
    s.step (.send address packet room) = some s' → s.tasks.length < s'.tasks.length →
      ∀ task ∈ s.tasks, task.address = address → task.phase.dials = false ∧ task.phase.runs = false
  alone : ∀ (n m : Nat) (task other : LinkTask), s.tasks[n]? = some task → s.tasks[m]? = some other →
    task.address = other.address → task.phase.dials = true → other.phase.dials = true → n = m
  /-- A channel that comes up by dialling is the one `send` queues for. -/
  used : ∀ (n : Nat) (task : LinkTask) (s' : Transport), s.tasks[n]? = some task →
    s.step (.dialed n true) = some s' → s'.links[task.address]? = some n

/-- `attach` replaces no pending dial, and the link that leaves the table is
the last at its address. -/
def keepsRepresented (s : Transport) : TransportStep → Bool
  | .proceed link => s.tasks[link]?.all fun task =>
    match task.phase with
    | .attaching => s.tasks.all fun other => !(decide (other.address = task.address) && other.phase.dials)
    | .finishing | .removing =>
      decide (s.links[task.address]? ≠ some link) ||
        s.tasks.all fun other => !(decide (other.address = task.address) && other.phase.active)
    | _ => true
  | _ => true

end Transport

/-- What the table has of a link. -/
structure Represented (links : PeerMap Nat) (link : Nat) (task : LinkTask) : Prop where
  active : task.phase.active = true → links[task.address]?.isSome = true
  dialing : task.phase.dials = true → links[task.address]? = some link

namespace Represented

variable {links : PeerMap Nat} {link owner : Nat} {task new : LinkTask} {address : PeerAddress}

theorem of_idle (idle : new.phase.active = false) : Represented links link new := by
  have undialed : new.phase.dials = false := (Bool.or_eq_false_iff.mp idle).1
  constructor
  · intro active
    rw [idle] at active
    simp at active
  · intro dialing
    rw [undialed] at dialing
    simp at dialing

/-- A link goes on, and is no dial now that was none before. -/
theorem goOn (held : Represented links link task) (same : new.address = task.address)
    (active : new.phase.active = true → task.phase.active = true)
    (dialing : new.phase.dials = true → task.phase.dials = true) : Represented links link new := by
  constructor
  · intro on
    rw [same]
    exact held.active (active on)
  · intro on
    rw [same]
    exact held.dialing (dialing on)

theorem insert (held : Represented links link task) (undialed : task.address = address → task.phase.dials = false) :
    Represented (links.insert address owner) link task := by
  constructor
  · intro active
    rw [FiniteMap.getElem?_insert]
    split
    · rfl
    · exact held.active active
  · intro dialing
    rw [FiniteMap.getElem?_insert]
    split
    · rename_i same
      rw [undialed same] at dialing
      simp at dialing
    · exact held.dialing dialing

theorem erase (held : Represented links link task) (idle : task.address = address → task.phase.active = false) :
    Represented (links.erase address) link task := by
  by_cases same : task.address = address
  · exact of_idle (idle same)
  · constructor
    · intro active
      rw [FiniteMap.getElem?_erase, if_neg same]
      exact held.active active
    · intro dialing
      rw [FiniteMap.getElem?_erase, if_neg same]
      exact held.dialing dialing

theorem step {s s' : Transport} {label : TransportStep} (held : TaskList.Each (Represented s.links) s.tasks)
    (registered : Registered s.links s.tasks) (keeps : s.keepsRepresented label = true)
    (stepped : Transport.Stepped s label s') : TaskList.Each (Represented s'.links) s'.tasks := by
  cases stepped with
  | closeLink address =>
    refine held.map fun n task was => ?_
    split
    · exact ⟨was.active, was.dialing⟩
    · exact was
  | attach address role => exact held.start (of_idle rfl)
  | @inserted link task here phase =>
    unfold Transport.keepsRepresented at keeps
    dsimp only at keeps
    rw [here, Option.all_some, phase, List.all_eq_true] at keeps
    have others : TaskList.Each (Represented (s.links.insert task.address link)) s.tasks := by
      intro n other there
      refine (held n other there).insert fun same => ?_
      have undialed := keeps other (List.mem_of_getElem? there)
      rw [decide_eq_true same, Bool.true_and, Bool.not_eq_true'] at undialed
      exact undialed
    refine others.set ⟨fun _ => ?_, by simp [LinkPhase.dials]⟩
    rw [FiniteMap.getElem?_insert, if_pos rfl]
    rfl
  | @dialStarted address packet room free =>
    have others : TaskList.Each (Represented (s.links.insert address s.tasks.length)) s.tasks := by
      intro n other there
      refine (held n other there).insert fun same => ?_
      -- an active link at the address would have been in the table
      cases active : other.phase.active with
      | true =>
        have listed := (held n other there).active active
        rw [same, free] at listed
        simp at listed
      | false => exact (Bool.or_eq_false_iff.mp active).1
    refine others.start ⟨fun _ => ?_, fun _ => ?_⟩
    · rw [FiniteMap.getElem?_insert, if_pos rfl]
      rfl
    · rw [FiniteMap.getElem?_insert, if_pos rfl]
  | stale after listed here phase => exact absurd phase (registered.not_over listed here)
  | finished answered here phase owner | removed here phase owner =>
    unfold Transport.keepsRepresented at keeps
    dsimp only at keeps
    rw [here, Option.all_some, phase] at keeps
    dsimp only at keeps
    rw [owner, decide_eq_false (by simp), Bool.false_or, List.all_eq_true] at keeps
    refine TaskList.Each.set (fun n other there => ?_) (of_idle rfl)
    refine (held n other there).erase fun same => ?_
    have idle := keeps other (List.mem_of_getElem? there)
    rw [decide_eq_true same, Bool.true_and, Bool.not_eq_true'] at idle
    exact idle
  | outlived here => exact held.set (of_idle rfl)
  | moved phase here dials runs =>
    exact held.set ((held _ _ here).goOn rfl (by simp [LinkPhase.active, dials, runs]) (by simp [dials]))
  | cameUp here phase | registered here phase | checked here phase | noticed here phase | fired here phase
  | disarmed here phase =>
    exact held.set ((held _ _ here).goOn rfl (fun _ => by rw [phase]; rfl) (by simp [LinkPhase.dials]))
  | dialFailed => exact held.set (of_idle rfl)
  | ended after here phase address ending => exact held.set (of_idle (by rw [ending]; rfl))
  | queued _ here | forwarded here | shed here | parked here | unparked here | sentOut here | reached here
  | sendReturned _ here | aborted here | barrierQueued _ _ _ _ here => exact held.set ((held _ _ here).goOn rfl id id)
  | forgot | released =>
    refine held.map fun n task was => ?_
    split
    · exact ⟨was.active, was.dialing⟩
    · exact was
  | _ => exact held

end Represented

namespace Transport

section Run

variable {h : Unit} {s s' : Transport}

theorem run_represented
    (run : machine.Run (fun _ s label => s.keepsRepresented label = true) (fun _ _ _ _ => ()) () h s) :
    TaskList.Each (Represented s.links) s.tasks := by
  refine Machine.Run.invariant (P := fun _ s => TaskList.Each (Represented s.links) s.tasks) ?_ ?_ run
  · rintro s ⟨dialer, rfl⟩ n task there
    simp at there
  · intro _ s label s' previous held keeps step
    exact Represented.step held (Registered.of_reach previous.reach) keeps (step_cases step)

/-- Only a `send` that finds no link at its address starts one. -/
theorem send_starts {address : PeerAddress} {packet : Bytes} {room : Bool} (registered : Registered s.links s.tasks)
    (step : s.step (.send address packet room) = some s') (more : s.tasks.length < s'.tasks.length) :
    s.links[address]? = none := by
  cases step_cases step with
  | dialStarted free => exact free
  | stale after listed here phase => exact absurd phase (registered.not_over listed here)
  | queued | refused | dialFailed | ended =>
    simp [queuePacket, dropPacket, setTask] at more
  | _ => exact absurd more (Nat.lt_irrefl _)

theorem run_oneDial
    (run : machine.Run (fun _ s label => s.keepsRepresented label = true) (fun _ _ _ _ => ()) () h s) :
    OneDial s := by
  have held := run_represented run
  refine ⟨?_, ?_, ?_⟩
  · intro address packet room s' step more task member same
    have free := send_starts (Registered.of_reach run.reach) step more
    obtain ⟨n, here⟩ := List.mem_iff_getElem?.mp member
    cases active : task.phase.active with
    | true =>
      have listed := (held n task here).active active
      rw [same, free] at listed
      simp at listed
    | false => exact Bool.or_eq_false_iff.mp active
  · intro n m task other here there same dialing dialing'
    have owner := (held n task here).dialing dialing
    have owner' := (held m other there).dialing dialing'
    rw [same, owner'] at owner
    exact (Option.some.inj owner).symm
  · intro n task s' here step
    obtain ⟨found, was, moved⟩ := Option.bind_eq_some_iff.mp step
    obtain ⟨was, phase⟩ := Option.filter_eq_some_iff.mp was
    cases here.symm.trans was
    cases Option.some.inj moved
    exact (held n task here).dialing (by rw [of_decide_eq_true phase]; rfl)

end Run

/-- A link is idle, and closes. -/
def idles (link : Nat) : List TransportStep := .endLink link .idle :: List.replicate 4 (.proceed link)

theorem run_oneDial_redialed : ∃ s, OneDial s ∧
    s.tasks[1]?.map (fun task => task.phase) = some LinkPhase.starting ∧ s.links[(⟨"AA"⟩ : PeerAddress)]? = some 1 := by
  obtain ⟨_, s, run, ended⟩ := Machine.Run.exists_of_follow machine
    (fun _ s label => s.keepsRepresented label = true) (fun _ _ _ _ => ()) ()
    (fun _ s => decide (s.tasks[1]?.map (fun task => task.phase) = some LinkPhase.starting ∧
      s.links[(⟨"AA"⟩ : PeerAddress)]? = some 1))
    ⟨true, rfl⟩
    (linkUp ⟨"AA"⟩ .central 0 ++ idles 0 ++
      [.send ⟨"AA"⟩ [0xC0] true, .proceed 1, .send ⟨"AA"⟩ [0x40] true, .dialed 1 true])
    (by decide +kernel)
  exact ⟨s, run_oneDial run, of_decide_eq_true ended⟩

/-- The peer's link runs, a newer one came and closed idle. -/
theorem not_oneDial : ¬ ∀ s : Transport, machine.Reach s → OneDial s := by
  intro claim
  obtain ⟨s, reach, ended⟩ := Machine.Reach.exists_of_follow machine
    (fun s => (s.step (.send ⟨"AA"⟩ [0xC0] true)).any (fun s' => decide (s.tasks.length < s'.tasks.length)) &&
      s.tasks[0]?.any fun task : LinkTask => decide (task.address = ⟨"AA"⟩ ∧ task.phase = .running))
    ⟨true, rfl⟩ (linkUp ⟨"AA"⟩ .peripheral 0 ++ linkUp ⟨"AA"⟩ .central 1 ++ idles 1) (by decide +kernel)
  rw [Bool.and_eq_true, Option.any_eq_true, Option.any_eq_true] at ended
  obtain ⟨⟨s', step, more⟩, task, here, running⟩ := ended
  obtain ⟨same, phase⟩ := of_decide_eq_true running
  have idle := (claim s reach).starts _ _ _ s' step (of_decide_eq_true more) task (List.mem_of_getElem? here) same
  rw [phase] at idle
  simp [LinkPhase.runs] at idle

end Transport

end BleGatt.Iroh
