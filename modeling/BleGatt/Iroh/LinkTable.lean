import BleGatt.Iroh.TransportSteps

namespace BleGatt.Iroh
open Std

/-! The links in the table: each is a link of its address that has not ended. -/

/-- A link in the table can be at this point. -/
def LinkPhase.listed : LinkPhase → Bool
  | .attaching | .over => false
  | _ => true

def Registered (links : PeerMap Nat) (tasks : List LinkTask) : Prop :=
  ∀ (address : PeerAddress) (link : Nat), links[address]? = some link →
    ∃ task, tasks[link]? = some task ∧ task.address = address ∧ task.phase.listed = true

namespace Registered

variable {links : PeerMap Nat} {tasks : List LinkTask} {link : Nat} {task new : LinkTask}

theorem setTask (held : Registered links tasks) (here : tasks[link]? = some task) (address : new.address = task.address)
    (kept : links[task.address]? = some link → task.phase.listed = true → new.phase.listed = true) :
    Registered links (tasks.set link new) := by
  intro at_ owner there
  obtain ⟨found, was, own, listed⟩ := held at_ owner there
  by_cases same : owner = link
  · subst same
    cases here.symm.trans was
    exact ⟨new, TaskList.getElem?_set_self here, address.trans own, kept (own ▸ there) listed⟩
  · exact ⟨found, by rw [TaskList.getElem?_set here, if_neg same, was], own, listed⟩

theorem map (held : Registered links tasks) {f : LinkTask → LinkTask}
    (same : ∀ task, (f task).address = task.address ∧ (f task).phase = task.phase) :
    Registered links (tasks.map f) := by
  intro at_ owner there
  obtain ⟨found, was, own, listed⟩ := held at_ owner there
  refine ⟨f found, by rw [List.getElem?_map, was]; rfl, (same found).1.trans own, ?_⟩
  rw [(same found).2]
  exact listed

theorem start (held : Registered links tasks) : Registered links (tasks ++ [new]) := by
  intro at_ owner there
  obtain ⟨found, was, own, listed⟩ := held at_ owner there
  exact ⟨found, TaskList.getElem?_append_of was _, own, listed⟩

theorem insert {address : PeerAddress} (held : Registered links tasks) (here : tasks[link]? = some task)
    (own : task.address = address) (listed : task.phase.listed = true) :
    Registered (links.insert address link) tasks := by
  intro at_ owner there
  rw [FiniteMap.getElem?_insert] at there
  split at there
  · rename_i same
    cases Option.some.inj there
    exact ⟨task, here, own.trans same.symm, listed⟩
  · exact held at_ owner there

theorem erase (held : Registered links tasks) (address : PeerAddress) : Registered (links.erase address) tasks := by
  intro at_ owner there
  rw [FiniteMap.getElem?_erase] at there
  split at there
  · simp at there
  · exact held at_ owner there

theorem not_over {address : PeerAddress} (held : Registered links tasks) (listed : links[address]? = some link)
    (here : tasks[link]? = some task) : task.phase ≠ .over := by
  intro phase
  obtain ⟨found, was, _, known⟩ := held _ _ listed
  cases here.symm.trans was
  rw [phase] at known
  simp [LinkPhase.listed] at known

theorem step {s s' : Transport} {label : TransportStep} (held : Registered s.links s.tasks)
    (stepped : Transport.Stepped s label s') : Registered s'.links s'.tasks := by
  cases stepped with
  | closeLink address => exact held.map fun task => by split <;> exact ⟨rfl, rfl⟩
  | attach address role => exact held.start
  | @inserted link task here phase =>
    have attached : Registered s.links (s.tasks.set link { task with phase := .attached }) :=
      held.setTask here rfl fun _ _ => rfl
    have there : (s.tasks.set link { task with phase := .attached })[link]? = some { task with phase := .attached } :=
      TaskList.getElem?_set_self here
    exact attached.insert there rfl rfl
  | @dialStarted address packet room free =>
    have there : (s.startDial address packet).tasks[s.tasks.length]? = some
        { address := address, role := .central, phase := .dialQueued, outbound := [.packet s.packets.length] } :=
      List.getElem?_concat_length
    exact held.start.insert there rfl rfl
  | stale after listed here phase => exact absurd phase (held.not_over listed here)
  | moved phase here dials runs ended fresh settled before =>
    refine held.setTask here rfl fun _ _ => ?_
    cases phase <;> first | rfl | simp at settled
  | ended after here phase address ending =>
    refine held.setTask here address fun _ _ => ?_
    rw [ending]
    rfl
  | finished answered here phase owner =>
    exact (held.erase _).setTask here rfl fun still => by simp at still
  | removed here phase owner =>
    exact (held.erase _).setTask here rfl fun still => by simp at still
  | outlived here phase other => exact held.setTask here rfl fun own => absurd own other
  | registered here | cameUp here | dialFailed _ here | noticed here | checked here | fired here | disarmed here =>
    exact held.setTask here rfl fun _ _ => rfl
  | queued _ here | forwarded here | shed here | parked here | unparked here | sentOut here | reached here
  | sendReturned _ here | aborted here | barrierQueued _ _ _ _ here => exact held.setTask here rfl fun _ same => same
  | forgot | released => exact held.map fun task => by split <;> exact ⟨rfl, rfl⟩
  | _ => exact held

theorem of_reach {s : Transport} (reach : Transport.machine.Reach s) : Registered s.links s.tasks := by
  refine Machine.Reach.invariant (P := fun s => Registered s.links s.tasks) ?_ ?_ reach
  · rintro s ⟨dialer, rfl⟩ address link there
    simp at there
  · intro s label s' _ held step
    exact held.step (Transport.step_cases step)

end Registered

/-- A link is attached, and comes to its `select!`. -/
def linkUp (address : PeerAddress) (role : Role) (link : Nat) : List TransportStep :=
  .attach address role :: List.replicate 3 (.proceed link)

end BleGatt.Iroh
