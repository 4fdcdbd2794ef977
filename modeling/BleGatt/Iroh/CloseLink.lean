import BleGatt.Iroh.LinkTable

namespace BleGatt.Iroh
open Std

/-! What `close_link` reaches. -/

/-- A close cancelled its dial, or ended its loop. -/
def LinkTask.closed (task : LinkTask) : Bool := task.cancelled || task.closedByApplication

/-- A close ended it, or waits for its `select!`. -/
def LinkTask.closeHeld (task : LinkTask) : Bool := if task.phase.ended then task.closed else task.closePermit

/-- A step of the link itself, or one that a close makes ready for it. -/
def TransportStep.closes (link : Nat) (label : TransportStep) : Prop :=
  label = .proceed link ∨ label = .cancel link ∨ label = .endLink link .closedByApplication

namespace Transport

/-- In so many steps of its own the link ends, its dial cancelled or closed by
the application. -/
def EndsClosed (link bound : Nat) (s : Transport) : Prop :=
  ∃ (steps : List TransportStep) (s' : Transport) (task : LinkTask), steps.length ≤ bound ∧
    (∀ label ∈ steps, label.closes link) ∧ steps.foldlM step s = some s' ∧
    s'.tasks[link]? = some task ∧ task.phase.ended = true ∧ task.closed = true

/-- The link that `linked_peers` lists the address for. -/
def linkAt (address : PeerAddress) (s : Transport) : Option (Nat × LinkTask) := do
  let link ← s.links[address]?
  let task ← s.tasks[link]?
  some (link, task)

/-- The links that were listed, and not ending yet, when `close_link` was called
for their address. -/
def noteAsked (asked : List Nat) (s : Transport) (label : TransportStep) (_ : Transport) : List Nat :=
  match label with
  | .closeLink address => ((s.linkAt address).filter fun entry => !entry.2.phase.ended).toList.map (·.1) ++ asked
  | _ => asked

/-- It is past its release timer, and no connection uses its address. -/
def ReleaseDue (task : LinkTask) (s : Transport) : Prop := task.phase = .fired ∧ s.inUse task.address = false

/-- What becomes of every link that `close_link` was called for. -/
structure CloseReached (asked : List Nat) (s : Transport) : Prop where
  known : ∀ link ∈ asked, ∃ task, s.tasks[link]? = some task
  /-- If it ended, a close ended it. -/
  closed : ∀ link ∈ asked, ∀ task, s.tasks[link]? = some task → task.phase.ended = true → task.closed = true
  /-- Until it ends the close waits for it. -/
  held : ∀ link ∈ asked, ∀ task, s.tasks[link]? = some task → task.phase.ended = false → task.closePermit = true
  /-- And the end is at most four steps away. -/
  ends : ∀ link ∈ asked, ∀ task, s.tasks[link]? = some task → task.phase.ended = false → ¬ s.ReleaseDue task →
    EndsClosed link 4 s

/-- `close_link` is called while the link in the table has its closer or is
ending, and a `select!` that a close waits for ends the link in no other way. -/
def CloseFirst (_ : List Nat) (s : Transport) (label : TransportStep) : Prop :=
  match label with
  | .closeLink address => (s.linkAt address).all (fun entry => entry.2.phase.hasCloser || entry.2.phase.ended) = true
  | _ => ((s.endsOtherwise label).bind fun link => s.tasks[link]?).all (fun task => !task.closePermit) = true

instance (asked : List Nat) (s : Transport) (label : TransportStep) : Decidable (CloseFirst asked s label) := by
  unfold CloseFirst
  split <;> infer_instance

section Ends

variable {s s' : Transport} {link bound : Nat} {task : LinkTask}

theorem step_proceed (here : s.tasks[link]? = some task) : s.step (.proceed link) = s.proceed link task := by
  unfold Transport.step
  dsimp only
  rw [here]
  rfl

theorem EndsClosed.step {label : TransportStep} (own : label.closes link) (stepped : s.step label = some s')
    (rest : EndsClosed link bound s') : EndsClosed link (bound + 1) s := by
  obtain ⟨steps, last, ended, short, owns, run, there, closed⟩ := rest
  refine ⟨label :: steps, last, ended, Nat.succ_le_succ short, ?_, ?_, there, closed⟩
  · intro other member
    rcases List.mem_cons.mp member with rfl | member
    · exact own
    · exact owns other member
  · rw [List.foldlM_cons, stepped]
    exact run

theorem EndsClosed.proceed (here : s.tasks[link]? = some task) (moved : s.proceed link task = some s')
    (rest : EndsClosed link bound s') : EndsClosed link (bound + 1) s :=
  rest.step (.inl rfl) (by rw [step_proceed here, moved])

theorem EndsClosed.mono {more : Nat} (ends : EndsClosed link bound s) (le : bound ≤ more) : EndsClosed link more s := by
  obtain ⟨steps, last, ended, short, rest⟩ := ends
  exact ⟨steps, last, ended, short.trans le, rest⟩

theorem EndsClosed.of_ended (here : s.tasks[link]? = some task)
    (ended : task.phase.ended = true) (closed : task.closed = true) : EndsClosed link 0 s :=
  ⟨[], s, task, Nat.le_refl 0, by simp, rfl, here, ended, closed⟩

theorem setTask_self (new : LinkTask) (here : s.tasks[link]? = some task) :
    (s.setTask link new).tasks[link]? = some new := TaskList.getElem?_set_self here

theorem EndsClosed.of_dialing (here : s.tasks[link]? = some task) (permit : task.closePermit = true)
    (phase : task.phase = .dialing) : EndsClosed link 1 s := by
  have ended : EndsClosed link 0
      (s.setTask link { task with phase := .failing, cancelled := true, closePermit := false }) :=
    .of_ended (setTask_self _ here) rfl rfl
  refine ended.step (.inr (.inl rfl)) ?_
  unfold Transport.step
  dsimp only
  rw [here, Option.filter_some, if_pos (by rw [phase, permit]; rfl)]
  rfl

theorem EndsClosed.of_running (here : s.tasks[link]? = some task) (permit : task.closePermit = true)
    (phase : task.phase = .running) : EndsClosed link 1 s := by
  have ended : EndsClosed link 0
      (s.setTask link
        { task with phase := .ending, closedHere := true, closedByApplication := true, closePermit := false }) :=
    .of_ended (setTask_self _ here) rfl (by simp [LinkTask.closed])
  refine ended.step (.inr (.inr rfl)) ?_
  unfold Transport.step
  dsimp only
  rw [here, Option.filter_some, if_pos (decide_eq_true phase), Option.bind_eq_bind, Option.bind_some]
  unfold endLink
  dsimp only
  rw [if_pos permit]

/-- What a link with a close waiting for it comes to. -/
theorem EndsClosed.of_permit (here : s.tasks[link]? = some task) (permit : task.closePermit = true)
    (lives : task.phase.ended = false) (kept : ¬ s.ReleaseDue task) : EndsClosed link 4 s := by
  have starting : ∀ {s : Transport} {task : LinkTask}, s.tasks[link]? = some task → task.closePermit = true →
      task.phase = .starting → EndsClosed link 2 s := by
    intro s task here permit phase
    refine .proceed here ?_ (of_running (setTask_self { task with phase := .running } here) permit rfl)
    rw [Transport.proceed, phase]
  have attached : ∀ {s : Transport} {task : LinkTask}, s.tasks[link]? = some task → task.closePermit = true →
      task.phase = .attached → EndsClosed link 3 s := by
    intro s task here permit phase
    refine .proceed here ?_ (starting (setTask_self { task with phase := .starting } here) permit rfl)
    rw [Transport.proceed, phase]
  cases phase : task.phase with
  | attaching =>
    have there : ({ s.setTask link { task with phase := .attached } with
        links := s.links.insert task.address link } : Transport).tasks[link]? =
          some { task with phase := .attached } := setTask_self _ here
    exact .proceed here (by rw [Transport.proceed, phase]) (attached there permit rfl)
  | attached => exact (attached here permit phase).mono (by decide)
  | dialQueued =>
    have ends := of_dialing (setTask_self { task with phase := .dialing } here) permit rfl
    exact (ends.proceed here (by rw [Transport.proceed, phase])).mono (by decide)
  | dialing => exact (of_dialing here permit phase).mono (by decide)
  | starting => exact (starting here permit phase).mono (by decide)
  | running => exact (of_running here permit phase).mono (by decide)
  | noticed =>
    have there := setTask_self { task with
      phase := .running, releaseArmed := if s.inUse task.address then task.releaseArmed else true } here
    exact ((of_running there permit rfl).proceed here (by rw [Transport.proceed, phase])).mono (by decide)
  | fired =>
    have used : s.inUse task.address = true := by
      by_contra unused
      exact kept ⟨phase, Bool.not_eq_true _ ▸ unused⟩
    have there := setTask_self { task with phase := .running, releaseArmed := false } here
    have moved : s.proceed link task = some (s.setTask link { task with phase := .running, releaseArmed := false }) := by
      rw [Transport.proceed, phase]
      exact if_pos used
    exact ((of_running there permit rfl).proceed here moved).mono (by decide)
  | _ =>
    rw [phase] at lives
    simp [LinkPhase.ended] at lives

end Ends

end Transport

/-- The close of each of these links is done, or waits for it. -/
def AskedHeld (asked : List Nat) (tasks : List LinkTask) : Prop :=
  ∀ link ∈ asked, ∃ task, tasks[link]? = some task ∧ task.closeHeld = true

theorem LinkTask.closeHeld_ended {task : LinkTask} (ended : task.phase.ended = true) :
    task.closeHeld = task.closed := if_pos ended

theorem LinkTask.closeHeld_live {task : LinkTask} (live : task.phase.ended = false) :
    task.closeHeld = task.closePermit := if_neg (by rw [live]; decide)

namespace AskedHeld

variable {asked : List Nat} {tasks : List LinkTask} {link : Nat} {task new : LinkTask}

theorem setTask (held : AskedHeld asked tasks) (here : tasks[link]? = some task)
    (kept : task.closeHeld = true → new.closeHeld = true) : AskedHeld asked (tasks.set link new) := by
  intro other member
  obtain ⟨found, there, closed⟩ := held other member
  by_cases same : other = link
  · subst same
    cases here.symm.trans there
    exact ⟨new, TaskList.getElem?_set_self here, kept closed⟩
  · exact ⟨found, by rw [TaskList.getElem?_set here, if_neg same, there], closed⟩

theorem start (held : AskedHeld asked tasks) : AskedHeld asked (tasks ++ [new]) := by
  intro other member
  obtain ⟨found, there, closed⟩ := held other member
  exact ⟨found, TaskList.getElem?_append_of there _, closed⟩

theorem map (held : AskedHeld asked tasks) {f : LinkTask → LinkTask}
    (kept : ∀ task, task.closeHeld = true → (f task).closeHeld = true) : AskedHeld asked (tasks.map f) := by
  intro other member
  obtain ⟨found, there, closed⟩ := held other member
  exact ⟨f found, by rw [List.getElem?_map, there]; rfl, kept found closed⟩

end AskedHeld

namespace Transport

section Run

variable {s s' : Transport} {asked : List Nat}

theorem noteAsked_of_not {label : TransportStep} (other : ∀ address, label ≠ .closeLink address) :
    noteAsked asked s label s' = asked := by
  unfold noteAsked
  split
  · exact absurd rfl (other _)
  · rfl

theorem linkAt_eq {address : PeerAddress} {link : Nat} {task : LinkTask} :
    s.linkAt address = some (link, task) ↔ s.links[address]? = some link ∧ s.tasks[link]? = some task := by
  simp only [linkAt, Option.bind_eq_bind, Option.bind_eq_some_iff, Option.some.injEq, Prod.mk.injEq]
  constructor
  · rintro ⟨other, listed, found, here, rfl, rfl⟩
    exact ⟨listed, here⟩
  · rintro ⟨listed, here⟩
    exact ⟨link, listed, task, here, rfl, rfl⟩

theorem askedHeld_closeLink {address : PeerAddress} (registered : Registered s.links s.tasks)
    (held : AskedHeld asked s.tasks) (ok : CloseFirst asked s (.closeLink address)) :
    AskedHeld (noteAsked asked s (.closeLink address) s') (s.closeLink address).tasks := by
  have kept : AskedHeld asked (s.closeLink address).tasks := by
    refine held.map fun task closed => ?_
    split
    · by_cases ended : task.phase.ended = true
      · rw [LinkTask.closeHeld_ended ended] at closed
        have still : ({ task with closePermit := true } : LinkTask).phase.ended = true := ended
        exact (LinkTask.closeHeld_ended still).trans closed
      · have still : ({ task with closePermit := true } : LinkTask).phase.ended = false := Bool.not_eq_true _ ▸ ended
        exact LinkTask.closeHeld_live still
    · exact closed
  intro link member
  rcases List.mem_append.mp member with new | old
  swap
  · exact kept link old
  obtain ⟨⟨found, task⟩, listed, rfl⟩ := List.mem_map.mp new
  obtain ⟨listed, live⟩ := Option.filter_eq_some_iff.mp (Option.mem_toList.mp listed)
  rw [Bool.not_eq_true'] at live
  have ready : (task.phase.hasCloser || task.phase.ended) = true := by
    unfold CloseFirst at ok
    dsimp only at ok
    rw [listed, Option.all_some] at ok
    exact ok
  obtain ⟨listed, here⟩ := linkAt_eq.mp listed
  obtain ⟨_, there, own, _⟩ := registered address found listed
  cases here.symm.trans there
  have closer : task.phase.hasCloser = true := by
    rw [live, Bool.or_false] at ready
    exact ready
  refine ⟨{ task with closePermit := true }, ?_, LinkTask.closeHeld_live live⟩
  rw [closeLink, List.getElem?_map, here, Option.map_some, if_pos ⟨own, closer⟩]

/-- A close that waits for the link is not passed by. -/
theorem not_endsOtherwise {label : TransportStep} {link : Nat} {task : LinkTask} (ok : CloseFirst asked s label)
    (here : s.tasks[link]? = some task) (otherwise : s.endsOtherwise label = some link) : task.closePermit = false := by
  unfold CloseFirst at ok
  split at ok
  · simp [endsOtherwise] at otherwise
  · rw [otherwise, Option.bind_some, here, Option.all_some, Bool.not_eq_true'] at ok
    exact ok

theorem askedHeld_step {label : TransportStep} (registered : Registered s.links s.tasks)
    (held : AskedHeld asked s.tasks) (ok : CloseFirst asked s label) (step : s.step label = some s') :
    AskedHeld (noteAsked asked s label s') s'.tasks := by
  by_cases closes : ∃ address, label = .closeLink address
  · obtain ⟨address, rfl⟩ := closes
    cases Option.some.inj step
    exact askedHeld_closeLink registered held ok
  rw [noteAsked_of_not fun address is => closes ⟨address, is⟩]
  have stays : ∀ {before after : LinkTask}, after.phase.ended = before.phase.ended →
      after.closePermit = before.closePermit → after.closed = before.closed →
        before.closeHeld = true → after.closeHeld = true := by
    intro before after ended permit same closed
    unfold LinkTask.closeHeld
    rw [ended, permit, same]
    exact closed
  -- where the link ends, a close that waited for it ends it
  have byClose : ∀ {link : Nat} {before after : LinkTask}, s.tasks[link]? = some before → before.phase.ended = false →
      after.phase.ended = true → after.closed = true ∨ s.endsOtherwise label = some link →
        before.closeHeld = true → after.closeHeld = true := by
    intro link before after here live ended how closed
    rw [LinkTask.closeHeld_ended ended]
    rcases how with by_ | otherwise
    · exact by_
    · rw [LinkTask.closeHeld_live live, not_endsOtherwise ok here otherwise] at closed
      simp at closed
  cases step_cases step with
  | closeLink address => exact absurd ⟨address, rfl⟩ closes
  | stale after listed here phase => exact absurd phase (registered.not_over listed here)
  | attach | dialStarted => exact held.start
  | moved phase here dials runs ended => exact held.setTask here (stays ended rfl rfl)
  | ended after here phase address ending sendEnded queue released untaken how =>
    refine held.setTask here (byClose here ?_ (by rw [ending]; rfl) (how.imp_left fun by_ => ?_))
    · rcases phase with phase | phase <;> rw [phase] <;> rfl
    · rw [LinkTask.closed, by_, Bool.or_true]
  | dialFailed permit here phase cancelled how =>
    refine held.setTask here (byClose here (by rw [phase]; rfl) rfl (how.imp_left fun by_ => ?_))
    rw [LinkTask.closed, by_, Bool.true_or]
  | finished _ here phase | removed here phase => exact held.setTask here (stays (by rw [phase]; rfl) rfl rfl)
  | outlived here phase =>
    refine held.setTask here (stays ?_ rfl rfl)
    rcases phase with phase | phase <;> rw [phase] <;> rfl
  | inserted here phase | registered here phase | cameUp here phase | noticed here phase | checked here phase
  | fired here phase | disarmed here phase => exact held.setTask here (stays (by rw [phase]; rfl) rfl rfl)
  | queued _ here | forwarded here | shed here | parked here | unparked here | sentOut here | reached here
  | sendReturned _ here | aborted here | barrierQueued _ _ _ _ here => exact held.setTask here (stays rfl rfl rfl)
  | forgot | released => exact held.map fun task closed => by split <;> exact closed
  | _ => exact held

theorem run_askedHeld (run : machine.Run CloseFirst noteAsked [] asked s) : AskedHeld asked s.tasks := by
  refine Machine.Run.invariant (P := fun asked s => AskedHeld asked s.tasks) ?_ ?_ run
  · intro s _ link member
    simp at member
  · intro asked s label s' before held ok step
    exact askedHeld_step (.of_reach before.reach) held ok step

end Run

end Transport

end BleGatt.Iroh
