import BleGatt.Connection.LinkCap

namespace BleGatt
open Std

/-- The radio status an event reports. -/
def GattEvent.reported : GattEvent → Option RadioStatus
  | .radioChanged status => some status
  | _ => none

/-- The event reports that the radio is not usable any more. -/
def GattEvent.reportsLoss (event : GattEvent) : Bool := event.reported.any (· ≠ .on)

/-- The radio status the worker is told by a step. -/
def Label.reported : Label → Option RadioStatus
  | .select _ _ (.driverEvent event _ _) _ => event.reported
  | _ => none

/-- The worker takes an item of its event stream. -/
def Label.takesEvent : Label → Bool
  | .select _ _ (.driverEvent _ _ _) _ => true
  | _ => false

/-- Only a report moves the radio machine. -/
theorem Links.Change.radio {cfg : PeerLinkConfig} {l l' : Links} {label : Label} (change : Change cfg l label l')
    (silent : label.reported = none) : l'.radio = l.radio := by
  cases change with
  | radioKept | radioLost => simp [Label.reported, GattEvent.reported] at silent
  | pump dialling => exact dialling.frame.radio
  | _ => rfl

namespace Worker

variable {cfg : PeerLinkConfig} {w w' : Worker}

/-- What a report is once the worker assessed it: `On` only for a driver that
can do the role. -/
def assessed (cfg : PeerLinkConfig) (status probe : RadioStatus) (caps : CapabilityReport) : RadioStatus :=
  match status with
  | .on => cfg.assessRadio probe caps
  | other => other

theorem usable_apply (radio : RadioState) (status : RadioStatus) (now : Instant) :
    (radio.apply (radioEvent status) now).1.usable = (status == .on) := by
  cases radio <;> cases status <;> rfl

/-- The radio machine follows what it is told, from any state. -/
theorem usable_of_report {top base now : Instant} {status probe : RadioStatus} {caps : CapabilityReport}
    (step : step cfg w (.select top base (.driverEvent (.radioChanged status) probe caps) now) = some w') :
    w'.radio.usable = (assessed cfg status probe caps == .on) := by
  have radio : ∀ (v : Worker) (status : RadioStatus),
      (v.onRadioChanged status now).radio = (v.radio.apply (radioEvent status) now).1 := by
    intro v status
    unfold onRadioChanged send
    dsimp only
    split <;> split <;> rfl
  have handled : ∀ v : Worker, (v.onDriverEvent cfg (.radioChanged status) probe caps now).radio =
      (v.radio.apply (radioEvent (assessed cfg status probe caps)) now).1 := by
    intro v
    unfold onDriverEvent
    cases status <;> (dsimp only; split <;> exact radio _ _)
  cases step_cases step with
  | select _ _ done =>
    cases Option.some.inj done
    rw [handled]
    exact usable_apply _ _ _

end Worker

/-- Under a lost radio a peer has not given up, and has no attempt or link in
its central machine. -/
def Peer.Rests (radio : RadioState) (p : Peer) : Prop :=
  radio.usable = false → p.gaveUp = false ∧ p.central.session = none

section Rests
variable {cfg : PeerLinkConfig} {radio after : RadioState} {p : Peer} {now : Instant}

theorem Peer.Rests.radioChanged (rests : p.Rests radio) : (p.radioChanged radio after now).Rests after := by
  intro off
  unfold Peer.radioChanged
  rw [off]
  cases before : radio.usable with
  | false => exact rests before
  | true => exact ⟨rfl, by simp [Peer.radioLost, Peer.clearStaleDial, Peer.centralApply, Peer.peripheralApply,
      CentralLink.isDialing, CentralLink.session]⟩

/-- Neither a tick nor a loss starts an attempt. -/
theorem CentralLink.session_of_tick {link : CentralLink} (quiet : link.session = none) :
    (link.apply .tick now).1.session = none := by
  cases link with
  | dialing | connected | disconnecting => simp [session] at quiet
  | idle | radioOff => rfl
  | draining since =>
    unfold apply
    dsimp only
    split <;> rfl

theorem CentralLink.session_of_linkDropped {link : CentralLink} (quiet : link.session = none) :
    (link.apply .linkDropped now).1.session = none := by
  cases link with
  | dialing | connected | disconnecting => simp [session] at quiet
  | idle | radioOff | draining => rfl

theorem Peer.Rests.tick (rests : p.Rests radio) : (p.tick cfg radio now).Rests radio := by
  intro off
  obtain ⟨alive, quiet⟩ := rests off
  have kept : (p.tick cfg radio now).gaveUp = p.gaveUp := by
    unfold Peer.tick
    obtain same | ⟨_, usable, _⟩ := (p.centralApply .tick now).clearStaleDial.giveUpWhenSpent_cases cfg radio now
    · rw [same]
      unfold Peer.clearStaleDial
      split <;> rfl
    · rw [off] at usable
      exact absurd usable Bool.noConfusion
  rw [kept, (Peer.tick_kept cfg radio now p).1]
  exact ⟨alive, CentralLink.session_of_tick quiet⟩

/-- The current attempt of a peer that rests is one under a usable radio. -/
theorem Peer.Rests.usable_of_session {session : Session} (rests : p.Rests radio)
    (current : p.central.session = some session) : radio.usable = true := by
  by_contra off
  rw [(rests (by simpa using off)).2] at current
  exact absurd current (by simp)

theorem Links.PeerStep.rests {l : Links} {a : PeerAddress} {label : Label} {e e' : Option Peer} {sent : List Edge}
    (step : PeerStep cfg l a label after e sent e') (before : ∀ p ∈ e, p.Rests l.radio) : ∀ p ∈ e', p.Rests after := by
  intro q at_q
  cases step with
  | kept _ => exact before q at_q
  | tracked =>
    cases at_q
    exact fun _ => ⟨rfl, rfl⟩
  | untracked => simp at at_q
  | retried =>
    cases at_q
    exact fun off => ⟨rfl, (before _ rfl off).2⟩
  | radio =>
    obtain ⟨p, at_p, rfl⟩ := Option.map_eq_some_iff.mp at_q
    exact (before p at_p).radioChanged
  | lateLoss unlinked =>
    cases at_q
    exact fun off => ⟨(before _ rfl off).1, CentralLink.session_of_linkDropped (before _ rfl off).2⟩
  | dialUnlinked _ _ current _ _ =>
    exact fun off => absurd ((before _ rfl).usable_of_session current) (by simp [off])
  | dialLinked _ _ current _ _ =>
    exact fun off => absurd ((before _ rfl).usable_of_session current) (by simp [off])
  | dialFailed _ _ current _ _ =>
    exact fun off => absurd ((before _ rfl).usable_of_session current) (by simp [off])
  | accepted _ _ _ usable => exact fun off => absurd usable (by simp [off])
  | linkGone _ _ _ _ =>
    cases at_q
    exact fun off => ⟨(before _ rfl off).1, CentralLink.session_of_linkDropped (before _ rfl off).2⟩
  | ticked =>
    cases at_q
    exact (before _ rfl).tick
  | dialled _ _ usable => exact fun off => absurd usable (by simp [off])

theorem Worker.reach_rests {w : Worker} (reach : (machine cfg).Reach w) {a : PeerAddress} {p : Peer}
    (known : w.peers[a]? = some p) : p.Rests w.radio :=
  reach_entry (fun step before => step.rests before) reach known

end Rests

/-- The worker behind its event stream. A subscriber that falls behind loses
the oldest events and is told so by one `Lagged`. -/
structure Streamed where
  worker : Worker
  queue : List GattEvent

inductive StreamLabel
  /-- The driver reports an event. -/
  | emit (event : GattEvent)
  /-- The oldest events not read yet are lost. -/
  | drop (count : Nat)
  /-- The worker takes the oldest item of the stream. -/
  | event (top base : Instant) (probe : RadioStatus) (caps : CapabilityReport) (now : Instant)
  | other (label : Label)

namespace Streamed

def step (cfg : PeerLinkConfig) (s : Streamed) : StreamLabel → Option Streamed
  | .emit event => some { s with queue := s.queue ++ [event] }
  | .drop count => do
    guard (0 < count ∧ count ≤ s.queue.length)
    some { s with queue := .lagged (UInt64.ofNat count) :: s.queue.drop count }
  | .event top base probe caps now =>
    match s.queue with
    | [] => none
    | event :: rest => do
      let worker ← Worker.step cfg s.worker (.select top base (.driverEvent event probe caps) now)
      some { worker := worker, queue := rest }
  | .other label => do
    guard (!label.takesEvent)
    let worker ← Worker.step cfg s.worker label
    some { s with worker := worker }

/-- The worker over every history of driver events and every gap in what it
reads of it. -/
def machine (cfg : PeerLinkConfig) (initial : RadioStatus) : Machine Streamed StreamLabel where
  Init s := ∃ clock, s = { worker := .start cfg initial clock, queue := [] }
  step := step cfg

/-- What the driver reported, and which peers gave up before a report. -/
structure RadioNote where
  /-- The status reported last. -/
  last : RadioStatus
  /-- The last assessment of the radio took it for usable. -/
  passed : Bool
  /-- The peers that were given up when the radio was reported lost, and are
  since. -/
  spent : List PeerAddress
  /-- Those of them for which it was reported on again. -/
  cycled : List PeerAddress

def gaveUp (w : Worker) (a : PeerAddress) : Bool := w.peers[a]?.any Peer.gaveUp

/-- The note once the worker is `w`. -/
def RadioNote.still (w : Worker) (note : RadioNote) : RadioNote :=
  { note with spent := note.spent.filter (gaveUp w), cycled := note.cycled.filter (gaveUp w) }

def noteRadio (cfg : PeerLinkConfig) (note : RadioNote) (s : Streamed) (label : StreamLabel) (t : Streamed) : RadioNote :=
  match label with
  | .emit event =>
    match event.reported with
    | none => note
    | some .on => { note with last := .on, cycled := note.spent }
    | some status => { note with last := status, spent := note.spent ++ s.worker.peers.keys.filter (gaveUp s.worker) }
  | .drop _ => note
  | .event _ _ probe caps _ =>
    match s.queue.head?.bind GattEvent.reported with
    | some .on => { note.still t.worker with passed := cfg.assessRadio probe caps == .on }
    | _ => note.still t.worker
  | .other _ => note.still t.worker

/-- The start: the radio is as it was assessed. -/
def blank (initial : RadioStatus) : RadioNote := ⟨initial, initial == .on, [], []⟩

/-- Everything processed, the radio machine is usable iff the driver last
reported its radio on and passed the check, and no peer that had given up
before a radio cycle still has. -/
def InStep (note : RadioNote) (s : Streamed) : Prop :=
  s.queue = [] → (s.worker.radio.usable = (note.last == .on && note.passed)) ∧
    ∀ (a : PeerAddress) (p : Peer), s.worker.peers[a]? = some p → p.gaveUp → a ∉ note.cycled

/-- What is lost can be missed: it is no report, or a later one is still to
be read, or it reports what the worker knows; and no loss of the radio is
lost after which a peer should not have stayed given up. -/
def Harmless (note : RadioNote) (s : Streamed) : StreamLabel → Prop
  | .drop count =>
    let lost := s.queue.take count
    let kept := s.queue.drop count
    (kept.any (fun event => event.reported.isSome) || !(lost.any fun event => event.reported.isSome) ||
        s.worker.radio.usable == (note.last == .on && note.passed)) = true ∧
      (kept.any GattEvent.reportsLoss || !lost.any GattEvent.reportsLoss || note.spent.isEmpty) = true
  | _ => True

instance (note : RadioNote) (s : Streamed) : (label : StreamLabel) → Decidable (Harmless note s label)
  | .drop _ => inferInstanceAs (Decidable (_ ∧ _))
  | .emit _ | .event _ _ _ _ _ | .other _ => isTrue trivial

/-- The reports still to be read. -/
def pendingReports (queue : List GattEvent) : List RadioStatus := queue.filterMap GattEvent.reported

theorem pendingReports_eq_nil {queue : List GattEvent} :
    pendingReports queue = [] ↔ (queue.any fun event => event.reported.isSome) = false := by
  simp only [pendingReports, List.filterMap_eq_nil_iff, List.any_eq_false, Bool.not_eq_true,
    Option.isSome_eq_false_iff, Option.isNone_iff_eq_none]

theorem pendingReports_take_drop (queue : List GattEvent) (count : Nat) :
    pendingReports queue = pendingReports (queue.take count) ++ pendingReports (queue.drop count) := by
  rw [pendingReports, pendingReports, pendingReports, ← List.filterMap_append, List.take_append_drop]

/-- What ties the worker to the history of its driver. -/
structure InSync (cfg : PeerLinkConfig) (note : RadioNote) (s : Streamed) : Prop where
  reach : (Worker.machine cfg).Reach s.worker
  latest : ∀ status, (pendingReports s.queue).getLast? = some status → note.last = status
  heard : pendingReports s.queue = [] → s.worker.radio.usable = (note.last == .on && note.passed)
  losses : note.spent ≠ [] → ∃ event ∈ s.queue, event.reportsLoss
  within : note.cycled ⊆ note.spent

section Sync
variable {cfg : PeerLinkConfig} {note : RadioNote} {s t : Streamed}

theorem InSync.inStep (sync : InSync cfg note s) : InStep note s := by
  intro drained
  refine ⟨sync.heard (by rw [drained]; rfl), fun a p _ _ member => ?_⟩
  obtain ⟨event, queued, _⟩ := sync.losses (List.ne_nil_of_mem (sync.within member))
  simp [drained] at queued

theorem InSync.emit (sync : InSync cfg note s) (event : GattEvent) :
    InSync cfg (noteRadio cfg note s (.emit event) { s with queue := s.queue ++ [event] })
      { s with queue := s.queue ++ [event] } := by
  have appended : pendingReports (s.queue ++ [event]) = pendingReports s.queue ++ event.reported.toList := by
    rw [pendingReports, pendingReports, List.filterMap_append]
    cases reported : event.reported <;> simp [reported]
  have carried : (∃ queued ∈ s.queue, queued.reportsLoss) → ∃ queued ∈ s.queue ++ [event], queued.reportsLoss := by
    rintro ⟨queued, member, loss⟩
    exact ⟨queued, List.mem_append_left _ member, loss⟩
  cases reported : event.reported with
  | none =>
    rw [reported, Option.toList_none, List.append_nil] at appended
    simp only [noteRadio, reported]
    exact ⟨sync.reach, by rw [appended]; exact sync.latest, by rw [appended]; exact sync.heard,
      fun spent => carried (sync.losses spent), sync.within⟩
  | some status =>
    rw [reported, Option.toList_some] at appended
    have last : ∀ other, (pendingReports (s.queue ++ [event])).getLast? = some other → status = other := by
      intro other at_end
      rw [appended, List.getLast?_concat] at at_end
      exact Option.some.inj at_end
    have unread : pendingReports (s.queue ++ [event]) ≠ [] := by simp [appended]
    have loss : status ≠ .on → ∃ queued ∈ s.queue ++ [event], queued.reportsLoss := fun lost =>
      ⟨event, by simp, by simp [GattEvent.reportsLoss, reported, lost]⟩
    cases status with
    | on =>
      simp only [noteRadio, reported]
      exact ⟨sync.reach, last, fun none => absurd none unread, fun spent => carried (sync.losses spent),
        fun _ member => member⟩
    | off =>
      simp only [noteRadio, reported]
      exact ⟨sync.reach, last, fun none => absurd none unread, fun _ => loss (by simp),
        fun _ member => List.mem_append_left _ (sync.within member)⟩
    | unsupported =>
      simp only [noteRadio, reported]
      exact ⟨sync.reach, last, fun none => absurd none unread, fun _ => loss (by simp),
        fun _ member => List.mem_append_left _ (sync.within member)⟩

theorem InSync.drop (sync : InSync cfg note s) (count : Nat) (harmless : Harmless note s (.drop count)) :
    InSync cfg note { s with queue := .lagged (UInt64.ofNat count) :: s.queue.drop count } := by
  obtain ⟨report, loss⟩ := harmless
  have parts := pendingReports_take_drop s.queue count
  have left : pendingReports (.lagged (UInt64.ofNat count) :: s.queue.drop count) = pendingReports (s.queue.drop count) :=
    rfl
  refine ⟨sync.reach, ?_, ?_, ?_, sync.within⟩
  · intro status at_end
    refine sync.latest status ?_
    rw [left] at at_end
    rw [parts, List.getLast?_append, at_end, Option.some_or]
  · intro none_kept
    rw [left] at none_kept
    simp only [pendingReports_eq_nil.mp none_kept, Bool.false_or, Bool.or_eq_true, Bool.not_eq_true', beq_iff_eq]
      at report
    rcases report with none_lost | same
    · exact sync.heard (by rw [parts, none_kept, pendingReports_eq_nil.mpr none_lost]; rfl)
    · exact same
  · intro spent
    have some_spent : note.spent.isEmpty = false := by
      cases listed : note.spent with
      | nil => exact absurd listed spent
      | cons _ _ => rfl
    rw [some_spent, Bool.or_false, Bool.or_eq_true, Bool.not_eq_true'] at loss
    obtain ⟨event, queued, reports⟩ := sync.losses spent
    rcases loss with kept | none_lost
    · obtain ⟨event, member, reports⟩ := List.any_eq_true.mp kept
      exact ⟨event, List.mem_cons_of_mem _ member, reports⟩
    · refine ⟨event, List.mem_cons_of_mem _ ?_, reports⟩
      rw [← List.take_append_drop count s.queue] at queued
      rcases List.mem_append.mp queued with in_lost | in_kept
      · exact absurd reports (List.any_eq_false.mp none_lost event in_lost)
      · exact in_kept

/-- The worker moved without reading a report. -/
theorem InSync.silent (sync : InSync cfg note s) {worker : Worker} {queue : List GattEvent} {label : Label}
    (step : Worker.step cfg s.worker label = some worker) (silent : label.reported = none)
    (reports : pendingReports queue = pendingReports s.queue)
    (losses : ∀ event ∈ s.queue, event.reportsLoss → event ∈ queue) :
    InSync cfg (note.still worker) { worker := worker, queue := queue } := by
  have moved : (Worker.machine cfg).step s.worker label = some worker := step
  have radio : worker.radio = s.worker.radio := (Worker.step_change step).radio silent
  refine ⟨sync.reach.next moved, by rw [reports]; exact sync.latest, ?_, ?_, ?_⟩
  · rw [reports, radio]
    exact sync.heard
  · intro spent
    have before : note.spent ≠ [] := fun none => spent (by simp [RadioNote.still, none])
    obtain ⟨event, queued, loss⟩ := sync.losses before
    exact ⟨event, losses event queued loss, loss⟩
  · exact fun a member => List.mem_filter.mpr
      ⟨sync.within (List.mem_filter.mp member).1, (List.mem_filter.mp member).2⟩

/-- The worker read a report: its machine follows it, and a loss leaves no
peer given up. -/
theorem InSync.report (sync : InSync cfg note s) {worker : Worker} {rest : List GattEvent} {top base now : Instant}
    {status probe : RadioStatus} {caps : CapabilityReport} (queued : s.queue = .radioChanged status :: rest)
    (step : Worker.step cfg s.worker (.select top base (.driverEvent (.radioChanged status) probe caps) now) =
      some worker) :
    InSync cfg (noteRadio cfg note s (.event top base probe caps now) { worker := worker, queue := rest })
      { worker := worker, queue := rest } := by
  have moved : (Worker.machine cfg).step s.worker
    (.select top base (.driverEvent (.radioChanged status) probe caps) now) = some worker := step
  have usable := Worker.usable_of_report step
  have reports : pendingReports s.queue = status :: pendingReports rest := by rw [queued]; rfl
  have latest : ∀ other, (pendingReports rest).getLast? = some other → note.last = other := by
    intro other at_end
    refine sync.latest other ?_
    rw [reports, List.getLast?_cons, at_end, Option.getD_some]
  have alone : pendingReports rest = [] → note.last = status := fun none =>
    sync.latest status (by rw [reports, none]; rfl)
  have within : (note.still worker).cycled ⊆ (note.still worker).spent := fun a member =>
    List.mem_filter.mpr ⟨sync.within (List.mem_filter.mp member).1, (List.mem_filter.mp member).2⟩
  have lost : worker.radio.usable = false → (note.still worker).spent = [] := by
    intro off
    refine List.filter_eq_nil_iff.mpr fun a _ given => ?_
    obtain ⟨p, known, spent⟩ := (Option.any_eq_true _ _).mp given
    have alive := (Worker.reach_rests (sync.reach.next moved) known off).1
    rw [alive] at spent
    exact Bool.noConfusion spent
  simp only [noteRadio, queued, List.head?_cons, Option.bind_some, GattEvent.reported]
  cases status with
  | on =>
    refine ⟨sync.reach.next moved, latest, ?_, ?_, within⟩
    · intro none
      change _ = (note.last == RadioStatus.on && (cfg.assessRadio probe caps == RadioStatus.on))
      rw [usable, alone none]
      rfl
    · intro spent
      have before : note.spent ≠ [] := fun none => spent (by simp [RadioNote.still, none])
      obtain ⟨event, member, loss⟩ := sync.losses before
      rw [queued] at member
      rcases List.mem_cons.mp member with rfl | later
      · simp [GattEvent.reportsLoss, GattEvent.reported] at loss
      · exact ⟨event, later, loss⟩
  | off =>
    refine ⟨sync.reach.next moved, latest, ?_, fun spent => absurd (lost usable) spent, within⟩
    intro none
    change _ = (note.last == _ && _)
    rw [usable, alone none]
    rfl
  | unsupported =>
    refine ⟨sync.reach.next moved, latest, ?_, fun spent => absurd (lost usable) spent, within⟩
    intro none
    change _ = (note.last == _ && _)
    rw [usable, alone none]
    rfl

theorem InSync.step {label : StreamLabel} (sync : InSync cfg note s) (harmless : Harmless note s label)
    (step : step cfg s label = some t) : InSync cfg (noteRadio cfg note s label t) t := by
  cases label with
  | emit event =>
    cases Option.some.inj step
    exact sync.emit event
  | drop count =>
    obtain ⟨_, _, dropped⟩ := Option.bind_eq_some_iff.mp step
    cases Option.some.inj dropped
    exact sync.drop count harmless
  | event top base probe caps now =>
    unfold Streamed.step at step
    cases queued : s.queue with
    | nil => simp [queued] at step
    | cons event rest =>
      simp only [queued] at step
      obtain ⟨worker, moved, taken⟩ := Option.bind_eq_some_iff.mp step
      cases Option.some.inj taken
      cases event with
      | radioChanged status => exact sync.report queued moved
      | connected | disconnected | characteristicWritten | lagged =>
        simp only [noteRadio, queued, List.head?_cons, Option.bind_some, GattEvent.reported]
        refine sync.silent moved rfl (by rw [queued]; rfl) fun event member loss => ?_
        rw [queued] at member
        rcases List.mem_cons.mp member with rfl | later
        · simp [GattEvent.reportsLoss, GattEvent.reported] at loss
        · exact later
  | other label =>
    obtain ⟨_, guarded, rest⟩ := Option.bind_eq_some_iff.mp step
    obtain ⟨worker, moved, taken⟩ := Option.bind_eq_some_iff.mp rest
    cases Option.some.inj taken
    have silent : label.reported = none := by
      unfold Label.reported
      split
      · simp [Label.takesEvent, guard] at guarded
      · rfl
    exact sync.silent moved silent rfl fun _ member _ => member

end Sync

/-- In every run whose gaps are harmless, once the worker has processed
everything it is in step with its driver's radio. -/
theorem run_in_step {cfg : PeerLinkConfig} {initial : RadioStatus} {note : RadioNote} {s : Streamed}
    (run : (machine cfg initial).Run Harmless (noteRadio cfg) (blank initial) note s) : InStep note s := by
  have sync : InSync cfg note s := by
    refine run.invariant (P := InSync cfg) ?_ ?_
    · rintro _ ⟨clock, rfl⟩
      refine ⟨.start ⟨initial, clock, rfl⟩, by simp [pendingReports], fun _ => ?_, by simp [blank], by simp [blank]⟩
      cases initial <;> rfl
    · intro note s label t _ sync ok step
      exact sync.step ok step
  exact sync.inStep

/-- The radio is switched off, and on again, while the worker reads nothing;
the first `lost` reports are lost. -/
def missedCycle (reports : List RadioStatus) (lost : Nat) : List StreamLabel :=
  (reports.map fun status => .emit (.radioChanged status)) ++ [.drop lost] ++
    (List.range (reports.length - lost + 1)).flatMap fun _ =>
      [.event 0 0 .on { central := true, peripheral := true } 0, .other (.pump 0 0)]

/-- The report of a lost radio that is itself lost leaves the worker usable. -/
theorem not_in_step : ¬ ∀ (cfg : PeerLinkConfig) (initial : RadioStatus) (note : RadioNote) (s : Streamed),
    (machine cfg initial).Run (fun _ _ _ => True) (noteRadio cfg) (blank initial) note s → InStep note s := by
  intro claim
  obtain ⟨note, s, run, missed⟩ := Machine.Run.exists_of_follow (machine { role := .dialOnly } .on)
    (fun _ _ _ => True) (noteRadio { role := .dialOnly }) (blank .on)
    (fun note s => s.queue.isEmpty && s.worker.radio.usable && decide (note.last = .off)) ⟨0, rfl⟩
    (missedCycle [.off] 1) (by decide +kernel)
  simp only [Bool.and_eq_true, List.isEmpty_iff, decide_eq_true_eq] at missed
  obtain ⟨⟨drained, usable⟩, off⟩ := missed
  have same := (claim _ _ note s run drained).1
  rw [usable, off] at same
  change true = (false && note.passed) at same
  simp at same

/-- The loss of the radio is lost, but the report after it is read. -/
theorem run_in_step_resynced : ∃ (note : RadioNote) (s : Streamed), s.queue = [] ∧ note.last = .off ∧
    s.worker.radio.usable = false := by
  obtain ⟨note, s, run, heard⟩ := Machine.Run.exists_of_follow (machine { role := .dialOnly } .on) Harmless
    (noteRadio { role := .dialOnly }) (blank .on)
    (fun note s => s.queue.isEmpty && decide (note.last = .off)) ⟨0, rfl⟩
    (missedCycle [.off, .on, .off] 2) (by decide +kernel)
  simp only [Bool.and_eq_true, List.isEmpty_iff, decide_eq_true_eq] at heard
  obtain ⟨drained, off⟩ := heard
  refine ⟨note, s, drained, off, ?_⟩
  rw [(run_in_step run drained).1, off]
  rfl

end Streamed

end BleGatt
