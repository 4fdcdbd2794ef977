import BleGatt.Connection.Handle

namespace BleGatt

/-! The radio's status as every `Adapter` publishes it, from reports that come
after the changes they tell of, and that a slow reader may lose. -/

def GattEvent.change? : GattEvent → Option RadioStatus
  | .radioChanged status => some status
  | _ => none

/-- Where a call of `wait_available` is: it looks, and waits for the next change. -/
inductive AvailableWait
  | called
  | parked (receiver : WatchReceiver RadioStatus)
  | returned (receiver : WatchReceiver RadioStatus)

structure Adapter where
  /-- The subscription of `publish_status`, and the event it has in hand. -/
  events : Receiver GattEvent
  pending : Option RadioStatus := none
  /-- What the driver said the radio was, and what the radio was then. -/
  first : RadioStatus
  asked : RadioStatus
  status : Watch RadioStatus
  followers : List (WatchReceiver RadioStatus) := []
  waits : List AvailableWait := []

/-- A radio and its driver, and every adapter made over it. -/
structure RadioDevice where
  initial : RadioStatus
  changes : List RadioStatus := []
  /-- How many of them the driver has reported. -/
  reported : Nat := 0
  sent : List GattEvent := []
  /-- The calls of `Adapter::new` that wait for the driver. -/
  starting : List (Option (Receiver GattEvent)) := []
  adapters : List Adapter := []

inductive RadioDeviceInput
  | change (status : RadioStatus)
  | report
  /-- The driver has something else to report. -/
  | event (event : GattEvent)
  /-- `Adapter::new`, and what the driver's `radio_status` answers, `On` where it has
  none of its own; or the caller is gone. -/
  | new
  | answer (call : Nat) (status : RadioStatus)
  | abandon (call : Nat)
  /-- `publish_status` takes the next event; and stores what it says. -/
  | take (adapter : Nat)
  | publish (adapter : Nat)
  /-- `status`, and a look at what it returned. -/
  | status (adapter : Nat)
  | look (adapter follower : Nat)
  | waitAvailable (adapter : Nat)
  | check (adapter wait : Nat)

namespace Adapter

/-- One step of `publish_status` up to its store. -/
def take (capacity : Nat) (sent : List GattEvent) (a : Adapter) : Option Adapter :=
  match a.pending with
  | none => do
    let events ← a.events.read capacity sent
    let received ← events.got.getLast?
    some { a with events := events, pending := (GattEvent.received received).change? }
  | some _ => none

def publish (a : Adapter) : Option Adapter := do
  let status ← a.pending
  some { a with pending := none, status := a.status.sendIfModified fun current => (status, current != status) }

/-- `wait_for`: it looks at once, and again when it is woken. -/
def check (wait : Nat) (a : Adapter) : Option Adapter := do
  let looked := if a.status.value = .on then AvailableWait.returned a.status.look else .parked a.status.look
  match ← a.waits[wait]? with
  | .called => some { a with waits := a.waits.set wait looked }
  | .parked receiver => if receiver.changed a.status then some { a with waits := a.waits.set wait looked } else none
  | .returned _ => none

/-- What the events that were read say of the radio. -/
def heard (a : Adapter) : List RadioStatus := a.events.got.filterMap (Received.item? GattEvent.change?)

/-- A call of `wait_available` and the status it looked at. -/
def WaitSound (status : Watch RadioStatus) : AvailableWait → Prop
  | .called => True
  | .parked receiver => receiver.Follows status ∧ receiver.saw ≠ .on
  | .returned receiver => receiver.saw = .on

/-- The driver answered after `i` changes, and nothing older is still to be read. -/
def Began (initial : RadioStatus) (changes : List RadioStatus) (sent : List GattEvent) (a : Adapter) (i : Nat) : Prop :=
  i ≤ changes.length ∧ a.asked = (changes.take i).getLast?.getD initial ∧
    ((sent.take a.events.start).filterMap GattEvent.change?).length ≤ i

structure Sound (initial : RadioStatus) (changes : List RadioStatus) (sent : List GattEvent) (a : Adapter) : Prop where
  told : a.events.Told sent
  bound : a.events.start ≤ sent.length
  began : ∃ i, a.Began initial changes sent i
  value : ∃ stored, a.heard = stored ++ a.pending.toList ∧ a.status.value = stored.getLast?.getD a.first
  unchanged : a.status.version = 0 → a.status.value = a.first
  followers : ∀ follower ∈ a.followers, follower.Follows a.status
  waits : ∀ wait ∈ a.waits, WaitSound a.status wait

namespace Sound

variable {initial : RadioStatus} {changes : List RadioStatus} {sent : List GattEvent} {a after : Adapter} {capacity : Nat}

theorem change (sound : Sound initial changes sent a) (status : RadioStatus) : Sound initial (changes ++ [status]) sent a := by
  obtain ⟨i, bound, asked, older⟩ := sound.began
  have later : i ≤ (changes ++ [status]).length := by
    rw [List.length_append]
    omega
  exact { sound with began := ⟨i, later, by rw [List.take_append_of_le_length bound]; exact asked, older⟩ }

theorem report (sound : Sound initial changes sent a) (event : GattEvent) : Sound initial changes (sent ++ [event]) a := by
  obtain ⟨i, bound, asked, older⟩ := sound.began
  have later : a.events.start ≤ (sent ++ [event]).length := by
    have before := sound.bound
    rw [List.length_append]
    omega
  exact { sound with
    told := Tells.more sound.told [event], bound := later
    began := ⟨i, bound, asked, by rw [List.take_append_of_le_length sound.bound]; exact older⟩ }

theorem take (sound : Sound initial changes sent a) (went : a.take capacity sent = some after) :
    Sound initial changes sent after := by
  obtain ⟨stored, heard, value⟩ := sound.value
  unfold Adapter.take at went
  split at went
  · rename_i idle
    obtain ⟨events, read, went⟩ := Option.bind_eq_some_iff.mp went
    obtain ⟨start, received, got⟩ := Receiver.read_got read
    rw [got, List.getLast?_concat] at went
    cases Option.some.inj went
    obtain ⟨i, bound, asked, older⟩ := sound.began
    refine { sound with
      told := sound.told.read read, bound := start ▸ sound.bound, began := ⟨i, bound, asked, start ▸ older⟩
      value := ⟨stored, ?_, value⟩ }
    have item : Received.item? GattEvent.change? received = (GattEvent.received received).change? := by
      cases received <;> rfl
    rw [idle, Option.toList_none, List.append_nil] at heard
    change events.got.filterMap _ = _
    rw [got, List.filterMap_append, ← Adapter.heard, heard, ← item]
    cases found : Received.item? GattEvent.change? received <;> simp [found]
  · cases went

theorem publish (sound : Sound initial changes sent a) (went : a.publish = some after) : Sound initial changes sent after := by
  obtain ⟨stored, heard, value⟩ := sound.value
  obtain ⟨status, pending, went⟩ := Option.bind_eq_some_iff.mp went
  cases Option.some.inj went
  rw [pending] at heard
  have honest : (a.status.value != status) = false → status = a.status.value :=
    fun same => (bne_eq_false_iff_eq.mp same).symm
  refine { sound with
    value := ⟨stored ++ [status], heard.trans (List.append_nil _).symm, by simp [Watch.sendIfModified]⟩
    unchanged := ?_, followers := fun follower member => (sound.followers follower member).send honest, waits := ?_ }
  · intro zero
    simp only [Watch.sendIfModified] at zero ⊢
    split at zero
    · omega
    · rename_i same
      rw [honest (by simpa using same)]
      exact sound.unchanged zero
  · intro wait member
    have known := sound.waits wait member
    cases wait with
    | called => trivial
    | parked receiver => exact ⟨known.1.send honest, known.2⟩
    | returned receiver => exact known

theorem check {wait : Nat} (sound : Sound initial changes sent a) (went : a.check wait = some after) :
    Sound initial changes sent after := by
  have looked : WaitSound a.status (if a.status.value = .on then .returned a.status.look else .parked a.status.look) := by
    by_cases on : a.status.value = .on
    · rw [if_pos on]
      exact on
    · rw [if_neg on]
      exact ⟨WatchReceiver.follows_look, on⟩
  have set : Sound initial changes sent { a with
      waits := a.waits.set wait (if a.status.value = .on then .returned a.status.look else .parked a.status.look) } := by
    refine { sound with waits := ?_ }
    intro found member
    rcases List.mem_or_eq_of_mem_set member with old | rfl
    · exact sound.waits found old
    · exact looked
  obtain ⟨waiting, _, went⟩ := Option.bind_eq_some_iff.mp went
  cases waiting with
  | called =>
    cases Option.some.inj went
    exact set
  | parked receiver =>
    simp only at went
    split at went
    · cases Option.some.inj went
      exact set
    · cases went
  | returned receiver => cases went

end Sound

end Adapter

namespace RadioDevice

/-- What the radio is. -/
def current (s : RadioDevice) : RadioStatus := s.changes.getLast?.getD s.initial

def onAdapter (number : Nat) (change : Adapter → Option Adapter) (s : RadioDevice) : Option RadioDevice := do
  let a ← s.adapters[number]?
  let a ← change a
  some { s with adapters := s.adapters.set number a }

def step (capacity : Nat) (s : RadioDevice) : RadioDeviceInput → Option RadioDevice
  | .change status => some { s with changes := s.changes ++ [status] }
  | .report => do
    let status ← s.changes[s.reported]?
    some { s with reported := s.reported + 1, sent := s.sent ++ [.radioChanged status] }
  | .event event => if event.change?.isNone then some { s with sent := s.sent ++ [event] } else none
  | .new => some { s with starting := s.starting ++ [some { start := s.sent.length, next := s.sent.length }] }
  | .answer call status => do
    let events ← (← s.starting[call]?)
    let a : Adapter := { events := events, first := status, asked := s.current, status := ⟨status, 0⟩ }
    some { s with starting := s.starting.set call none, adapters := s.adapters ++ [a] }
  | .abandon call => some { s with starting := s.starting.set call none }
  | .take number => s.onAdapter number (Adapter.take capacity s.sent)
  | .publish number => s.onAdapter number Adapter.publish
  | .status number => s.onAdapter number fun a => some { a with followers := a.followers ++ [⟨0, a.first⟩] }
  | .look number follower =>
    s.onAdapter number fun a => some { a with followers := a.followers.modify follower fun _ => a.status.look }
  | .waitAvailable number => s.onAdapter number fun a => some { a with waits := a.waits ++ [.called] }
  | .check number wait => s.onAdapter number (Adapter.check wait)

def machine (capacity : Nat) : Machine RadioDevice RadioDeviceInput where
  Init s := ∃ status, s = { initial := status }
  step := step capacity

variable {capacity : Nat} {s t : RadioDevice}

/-- A subscription that nothing was read of yet. -/
structure Starting (sent : List GattEvent) (events : Receiver GattEvent) : Prop where
  told : events.Told sent
  unread : events.got = []
  bound : events.start ≤ sent.length

structure Sound (s : RadioDevice) : Prop where
  reports : s.sent.filterMap GattEvent.change? = s.changes.take s.reported
  reported : s.reported ≤ s.changes.length
  starting : ∀ (n : Nat) (events : Receiver GattEvent), s.starting[n]? = some (some events) → Starting s.sent events
  adapters : TaskList.Each (fun _ => Adapter.Sound s.initial s.changes s.sent) s.adapters

namespace Sound

theorem sending (sound : Sound s) (event : GattEvent) :
    (∀ (n : Nat) (events : Receiver GattEvent), s.starting[n]? = some (some events) → Starting (s.sent ++ [event]) events) ∧
      TaskList.Each (fun _ => Adapter.Sound s.initial s.changes (s.sent ++ [event])) s.adapters := by
  refine ⟨?_, sound.adapters.imp fun _ _ known => known.report event⟩
  intro n events there
  have known := sound.starting n events there
  have bound : events.start ≤ (s.sent ++ [event]).length := by
    have before := known.bound
    rw [List.length_append]
    omega
  exact { known with told := Tells.more known.told [event], bound := bound }

theorem onAdapter {number : Nat} {change : Adapter → Option Adapter} (sound : Sound s)
    (keeps : ∀ a after, Adapter.Sound s.initial s.changes s.sent a → change a = some after →
      Adapter.Sound s.initial s.changes s.sent after)
    (went : s.onAdapter number change = some t) : Sound t := by
  obtain ⟨a, here, went⟩ := Option.bind_eq_some_iff.mp went
  obtain ⟨after, changed, went⟩ := Option.bind_eq_some_iff.mp went
  cases Option.some.inj went
  exact { sound with adapters := sound.adapters.set (keeps a after (sound.adapters number a here) changed) }

theorem starting_set {call : Nat} (sound : Sound s) :
    ∀ (n : Nat) (events : Receiver GattEvent), (s.starting.set call none)[n]? = some (some events) → Starting s.sent events := by
  intro n events there
  obtain ⟨_, eq⟩ | ⟨_, there⟩ := TaskList.of_set there
  · cases eq
  · exact sound.starting n events there

theorem step {input : RadioDeviceInput} (sound : Sound s) (went : s.step capacity input = some t) : Sound t := by
  cases input with
  | change status =>
    cases Option.some.inj went
    have reported : s.reported ≤ (s.changes ++ [status]).length := by
      have before := sound.reported
      rw [List.length_append]
      omega
    refine ⟨?_, reported, sound.starting, sound.adapters.imp fun _ _ known => known.change status⟩
    rw [List.take_append_of_le_length sound.reported]
    exact sound.reports
  | report =>
    obtain ⟨status, next, went⟩ := Option.bind_eq_some_iff.mp went
    cases Option.some.inj went
    obtain ⟨starting, adapters⟩ := sound.sending (.radioChanged status)
    refine ⟨?_, TaskList.lt_length next, starting, adapters⟩
    rw [List.filterMap_append, sound.reports, List.take_add_one, next]
    rfl
  | event event =>
    simp only [RadioDevice.step] at went
    split at went
    · rename_i other
      cases Option.some.inj went
      obtain ⟨starting, adapters⟩ := sound.sending event
      refine ⟨?_, sound.reported, starting, adapters⟩
      rw [List.filterMap_append, sound.reports]
      simp [Option.isNone_iff_eq_none.mp other]
    · cases went
  | new =>
    cases Option.some.inj went
    refine { sound with starting := ?_ }
    intro n events there
    obtain there | ⟨_, eq⟩ := TaskList.of_append there
    · exact sound.starting n events there
    · cases eq
      exact ⟨.nothing, rfl, Nat.le_refl _⟩
  | answer call status =>
    obtain ⟨starting, there, went⟩ := Option.bind_eq_some_iff.mp went
    obtain ⟨events, is, went⟩ := Option.bind_eq_some_iff.mp went
    cases Option.some.inj went
    subst is
    have known := sound.starting call events there
    have unread : events.got = [] := known.unread
    refine { sound with starting := sound.starting_set, adapters := sound.adapters.start ?_ }
    -- the status is read after the subscription, so nothing reported before it is newer
    have older : ((s.sent.take events.start).filterMap GattEvent.change?).length ≤ s.changes.length := by
      have fewer : ((s.sent.take events.start).filterMap GattEvent.change?).length ≤
          (s.sent.filterMap GattEvent.change?).length :=
        ((List.take_sublist _ _).filterMap _).length_le
      rw [sound.reports, List.length_take] at fewer
      omega
    exact {
      told := known.told
      bound := known.bound
      began := ⟨s.changes.length, Nat.le_refl _, by simp [current], older⟩
      value := ⟨[], by simp [Adapter.heard, unread], rfl⟩
      unchanged := fun _ => rfl
      followers := by simp
      waits := by simp }
  | abandon call =>
    cases Option.some.inj went
    exact { sound with starting := sound.starting_set }
  | take number => exact sound.onAdapter (fun _ _ known went => known.take went) went
  | publish number => exact sound.onAdapter (fun _ _ known went => known.publish went) went
  | status number =>
    refine sound.onAdapter ?_ went
    intro a after known changed
    cases Option.some.inj changed
    refine { known with followers := ?_ }
    intro follower member
    rcases List.mem_append.mp member with old | new
    · exact known.followers follower old
    · cases List.mem_singleton.mp new
      refine ⟨Nat.zero_le _, fun same => ?_⟩
      have zero : (0 : Nat) = a.status.version := bne_eq_false_iff_eq.mp same
      exact (known.unchanged zero.symm).symm
  | look number follower =>
    refine sound.onAdapter ?_ went
    intro a after known changed
    cases Option.some.inj changed
    refine { known with followers := ?_ }
    intro found member
    obtain ⟨k, here⟩ := List.mem_iff_getElem?.mp member
    obtain ⟨before, _, _, rfl⟩ | ⟨_, old⟩ := TaskList.of_modify here
    · exact WatchReceiver.follows_look
    · exact known.followers found (List.mem_of_getElem? old)
  | waitAvailable number =>
    refine sound.onAdapter ?_ went
    intro a after known changed
    cases Option.some.inj changed
    refine { known with waits := ?_ }
    intro wait member
    rcases List.mem_append.mp member with old | new
    · exact known.waits wait old
    · cases List.mem_singleton.mp new
      trivial
  | check number wait => exact sound.onAdapter (fun _ _ known went => known.check went) went

end Sound

theorem sound (reach : (machine capacity).Reach s) : Sound s := by
  induction reach with
  | start init =>
    obtain ⟨status, rfl⟩ := init
    exact ⟨rfl, Nat.le_refl _, by simp, by simp [TaskList.Each]⟩
  | next _ stepped ih => exact ih.step stepped

/-- What an adapter says of the radio. -/
structure Publishes (capacity : Nat) (s : RadioDevice) (a : Adapter) : Prop where
  /-- It is what the last change it read said, or what the driver said first. -/
  value : a.pending = none → a.status.value = a.heard.getLast?.getD a.first
  /-- Once every change is reported and it has caught up, that is the radio's, unless
  the last report is among those it lost. Until it has read a change it goes by what
  the driver said first, which must have been so. -/
  current : a.first = a.asked ∨ a.heard ≠ [] → s.reported = s.changes.length → a.pending = none →
    a.events.read capacity s.sent = none → (∀ k status, a.events.start ≤ k → LastOf GattEvent.change? s.sent k status →
      ¬Missed s.sent a.events.start a.events.got k) → a.status.value = s.current
  follows : ∀ follower ∈ a.followers, follower.Follows a.status
  /-- A waiter is woken for a radio that is on, and no other returns. -/
  woken : ∀ receiver, .parked receiver ∈ a.waits → a.status.value = .on → receiver.changed a.status = true
  returned : ∀ receiver, .returned receiver ∈ a.waits → receiver.saw = .on

theorem Sound.current {a : Adapter} (sound : Sound s) (known : Adapter.Sound s.initial s.changes s.sent a)
    (honest : a.first = a.asked ∨ a.heard ≠ []) (whole : s.reported = s.changes.length) (idle : a.pending = none) (caught : a.events.read capacity s.sent = none)
    (kept : ∀ k status, a.events.start ≤ k → LastOf GattEvent.change? s.sent k status →
      ¬Missed s.sent a.events.start a.events.got k) : a.status.value = s.current := by
  obtain ⟨stored, heard, value⟩ := known.value
  rw [idle, Option.toList_none, List.append_nil] at heard
  have passed : s.sent.length ≤ a.events.next := Receiver.next_of_read_none caught
  have reports := sound.reports
  rw [whole, List.take_length] at reports
  rcases exists_lastOf GattEvent.change? s.sent a.events.start with none_ | ⟨k, status, after, last⟩
  · -- nothing was reported since, so the first status was the last
    have nothing : a.heard = [] := by
      refine List.filterMap_eq_nil_iff.mpr ?_
      intro received member
      cases received with
      | lagged lost => rfl
      | item event =>
        obtain ⟨k, after, _, there⟩ := known.told.sent_of_mem member
        have quiet := none_ k after
        rw [there] at quiet
        exact quiet
    have older : (s.sent.take a.events.start).filterMap GattEvent.change? = s.changes := by
      rw [← reports]
      conv_rhs => rw [← List.take_append_drop a.events.start s.sent, List.filterMap_append]
      have quiet : (s.sent.drop a.events.start).filterMap GattEvent.change? = [] := by
        refine List.filterMap_eq_nil_iff.mpr ?_
        intro event member
        obtain ⟨k, there⟩ := List.mem_iff_getElem?.mp member
        rw [List.getElem?_drop] at there
        have quiet := none_ (a.events.start + k) (by omega)
        rw [there] at quiet
        exact quiet
      rw [quiet, List.append_nil]
    obtain ⟨i, bound, asked, seen⟩ := known.began
    rw [older] at seen
    have first : a.first = a.asked := honest.resolve_right fun some_ => some_ nothing
    rw [value, ← heard, nothing, first, asked, List.take_of_length_le seen]
    rfl
  · obtain ⟨event, there, counts⟩ := Option.bind_eq_some_iff.mp last.1
    have bound : k < s.sent.length := TaskList.lt_length there
    have read := (known.told.read_or_missed after (by omega) there).resolve_right (kept k status after last)
    have got := read.last known.told last counts
    have newest := last.getLast
    rw [reports] at newest
    rw [value, ← heard, Adapter.heard, got, RadioDevice.current, newest]
    rfl

theorem reach_publishes_status (reach : (machine capacity).Reach s) (n : Nat) (a : Adapter) (here : s.adapters[n]? = some a) :
    Publishes capacity s a := by
  have known := (sound reach).adapters n a here
  refine ⟨?_, (sound reach).current known, known.followers, ?_, ?_⟩
  · intro idle
    obtain ⟨stored, heard, value⟩ := known.value
    rw [idle, Option.toList_none, List.append_nil] at heard
    rw [heard, value]
  · intro receiver member on
    obtain ⟨follows, off⟩ := known.waits _ member
    by_contra still
    have same := follows.2 (by simpa using still)
    exact off (same.trans on)
  · intro receiver member
    exact known.waits _ member

/-- The radio goes off while the adapter is made, and comes back to a waiter. -/
def offAndOn : List RadioDeviceInput :=
  [.new, .change .off, .report, .answer 0 .off, .take 0, .publish 0, .waitAvailable 0, .check 0 0, .change .on, .report, .take 0,
    .publish 0, .check 0 0]

theorem reach_publishes_status_off_and_on : ∃ (s : RadioDevice) (a : Adapter), s.adapters[0]? = some a ∧ Publishes 64 s a ∧
    a.status.value = s.current ∧ a.status.version = 1 := by
  obtain ⟨s, reach, came⟩ := Machine.Reach.exists_of_follow (machine 64)
    (fun s => s.adapters[0]?.any fun a => a.status.value == s.current && a.status.version == 1) ⟨.on, rfl⟩ offAndOn
    (by decide +kernel)
  obtain ⟨a, here, came⟩ := (Option.any_eq_true _ _).mp came
  simp only [Bool.and_eq_true, beq_iff_eq] at came
  exact ⟨s, a, here, reach_publishes_status reach 0 a here, came⟩

end RadioDevice

end BleGatt
