import BleGatt.Drivers.MockRadio

namespace BleGatt
open Std

/-! Which operations of a `LocalRadio` a session still allows once its central
was told that the link to the peripheral is over. -/

abbrev MockGattConnection.pair (link : MockGattConnection) : PeerAddress × PeerAddress := (link.central, link.peripheral)

namespace RadioSection

/-- The handle whose session a section checks. -/
def checks : RadioSection → Option MockGattConnection
  | checkNotify link | checkDisconnect link | ensureCurrent link | insertSubscriber link _ => some link
  | _ => none

/-- The pair whose central a section tells that its link is over. -/
def over_ : RadioSection → Option (PeerAddress × PeerAddress)
  | emit central (.disconnected peripheral .central _) => some (central, peripheral)
  | _ => none

def removes : RadioSection → Option (PeerAddress × PeerAddress)
  | removeSession central peripheral => some (central, peripheral)
  | _ => none

end RadioSection

namespace RadioRequest

/-- The handle an operation is one of, or names. -/
def link : RadioRequest → Option MockGattConnection
  | notifyPeer address peer (some session) _ _ => some ⟨session, peer, address⟩
  | disconnectPeer address peer (some session) => some ⟨session, peer, address⟩
  | read link _ | writeWithType link _ _ | subscribe link _ | disconnect link => some link
  | _ => none

/-- `disconnect_peer` is `Ok` for a peer that is already gone; it has not
disconnected anyone then. -/
def succeeded : RadioRequest → Except BleError RadioReply → Bool
  | disconnectPeer _ _ _, _ => false
  | _, .ok _ => true
  | _, .error _ => false

end RadioRequest

/-- It has returned, having succeeded. -/
def hasSucceeded (call : RadioCall) : Bool :=
  match call.stage with
  | .running _ _ => false
  | .returned result => call.request.succeeded result

/-- The central was told, and the session is still to be removed. -/
def leaving (pair : PeerAddress × PeerAddress) (ahead : List RadioSection) : Bool :=
  ahead.any (fun section_ => decide (section_.removes = some pair)) &&
    ahead.all fun section_ => decide (section_.over_ ≠ some pair)

/-- A call under way whose checks are all behind it. -/
def pastCheck (call : RadioCall) : Bool :=
  decide (call.ahead ≠ []) && call.ahead.all fun section_ => section_.checks.isNone

/-- The sessions `connect` has put in place, and those whose central was told
that they are over, each with the call that told it. -/
structure SessionNotes where
  opened : List MockGattConnection := []
  ended : List (Nat × MockGattConnection) := []

namespace LocalRadio

/-- The pair whose central is told, its driver being there. -/
def tells (section_ : RadioSection) (r : LocalRadio) : Option (PeerAddress × PeerAddress) :=
  section_.over_.filter fun pair => decide (pair.1 ∈ r.eventSenders)

end LocalRadio

namespace SessionNotes

/-- A call enters a section. -/
def enter (call : Nat) (r : LocalRadio) (section_ : RadioSection) (h : SessionNotes) : SessionNotes where
  opened := match section_ with
    | .openSession link => h.opened ++ [link]
    | _ => h.opened
  ended := match r.tells section_ with
    | some pair => h.ended ++ (h.opened.filter fun link => decide (link.pair = pair)).map (Prod.mk call)
    | none => h.ended

end SessionNotes

namespace MockNetwork

def note (h : SessionNotes) (s : MockNetwork) (input : MockInput) (_ : MockNetwork) : SessionNotes :=
  match input with
  | .proceed n =>
    match Sectioned.next s.calls n with
    | some (section_, _) => h.enter n s.radio section_
    | none => h
  | _ => h

/-- A turn of a call has no effect, and does not make it succeed. -/
structure Idle (n : Nat) (s t : MockNetwork) : Prop where
  radio : t.radio = s.radio
  failed : ∀ call, t.calls[n]? = some call → hasSucceeded call = false

/-- No operation of a session takes effect or succeeds whose central was told
by another call that it is over. -/
def Respects (h : SessionNotes) (s : MockNetwork) (input : MockInput) (t : MockNetwork) : Prop :=
  ∀ n m call link, input = .proceed n → s.calls[n]? = some call → call.request.link = some link →
    (m, link) ∈ h.ended → m ≠ n → Idle n s t

end MockNetwork

/-! What one section changes. -/

namespace LocalRadio

variable {r : LocalRadio} {section_ : RadioSection} {link : MockGattConnection}

theorem emit_liveSessions (address : PeerAddress) (event : GattEvent) : (r.emit address event).liveSessions = r.liveSessions := by
  unfold emit
  split <;> rfl

theorem emit_nextSession (address : PeerAddress) (event : GattEvent) : (r.emit address event).nextSession = r.nextSession := by
  unfold emit
  split <;> rfl

theorem push_keeps (stream : Nat) (value : Bytes) :
    (r.push stream value).2.liveSessions = r.liveSessions ∧ (r.push stream value).2.nextSession = r.nextSession := by
  unfold push
  split <;> exact ⟨rfl, rfl⟩

theorem send_keeps (address peer : PeerAddress) (characteristic : CharacteristicUuid) (value : Bytes) :
    (r.send address peer characteristic value).2.liveSessions = r.liveSessions ∧
      (r.send address peer characteristic value).2.nextSession = r.nextSession := by
  unfold send
  split
  · exact ⟨rfl, rfl⟩
  · split
    · exact ⟨rfl, rfl⟩
    · split
      · exact ⟨rfl, rfl⟩
      · rename_i stream _
        have kept := @push_keeps r stream value
        split <;> rename_i r' pushed <;> rw [pushed] at kept <;> exact kept

theorem insertSubscriber_keeps (characteristic : CharacteristicUuid) :
    (r.insertSubscriber link characteristic).2.liveSessions = r.liveSessions ∧
      (r.insertSubscriber link characteristic).2.nextSession = r.nextSession := by
  unfold insertSubscriber
  split
  · split
    · exact ⟨rfl, rfl⟩
    · split <;> exact ⟨rfl, rfl⟩
  · exact ⟨rfl, rfl⟩

/-- Only `connect` and the ends of a session write `live_sessions`. -/
theorem act_liveSessions : (r.act section_).1.liveSessions =
    match section_ with
    | .openSession link => Function.update r.liveSessions link.pair (some link.session)
    | .removeSession central peripheral => Function.update r.liveSessions (central, peripheral) none
    | _ => r.liveSessions := by
  cases section_ with
  | emit address event => exact emit_liveSessions address event
  | send address peer characteristic value => exact (send_keeps address peer characteristic value).1
  | insertSubscriber link characteristic =>
    have kept := @insertSubscriber_keeps r link characteristic
    simp only [act]
    split <;> rename_i r' inserted <;> rw [inserted] at kept <;> exact kept.1
  | findPeripheral | requireProperty | readValue | storeValue => simp only [act]; (repeat' split) <;> rfl
  | _ => rfl

theorem act_nextSession : (r.act section_).1.nextSession =
    match section_ with
    | .takeSession _ _ => r.nextSession + 1
    | _ => r.nextSession := by
  cases section_ with
  | emit address event => exact emit_nextSession address event
  | send address peer characteristic value => exact (send_keeps address peer characteristic value).2
  | insertSubscriber link characteristic =>
    have kept := @insertSubscriber_keeps r link characteristic
    simp only [act]
    split <;> rename_i r' inserted <;> rw [inserted] at kept <;> exact kept.2
  | findPeripheral | requireProperty | readValue | storeValue => simp only [act]; (repeat' split) <;> rfl
  | _ => rfl

/-- Where a section leaves other sections than those its call came with. -/
theorem act_go {first : List RadioSection} (turn : (r.act section_).2 = .go first) :
    first = [] ∨
    (∃ central peer, section_ = .takeSession central peer ∧ first = [.openSession ⟨r.nextSession, central, peer⟩]) ∨
    (((∃ address, section_ = .collectServed address) ∨
        ∃ link characteristic, section_ = .insertSubscriber link characteristic ∧ r.isLive link = true) ∧
      ∀ added ∈ first, added.checks = none ∧ added.removes = none ∧ ∀ link, added ≠ .openSession link) := by
  cases section_ with
  | takeSession central peer =>
    cases turn
    exact .inr (.inl ⟨central, peer, rfl, rfl⟩)
  | collectServed address =>
    cases turn
    refine .inr (.inr ⟨.inl ⟨address, rfl⟩, ?_⟩)
    intro added member
    simp only [List.mem_cons, List.mem_flatMap, List.not_mem_nil, or_false] at member
    rcases member with rfl | ⟨peer, _, rfl | rfl⟩ <;> exact ⟨rfl, rfl, by simp⟩
  | insertSubscriber link characteristic =>
    simp only [act, insertSubscriber] at turn
    split at turn
    · rename_i r' stream inserted
      cases turn
      have live : r.isLive link = true := by
        by_contra off
        rw [if_neg off] at inserted
        cases inserted
      refine .inr (.inr ⟨.inr ⟨link, characteristic, rfl, live⟩, ?_⟩)
      intro added member
      simp only [List.mem_cons, List.not_mem_nil, or_false] at member
      rcases member with rfl | rfl <;> exact ⟨rfl, rfl, by simp⟩
    · cases turn
  | _ =>
    simp only [act] at turn
    (repeat' split at turn) <;> first | exact .inl (Sectioned.Turn.go.inj turn).symm | cases turn

/-- A handle that is not the live one of its pair is refused, without effect. -/
theorem act_stale (checks : section_.checks = some link) (stale : r.isLive link = false) :
    (r.act section_).1 = r ∧
      (section_ = .checkDisconnect link ∨ ∃ error, (r.act section_).2 = .end_ (.error error)) ∧
      ∃ result, (r.act section_).2 = .end_ result := by
  cases section_ with
  | checkNotify other | checkDisconnect other | ensureCurrent other =>
    cases checks
    simp [act, stale]
  | insertSubscriber other characteristic =>
    cases checks
    simp [act, insertSubscriber, stale]
  | _ => cases checks

theorem act_requireProperty (peripheral : PeerAddress) (characteristic : CharacteristicUuid)
    (property : CharacteristicProperty) :
    (r.act (.requireProperty peripheral characteristic property)).1 = r ∧
      ((r.act (.requireProperty peripheral characteristic property)).2 = .go [] ∨
        ∃ error, (r.act (.requireProperty peripheral characteristic property)).2 = .end_ (.error error)) := by
  simp only [act]
  split
  · exact ⟨rfl, .inl rfl⟩
  · exact ⟨rfl, .inr ⟨_, rfl⟩⟩

end LocalRadio

/-! What a call goes through. -/

namespace RadioSection

def takes : RadioSection → Bool
  | takeSession _ _ => true
  | _ => false

/-- It leaves its call more to do. -/
def expands : RadioSection → Bool
  | takeSession _ _ | collectServed _ | insertSubscriber _ _ => true
  | _ => false

/-- It never ends its call. -/
def steady : RadioSection → Bool
  | emit _ _ | dropSubscriptions _ _ | removeSession _ _ => true
  | _ => false

end RadioSection

namespace LocalRadio

variable {r : LocalRadio} {section_ : RadioSection} {first : List RadioSection}

theorem act_steady (steady : section_.steady = true) : (r.act section_).2 = .go [] := by
  cases section_ <;> first | rfl | cases steady

/-- What a section leaves its call neither checks nor removes a session. -/
theorem go_quiet (turn : (r.act section_).2 = .go first) :
    first = [] ∨ section_.expands = true ∧ ∀ added ∈ first, added.checks = none ∧ added.removes = none := by
  obtain none_ | ⟨central, peer, rfl, rfl⟩ | ⟨⟨address, rfl⟩ | ⟨link, characteristic, rfl, _⟩, quiet⟩ := act_go turn
  · exact .inl none_
  · refine .inr ⟨rfl, ?_⟩
    intro added member
    cases List.mem_singleton.mp member
    exact ⟨rfl, rfl⟩
  · exact .inr ⟨rfl, fun added member => ⟨(quiet added member).1, (quiet added member).2.1⟩⟩
  · exact .inr ⟨rfl, fun added member => ⟨(quiet added member).1, (quiet added member).2.1⟩⟩

end LocalRadio

namespace RadioRequest

variable {request : RadioRequest} {link : MockGattConnection} {section_ : RadioSection} {ahead rest : List RadioSection}

/-- The check of its session comes first; `subscribe` makes it again. -/
theorem sections_of_link (named : request.link = some link) :
    ∃ check rest, request.sections = check :: rest ∧ check.checks = some link ∧
      ((∀ section_ ∈ rest, section_.checks = none) ∨
        ∃ characteristic, rest = [.requireProperty link.peripheral characteristic .notifiable,
          .insertSubscriber link characteristic]) := by
  cases request with
  | connect | advertise | stopAdvertising => cases named
  | notifyPeer address peer session characteristic value =>
    cases session with
    | none => cases named
    | some session =>
      cases named
      exact ⟨_, [.send address peer characteristic value], rfl, rfl, .inl (by simp [RadioSection.checks])⟩
  | disconnectPeer address peer session =>
    cases session with
    | none => cases named
    | some session =>
      cases named
      exact ⟨_, LocalRadio.disconnectPeer address peer none, rfl, rfl,
        .inl (by simp [LocalRadio.disconnectPeer, RadioSection.checks])⟩
  | read _ _ | writeWithType _ _ _ | disconnect _ =>
    cases named
    exact ⟨_, _, rfl, rfl, .inl (by simp [RadioSection.checks])⟩
  | subscribe _ characteristic =>
    cases named
    exact ⟨_, _, rfl, rfl, .inr ⟨characteristic, rfl⟩⟩

/-- Until it has checked its session for the last time, an operation only
checks it, or looks up the characteristic. -/
theorem head_of_unchecked (named : request.link = some link) (place : (section_ :: ahead) <:+ request.sections)
    (unchecked : ∃ later ∈ section_ :: ahead, later.checks ≠ none) :
    section_.checks = some link ∨
      section_.checks = none ∧ ∃ characteristic, section_ = .requireProperty link.peripheral characteristic .notifiable := by
  obtain ⟨check, rest, eq, checks, shape⟩ := sections_of_link named
  rw [eq] at place
  rcases List.suffix_cons_iff.mp place with whole | inside
  · rw [(List.cons.inj whole).1]
    exact .inl checks
  rcases shape with quiet | ⟨characteristic, rfl⟩
  · obtain ⟨later, member, some_⟩ := unchecked
    exact absurd (quiet later (inside.subset member)) some_
  · simp only [List.suffix_cons_iff, List.cons.injEq, List.suffix_nil, reduceCtorEq, or_false] at inside
    rcases inside with ⟨rfl, _⟩ | ⟨rfl, _⟩
    · exact .inr ⟨rfl, characteristic, rfl⟩
    · exact .inl rfl

theorem expands_dropLast (request : RadioRequest) : ∀ section_ ∈ request.sections.dropLast, section_.expands = false := by
  cases request with
  | notifyPeer address peer session | disconnectPeer address peer session =>
    cases session <;> simp [sections, LocalRadio.notifyPeer, LocalRadio.disconnectPeer, RadioSection.expands]
  | _ => simp [sections, LocalRadio.connect, LocalRadio.advertise, LocalRadio.stopAdvertising, LocalRadio.read,
      LocalRadio.writeWithType, LocalRadio.subscribe, LocalRadio.disconnect, RadioSection.expands]

/-- A section that leaves its call more to do is the last it came with. -/
theorem last_of_expands (place : (section_ :: ahead) <:+ request.sections) (expands : section_.expands = true) :
    ahead = [] := by
  by_contra more
  obtain ⟨before, eq⟩ := place
  have early : section_ ∈ request.sections.dropLast := by
    rw [← eq, List.dropLast_append_of_ne_nil (List.cons_ne_nil _ _), List.dropLast_cons_of_ne_nil more]
    simp
  have off := request.expands_dropLast section_ early
  rw [expands] at off
  cases off

/-- What is ahead of a call that has a section behind it. -/
theorem suffix_of_behind {sections : List RadioSection} (place : ahead <:+ sections) (told : (section_ :: rest) <:+ sections)
    (behind : section_ ∉ ahead) : ahead <:+ rest := by
  rcases List.suffix_or_suffix_of_suffix place told with inside | around
  · rcases List.suffix_cons_iff.mp inside with rfl | later
    · exact absurd List.mem_cons_self behind
    · exact later
  · exact absurd (around.subset List.mem_cons_self) behind

/-- A call that is yet to remove a session whose central it has told has no
section ahead that could end it. -/
theorem steady_of_leaving {pair : PeerAddress × PeerAddress} (place : ahead <:+ request.sections)
    (going : leaving pair ahead = true) : ∀ section_ ∈ ahead, section_.steady = true := by
  have removal : ∃ removal ∈ request.sections, removal.removes = some pair := by
    obtain ⟨any, _⟩ := (Bool.and_eq_true_iff).mp going
    obtain ⟨removal, member, same⟩ := List.any_eq_true.mp any
    exact ⟨removal, place.subset member, of_decide_eq_true same⟩
  have untold : ∀ told ∈ ahead, told.over_ ≠ some pair := by
    intro told member
    exact of_decide_eq_true (List.all_eq_true.mp ((Bool.and_eq_true_iff).mp going).2 told member)
  cases request with
  | disconnectPeer address peer session =>
    have same : pair = (peer, address) := by
      cases session <;>
        simpa [sections, LocalRadio.disconnectPeer, RadioSection.removes, eq_comm] using removal
    have told : [.emit peer (.disconnected address .central none), .emit address (.disconnected peer .peripheral none),
        .dropSubscriptions address peer, .removeSession peer address] <:+ (disconnectPeer address peer session).sections :=
      List.suffix_append _ _
    have later := suffix_of_behind place told fun member => untold _ member (by rw [same]; rfl)
    intro section_ member
    have inside := later.subset member
    simp only [List.mem_cons, List.not_mem_nil, or_false] at inside
    rcases inside with rfl | rfl | rfl <;> rfl
  | disconnect link =>
    have same : pair = link.pair := by
      simpa [sections, LocalRadio.disconnect, RadioSection.removes, eq_comm] using removal
    have told : [.emit link.central (.disconnected link.peripheral .central none)] <:+ (disconnect link).sections :=
      List.suffix_append [_, _, _, _, _] [_]
    have later := suffix_of_behind place told fun member => untold _ member (by rw [same]; rfl)
    rw [List.suffix_nil.mp later]
    simp
  | notifyPeer address peer session => cases session <;> simp [sections, LocalRadio.notifyPeer, RadioSection.removes] at removal
  | _ => simp [sections, LocalRadio.connect, LocalRadio.advertise, LocalRadio.stopAdvertising, LocalRadio.read,
      LocalRadio.writeWithType, LocalRadio.subscribe, RadioSection.removes] at removal

theorem succeeded_error (request : RadioRequest) (error : BleError) : request.succeeded (.error error) = false := by
  cases request <;> rfl

/-- Only `disconnect_peer` makes its check. -/
theorem succeeded_of_checkDisconnect (member : .checkDisconnect link ∈ request.sections)
    (result : Except BleError RadioReply) : request.succeeded result = false := by
  cases request with
  | disconnectPeer => rfl
  | notifyPeer address peer session => cases session <;> simp [sections, LocalRadio.notifyPeer] at member
  | _ => simp [sections, LocalRadio.connect, LocalRadio.advertise, LocalRadio.stopAdvertising, LocalRadio.read,
      LocalRadio.writeWithType, LocalRadio.subscribe, LocalRadio.disconnect] at member

end RadioRequest

end BleGatt
