import BleGatt.Drivers.MockSessions

namespace BleGatt
open Std

/-! The mock rejects a stale handle unless `stop_advertising` tells a central
that its link is over: it leaves the session in `live_sessions`. -/

namespace MockNetwork

/-- A call may enter a section: the counter does not come round; a central is
told that its link is over once its session is removed, or by the call that
removes it, and while no other operation of the pair is between its check and
its end; and no check of the pair's session is made before that removal. -/
structure Ready (s : MockNetwork) (n : Nat) (section_ : RadioSection) (rest : List RadioSection) : Prop where
  counted : ∀ central peer, section_ = .takeSession central peer → s.radio.nextSession.toNat + 1 < UInt64.size
  removed : ∀ pair, s.radio.tells section_ = some pair → s.radio.liveSessions pair = none ∨ leaving pair rest = true
  alone : ∀ pair, s.radio.tells section_ = some pair → ∀ m call link, s.calls[m]? = some call → m ≠ n →
    call.request.link = some link → link.pair = pair → pastCheck call = false
  gone : ∀ link, section_.checks = some link → s.radio.isLive link = true → ∀ m call, s.calls[m]? = some call → m ≠ n →
    leaving link.pair call.ahead = false

/-- The network once a call has gone through its next section. -/
def turned (s : MockNetwork) (n : Nat) (call : RadioCall) (section_ : RadioSection) (rest : List RadioSection) :
    MockNetwork where
  radio := (s.radio.act section_).1
  calls := s.calls.set n ⟨call.request, localRadio.after rest (s.radio.act section_).2⟩

/-- What one input can do. -/
inductive Stepped (s : MockNetwork) : MockInput → MockNetwork → Prop
  | turned {n : Nat} {call : RadioCall} {section_ : RadioSection} {rest : List RadioSection}
      (here : s.calls[n]? = some call) (ahead : call.ahead = section_ :: rest) :
      Stepped s (.proceed n) (s.turned n call section_ rest)
  | begun (request : RadioRequest) : Stepped s (.begin_ request) { s with calls := localRadio.start request s.calls }
  | other {input : MockInput} {radio : LocalRadio} (counter : radio.nextSession = s.radio.nextSession)
      (live : radio.liveSessions = s.radio.liveSessions) (apart : ∀ n, input ≠ .proceed n) :
      Stepped s input { s with radio := radio }

theorem step_cases {s t : MockNetwork} {input : MockInput} (stepped : s.step input = some t) : Stepped s input t := by
  cases input with
  | register address =>
    cases stepped
    exact .other rfl rfl (by simp)
  | begin_ request =>
    cases stepped
    exact .begun request
  | proceed n =>
    obtain ⟨⟨radio, calls⟩, proceeded, rfl⟩ := Option.map_eq_some_iff.mp stepped
    obtain ⟨call, section_, rest, turn, here, ahead, acted, rfl⟩ := Sectioned.proceed_cases proceeded
    have acted : s.radio.act section_ = (radio, turn) := Option.some.inj acted
    have same : s.turned n call section_ rest = ⟨radio, s.calls.set n ⟨call.request, localRadio.after rest turn⟩⟩ := by
      rw [turned, acted]
    rw [← same]
    exact .turned here ahead
  | dropStream stream =>
    cases stepped
    exact .other rfl rfl (by simp)

theorem note_turned {h : SessionNotes} {s t : MockNetwork} {n : Nat} {call : RadioCall} {section_ : RadioSection}
    {rest : List RadioSection} (here : s.calls[n]? = some call) (ahead : call.ahead = section_ :: rest) :
    note h s (.proceed n) t = h.enter n s.radio section_ := by
  simp only [note, Sectioned.next_eq_some.mpr ⟨call, here, ahead⟩]

theorem note_other {h : SessionNotes} {s t : MockNetwork} {input : MockInput} (apart : ∀ n, input ≠ .proceed n) :
    note h s input t = h := by
  cases input with
  | proceed n => exact absurd rfl (apart n)
  | _ => rfl

end MockNetwork

namespace SessionNotes

variable {h : SessionNotes} {n m : Nat} {r : LocalRadio} {section_ : RadioSection} {link : MockGattConnection}

theorem mem_opened : link ∈ (h.enter n r section_).opened ↔ link ∈ h.opened ∨ section_ = .openSession link := by
  cases section_ with
  | openSession other => simp [enter, eq_comm]
  | _ => simp [enter]

theorem mem_ended : (m, link) ∈ (h.enter n r section_).ended ↔
    (m, link) ∈ h.ended ∨ m = n ∧ link ∈ h.opened ∧ r.tells section_ = some link.pair := by
  unfold enter
  cases told : r.tells section_ with
  | none => simp
  | some pair =>
    simp only [List.mem_append, List.mem_map, List.mem_filter, decide_eq_true_eq, Prod.mk.injEq, Option.some.injEq]
    constructor
    · rintro (old | ⟨other, ⟨member, same⟩, rfl, rfl⟩)
      · exact .inl old
      · exact .inr ⟨rfl, member, same.symm⟩
    · rintro (old | ⟨rfl, member, same⟩)
      · exact .inl old
      · exact .inr ⟨link, ⟨member, same.symm⟩, rfl, rfl⟩

end SessionNotes

/-! A session number is given out once. -/

/-- A call is about to put a session in place. -/
def Coming (s : MockNetwork) (n : Nat) (link : MockGattConnection) : Prop :=
  ∃ call, s.calls[n]? = some call ∧ .openSession link ∈ call.ahead

structure Numbered (h : SessionNotes) (s : MockNetwork) : Prop where
  opened : ∀ link ∈ h.opened, link.session.toNat < s.radio.nextSession.toNat
  coming : ∀ n link, Coming s n link → link.session.toNat < s.radio.nextSession.toNat
  fresh : ∀ n link, Coming s n link → ∀ other ∈ h.opened, other.session ≠ link.session
  apart : ∀ n m link other, Coming s n link → Coming s m other → link.session = other.session → n = m

theorem RadioRequest.not_opens (request : RadioRequest) (link : MockGattConnection) :
    .openSession link ∉ request.sections := by
  cases request with
  | notifyPeer address peer session | disconnectPeer address peer session =>
    cases session <;> simp [sections, LocalRadio.notifyPeer, LocalRadio.disconnectPeer]
  | _ => simp [sections, LocalRadio.connect, LocalRadio.advertise, LocalRadio.stopAdvertising, LocalRadio.read,
      LocalRadio.writeWithType, LocalRadio.subscribe, LocalRadio.disconnect]

namespace Coming

variable {s : MockNetwork} {n m : Nat} {call : RadioCall} {section_ : RadioSection} {rest : List RadioSection}
  {link : MockGattConnection}

theorem of_begun {request : RadioRequest}
    (coming : Coming { s with calls := localRadio.start request s.calls } m link) : Coming s m link := by
  obtain ⟨found, there, member⟩ := coming
  obtain old | ⟨_, _, ahead⟩ := Sectioned.of_start there
  · exact ⟨found, old, member⟩
  · rw [ahead] at member
    exact absurd member (request.not_opens link)

/-- A number that is to be put in place after a turn was so before it, or was
just taken. -/
theorem of_turned (here : s.calls[n]? = some call) (ahead : call.ahead = section_ :: rest)
    (coming : Coming (s.turned n call section_ rest) m link) :
    Coming s m link ∨ m = n ∧ section_ = .takeSession link.central link.peripheral ∧ link.session = s.radio.nextSession := by
  obtain ⟨found, there, member⟩ := coming
  obtain ⟨rfl, rfl⟩ | ⟨_, there⟩ := TaskList.of_set there
  · cases turn : (s.radio.act section_).2 with
    | end_ result =>
      rw [turn] at member
      cases member
    | go first =>
      rw [turn] at member
      have split_ : .openSession link ∈ first ++ rest := by
        rw [← Sectioned.ahead_go (P := localRadio) first]
        exact member
      rcases List.mem_append.mp split_ with added | later
      · obtain rfl | ⟨central, peer, rfl, rfl⟩ | ⟨_, none_⟩ := LocalRadio.act_go turn
        · cases added
        · cases List.mem_singleton.mp added
          exact .inr ⟨rfl, rfl, rfl⟩
        · exact absurd rfl ((none_ _ added).2.2 link)
      · exact .inl ⟨call, here, ahead ▸ List.mem_cons_of_mem _ later⟩
  · exact .inl ⟨found, there, member⟩

/-- The call that has put its session in place has returned. -/
theorem not_opened {placed : MockGattConnection} (here : s.calls[n]? = some call) :
    ¬Coming (s.turned n call (.openSession placed) rest) n link := by
  rintro ⟨found, there, member⟩
  rw [MockNetwork.turned, TaskList.getElem?_set_self here] at there
  cases there
  cases member

end Coming

namespace Numbered

variable {h : SessionNotes} {s t : MockNetwork} {input : MockInput}

theorem start : Numbered {} {} := by
  have none_ : ∀ n link, ¬Coming {} n link := by
    rintro n link ⟨call, there, _⟩
    simp at there
  exact ⟨by simp, fun n link coming => absurd coming (none_ n link), fun n link coming => absurd coming (none_ n link),
    fun n m link _ coming => absurd coming (none_ n link)⟩

theorem begun (numbered : Numbered h s) (request : RadioRequest) :
    Numbered h { s with calls := localRadio.start request s.calls } where
  opened := numbered.opened
  coming n link coming := numbered.coming n link coming.of_begun
  fresh n link coming := numbered.fresh n link coming.of_begun
  apart n m link other coming coming' := numbered.apart n m link other coming.of_begun coming'.of_begun

theorem other {radio : LocalRadio} (numbered : Numbered h s) (counter : radio.nextSession = s.radio.nextSession) :
    Numbered h { s with radio := radio } where
  opened := counter ▸ numbered.opened
  coming := counter ▸ numbered.coming
  fresh := numbered.fresh
  apart := numbered.apart

section Turned

variable {n : Nat} {call : RadioCall} {section_ : RadioSection} {rest : List RadioSection}

theorem toNat_next {session : UInt64} (room : session.toNat + 1 < UInt64.size) : (session + 1).toNat = session.toNat + 1 := by
  rw [UInt64.toNat_add, UInt64.toNat_one]
  exact Nat.mod_eq_of_lt room

/-- The counter only goes up, unless it comes round. -/
theorem counter_le (ready : ∀ central peer, section_ = .takeSession central peer → s.radio.nextSession.toNat + 1 < UInt64.size) :
    s.radio.nextSession.toNat ≤ (s.radio.act section_).1.nextSession.toNat := by
  rw [LocalRadio.act_nextSession]
  split
  · rename_i central peer
    have room := ready central peer rfl
    rw [toNat_next room]
    exact Nat.le_succ _
  · exact Nat.le_refl _

theorem turned (numbered : Numbered h s) (here : s.calls[n]? = some call) (ahead : call.ahead = section_ :: rest)
    (ready : ∀ central peer, section_ = .takeSession central peer → s.radio.nextSession.toNat + 1 < UInt64.size) :
    Numbered (h.enter n s.radio section_) (s.turned n call section_ rest) where
  opened link member := by
    have up := counter_le ready
    rcases SessionNotes.mem_opened.mp member with old | rfl
    · exact Nat.lt_of_lt_of_le (numbered.opened link old) up
    · exact Nat.lt_of_lt_of_le (numbered.coming n link ⟨call, here, ahead ▸ List.mem_cons_self⟩) up
  coming m link coming := by
    have up := counter_le ready
    rcases coming.of_turned here ahead with old | ⟨_, taken, number⟩
    · exact Nat.lt_of_lt_of_le (numbered.coming m link old) up
    · have room := ready _ _ taken
      rw [number, MockNetwork.turned, LocalRadio.act_nextSession, taken]
      simp only [toNat_next room]
      exact Nat.lt_succ_self _
  fresh m link coming other member same := by
    rcases SessionNotes.mem_opened.mp member with old | rfl
    · rcases coming.of_turned here ahead with was | ⟨_, _, number⟩
      · exact numbered.fresh m link was other old same
      · have below := numbered.opened other old
        rw [same, number] at below
        exact Nat.lt_irrefl _ below
    · -- The call that puts `other` in place is the only one that had its number.
      rcases coming.of_turned here ahead with was | ⟨_, taken, _⟩
      · have mine : Coming s n other := ⟨call, here, ahead ▸ List.mem_cons_self⟩
        cases numbered.apart n m other link mine was same
        exact Coming.not_opened here coming
      · cases taken
  apart m m' link other coming coming' same := by
    rcases coming.of_turned here ahead with was | ⟨rfl, _, number⟩ <;>
      rcases coming'.of_turned here ahead with was' | ⟨rfl, _, number'⟩
    · exact numbered.apart m m' link other was was' same
    · have below := numbered.coming m link was
      rw [same, number'] at below
      exact absurd below (Nat.lt_irrefl _)
    · have below := numbered.coming m' other was'
      rw [← same, number] at below
      exact absurd below (Nat.lt_irrefl _)
    · rfl

end Turned

end Numbered

/-- Where a call can be: at the sections it came with, or, once it has made its
checks and removals, at what these left it. -/
def Placed (call : RadioCall) : Prop :=
  call.ahead <:+ call.request.sections ∨ ∀ section_ ∈ call.ahead, section_.checks = none ∧ section_.removes = none

theorem Placed.turn {call : RadioCall} {section_ : RadioSection} {rest : List RadioSection} {r : LocalRadio}
    (placed : Placed call) (ahead : call.ahead = section_ :: rest) :
    Placed ⟨call.request, localRadio.after rest (r.act section_).2⟩ := by
  cases turn : (r.act section_).2 with
  | end_ result => exact .inr (by simp [Sectioned.Call.ahead, Sectioned.ahead_end])
  | go first =>
    have now : (Sectioned.Call.mk call.request (localRadio.after rest (.go first))).ahead = first ++ rest :=
      Sectioned.ahead_go first
    unfold Placed
    rw [now]
    rcases placed with place | quiet
    · rw [ahead] at place
      rcases LocalRadio.go_quiet turn with rfl | ⟨expands, added⟩
      · exact .inl ((List.suffix_cons section_ rest).trans place)
      · rw [RadioRequest.last_of_expands place expands, List.append_nil]
        exact .inr added
    · rw [ahead] at quiet
      refine .inr ?_
      intro later member
      rcases List.mem_append.mp member with new | old
      · rcases LocalRadio.go_quiet turn with rfl | ⟨_, added⟩
        · cases new
        · exact added later new
      · exact quiet later (List.mem_cons_of_mem _ old)

/-- What holds of a session whose central was told that it is over. -/
structure Over (h : SessionNotes) (s : MockNetwork) : Prop where
  placed : TaskList.Each (fun _ => Placed) s.calls
  opened : ∀ m link, (m, link) ∈ h.ended → link ∈ h.opened
  /-- It is not live, but for the removal that its call is yet to make. -/
  gone : ∀ m link, (m, link) ∈ h.ended → s.radio.isLive link = true →
    ∃ call, s.calls[m]? = some call ∧ leaving link.pair call.ahead = true
  /-- No other operation of it is between its check and its end. -/
  past : ∀ m link, (m, link) ∈ h.ended → ∀ n call, s.calls[n]? = some call → n ≠ m → call.request.link = some link →
    pastCheck call = false

namespace Over

variable {h : SessionNotes} {s : MockNetwork} {n : Nat} {call : RadioCall} {section_ : RadioSection}
  {rest : List RadioSection} {m : Nat} {link : MockGattConnection}

theorem start : Over {} {} where
  placed := by
    intro n call there
    simp at there
  opened := by simp
  gone := by simp
  past := by simp

/-- An operation that is not past its check has one ahead. -/
theorem unchecked_of (checked : pastCheck call = false) (ahead : call.ahead = section_ :: rest) :
    ∃ later ∈ section_ :: rest, later.checks ≠ none := by
  by_contra none_
  push Not at none_
  have past : pastCheck call = true := by
    unfold pastCheck
    rw [ahead]
    simpa using none_
  rw [past] at checked
  cases checked

/-- An operation of a session that is over has only looked up its
characteristic, and is about to be refused. -/
theorem refused (over_ : Over h s) (here : s.calls[n]? = some call) (ahead : call.ahead = section_ :: rest)
    (ready : s.Ready n section_ rest) (named : call.request.link = some link) (ended : (m, link) ∈ h.ended) (apart : m ≠ n) :
    section_ :: rest <:+ call.request.sections ∧ (∃ later ∈ section_ :: rest, later.checks ≠ none) ∧
      (section_.checks = some link ∧ s.radio.isLive link = false ∨
        section_.checks = none ∧ ∃ characteristic, section_ = .requireProperty link.peripheral characteristic .notifiable) := by
  have unchecked := unchecked_of (over_.past m link ended n call here (Ne.symm apart) named) ahead
  have place : section_ :: rest <:+ call.request.sections := by
    rcases over_.placed n call here with place | quiet
    · exact ahead ▸ place
    · obtain ⟨later, member, some_⟩ := unchecked
      exact absurd (quiet later (ahead ▸ member)).1 some_
  refine ⟨place, unchecked, ?_⟩
  rcases RadioRequest.head_of_unchecked named place unchecked with checks | lookup
  · refine .inl ⟨checks, ?_⟩
    by_contra live
    rw [Bool.not_eq_false] at live
    obtain ⟨teller, there, going⟩ := over_.gone m link ended live
    have still := ready.gone link checks live m teller there apart
    rw [going] at still
    cases still
  · exact .inr lookup

theorem begun (over_ : Over h s) (request : RadioRequest) :
    Over h { s with calls := localRadio.start request s.calls } where
  placed := by
    refine over_.placed.start (.inl ?_)
    rw [Sectioned.Call.ahead, Sectioned.ahead_stage]
    exact List.suffix_rfl
  opened := over_.opened
  gone m link ended live := by
    obtain ⟨teller, there, going⟩ := over_.gone m link ended live
    exact ⟨teller, TaskList.getElem?_append_of there _, going⟩
  past m link ended n call there apart named := by
    obtain old | ⟨_, same, ahead⟩ := Sectioned.of_start there
    · exact over_.past m link ended n call old apart named
    · obtain ⟨check, rest, eq, checks, _⟩ := RadioRequest.sections_of_link named
      have sections : call.ahead = check :: rest := ahead.trans (same ▸ eq)
      simp [pastCheck, sections, checks]

theorem other {radio : LocalRadio} (over_ : Over h s) (live : radio.liveSessions = s.radio.liveSessions) :
    Over h { s with radio := radio } where
  placed := over_.placed
  opened := over_.opened
  gone m link ended on := over_.gone m link ended (by rwa [LocalRadio.isLive, live] at on)
  past := over_.past

/-- A turn leaves no session live that was not. -/
theorem live_before (numbered : Numbered h s) (here : s.calls[n]? = some call) (ahead : call.ahead = section_ :: rest)
    (opened : link ∈ h.opened) (live : (s.radio.act section_).1.isLive link = true) :
    s.radio.isLive link = true ∧ section_.removes ≠ some link.pair := by
  have after := of_decide_eq_true live
  rw [LocalRadio.act_liveSessions] at after
  split at after
  · rename_i placed
    rw [Function.update_apply] at after
    split at after
    · have coming : Coming s n placed := ⟨call, here, ahead ▸ List.mem_cons_self⟩
      exact absurd (Option.some.inj after).symm (numbered.fresh n placed coming link opened)
    · exact ⟨decide_eq_true after, by simp [RadioSection.removes]⟩
  · rename_i central peripheral
    rw [Function.update_apply] at after
    split at after
    · cases after
    · rename_i other
      exact ⟨decide_eq_true after, fun same => other (Option.some.inj same).symm⟩
  · rename_i removal
    refine ⟨decide_eq_true after, ?_⟩
    cases section_ with
    | removeSession central peripheral => exact absurd rfl (removal central peripheral)
    | _ => simp [RadioSection.removes]

/-- The call that told the central keeps its removal ahead. -/
theorem leaving_turned (placed : Placed call) (ahead : call.ahead = section_ :: rest)
    (going : leaving link.pair call.ahead = true) (kept : section_.removes ≠ some link.pair) :
    leaving link.pair (localRadio.after rest (s.radio.act section_).2).ahead = true := by
  obtain ⟨removal, untold⟩ := Bool.and_eq_true_iff.mp going
  have place : call.ahead <:+ call.request.sections := by
    rcases placed with place | quiet
    · exact place
    · obtain ⟨later, member, same⟩ := List.any_eq_true.mp removal
      rw [(quiet later member).2] at same
      cases of_decide_eq_true same
  have steady := RadioRequest.steady_of_leaving place going section_ (ahead ▸ List.mem_cons_self)
  rw [LocalRadio.act_steady steady, Sectioned.ahead_go, List.nil_append]
  rw [ahead] at removal untold
  simp only [List.any_cons, List.all_cons, Bool.or_eq_true, Bool.and_eq_true, decide_eq_true_eq] at removal untold
  exact Bool.and_eq_true_iff.mpr ⟨removal.resolve_left kept, untold.2⟩

theorem turned (numbered : Numbered h s) (over_ : Over h s) (here : s.calls[n]? = some call)
    (ahead : call.ahead = section_ :: rest) (ready : s.Ready n section_ rest) :
    Over (h.enter n s.radio section_) (s.turned n call section_ rest) where
  placed := over_.placed.set ((over_.placed n call here).turn ahead)
  opened m link ended := by
    rcases SessionNotes.mem_ended.mp ended with old | ⟨_, opened, _⟩
    · exact SessionNotes.mem_opened.mpr (.inl (over_.opened m link old))
    · exact SessionNotes.mem_opened.mpr (.inl opened)
  gone m link ended live := by
    rcases SessionNotes.mem_ended.mp ended with old | ⟨rfl, opened, told⟩
    · obtain ⟨before, kept⟩ := live_before numbered here ahead (over_.opened m link old) live
      obtain ⟨teller, there, going⟩ := over_.gone m link old before
      by_cases same : m = n
      · subst same
        cases here.symm.trans there
        exact ⟨_, TaskList.getElem?_set_self here, leaving_turned (over_.placed m call here) ahead going kept⟩
      · exact ⟨teller, by rw [MockNetwork.turned, TaskList.getElem?_set here, if_neg same, there], going⟩
    · obtain ⟨before, _⟩ := live_before numbered here ahead opened live
      rcases ready.removed link.pair told with none_ | going
      · have some_ := of_decide_eq_true before
        rw [none_] at some_
        cases some_
      · -- The section that tells the central leaves the rest to its call.
        refine ⟨_, TaskList.getElem?_set_self here, ?_⟩
        have steady : section_.steady = true := by
          cases section_ <;> first | rfl | simp [LocalRadio.tells, RadioSection.over_] at told
        rw [Sectioned.Call.ahead, LocalRadio.act_steady steady, Sectioned.ahead_go]
        exact going
  past m link ended k other there apart named := by
    rcases SessionNotes.mem_ended.mp ended with old | ⟨rfl, _, told⟩
    · obtain ⟨rfl, rfl⟩ | ⟨_, there⟩ := TaskList.of_set there
      · obtain ⟨_, ⟨later, member, some_⟩, head⟩ := over_.refused here ahead ready named old (Ne.symm apart)
        rcases head with ⟨checks, stale⟩ | ⟨unchecked, characteristic, rfl⟩
        · obtain ⟨_, _, result, turn⟩ := LocalRadio.act_stale checks stale
          simp [pastCheck, Sectioned.Call.ahead, turn, Sectioned.ahead_end]
        · obtain ⟨_, turn | ⟨error, turn⟩⟩ := @LocalRadio.act_requireProperty s.radio link.peripheral characteristic .notifiable
          · have inside : later ∈ rest := by
              rcases List.mem_cons.mp member with rfl | inside
              · exact absurd unchecked some_
              · exact inside
            have found : ¬rest.all (fun section_ => section_.checks.isNone) = true := by
              rw [List.all_eq_true]
              intro none_
              exact some_ (Option.isNone_iff_eq_none.mp (none_ later inside))
            simp only [pastCheck, Sectioned.Call.ahead, turn, Sectioned.ahead_go, List.nil_append, found, Bool.and_false]
          · simp [pastCheck, Sectioned.Call.ahead, turn, Sectioned.ahead_end]
      · exact over_.past m link old k other there apart named
    · obtain ⟨rfl, _⟩ | ⟨_, there⟩ := TaskList.of_set there
      · exact absurd rfl apart
      · exact ready.alone link.pair told k other link there apart named rfl

end Over

namespace MockNetwork

theorem ready_iff {s : MockNetwork} {n : Nat} {section_ : RadioSection} {rest : List RadioSection} :
    s.Ready n section_ rest ↔
      (section_.takes = true → s.radio.nextSession.toNat + 1 < UInt64.size) ∧
      (∀ pair ∈ s.radio.tells section_, s.radio.liveSessions pair = none ∨ leaving pair rest = true) ∧
      (∀ pair ∈ s.radio.tells section_, ∀ m < s.calls.length, m ≠ n → ∀ call ∈ s.calls[m]?, ∀ link ∈ call.request.link,
        link.pair = pair → pastCheck call = false) ∧
      ∀ link ∈ section_.checks, s.radio.isLive link = true → ∀ m < s.calls.length, m ≠ n → ∀ call ∈ s.calls[m]?,
        leaving link.pair call.ahead = false := by
  constructor
  · intro ready
    refine ⟨?_, ready.removed, ?_, ?_⟩
    · intro takes
      cases section_ with
      | takeSession central peer => exact ready.counted central peer rfl
      | _ => cases takes
    · intro pair told m _ apart call there link named same
      exact ready.alone pair told m call link there apart named same
    · intro link checks live m _ apart call there
      exact ready.gone link checks live m call there apart
  · rintro ⟨counted, removed, alone, gone⟩
    refine ⟨?_, removed, ?_, ?_⟩
    · rintro central peer rfl
      exact counted rfl
    · intro pair told m call link there apart named same
      exact alone pair told m (TaskList.lt_length there) apart call there link named same
    · intro link checks live m call there apart
      exact gone link checks live m (TaskList.lt_length there) apart call there

instance {s : MockNetwork} {n : Nat} {section_ : RadioSection} {rest : List RadioSection} :
    Decidable (s.Ready n section_ rest) := decidable_of_iff _ ready_iff.symm

/-- A call may enter the section that is next. -/
def Fits (_ : SessionNotes) (s : MockNetwork) : MockInput → Prop
  | .proceed n => ∀ entered ∈ Sectioned.next s.calls n, s.Ready n entered.1 entered.2
  | _ => True

instance {h : SessionNotes} {s : MockNetwork} {input : MockInput} : Decidable (Fits h s input) := by
  cases input <;> unfold Fits <;> infer_instance

theorem Fits.ready {h : SessionNotes} {s : MockNetwork} {n : Nat} {call : RadioCall} {section_ : RadioSection}
    {rest : List RadioSection} (fits : Fits h s (.proceed n)) (here : s.calls[n]? = some call)
    (ahead : call.ahead = section_ :: rest) : s.Ready n section_ rest :=
  fits (section_, rest) (Sectioned.next_eq_some.mpr ⟨call, here, ahead⟩)

/-- A turn that keeps the radio, and after which its call has not succeeded. -/
theorem idle {s : MockNetwork} {n : Nat} {call : RadioCall} {section_ : RadioSection} {rest : List RadioSection}
    (here : s.calls[n]? = some call) (kept : (s.radio.act section_).1 = s.radio)
    (failed : hasSucceeded ⟨call.request, localRadio.after rest (s.radio.act section_).2⟩ = false) :
    Idle n s (s.turned n call section_ rest) := by
  refine ⟨kept, ?_⟩
  intro after there
  rw [turned, TaskList.getElem?_set_self here] at there
  cases there
  exact failed

theorem run_over {h : SessionNotes} {s : MockNetwork} (run : machine.Run Fits note {} h s) : Numbered h s ∧ Over h s := by
  refine Machine.Run.invariant (P := fun h s => Numbered h s ∧ Over h s) ?_ ?_ run
  · rintro s rfl
    exact ⟨.start, .start⟩
  · rintro h s input t _ ⟨numbered, over_⟩ fits stepped
    cases step_cases stepped with
    | begun request => exact ⟨numbered.begun request, over_.begun request⟩
    | other counter live apart =>
      rw [note_other apart]
      exact ⟨numbered.other counter, over_.other live⟩
    | turned here ahead =>
      have ready := fits.ready here ahead
      rw [note_turned here ahead]
      exact ⟨numbered.turned here ahead ready.counted, over_.turned numbered here ahead ready⟩

/-- In a run whose calls enter each section under the condition, an operation of
a session that is over has no effect and does not succeed. -/
theorem run_respects {h : SessionNotes} {s t : MockNetwork} {input : MockInput} (run : machine.Run Fits note {} h s)
    (fits : Fits h s input) (stepped : s.step input = some t) : Respects h s input t := by
  rintro n m call link rfl here named ended apart
  obtain ⟨_, over_⟩ := run_over run
  generalize same : MockInput.proceed n = input at stepped fits
  cases step_cases stepped with
  | begun request => cases same
  | other counter live other => exact absurd same.symm (other n)
  | @turned k found section_ rest there ahead =>
    cases same
    cases here.symm.trans there
    obtain ⟨place, ⟨later, member, some_⟩, head⟩ := over_.refused here ahead (fits.ready here ahead) named ended apart
    rcases head with ⟨checks, stale⟩ | ⟨unchecked, characteristic, rfl⟩
    · obtain ⟨kept, refusal, result, turn⟩ := LocalRadio.act_stale checks stale
      refine idle here kept ?_
      rcases refusal with rfl | ⟨error, refused⟩
      · rw [turn]
        exact RadioRequest.succeeded_of_checkDisconnect (place.subset List.mem_cons_self) result
      · rw [refused]
        exact RadioRequest.succeeded_error _ _
    · obtain ⟨kept, turn | ⟨error, refused⟩⟩ := @LocalRadio.act_requireProperty s.radio link.peripheral characteristic .notifiable
      · refine idle here kept ?_
        obtain ⟨first, more, rfl⟩ : ∃ first more, rest = first :: more := by
          rcases List.mem_cons.mp member with rfl | inside
          · exact absurd unchecked some_
          · exact List.exists_cons_of_ne_nil (List.ne_nil_of_mem inside)
        rw [turn]
        rfl
      · refine idle here kept ?_
        rw [refused]
        exact RadioRequest.succeeded_error _ _

/-- A peripheral with one characteristic. -/
def soleService : GattServiceSpec :=
  { uuid := ⟨1⟩, characteristics := [{ uuid := ⟨2⟩, readable := true, writable := true, notifiable := true, initialValue := [7] }] }

/-- The first session between the two. -/
def firstLink : MockGattConnection := ⟨0, ⟨"central"⟩, ⟨"peripheral"⟩⟩

/-- A call that no other interrupts. -/
def whole (call : Nat) (request : RadioRequest) (turns : Nat) : List MockInput :=
  .begin_ request :: List.replicate turns (.proceed call)

/-- The central connects and subscribes. -/
def subscribed : List MockInput :=
  [.register ⟨"central"⟩, .register ⟨"peripheral"⟩] ++ whole 0 (.advertise ⟨"peripheral"⟩ soleService) 1 ++
    whole 1 (.connect ⟨"central"⟩ ⟨"peripheral"⟩) 4 ++ whole 2 (.subscribe firstLink ⟨2⟩) 5

/-- The peripheral disconnects the central, which connects again: its first
handle reads nothing. -/
theorem run_respects_replaced : ∃ h s t, machine.Run Fits note {} h s ∧ s.step (.proceed 5) = some t ∧
    (3, firstLink) ∈ h.ended ∧ Idle 5 s t := by
  obtain ⟨h, s, run, reached⟩ := Machine.Run.exists_of_follow machine Fits note {}
    (fun h s => h.ended.contains (3, firstLink) &&
      (s.calls[5]?).any (fun call : RadioCall => call.request.link == some firstLink) &&
      decide (Fits h s (.proceed 5)) && (s.step (.proceed 5)).isSome) (s := {}) rfl
    (subscribed ++ whole 3 (.disconnectPeer ⟨"peripheral"⟩ ⟨"central"⟩ (some 0)) 5 ++
      whole 4 (.connect ⟨"central"⟩ ⟨"peripheral"⟩) 4 ++ whole 5 (.read firstLink ⟨2⟩) 0) (by decide +kernel)
  simp only [Bool.and_eq_true, List.contains_iff_mem, Option.any_eq_true, beq_iff_eq, decide_eq_true_eq,
    Option.isSome_iff_exists] at reached
  obtain ⟨⟨⟨ended, call, here, named⟩, fits⟩, t, stepped⟩ := reached
  exact ⟨h, s, t, run, stepped, ended, run_respects run fits stepped 5 3 call firstLink rfl here named ended (by decide)⟩

/-- The peripheral stops and starts to advertise: the central was told that its
link is over, and reads through it. -/
theorem not_respects : ¬∀ h s input t, machine.Run (fun _ _ _ => True) note {} h s → s.step input = some t →
    Respects h s input t := by
  intro respects
  obtain ⟨h, s, run, reached⟩ := Machine.Run.exists_of_follow machine (fun _ _ _ => True) note {}
    (fun h s => h.ended.contains (3, firstLink) &&
      (s.calls[5]?).any (fun call : RadioCall => call.request.link == some firstLink) &&
      (s.step (.proceed 5)).any fun t : MockNetwork => (t.calls[5]?).any hasSucceeded) (s := {}) rfl
    (subscribed ++ whole 3 (.stopAdvertising ⟨"peripheral"⟩) 4 ++ whole 4 (.advertise ⟨"peripheral"⟩ soleService) 1 ++
      whole 5 (.read firstLink ⟨2⟩) 2) (by decide +kernel)
  simp only [Bool.and_eq_true, List.contains_iff_mem, Option.any_eq_true, beq_iff_eq] at reached
  obtain ⟨⟨ended, call, here, named⟩, t, stepped, after, there, succeeded⟩ := reached
  have idle := respects h s (.proceed 5) t run stepped 5 3 call firstLink rfl here named ended (by decide)
  rw [idle.failed after there] at succeeded
  cases succeeded

end MockNetwork

end BleGatt
