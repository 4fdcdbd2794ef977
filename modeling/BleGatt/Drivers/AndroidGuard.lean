import BleGatt.Drivers.AndroidSlots

namespace BleGatt
open Std

/-! What the guard of an abandoned `connect` does to those after it. -/

/-- It waits out the gap, and has not asked for the slot. -/
def Dial.isCalled (dial : Dial) : Bool :=
  match dial.phase with
  | .called _ => true
  | _ => false

namespace AndroidClient

/-- A step of a guard as it was taken, with the dials that had got a slot after
its own and the dials whose link was over. -/
structure GuardStep where
  before : AndroidClient
  after : AndroidClient
  later : List Nat
  ended : List Nat

/-- What came of the dials, by what happened. -/
structure DialNote where
  /-- Those that got a slot, the last one first. -/
  accepted : List Nat := []
  /-- Those whose GATT Kotlin got last for its address, and did not let go. -/
  created : List Nat := []
  /-- Those whose link was reported as gone, or never came up. -/
  ended : List Nat := []
  guards : List GuardStep := []

/-- The dials that got a slot after this one. -/
def later (number : Nat) (accepted : List Nat) : List Nat :=
  accepted.takeWhile fun other => decide (other ≠ number)

def dialsAt (address : PeerAddress) (number : Nat) (s : AndroidClient) : Bool :=
  s.dials[number]?.any fun dial => decide (dial.address = address)

namespace DialNote

/-- Every link at the address is over. -/
def endAt (address : PeerAddress) (s : AndroidClient) (note : DialNote) : DialNote :=
  { note with ended := (note.accepted.filter fun number => s.dialsAt address number) ++ note.ended }

/-- Kotlin has no GATT of the address. -/
def letGo (address : PeerAddress) (s : AndroidClient) (note : DialNote) : DialNote :=
  { note with created := note.created.filter fun number => !s.dialsAt address number }

def guarded (number : Nat) (s s' : AndroidClient) (note : DialNote) : DialNote :=
  { note with guards :=
      note.guards ++ [{ before := s, after := s', later := later number note.accepted, ended := note.ended }] }

/-- The later dials of the same address. -/
def rivals (number : Nat) (dial : Dial) (s : AndroidClient) (note : DialNote) : List Nat :=
  (later number note.accepted).filter fun other => s.dialsAt dial.address other

end DialNote

def noteDial (note : DialNote) (s : AndroidClient) (label : AndroidStep) (s' : AndroidClient) : DialNote :=
  match label with
  | .claim number =>
    if s.dials[number]?.any fun dial => s.isFree dial.address then { note with accepted := number :: note.accepted }
    else note
  | .dialled number outcome =>
    match s.dials[number]?, outcome with
    | none, _ => note
    | some _, .failed _ => { note with ended := number :: note.ended }
    | some dial, .noAdapter => note.endAt dial.address s
    | some dial, .dialled => let note := note.letGo dial.address s; { note with created := number :: note.created }
  | .closeConnection number attached =>
    match s.dials[number]? with
    | none => note
    | some dial => if attached then (note.guarded number s s').letGo dial.address s else note.guarded number s s'
  | .clearPending number => let note := note.guarded number s s'; { note with ended := number :: note.ended }
  | .onDisconnected address => note.endAt address s
  | .radioOff => { note with ended := note.accepted ++ note.ended }
  | .forget address => note.letGo address s
  | _ => note

/-- A guard closes a GATT while Kotlin has none of a later dial of its address,
and clears the slot once the links of all of these are over. -/
def Timely (note : DialNote) (s : AndroidClient) (label : AndroidStep) : Prop :=
  match label with
  | .closeConnection number attached =>
    attached = true → ∀ dial ∈ s.dials[number]?, ∀ other ∈ note.rivals number dial s, other ∉ note.created
  | .clearPending number => ∀ dial ∈ s.dials[number]?, ∀ other ∈ note.rivals number dial s, other ∈ note.ended
  | _ => True

instance (note : DialNote) (s : AndroidClient) (label : AndroidStep) : Decidable (Timely note s label) := by
  unfold Timely
  split <;> infer_instance

/-- A guard's step leaves a later `connect` its platform connection, its slot
and its call, and its whole entry as long as its link is not over. -/
structure Spared (step : GuardStep) (other : Nat) (dial : Dial) : Prop where
  gatt : step.before.connectedGatts[dial.address]? = some other → step.after.connectedGatts[dial.address]? = some other
  slot : step.before.slot dial.address = some other → step.after.slot dial.address = some other
  entry : other ∉ step.ended → step.after.connections[dial.address]? = step.before.connections[dial.address]?
  call : step.after.dials[other]? = some dial

def GuardHarmless (guards : List GuardStep) : Prop :=
  ∀ step ∈ guards, ∀ other ∈ step.later, ∀ dial, step.before.dials[other]? = some dial → Spared step other dial

/-- Every dial keeps its address, and asks for a slot once. -/
def Keeps (s s' : AndroidClient) : Prop :=
  ∀ (number : Nat) (dial : Dial), s.dials[number]? = some dial → ∃ dial', s'.dials[number]? = some dial' ∧
    dial'.address = dial.address ∧ (dial.isCalled = false → dial'.isCalled = false)

namespace Keeps

variable {s s' : AndroidClient}

theorem of_dials (same : s'.dials = s.dials) : Keeps s s' := fun _ dial here => ⟨dial, same ▸ here, rfl, id⟩

theorem settles {verdict : Sender} (settled : Settles verdict s s') : Keeps s s' := by
  intro number dial here
  have bound : number < s'.dials.length := by
    rw [settled.count]
    exact (List.getElem?_eq_some_iff.mp here).1
  have there := List.getElem?_eq_getElem bound
  obtain ⟨old, here', same | ⟨same, _⟩⟩ := settled.dials number _ there
  · cases here.symm.trans here'
    exact ⟨_, there, by rw [same], by rw [same]; exact id⟩
  · cases here.symm.trans here'
    exact ⟨_, there, by rw [same], by rw [same]; exact id⟩

theorem setDial {number : Nat} {dial dial' : Dial} (here : s.dials[number]? = some dial)
    (own : dial'.address = dial.address) (asked : dial'.isCalled = false) : Keeps s (s.setDial number dial') := by
  intro n old there
  by_cases same : n = number
  · subst same
    cases here.symm.trans there
    exact ⟨dial', (setDial_getElem? here).trans (if_pos rfl), own, fun _ => asked⟩
  · exact ⟨old, ((setDial_getElem? here).trans (if_neg same)).trans there, rfl, id⟩

theorem call (address : PeerAddress) : Keeps s (s.call address) := by
  intro number dial here
  exact ⟨dial, (List.getElem?_append_left (List.getElem?_eq_some_iff.mp here).1).trans here, rfl, id⟩

end Keeps

theorem slot_clearPendingConnect (address : PeerAddress) (s : AndroidClient) :
    (s.clearPendingConnect address).slot address = none := by
  unfold clearPendingConnect slot
  split
  · rename_i vacant
    rw [vacant]
    rfl
  · dsimp only
    split
    · dsimp only
      rw [FiniteMap.getElem?_erase, if_pos rfl]
      rfl
    · dsimp only
      rw [FiniteMap.getElem?_insert, if_pos rfl]
      rfl

theorem slot_onDisconnected (address : PeerAddress) (s : AndroidClient) :
    (s.onDisconnected address).slot address = none := by
  unfold onDisconnected slot
  dsimp only
  split
  · rename_i vacant
    rw [vacant]
    rfl
  · dsimp only
    rw [FiniteMap.getElem?_erase, if_pos rfl]
    rfl

theorem slot_radioOff (address : PeerAddress) (s : AndroidClient) : s.radioOff.slot address = none := by
  have none_left : s.radioOff.connections = ∅ :=
    (drain_dials s.connections.toList { s with connections := ∅ }).1.connections
  rw [slot, none_left]
  simp

theorem Settles.slot {s s' : AndroidClient} {verdict : Sender} (settled : Settles verdict s s') {address : PeerAddress}
    {number : Nat} (held : s'.slot address = some number) : s.slot address = some number := by
  obtain ⟨state, at_address, connecting⟩ := slot_eq_some_iff.mp held
  exact slot_eq_some_iff.mpr ⟨state, (settled.slots address state number at_address connecting).1, connecting⟩

theorem SameOwners.slot {s s' : AndroidClient} (same : SameOwners s s') {address : PeerAddress} {number : Nat}
    (held : s'.slot address = some number) : s.slot address = some number := by
  obtain ⟨state', at_address, connecting⟩ := slot_eq_some_iff.mp held
  have owned := same.owners address
  rw [at_address, Option.map_some, eq_comm, Option.map_eq_some_iff] at owned
  obtain ⟨state, at_address, owned⟩ := owned
  simp only [ConnectionState.owner, Prod.mk.injEq] at owned
  exact slot_eq_some_iff.mpr ⟨state, at_address, owned.2.2.trans connecting⟩

/-- What the maps have of a dial agrees with what happened. -/
structure Known (note : DialNote) (s : AndroidClient) : Prop where
  asked : ∀ number, number ∈ note.accepted ∨ number ∈ note.ended →
    ∃ dial, s.dials[number]? = some dial ∧ dial.isCalled = false
  created : ∀ (address : PeerAddress) (number : Nat), s.connectedGatts[address]? = some number →
    number ∈ note.created ∧ s.dialsAt address number = true
  pending : ∀ (address : PeerAddress) (number : Nat), s.slot address = some number → number ∉ note.ended

theorem ne_of_later {number other : Nat} {accepted : List Nat} (after : other ∈ later number accepted) :
    other ≠ number := by
  unfold later at after
  have apart := List.mem_takeWhile_imp after
  exact of_decide_eq_true apart

theorem dialsAt_iff {s : AndroidClient} {address : PeerAddress} {number : Nat} {dial : Dial}
    (here : s.dials[number]? = some dial) : s.dialsAt address number = true ↔ dial.address = address := by
  rw [dialsAt, here, Option.any_some, decide_eq_true_eq]

theorem dialsAt_setDial {s : AndroidClient} {address : PeerAddress} {number n : Nat} {dial dial' : Dial}
    (here : s.dials[number]? = some dial) (own : dial'.address = dial.address) :
    (s.setDial number dial').dialsAt address n = s.dialsAt address n := by
  unfold dialsAt
  rw [setDial_getElem? here]
  split
  · rename_i same
    rw [same, here, Option.any_some, Option.any_some, own]
  · rfl

/-- A dial has one address. -/
theorem not_dialsAt {s : AndroidClient} {address q : PeerAddress} {number : Nat}
    (own : s.dialsAt q number = true) (elsewhere : q ≠ address) : (!s.dialsAt address number) = true := by
  unfold dialsAt at own
  obtain ⟨dial, here, own⟩ := Option.any_eq_true _ _ |>.mp own
  rw [dialsAt, here, Option.any_some, Bool.not_eq_true', decide_eq_false_iff_not, of_decide_eq_true own]
  exact elsewhere

theorem Keeps.dialsAt {s s' : AndroidClient} (keeps : Keeps s s') {address : PeerAddress} {number : Nat}
    (own : s.dialsAt address number = true) : s'.dialsAt address number = true := by
  unfold AndroidClient.dialsAt at own
  obtain ⟨dial, here, own⟩ := Option.any_eq_true _ _ |>.mp own
  obtain ⟨dial', there, same, _⟩ := keeps number dial here
  exact (dialsAt_iff there).mpr (same.trans (of_decide_eq_true own))

namespace Known

variable {note note' : DialNote} {s s' : AndroidClient}

/-- The dials go on, and the maps lose what the note drops. -/
theorem goes (known : Known note s) (keeps : Keeps s s')
    (accepted : note'.accepted = note.accepted)
    (ended : ∀ number ∈ note'.ended, number ∈ note.accepted ∨ number ∈ note.ended ∨
      ∃ dial, s.dials[number]? = some dial ∧ dial.isCalled = false)
    (created : ∀ (address : PeerAddress) (number : Nat), s'.connectedGatts[address]? = some number →
      s.connectedGatts[address]? = some number ∧ (number ∈ note.created → number ∈ note'.created))
    (pending : ∀ (address : PeerAddress) (number : Nat), s'.slot address = some number →
      s.slot address = some number ∧ (number ∉ note.ended → number ∉ note'.ended)) : Known note' s' := by
  have kept : ∀ number : Nat, (∃ dial : Dial, s.dials[number]? = some dial ∧ dial.isCalled = false) →
      ∃ dial : Dial, s'.dials[number]? = some dial ∧ dial.isCalled = false := by
    rintro number ⟨dial, here, uncalled⟩
    obtain ⟨dial', there, _, asked⟩ := keeps number dial here
    exact ⟨dial', there, asked uncalled⟩
  refine ⟨fun number member => kept number ?_, fun address number at_ => ?_, fun address number held => ?_⟩
  · rcases member with member | member
    · exact known.asked number (.inl (accepted ▸ member))
    · rcases ended number member with was | was | asked
      · exact known.asked number (.inl was)
      · exact known.asked number (.inr was)
      · exact asked
  · obtain ⟨was, stays⟩ := created address number at_
    obtain ⟨member, own⟩ := known.created address number was
    exact ⟨stays member, keeps.dialsAt own⟩
  · obtain ⟨was, stays⟩ := pending address number held
    exact stays (known.pending address number was)

/-- Nothing is noted, and no slot or GATT is new. -/
theorem same (known : Known note s) (keeps : Keeps s s') (gatts : s'.connectedGatts = s.connectedGatts)
    (slots : ∀ (address : PeerAddress) (number : Nat), s'.slot address = some number → s.slot address = some number) :
    Known note s' :=
  known.goes keeps rfl (fun _ member => .inr (.inl member)) (fun _ _ at_ => ⟨gatts ▸ at_, id⟩)
    fun address number held => ⟨slots address number held, id⟩

theorem guarded (known : Known note s) (number : Nat) (t t' : AndroidClient) : Known (note.guarded number t t') s :=
  ⟨known.asked, known.created, known.pending⟩

/-- The senders of some slots get a verdict, and every link at an address is
over. -/
theorem endsAt (known : Known note s) (linked : Linked s) {verdict : Sender} (settled : Settles verdict s s')
    (keeps : Keeps s s') {address : PeerAddress} (vacant : s'.slot address = none) :
    Known (note.endAt address s) s' := by
  refine known.goes keeps rfl (fun number member => ?_) (fun _ _ at_ => ⟨settled.gatts ▸ at_, id⟩)
    fun q number held => ?_
  · rcases List.mem_append.mp member with new | old
    · exact .inl (List.mem_filter.mp new).1
    · exact .inr (.inl old)
  · have before := settled.slot held
    refine ⟨before, fun live member => ?_⟩
    rcases List.mem_append.mp member with new | old
    · have own := (List.mem_filter.mp new).2
      obtain ⟨dial, here, is⟩ := Option.any_eq_true _ _ |>.mp own
      have same : q = address := (linked.slot_address before here).symm.trans (of_decide_eq_true is)
      rw [same, vacant] at held
      simp at held
    · exact live old

/-- One dial is over, with the slot of its address. -/
theorem ends (known : Known note s) (linked : Linked s) {verdict : Sender} (settled : Settles verdict s s')
    (keeps : Keeps s s') {number : Nat} {dial : Dial} (here : s.dials[number]? = some dial)
    (asked : dial.isCalled = false) (vacant : s'.slot dial.address = none) :
    Known { note with ended := number :: note.ended } s' := by
  refine known.goes keeps rfl (fun n member => ?_) (fun _ _ at_ => ⟨settled.gatts ▸ at_, id⟩) fun q n held => ?_
  · rcases List.mem_cons.mp member with rfl | old
    · exact .inr (.inr ⟨dial, here, asked⟩)
    · exact .inr (.inl old)
  · have before := settled.slot held
    refine ⟨before, fun live member => ?_⟩
    rcases List.mem_cons.mp member with rfl | old
    · rw [linked.slot_address before here] at vacant
      rw [vacant] at held
      simp at held
    · exact live old

/-- Kotlin lets the GATT of an address go. -/
theorem letGo (known : Known note s) (keeps : Keeps s s') {address : PeerAddress}
    (gatts : s'.connectedGatts = s.connectedGatts.erase address)
    (slots : ∀ (address : PeerAddress) (number : Nat), s'.slot address = some number → s.slot address = some number) :
    Known (note.letGo address s) s' := by
  refine known.goes keeps rfl (fun _ member => .inr (.inl member)) (fun q number at_ => ?_)
    fun q number held => ⟨slots q number held, id⟩
  rw [gatts, FiniteMap.getElem?_erase] at at_
  split at at_
  · simp at at_
  · rename_i elsewhere
    exact ⟨at_, fun member => List.mem_filter.mpr ⟨member, not_dialsAt (known.created q number at_).2 elsewhere⟩⟩

/-- A dial gets the slot of its address. -/
theorem accepts (known : Known note s) {number : Nat} {dial : Dial} {wakeAt : Instant}
    (here : s.dials[number]? = some dial) (phase : dial.phase = .called wakeAt) :
    Known { note with accepted := number :: note.accepted } (s.accept number dial) := by
  have claims : Keeps s (s.setDial number { dial with phase := .claimed, session := some s.nextOpId }) :=
    .setDial here rfl rfl
  have keeps : Keeps s (s.accept number dial) := claims
  have taken : (s.accept number dial).dials[number]? =
      some { dial with phase := .claimed, session := some s.nextOpId } := (setDial_getElem? here).trans (if_pos rfl)
  have new : number ∉ note.ended := by
    intro member
    obtain ⟨old, there, asked⟩ := known.asked number (.inr member)
    cases here.symm.trans there
    rw [Dial.isCalled, phase] at asked
    simp at asked
  refine ⟨fun n member => ?_, fun q n at_ => ?_, fun q n held => ?_⟩
  · by_cases same : n = number
    · subst same
      exact ⟨_, taken, rfl⟩
    · have was : n ∈ note.accepted ∨ n ∈ note.ended :=
        member.imp_left fun is => (List.mem_cons.mp is).resolve_left same
      obtain ⟨old, there, asked⟩ := known.asked n was
      obtain ⟨old', there', _, still⟩ := keeps n old there
      exact ⟨old', there', still asked⟩
  · obtain ⟨member, own⟩ := known.created q n at_
    exact ⟨member, keeps.dialsAt own⟩
  · unfold slot accept at held
    dsimp only at held
    rw [FiniteMap.getElem?_insert] at held
    split at held
    · cases held
      exact new
    · exact known.pending q n held

theorem dials (known : Known note s) (linked : Linked s) {number : Nat} {dial : Dial} (outcome : DialOutcome)
    (here : s.dials[number]? = some dial) :
    Known (match outcome with
      | .failed _ => { note with ended := number :: note.ended }
      | .noAdapter => note.endAt dial.address s
      | .dialled => { note.letGo dial.address s with created := number :: (note.letGo dial.address s).created })
        (s.dialled number dial outcome) := by
  have waits : Keeps s (s.setDial number { dial with phase := .waiting }) := .setDial here rfl rfl
  unfold AndroidClient.dialled
  cases outcome with
  | failed err =>
    have moved : Linked (s.setDial number { dial with phase := .over, error := some err }) :=
      linked.moves here rfl rfl rfl (by simp)
    have before : Known note (s.setDial number { dial with phase := .over, error := some err }) :=
      known.same (.setDial here rfl rfl) rfl fun _ _ => id
    have settled := moved.settles_clearPendingConnect dial.address
    exact before.ends moved settled (.settles settled) ((setDial_getElem? here).trans (if_pos rfl)) rfl
      (slot_clearPendingConnect _ _)
  | noAdapter =>
    have moved : Linked (s.setDial number { dial with phase := .waiting }) := linked.moves here rfl rfl rfl (by simp)
    have before : Known note (s.setDial number { dial with phase := .waiting }) := known.same waits rfl fun _ _ => id
    have settled := moved.settles_onDisconnected dial.address
    have same : note.endAt dial.address (s.setDial number { dial with phase := .waiting }) = note.endAt dial.address s := by
      unfold DialNote.endAt
      congr 2
      refine List.filter_congr fun n _ => ?_
      exact dialsAt_setDial here rfl
    rw [← same]
    exact before.endsAt moved settled (.settles settled) (slot_onDisconnected _ _)
  | dialled =>
    refine ⟨fun n member => ?_, fun q n at_ => ?_, fun q n held => known.pending q n held⟩
    · obtain ⟨old, there, asked⟩ := known.asked n member
      obtain ⟨old', there', _, still⟩ := waits n old there
      exact ⟨old', there', still asked⟩
    · dsimp only at at_
      rw [FiniteMap.getElem?_insert] at at_
      split at at_
      · rename_i own
        cases at_
        exact ⟨List.mem_cons_self, waits.dialsAt ((dialsAt_iff here).mpr own.symm)⟩
      · rename_i elsewhere
        obtain ⟨member, own⟩ := known.created q n at_
        exact ⟨List.mem_cons_of_mem _ (List.mem_filter.mpr ⟨member, not_dialsAt own elsewhere⟩), waits.dialsAt own⟩

theorem step (known : Known note s) (linked : Linked s) {label : AndroidStep} (step : s.step label = some s') :
    Known (noteDial note s label s') s' := by
  cases step_cases step with
  | elapse time => exact known.same (.of_dials rfl) rfl fun _ _ => id
  | call address => exact known.same (.call address) rfl fun _ _ => id
  | @refused number dial _ reason here _ taken =>
    rw [noteDial, here, Option.any_some, taken, if_neg (by decide)]
    exact known.same (.setDial here rfl rfl) rfl fun _ _ => id
  | @accepted number dial _ here phase free =>
    rw [noteDial, here, Option.any_some, free, if_pos rfl]
    exact known.accepts here phase
  | @dialled number dial outcome here phase =>
    have dials := known.dials linked outcome here
    unfold noteDial
    dsimp only
    rw [here]
    cases outcome <;> exact dials
  | @delivered number dial here _ _ => exact known.same (.setDial here rfl rfl) rfl fun _ _ => id
  | abandoned here phase _ => exact known.same (.setDial here rfl rfl) rfl fun _ _ => id
  | uncalled here _ => exact known.same (.setDial here rfl rfl) rfl fun _ _ => id
  | cancelled here _ => exact known.same (.setDial here rfl rfl) rfl fun _ _ => id
  | @closed number dial attached here _ =>
    rw [noteDial, here]
    have clears : Keeps s (s.setDial number { dial with phase := .clearing }) := .setDial here rfl rfl
    have moved : Keeps s (s.close number dial attached) := clears
    cases attached with
    | true => exact (known.guarded _ _ _).letGo moved rfl fun _ _ => id
    | false => exact (known.guarded _ _ _).same moved rfl fun _ _ => id
  | @cleared number dial here phase =>
    have moved : Linked (s.setDial number { dial with phase := .over }) := linked.moves here rfl rfl rfl (by simp)
    have keeps : Keeps s (s.setDial number { dial with phase := .over }) := .setDial here rfl rfl
    have before := (known.guarded number s
      ((s.setDial number { dial with phase := .over }).clearPendingConnect dial.address)).same keeps rfl fun _ _ => id
    have settled := moved.settles_clearPendingConnect dial.address
    exact before.ends moved settled (.settles settled) ((setDial_getElem? here).trans (if_pos rfl)) rfl
      (slot_clearPendingConnect _ _)
  | onConnected address =>
    have settled := linked.settles_onConnected address
    exact known.same (.settles settled) settled.gatts fun _ _ => settled.slot
  | onDisconnected address =>
    have settled := linked.settles_onDisconnected address
    exact known.endsAt linked settled (.settles settled) (slot_onDisconnected address s)
  | radioOff =>
    have settled := Linked.settles_radioOff s
    refine known.goes (.settles settled) rfl (fun number member => ?_) (fun _ _ at_ => ⟨settled.gatts ▸ at_, id⟩)
      fun address number held => ?_
    · rcases List.mem_append.mp member with new | old
      · exact .inl new
      · exact .inr (.inl old)
    · rw [slot_radioOff] at held
      simp at held
  | forget address =>
    have moved : Keeps s { s with connectedGatts := s.connectedGatts.erase address } := .of_dials rfl
    exact known.letGo moved rfl fun _ _ => id
  | @operate number handle operation _ =>
    have same := operate_owners s number handle operation
    exact known.same (.of_dials same.dials) same.gatts fun _ _ => same.slot
  | release address release =>
    have same := release_owners s address release
    exact known.same (.of_dials same.dials) same.gatts fun _ _ => same.slot

end Known

/-- A guard that closes in time does not find a later dial's GATT. -/
theorem Known.closes {note : DialNote} {s : AndroidClient} (known : Known note s) {number : Nat} {dial : Dial}
    {attached : Bool} (here : s.dials[number]? = some dial) (ok : Timely note s (.closeConnection number attached)) :
    ∀ other ∈ later number note.accepted, ∀ dial', s.dials[other]? = some dial' →
      Spared ⟨s, s.close number dial attached, later number note.accepted, note.ended⟩ other dial' := by
  intro other after dial' at_other
  refine ⟨fun own => ?_, id, fun _ => rfl, ?_⟩
  · dsimp only at own ⊢
    unfold close
    dsimp only
    split
    · rename_i attached
      rw [FiniteMap.getElem?_erase, if_neg, own]
      intro same
      obtain ⟨member, at_⟩ := known.created dial'.address other own
      rw [same] at at_
      exact ok attached dial here other (List.mem_filter.mpr ⟨after, at_⟩) member
    · exact own
  · exact ((setDial_getElem? here).trans (if_neg (ne_of_later after))).trans at_other

/-- And one that clears in time does not find a later dial's slot. -/
theorem Known.clears {note : DialNote} {s : AndroidClient} (known : Known note s) (linked : Linked s) {number : Nat}
    {dial : Dial} (here : s.dials[number]? = some dial) (ok : Timely note s (.clearPending number)) :
    ∀ other ∈ later number note.accepted, ∀ dial', s.dials[other]? = some dial' →
      Spared ⟨s, (s.setDial number { dial with phase := .over }).clearPendingConnect dial.address,
        later number note.accepted, note.ended⟩ other dial' := by
  intro other after dial' at_other
  have moved : Linked (s.setDial number { dial with phase := .over }) := linked.moves here rfl rfl rfl (by simp)
  have settled := moved.settles_clearPendingConnect dial.address
  have between : (s.setDial number { dial with phase := .over }).dials[other]? = some dial' :=
    ((setDial_getElem? here).trans (if_neg (ne_of_later after))).trans at_other
  have over_ : dial'.address = dial.address → other ∈ note.ended := fun same =>
    ok dial here other (List.mem_filter.mpr ⟨after, (dialsAt_iff at_other).mpr same⟩)
  have slotless : ∀ address : PeerAddress, dial'.address = dial.address → s.slot address ≠ some other :=
    fun address same held => known.pending address other held (over_ same)
  refine ⟨fun own => settled.gatts ▸ own, fun held => ?_, fun live => ?_, ?_⟩
  · have elsewhere : dial'.address ≠ dial.address := fun same => slotless _ same held
    unfold slot
    dsimp only
    rw [clearPendingConnect_others elsewhere]
    exact held
  · exact clearPendingConnect_others fun same => live (over_ same)
  · by_cases elsewhere : dial'.address = dial.address
    · obtain ⟨old, there, same | ⟨_, address, held⟩⟩ := settled.dials other _
        (List.getElem?_eq_getElem (settled.count ▸ (List.getElem?_eq_some_iff.mp between).1))
      · cases between.symm.trans there
        exact same ▸ List.getElem?_eq_getElem _
      · exact absurd held (slotless address elsewhere)
    · exact moved.settles_elsewhere settled between (clearPendingConnect_others elsewhere)

theorem noteDial_guards {note : DialNote} {s s' : AndroidClient} {label : AndroidStep}
    (other : ∀ number attached, label ≠ .closeConnection number attached) (others : ∀ number, label ≠ .clearPending number) :
    (noteDial note s label s').guards = note.guards := by
  unfold noteDial
  split
  · split <;> rfl
  · split <;> rfl
  · exact absurd rfl (other _ _)
  · exact absurd rfl (others _)
  all_goals rfl

theorem GuardHarmless.step {note : DialNote} {s s' : AndroidClient} (harmless : GuardHarmless note.guards)
    (known : Known note s) (linked : Linked s) {label : AndroidStep} (ok : Timely note s label)
    (step : s.step label = some s') : GuardHarmless (noteDial note s label s').guards := by
  have more : ∀ taken : GuardStep, (∀ other ∈ taken.later, ∀ dial, taken.before.dials[other]? = some dial →
      Spared taken other dial) → GuardHarmless (note.guards ++ [taken]) := by
    intro taken spares step member
    rcases List.mem_append.mp member with before | last
    · exact harmless step before
    · cases List.mem_singleton.mp last
      exact spares
  by_cases closes : ∃ number attached, label = .closeConnection number attached
  · obtain ⟨number, attached, rfl⟩ := closes
    cases step_cases step with
    | @closed _ dial _ here _ =>
      have spares := more ⟨s, s.close number dial attached, later number note.accepted, note.ended⟩ (known.closes here ok)
      unfold noteDial
      dsimp only
      rw [here]
      cases attached <;> exact spares
  by_cases clears : ∃ number, label = .clearPending number
  · obtain ⟨number, rfl⟩ := clears
    cases step_cases step with
    | @cleared _ dial here _ =>
      exact more ⟨s, (s.setDial number { dial with phase := .over }).clearPendingConnect dial.address,
        later number note.accepted, note.ended⟩ (known.clears linked here ok)
  rw [noteDial_guards (fun number attached is => closes ⟨number, attached, is⟩) fun number is => clears ⟨number, is⟩]
  exact harmless

theorem run_guardHarmless {note : DialNote} {s : AndroidClient} (run : machine.Run Timely noteDial {} note s) :
    GuardHarmless note.guards := by
  have both : Known note s ∧ GuardHarmless note.guards := by
    refine run.invariant (P := fun note s => Known note s ∧ GuardHarmless note.guards) ?_ ?_
    · rintro s ⟨now, rfl⟩
      exact ⟨⟨by simp, by simp [start], by simp [start, slot]⟩, by simp [GuardHarmless]⟩
    · intro note s label s' before held ok step
      have linked := Linked.reach before.reach
      exact ⟨held.1.step linked step, held.2.step held.1 linked ok step⟩
  exact both.2

/-- The link of a dial is lost before it is up, and another dial gets the slot
before the first resumes. -/
def retried : List AndroidStep :=
  [.call ⟨"a"⟩, .claim 0, .dialled 0 .dialled, .call ⟨"a"⟩, .forget ⟨"a"⟩, .onDisconnected ⟨"a"⟩, .claim 1]

/-- The first guard closes before the second GATT is there, and clears once the
second link is lost too. -/
def spared : List AndroidStep :=
  retried ++ [.resume 0, .closeConnection 0 true, .dialled 1 .dialled, .forget ⟨"a"⟩, .onDisconnected ⟨"a"⟩,
    .clearPending 0]

theorem run_guardHarmless_retried : ∃ note : DialNote, GuardHarmless note.guards ∧
    note.guards.map GuardStep.later = [[1], [1]] := by
  obtain ⟨note, s, run, both⟩ := Machine.Run.exists_of_follow machine Timely noteDial {}
    (fun note _ => decide (note.guards.map GuardStep.later = [[1], [1]])) ⟨0, rfl⟩ spared (by decide +kernel)
  exact ⟨note, run_guardHarmless run, of_decide_eq_true both⟩

/-- The first guard closes the connection of the second dial, and takes its
slot. -/
def undone : List AndroidStep :=
  retried ++ [.dialled 1 .dialled, .resume 0, .closeConnection 0 true, .clearPending 0]

/-- A step that took a later dial's GATT, or its slot. -/
def GuardStep.undoes (other : Nat) (address : PeerAddress) (step : GuardStep) : Bool :=
  decide (other ∈ step.later) && step.before.dialsAt address other &&
    (decide (step.before.connectedGatts[address]? = some other ∧ step.after.connectedGatts[address]? = none) ||
      decide (step.before.slot address = some other ∧ step.after.slot address = none))

theorem not_guardHarmless : ∃ note s, machine.Run (fun _ _ _ => True) noteDial {} note s ∧
    note.guards.map (GuardStep.undoes 1 ⟨"a"⟩) = [true, true] ∧ ¬ GuardHarmless note.guards := by
  obtain ⟨note, s, run, undoes⟩ := Machine.Run.exists_of_follow machine (fun _ _ _ => True) noteDial {}
    (fun note _ => decide (note.guards.map (GuardStep.undoes 1 ⟨"a"⟩) = [true, true])) ⟨0, rfl⟩ undone
    (by decide +kernel)
  rw [decide_eq_true_eq] at undoes
  refine ⟨note, s, run, undoes, fun harmless => ?_⟩
  have member : true ∈ note.guards.map (GuardStep.undoes 1 ⟨"a"⟩) := by
    rw [undoes]
    exact List.mem_cons_self
  obtain ⟨step, taken, bad⟩ := List.mem_map.mp member
  simp only [GuardStep.undoes, Bool.and_eq_true, Bool.or_eq_true, decide_eq_true_eq] at bad
  obtain ⟨⟨after, own⟩, bad⟩ := bad
  obtain ⟨dial, here, own⟩ := Option.any_eq_true _ _ |>.mp own
  rw [decide_eq_true_eq] at own
  have spared := harmless step taken 1 after dial here
  rcases bad with ⟨had, lost⟩ | ⟨had, lost⟩
  · have kept := spared.gatt (own ▸ had)
    rw [own, lost] at kept
    simp at kept
  · have kept := spared.slot (own ▸ had)
    rw [own, lost] at kept
    simp at kept

end AndroidClient

end BleGatt
