import BleGatt.Drivers.AndroidConnect

namespace BleGatt
open Std

/-! Who holds the slot of an address, whatever the order of the steps. -/

namespace AndroidClient

/-- Slots only go, and the senders taken out of them get one verdict. -/
structure Settles (verdict : Sender) (s s' : AndroidClient) : Prop where
  count : s'.dials.length = s.dials.length
  slots : ∀ (address : PeerAddress) (state' : ConnectionState) (number : Nat),
    s'.connections[address]? = some state' → state'.connectedTx = some number →
      s.connections[address]? = some state' ∧ s'.dials[number]? = s.dials[number]?
  dials : ∀ (number : Nat) (dial' : Dial), s'.dials[number]? = some dial' → ∃ dial, s.dials[number]? = some dial ∧
    (dial' = dial ∨ dial' = { dial with sender := verdict } ∧ ∃ address, s.slot address = some number)
  gatts : s'.connectedGatts = s.connectedGatts
  handles : s'.handles = s.handles

/-- A slot is held by a `connect` to its address, which minted its session
and was not told yet. -/
structure Linked (s : AndroidClient) : Prop where
  waits : ∀ (address : PeerAddress) (state : ConnectionState) (number : Nat),
    s.connections[address]? = some state → state.connectedTx = some number →
      ∃ dial, s.dials[number]? = some dial ∧ dial.address = address ∧ dial.session = some state.session ∧
        dial.sender = .pending
  called : ∀ (number : Nat) (dial : Dial) (wakeAt : Instant), s.dials[number]? = some dial →
    dial.phase = .called wakeAt → dial.session = none ∧ dial.sender = .pending

theorem slot_eq_some_iff {s : AndroidClient} {address : PeerAddress} {number : Nat} :
    s.slot address = some number ↔
      ∃ state, s.connections[address]? = some state ∧ state.connectedTx = some number := by
  unfold slot
  exact Option.bind_eq_some_iff

/-- Only waiters of operations come and go. -/
structure SameOwners (s s' : AndroidClient) : Prop where
  dials : s'.dials = s.dials
  gatts : s'.connectedGatts = s.connectedGatts
  handles : s'.handles = s.handles
  owners : ∀ q : PeerAddress,
    s'.connections[q]?.map ConnectionState.owner = s.connections[q]?.map ConnectionState.owner

theorem install_owner {operation : GattOperation} {address : PeerAddress} {requestId : UInt64} {number : Nat}
    {state state' : ConnectionState} (installed : operation.install address requestId number state = .ok state') :
    state'.owner = state.owner := by
  unfold GattOperation.install at installed
  split at installed
  · split at installed
    · simp at installed
    · cases Except.ok.inj installed
      rfl
  · cases Except.ok.inj installed
    rfl
  · cases Except.ok.inj installed
    rfl
  · cases Except.ok.inj installed
    rfl

theorem release_owner (release : WaiterRelease) (state : ConnectionState) :
    (release.apply state).owner = state.owner := by
  unfold WaiterRelease.apply
  cases release with
  | read requestId => dsimp only; split <;> rfl
  | write requestId => dsimp only; split <;> rfl
  | subscribed characteristic requestId => dsimp only; split <;> rfl
  | subscription characteristic requestId => dsimp only; split <;> split <;> rfl

theorem withSession_owners {s s' : AndroidClient} {handle : AndroidGattConnection}
    {install : ConnectionState → Except BleError ConnectionState}
    (keeps : ∀ state state', install state = .ok state' → state'.owner = state.owner)
    (acted : s.withSession handle install = .ok s') : SameOwners s s' := by
  unfold withSession at acted
  split at acted
  · simp at acted
  · rename_i state at_address
    split at acted
    · simp at acted
    · cases installed : install state with
      | error err => simp [installed, Except.map] at acted
      | ok state' =>
        rw [installed] at acted
        cases Except.ok.inj acted
        refine ⟨rfl, rfl, rfl, fun q => ?_⟩
        dsimp only
        rw [FiniteMap.getElem?_insert]
        split
        · rename_i own
          rw [own, at_address, Option.map_some, Option.map_some, keeps state state' installed]
        · rfl

theorem operate_owners (s : AndroidClient) (number : Nat) (handle : AndroidGattConnection)
    (operation : GattOperation) : SameOwners s (s.operate number handle operation).2 := by
  have counted : SameOwners s (if operation = .disconnect then s else { s with nextOpId := s.nextOpId + 1 }) := by
    split <;> exact ⟨rfl, rfl, rfl, fun _ => rfl⟩
  unfold operate
  dsimp only
  split
  · exact counted
  · rename_i acted
    have kept := withSession_owners (fun _ _ => install_owner) acted
    exact ⟨kept.dials.trans counted.dials, kept.gatts.trans counted.gatts, kept.handles.trans counted.handles,
      fun q => (kept.owners q).trans (counted.owners q)⟩

theorem release_owners (s : AndroidClient) (address : PeerAddress) (release : WaiterRelease) :
    SameOwners s { s with connections := s.connections.modify address release.apply } := by
  refine ⟨rfl, rfl, rfl, fun q => ?_⟩
  dsimp only
  rw [FiniteMap.getElem?_modify]
  split
  · rw [Option.map_map]
    exact congrArg (fun f => s.connections[q]?.map f) (funext (release_owner release))
  · rfl

/-- Draining a list of entries drops each one's sender. -/
theorem drain_dials (entries : List (PeerAddress × ConnectionState)) (s : AndroidClient) :
    SameRest s (entries.foldl (fun s entry => s.resolve entry.2.connectedTx .dropped) s) ∧
      ∀ (number : Nat) (dial' : Dial),
        (entries.foldl (fun s entry => s.resolve entry.2.connectedTx .dropped) s).dials[number]? = some dial' →
          ∃ dial, s.dials[number]? = some dial ∧ (dial' = dial ∨ dial' = { dial with sender := .dropped } ∧
            ∃ entry ∈ entries, entry.2.connectedTx = some number) := by
  induction entries generalizing s with
  | nil => exact ⟨⟨rfl, rfl, rfl, rfl⟩, fun number dial' there => ⟨dial', there, .inl rfl⟩⟩
  | cons entry entries ih =>
    have first := resolve_rest (s := s) entry.2.connectedTx .dropped
    obtain ⟨rest, dials⟩ := ih (s.resolve entry.2.connectedTx .dropped)
    refine ⟨rest.trans first, ?_⟩
    intro number dial' there
    obtain ⟨dial, between, verdict⟩ := dials number dial' there
    rcases resolve_getElem? between with here | ⟨holder, old, here, rfl⟩
    · refine ⟨dial, here, verdict.imp_right ?_⟩
      rintro ⟨dropped, other, member, connecting⟩
      exact ⟨dropped, other, List.mem_cons_of_mem entry member, connecting⟩
    · refine ⟨old, here, .inr ⟨?_, entry, List.mem_cons_self, holder⟩⟩
      rcases verdict with same | ⟨same, _⟩ <;> exact same

namespace Linked

variable {s s' : AndroidClient}

/-- A `connect` holds one slot at most. -/
theorem slot_address (linked : Linked s) {address : PeerAddress} {number : Nat} {dial : Dial}
    (held : s.slot address = some number) (here : s.dials[number]? = some dial) : dial.address = address := by
  obtain ⟨state, at_address, connecting⟩ := slot_eq_some_iff.mp held
  obtain ⟨dial', here', same, _⟩ := linked.waits address state number at_address connecting
  obtain rfl := Option.some.inj (here.symm.trans here')
  exact same

theorem settles (linked : Linked s) {verdict : Sender} (settled : Settles verdict s s') : Linked s' := by
  constructor
  · intro address state' number at_address connecting
    obtain ⟨at_address, same⟩ := settled.slots address state' number at_address connecting
    rw [same]
    exact linked.waits address state' number at_address connecting
  · intro number dial' wakeAt there phase
    obtain ⟨dial, here, rfl | ⟨rfl, address, held⟩⟩ := settled.dials number dial' there
    · exact linked.called number _ wakeAt here phase
    · obtain ⟨state, at_address, connecting⟩ := slot_eq_some_iff.mp held
      obtain ⟨dial', here', _, minted, _⟩ := linked.waits address state number at_address connecting
      obtain rfl := Option.some.inj (here.symm.trans here')
      have unminted := (linked.called number dial wakeAt here phase).1
      rw [minted] at unminted
      simp at unminted

/-- No verdict reaches a dial whose address keeps its entry. -/
theorem settles_elsewhere (linked : Linked s) {verdict : Sender} (settled : Settles verdict s s') {number : Nat}
    {dial : Dial} (here : s.dials[number]? = some dial)
    (kept : s'.connections[dial.address]? = s.connections[dial.address]?) : s'.dials[number]? = some dial := by
  have bound : number < s'.dials.length := by
    rw [settled.count]
    exact (List.getElem?_eq_some_iff.mp here).1
  have there := List.getElem?_eq_getElem bound
  obtain ⟨old, here', same | ⟨_, address, held⟩⟩ := settled.dials number _ there
  · obtain rfl := Option.some.inj (here.symm.trans here')
    rw [there, same]
  · have own := linked.slot_address held here
    obtain ⟨state, at_address, connecting⟩ := slot_eq_some_iff.mp held
    rw [own, at_address] at kept
    exact (settled.slots address state number kept connecting).2.trans here

/-- A `connect` moves on. -/
theorem moves (linked : Linked s) {number : Nat} {dial dial' : Dial} (here : s.dials[number]? = some dial)
    (address : dial'.address = dial.address) (session : dial'.session = dial.session)
    (sender : dial'.sender = dial.sender) (moved : ∀ wakeAt, dial'.phase ≠ .called wakeAt) :
    Linked (s.setDial number dial') := by
  constructor
  · intro q state n at_q connecting
    obtain ⟨old, there, own, minted, pending⟩ := linked.waits q state n at_q connecting
    by_cases same : n = number
    · subst same
      obtain rfl := Option.some.inj (there.symm.trans here)
      refine ⟨dial', ?_, address.trans own, session.trans minted, sender.trans pending⟩
      rw [setDial_getElem? here, if_pos rfl]
    · refine ⟨old, ?_, own, minted, pending⟩
      rw [setDial_getElem? here, if_neg same]
      exact there
  · intro n old wakeAt there phase
    rw [setDial_getElem? here] at there
    split at there
    · obtain rfl := Option.some.inj there
      exact absurd phase (moved wakeAt)
    · exact linked.called n old wakeAt there phase

/-- One address's slot is emptied. -/
theorem vacates (linked : Linked s) {verdict : Sender} {address : PeerAddress}
    (others : ∀ q : PeerAddress, q ≠ address → s'.connections[q]? = s.connections[q]?)
    (vacant : s'.slot address = none) (dials : s'.dials = (s.resolve (s.slot address) verdict).dials)
    (gatts : s'.connectedGatts = s.connectedGatts) (handles : s'.handles = s.handles) : Settles verdict s s' := by
  have count : s'.dials.length = s.dials.length := by
    rw [dials]
    exact (resolve_rest (s.slot address) verdict).count
  refine ⟨count, ?_, ?_, gatts, handles⟩
  · intro q state' number at_q connecting
    by_cases same : q = address
    · subst same
      have held := slot_eq_some_iff.mpr ⟨state', at_q, connecting⟩
      rw [vacant] at held
      simp at held
    · rw [others q same] at at_q
      refine ⟨at_q, ?_⟩
      rw [dials]
      cases holder : s.slot address with
      | none => rfl
      | some other =>
        obtain ⟨dial, here, own, _⟩ := linked.waits q state' number at_q connecting
        have apart : number ≠ other := by
          rintro rfl
          exact same (own.symm.trans (linked.slot_address holder here))
        exact (setSender_getElem? verdict).trans (if_neg apart)
  · intro number dial' there
    rw [dials] at there
    rcases resolve_getElem? there with here | ⟨holder, dial, here, rfl⟩
    · exact ⟨dial', here, .inl rfl⟩
    · exact ⟨dial, here, .inr ⟨rfl, address, holder⟩⟩

theorem settles_clearPendingConnect (linked : Linked s) (address : PeerAddress) :
    Settles .dropped s (s.clearPendingConnect address) := by
  have others : ∀ q : PeerAddress, q ≠ address → (s.clearPendingConnect address).connections[q]? = s.connections[q]? :=
    fun _ => clearPendingConnect_others
  have rest := resolve_rest (s := s) (s.slot address) .dropped
  unfold clearPendingConnect at others ⊢
  cases at_address : s.connections[address]? with
  | none =>
    have vacant : s.slot address = none := by simp [slot, at_address]
    exact linked.vacates (fun _ _ => rfl) vacant (by rw [vacant]; rfl) rfl rfl
  | some state =>
    have held : s.slot address = state.connectedTx := by simp [slot, at_address]
    rw [held] at rest
    rw [at_address] at others
    dsimp only at others ⊢
    split
    · rename_i unused
      rw [if_pos unused] at others
      refine linked.vacates others ?_ (by rw [held]) rest.gatts rest.handles
      unfold slot
      dsimp only
      rw [FiniteMap.getElem?_erase, if_pos rfl]
      rfl
    · rename_i used
      rw [if_neg used] at others
      refine linked.vacates others ?_ (by rw [held]) rest.gatts rest.handles
      unfold slot
      dsimp only
      rw [FiniteMap.getElem?_insert, if_pos rfl]
      rfl

theorem settles_onDisconnected (linked : Linked s) (address : PeerAddress) :
    Settles .dropped s (s.onDisconnected address) := by
  have others : ∀ q : PeerAddress, q ≠ address → (s.onDisconnected address).connections[q]? = s.connections[q]? :=
    fun _ => onDisconnected_others
  unfold onDisconnected at others ⊢
  dsimp only at others ⊢
  cases at_address : s.connections[address]? with
  | none =>
    have vacant : s.slot address = none := by simp [slot, at_address]
    exact linked.vacates (fun _ _ => rfl) vacant (by rw [vacant]; rfl) rfl rfl
  | some state =>
    have held : s.slot address = state.connectedTx := by simp [slot, at_address]
    rw [at_address] at others
    dsimp only at others ⊢
    refine linked.vacates others ?_ ?_ ?_ ?_
    · unfold slot
      dsimp only
      rw [FiniteMap.getElem?_erase, if_pos rfl]
      rfl
    · rw [held]
      cases state.connectedTx <;> rfl
    · cases state.connectedTx <;> rfl
    · cases state.connectedTx <;> rfl

theorem settles_onConnected (linked : Linked s) (address : PeerAddress) :
    Settles .sent s (s.onConnected address) := by
  have held : s.slot address = (s.connections[address]?.getD {}).connectedTx := by
    unfold slot
    cases s.connections[address]? <;> rfl
  have rest := resolve_rest (s := s) (s.slot address) .sent
  have others : ∀ q : PeerAddress, q ≠ address → (s.onConnected address).connections[q]? = s.connections[q]? :=
    fun _ => onConnected_others
  unfold onConnected at others ⊢
  dsimp only at others ⊢
  rw [← held]
  refine linked.vacates others ?_ rfl rest.gatts rest.handles
  unfold slot
  dsimp only
  rw [FiniteMap.getElem?_insert, if_pos rfl]
  rfl

theorem sameOwners (linked : Linked s) (same : SameOwners s s') : Linked s' := by
  constructor
  · intro address state' number at_address connecting
    have owned := same.owners address
    rw [at_address, Option.map_some, eq_comm, Option.map_eq_some_iff] at owned
    obtain ⟨state, at_address, owned⟩ := owned
    obtain ⟨session, _, slots⟩ : state.session = state'.session ∧ state.live = state'.live ∧
      state.connectedTx = state'.connectedTx := by simpa [ConnectionState.owner] using owned
    rw [same.dials, ← session]
    exact linked.waits address state number at_address (slots.trans connecting)
  · rw [same.dials]
    exact linked.called

theorem settles_radioOff (s : AndroidClient) : Settles .dropped s s.radioOff := by
  obtain ⟨rest, dials⟩ := drain_dials s.connections.toList { s with connections := ∅ }
  refine ⟨rest.count, ?_, ?_, rest.gatts, rest.handles⟩
  · intro address state' number at_address
    have none_left : s.radioOff.connections = ∅ := rest.connections
    rw [none_left] at at_address
    simp at at_address
  · intro number dial' there
    obtain ⟨dial, here, rfl | ⟨rfl, entry, member, connecting⟩⟩ := dials number dial' there
    · exact ⟨dial', here, .inl rfl⟩
    · have at_address := ExtTreeMap.mem_toList_iff_getElem?_eq_some.mp member
      exact ⟨dial, here, .inr ⟨rfl, entry.1, slot_eq_some_iff.mpr ⟨entry.2, at_address, connecting⟩⟩⟩

theorem calls (linked : Linked s) (address : PeerAddress) : Linked (s.call address) := by
  constructor
  · intro q state number at_q connecting
    obtain ⟨dial, here, rest⟩ := linked.waits q state number at_q connecting
    refine ⟨dial, ?_, rest⟩
    exact (List.getElem?_append_left (List.getElem?_eq_some_iff.mp here).1).trans here
  · intro number dial wakeAt there phase
    rcases call_getElem? there with here | ⟨_, woken, rfl⟩
    · exact linked.called number dial wakeAt here phase
    · exact ⟨rfl, rfl⟩

theorem accepts (linked : Linked s) {number : Nat} {dial : Dial} {wakeAt : Instant}
    (here : s.dials[number]? = some dial) (phase : dial.phase = .called wakeAt) : Linked (s.accept number dial) := by
  have ⟨unminted, pending⟩ := linked.called number dial wakeAt here phase
  have dials : ∀ n, (s.accept number dial).dials[n]? =
      if n = number then some { dial with phase := .claimed, session := some s.nextOpId } else s.dials[n]? :=
    fun _ => setDial_getElem? here
  constructor
  · intro q state n at_q connecting
    rw [dials]
    unfold accept at at_q
    dsimp only at at_q
    rw [FiniteMap.getElem?_insert] at at_q
    split at at_q
    · rename_i own
      obtain rfl := Option.some.inj at_q
      obtain rfl := Option.some.inj connecting
      exact ⟨_, if_pos rfl, own.symm, rfl, pending⟩
    · obtain ⟨old, there, own, minted, waiting⟩ := linked.waits q state n at_q connecting
      refine ⟨old, ?_, own, minted, waiting⟩
      rw [if_neg, there]
      rintro rfl
      obtain rfl := Option.some.inj (here.symm.trans there)
      rw [unminted] at minted
      simp at minted
  · intro n old wake there before
    rw [dials] at there
    split at there
    · obtain rfl := Option.some.inj there
      simp at before
    · exact linked.called n old wake there before

theorem dials (linked : Linked s) {number : Nat} {dial : Dial} (outcome : DialOutcome)
    (here : s.dials[number]? = some dial) : Linked (s.dialled number dial outcome) := by
  unfold dialled
  cases outcome with
  | failed err =>
    have moved : Linked (s.setDial number { dial with phase := .over, error := some err }) :=
      linked.moves here rfl rfl rfl (by simp)
    exact moved.settles (moved.settles_clearPendingConnect _)
  | noAdapter =>
    have moved : Linked (s.setDial number { dial with phase := .waiting }) :=
      linked.moves here rfl rfl rfl (by simp)
    exact moved.settles (moved.settles_onDisconnected _)
  | dialled =>
    have moved : Linked (s.setDial number { dial with phase := .waiting }) :=
      linked.moves here rfl rfl rfl (by simp)
    exact ⟨moved.waits, moved.called⟩

theorem step (linked : Linked s) {label : AndroidStep} (step : s.step label = some s') : Linked s' := by
  cases step_cases step with
  | elapse time => exact ⟨linked.waits, linked.called⟩
  | call address => exact linked.calls address
  | refused reason here _ _ => exact linked.moves here rfl rfl rfl (by simp)
  | accepted here phase _ => exact linked.accepts here phase
  | dialled outcome here _ => exact linked.dials outcome here
  | @delivered number dial here _ _ =>
    have moved : Linked (s.setDial number { dial with phase := .over }) :=
      linked.moves here rfl rfl rfl (by simp)
    exact ⟨moved.waits, moved.called⟩
  | abandoned here _ _ => exact linked.moves here rfl rfl rfl (by simp)
  | uncalled here _ => exact linked.moves here rfl rfl rfl (by simp)
  | cancelled here _ => exact linked.moves here rfl rfl rfl (by simp)
  | @closed number dial attached here _ =>
    have moved : Linked (s.setDial number { dial with phase := .clearing }) :=
      linked.moves here rfl rfl rfl (by simp)
    exact ⟨moved.waits, moved.called⟩
  | @cleared number dial here _ =>
    have moved : Linked (s.setDial number { dial with phase := .over }) :=
      linked.moves here rfl rfl rfl (by simp)
    exact moved.settles (moved.settles_clearPendingConnect _)
  | onConnected address => exact linked.settles (linked.settles_onConnected address)
  | onDisconnected address => exact linked.settles (linked.settles_onDisconnected address)
  | radioOff => exact linked.settles (settles_radioOff s)
  | forget address => exact ⟨linked.waits, linked.called⟩
  | operate operation _ => exact linked.sameOwners (operate_owners s _ _ operation)
  | release address release => exact linked.sameOwners (release_owners s address release)

theorem reach (reached : machine.Reach s) : Linked s := by
  refine reached.invariant ?_ ?_
  · rintro s ⟨now, rfl⟩
    exact ⟨by simp [start], by simp [start]⟩
  · intro s label s' _ linked step
    exact linked.step step

end Linked

end AndroidClient

end BleGatt
