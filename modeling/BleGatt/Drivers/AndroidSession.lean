import BleGatt.Drivers.AndroidSlots

namespace BleGatt
open Std

/-! Whose session a handle carries. -/

/-- Its `onConnected` came, and it is yet to resume and read its session
back. -/
def Dial.resolved (dial : Dial) : Bool :=
  decide (dial.sender = .sent ∧ (dial.phase = .claimed ∨ dial.phase = .waiting))

namespace AndroidClient

/-- No resolved `connect` is left at the address. -/
def noneResolved (address : PeerAddress) (dials : List Dial) : Bool :=
  !dials.any fun dial => decide (dial.address = address) && dial.resolved

/-- The step drops no entry that a resolved `connect` is about to read. -/
def keepsResolved (s : AndroidClient) : AndroidStep → Bool
  | .onDisconnected address => noneResolved address s.dials
  | .radioOff => !s.dials.any Dial.resolved
  | .clearPending number => s.dials[number]?.all fun dial => noneResolved dial.address s.dials
  | .dialled number (.failed _) => s.dials[number]?.all fun dial => noneResolved dial.address (s.dials.eraseIdx number)
  | .dialled number .noAdapter => s.dials[number]?.all fun dial => noneResolved dial.address s.dials
  | _ => true

/-- A handle carries the session that its `connect` minted, and acts only
while that session has its address. -/
structure OwnSession (s : AndroidClient) : Prop where
  minted : ∀ handle ∈ s.handles, ∃ dial, s.dials[handle.dial]? = some dial ∧ dial.address = handle.address ∧
    dial.session.isSome = true ∧ handle.session = dial.session
  refused : ∀ (number : Nat) (handle : AndroidGattConnection) (dial : Dial) (operation : GattOperation),
    s.handles[number]? = some handle → s.dials[handle.dial]? = some dial →
      (∀ state : ConnectionState, s.connections[handle.address]? = some state → dial.session ≠ some state.session) →
        (s.operate number handle operation).1 = .error (.notConnected handle.address.addr) ∧
          (s.operate number handle operation).2.connections = s.connections

/-- A resolved `connect` has a live entry of its own session, and so had each
handle's. -/
structure Owned (s : AndroidClient) : Prop where
  entry : ∀ (number : Nat) (dial : Dial), s.dials[number]? = some dial → dial.resolved = true →
    ∃ state, s.connections[dial.address]? = some state ∧ dial.session = some state.session ∧ state.live = true
  minted : ∀ handle ∈ s.handles, ∃ dial, s.dials[handle.dial]? = some dial ∧ dial.address = handle.address ∧
    dial.phase = .over ∧ dial.session.isSome = true ∧ handle.session = dial.session

theorem noneResolved_iff {address : PeerAddress} {dials : List Dial} :
    noneResolved address dials = true ↔ ∀ dial ∈ dials, dial.address = address → dial.resolved = false := by
  unfold noneResolved
  simp

/-- A session that is not the entry's is refused, and nothing is installed. -/
theorem withSession_refused {s : AndroidClient} {handle : AndroidGattConnection} {mine : UInt64}
    {install : ConnectionState → Except BleError ConnectionState} (session : handle.session = some mine)
    (stale : ∀ state : ConnectionState, s.connections[handle.address]? = some state → mine ≠ state.session) :
    s.withSession handle install = .error (.notConnected handle.address.addr) := by
  unfold withSession
  cases at_address : s.connections[handle.address]? with
  | none => rfl
  | some state =>
    have apart := stale state at_address
    dsimp only
    rw [if_pos]
    rw [session, Option.any_some]
    exact decide_eq_true apart

theorem operate_refused {s : AndroidClient} {number : Nat} {handle : AndroidGattConnection}
    {operation : GattOperation} {mine : UInt64} (session : handle.session = some mine)
    (stale : ∀ state : ConnectionState, s.connections[handle.address]? = some state → mine ≠ state.session) :
    (s.operate number handle operation).1 = .error (.notConnected handle.address.addr) ∧
      (s.operate number handle operation).2.connections = s.connections := by
  have counted : ∀ s' : AndroidClient, s'.connections = s.connections →
      s'.withSession handle (operation.install handle.address s.nextOpId number) =
        .error (.notConnected handle.address.addr) := by
    intro s' same
    refine withSession_refused session fun state at_address => ?_
    rw [same] at at_address
    exact stale state at_address
  unfold operate
  by_cases disconnects : operation = .disconnect
  · dsimp only
    rw [if_pos disconnects, counted s rfl]
    exact ⟨rfl, rfl⟩
  · dsimp only
    rw [if_neg disconnects, counted { s with nextOpId := s.nextOpId + 1 } rfl]
    exact ⟨rfl, rfl⟩

namespace Owned

variable {s s' : AndroidClient}

theorem ownSession (owned : Owned s) : OwnSession s := by
  constructor
  · intro handle member
    obtain ⟨dial, here, address, _, minted, session⟩ := owned.minted handle member
    exact ⟨dial, here, address, minted, session⟩
  · intro number handle dial operation at_number here stale
    obtain ⟨dial', here', _, _, minted, session⟩ := owned.minted handle (List.mem_of_getElem? at_number)
    obtain rfl := Option.some.inj (here.symm.trans here')
    obtain ⟨mine, is_mine⟩ := Option.isSome_iff_exists.mp minted
    refine operate_refused (session.trans is_mine) fun state at_address same => ?_
    exact stale state at_address (is_mine.trans (congrArg some same))

theorem sameOwners (owned : Owned s) (same : SameOwners s s') : Owned s' := by
  constructor
  · rw [same.dials]
    intro number dial here resolved
    obtain ⟨state, at_address, session, live⟩ := owned.entry number dial here resolved
    have owner := same.owners dial.address
    rw [at_address, Option.map_some, Option.map_eq_some_iff] at owner
    obtain ⟨state', at_address', owner⟩ := owner
    obtain ⟨session', live', _⟩ : state'.session = state.session ∧ state'.live = state.live ∧
      state'.connectedTx = state.connectedTx := by simpa [ConnectionState.owner] using owner
    exact ⟨state', at_address', by rw [session']; exact session, live'.trans live⟩
  · rw [same.dials, same.handles]
    exact owned.minted

/-- A `connect` that is not over moves on. -/
theorem moves (owned : Owned s) {number : Nat} {dial dial' : Dial} (here : s.dials[number]? = some dial)
    (address : dial'.address = dial.address) (session : dial'.session = dial.session)
    (running : dial.phase ≠ .over) (resolved : dial'.resolved = true → dial.resolved = true) :
    Owned (s.setDial number dial') := by
  constructor
  · intro n old there pending
    rw [setDial_getElem? here] at there
    split at there
    · obtain rfl := Option.some.inj there
      rw [address, session]
      exact owned.entry number dial here (resolved pending)
    · exact owned.entry n old there pending
  · intro handle member
    obtain ⟨old, there, own, over_, rest⟩ := owned.minted handle member
    refine ⟨old, ?_, own, over_, rest⟩
    rw [setDial_getElem? here, if_neg]
    · exact there
    · intro same
      rw [same] at there
      obtain rfl := Option.some.inj (here.symm.trans there)
      exact running over_

/-- The handles' dials are over, so that no verdict reaches them. -/
theorem minted_settles (owned : Owned s) {verdict : Sender} (settled : Settles verdict s s') :
    ∀ handle ∈ s'.handles, ∃ dial, s'.dials[handle.dial]? = some dial ∧ dial.address = handle.address ∧
      dial.phase = .over ∧ dial.session.isSome = true ∧ handle.session = dial.session := by
  rw [settled.handles]
  intro handle member
  obtain ⟨dial, here, own, done, minted, session⟩ := owned.minted handle member
  have bound : handle.dial < s'.dials.length := by
    rw [settled.count]
    exact (List.getElem?_eq_some_iff.mp here).1
  obtain ⟨old, there, rfl | ⟨same, _⟩⟩ := settled.dials handle.dial _ (List.getElem?_eq_getElem bound)
  · obtain rfl := Option.some.inj (here.symm.trans there)
    exact ⟨_, List.getElem?_eq_getElem bound, own, done, minted, session⟩
  · obtain rfl := Option.some.inj (here.symm.trans there)
    refine ⟨_, List.getElem?_eq_getElem bound, ?_⟩
    rw [same]
    exact ⟨own, done, minted, session⟩

/-- Entries are dropped, none that a resolved `connect` is about to read. -/
theorem drops (owned : Owned s) (settled : Settles .dropped s s')
    (kept : ∀ dial ∈ s.dials, dial.resolved = true → s'.connections[dial.address]? = s.connections[dial.address]?) :
    Owned s' := by
  refine ⟨?_, owned.minted_settles settled⟩
  intro number dial' there resolved
  obtain ⟨dial, here, rfl | ⟨rfl, _⟩⟩ := settled.dials number dial' there
  · rw [kept dial' (List.mem_of_getElem? here) resolved]
    exact owned.entry number dial' here resolved
  · simp [Dial.resolved] at resolved

theorem onConnected (owned : Owned s) (linked : Linked s) (address : PeerAddress) : Owned (s.onConnected address) := by
  have settled := linked.settles_onConnected address
  refine ⟨?_, owned.minted_settles settled⟩
  have at_address : (s.onConnected address).connections[address]? =
      some { s.connections[address]?.getD {} with live := true, connectedTx := none } := by
    unfold AndroidClient.onConnected
    dsimp only
    rw [FiniteMap.getElem?_insert, if_pos rfl]
  intro number dial' there resolved
  -- the entry is of the dial's session, whether it was resolved before or now
  have entry : ∃ state, s.connections[dial'.address]? = some state ∧ dial'.session = some state.session ∧
      (dial'.address ≠ address → state.live = true) := by
    obtain ⟨dial, here, rfl | ⟨rfl, q, held⟩⟩ := settled.dials number dial' there
    · obtain ⟨state, at_dial, session, live⟩ := owned.entry number dial' here resolved
      exact ⟨state, at_dial, session, fun _ => live⟩
    · obtain ⟨state, at_q, connecting⟩ := slot_eq_some_iff.mp held
      obtain ⟨old, here', own, session, pending⟩ := linked.waits q state number at_q connecting
      obtain rfl := Option.some.inj (here.symm.trans here')
      refine ⟨state, own ▸ at_q, session, fun other => ?_⟩
      -- a slot elsewhere stays, and its sender with it
      have at_q' := (onConnected_others (own ▸ other)).trans at_q
      have same := (settled.slots q state number at_q' connecting).2
      rw [there, here] at same
      have sent := congrArg Dial.sender (Option.some.inj same)
      rw [pending] at sent
      simp at sent
  obtain ⟨state, at_dial, session, live⟩ := entry
  by_cases own : dial'.address = address
  · rw [own] at at_dial ⊢
    rw [at_address, at_dial]
    exact ⟨_, rfl, session, rfl⟩
  · rw [onConnected_others own]
    exact ⟨state, at_dial, session, live own⟩

theorem calls (owned : Owned s) (address : PeerAddress) : Owned (s.call address) := by
  constructor
  · intro number dial there resolved
    rcases call_getElem? there with here | ⟨_, wakeAt, rfl⟩
    · exact owned.entry number dial here resolved
    · simp [Dial.resolved] at resolved
  · intro handle member
    obtain ⟨dial, here, rest⟩ := owned.minted handle member
    refine ⟨dial, ?_, rest⟩
    exact (List.getElem?_append_left (List.getElem?_eq_some_iff.mp here).1).trans here

/-- A slot is only given out where nothing is live. -/
theorem accepts (owned : Owned s) (linked : Linked s) {number : Nat} {dial : Dial} {wakeAt : Instant}
    (here : s.dials[number]? = some dial) (phase : dial.phase = .called wakeAt)
    (free : s.isFree dial.address = true) : Owned (s.accept number dial) := by
  have dials : ∀ n, (s.accept number dial).dials[n]? =
      if n = number then some { dial with phase := .claimed, session := some s.nextOpId } else s.dials[n]? :=
    fun _ => setDial_getElem? here
  constructor
  · intro n old there resolved
    rw [dials] at there
    split at there
    · obtain rfl := Option.some.inj there
      simp [Dial.resolved, (linked.called number dial wakeAt here phase).2] at resolved
    · obtain ⟨state, at_old, session, live⟩ := owned.entry n old there resolved
      refine ⟨state, ?_, session, live⟩
      unfold accept
      dsimp only
      rw [FiniteMap.getElem?_insert, if_neg]
      · exact at_old
      · intro same
        rw [same] at at_old
        simp [isFree, at_old, live] at free
  · intro handle member
    obtain ⟨old, there, own, done, rest⟩ := owned.minted handle member
    refine ⟨old, ?_, own, done, rest⟩
    rw [dials, if_neg]
    · exact there
    · intro same
      rw [same] at there
      obtain rfl := Option.some.inj (here.symm.trans there)
      rw [phase] at done
      simp at done

theorem delivers (owned : Owned s) {number : Nat} {dial : Dial} (here : s.dials[number]? = some dial)
    (phase : dial.phase = .waiting) (sent : dial.sender = .sent) : Owned (s.deliver number dial) := by
  have moved : Owned (s.setDial number { dial with phase := .over }) :=
    owned.moves here rfl rfl (by simp [phase]) (by simp [Dial.resolved])
  refine ⟨moved.entry, ?_⟩
  intro handle member
  rcases List.mem_append.mp member with before | last
  · exact moved.minted handle before
  · obtain rfl := List.mem_singleton.mp last
    obtain ⟨state, at_address, session, _⟩ := owned.entry number dial here (by simp [Dial.resolved, phase, sent])
    refine ⟨{ dial with phase := .over }, (setDial_getElem? here).trans (if_pos rfl), rfl, rfl, ?_, ?_⟩
    · dsimp only
      rw [session]
      rfl
    · dsimp only
      rw [at_address, session, Option.map_some]

theorem clears (owned : Owned s) (linked : Linked s) {address : PeerAddress}
    (none_left : ∀ dial ∈ s.dials, dial.address = address → dial.resolved = false) :
    Owned (s.clearPendingConnect address) := by
  refine owned.drops (linked.settles_clearPendingConnect address) fun dial member resolved => ?_
  refine clearPendingConnect_others fun own => ?_
  rw [none_left dial member own] at resolved
  simp at resolved

theorem disconnects (owned : Owned s) (linked : Linked s) {address : PeerAddress}
    (none_left : ∀ dial ∈ s.dials, dial.address = address → dial.resolved = false) :
    Owned (s.onDisconnected address) := by
  refine owned.drops (linked.settles_onDisconnected address) fun dial member resolved => ?_
  refine onDisconnected_others fun own => ?_
  rw [none_left dial member own] at resolved
  simp at resolved

theorem dials (owned : Owned s) (linked : Linked s) {number : Nat} {dial : Dial} {outcome : DialOutcome}
    (here : s.dials[number]? = some dial) (phase : dial.phase = .claimed)
    (ok : s.keepsResolved (.dialled number outcome) = true) : Owned (s.dialled number dial outcome) := by
  have member : ∀ {n : Nat} {old : Dial}, s.dials[n]? = some old → old ∈ s.dials := List.mem_of_getElem?
  unfold dialled
  cases outcome with
  | failed err =>
    have moved : Owned (s.setDial number { dial with phase := .over, error := some err }) :=
      owned.moves here rfl rfl (by simp [phase]) (by simp [Dial.resolved])
    have linked' : Linked (s.setDial number { dial with phase := .over, error := some err }) :=
      linked.moves here rfl rfl rfl (by simp)
    refine moved.clears linked' fun old there own => ?_
    obtain ⟨n, there⟩ := List.getElem?_of_mem there
    rw [setDial_getElem? here] at there
    split at there
    · obtain rfl := Option.some.inj there
      simp [Dial.resolved]
    · rename_i other
      simp only [keepsResolved, here, Option.all_some] at ok
      refine noneResolved_iff.mp ok old ?_ own
      exact List.mem_eraseIdx_iff_getElem?.mpr ⟨n, other, there⟩
  | noAdapter =>
    have moved : Owned (s.setDial number { dial with phase := .waiting }) :=
      owned.moves here rfl rfl (by simp [phase]) (by simp [Dial.resolved, phase])
    have linked' : Linked (s.setDial number { dial with phase := .waiting }) :=
      linked.moves here rfl rfl rfl (by simp)
    simp only [keepsResolved, here, Option.all_some] at ok
    refine moved.disconnects linked' fun old there own => ?_
    obtain ⟨n, there⟩ := List.getElem?_of_mem there
    rw [setDial_getElem? here] at there
    split at there
    · obtain rfl := Option.some.inj there
      have unresolved := noneResolved_iff.mp ok dial (member here) rfl
      simpa [Dial.resolved, phase] using unresolved
    · exact noneResolved_iff.mp ok old (member there) own
  | dialled =>
    have moved : Owned (s.setDial number { dial with phase := .waiting }) :=
      owned.moves here rfl rfl (by simp [phase]) (by simp [Dial.resolved, phase])
    exact ⟨moved.entry, moved.minted⟩

theorem step (owned : Owned s) (linked : Linked s) {label : AndroidStep} (ok : s.keepsResolved label = true)
    (step : s.step label = some s') : Owned s' := by
  cases step_cases step with
  | elapse time => exact ⟨owned.entry, owned.minted⟩
  | call address => exact owned.calls address
  | refused reason here phase _ => exact owned.moves here rfl rfl (by simp [phase]) (by simp [Dial.resolved])
  | accepted here phase free => exact owned.accepts linked here phase free
  | dialled outcome here phase => exact owned.dials linked here phase ok
  | delivered here phase sent => exact owned.delivers here phase sent
  | abandoned here phase _ => exact owned.moves here rfl rfl (by simp [phase]) (by simp [Dial.resolved])
  | uncalled here phase => exact owned.moves here rfl rfl (by simp [phase]) (by simp [Dial.resolved])
  | cancelled here phase => exact owned.moves here rfl rfl (by simp [phase]) (by simp [Dial.resolved])
  | @closed number dial attached here phase =>
    have moved : Owned (s.setDial number { dial with phase := .clearing }) :=
      owned.moves here rfl rfl (by simp [phase]) (by simp [Dial.resolved])
    exact ⟨moved.entry, moved.minted⟩
  | @cleared number dial here phase =>
    have moved : Owned (s.setDial number { dial with phase := .over }) :=
      owned.moves here rfl rfl (by simp [phase]) (by simp [Dial.resolved])
    have linked' : Linked (s.setDial number { dial with phase := .over }) := linked.moves here rfl rfl rfl (by simp)
    refine moved.clears linked' fun old there own => ?_
    simp only [keepsResolved, here, Option.all_some] at ok
    obtain ⟨n, there⟩ := List.getElem?_of_mem there
    rw [setDial_getElem? here] at there
    split at there
    · obtain rfl := Option.some.inj there
      simp [Dial.resolved]
    · exact noneResolved_iff.mp ok old (List.mem_of_getElem? there) own
  | onConnected address => exact owned.onConnected linked address
  | onDisconnected address => exact owned.disconnects linked (noneResolved_iff.mp ok)
  | radioOff =>
    refine owned.drops (Linked.settles_radioOff s) fun dial member resolved => ?_
    simp only [keepsResolved, Bool.not_eq_true', List.any_eq_false] at ok
    exact absurd resolved (ok dial member)
  | forget address => exact ⟨owned.entry, owned.minted⟩
  | operate operation _ => exact owned.sameOwners (operate_owners s _ _ operation)
  | release address release => exact owned.sameOwners (release_owners s address release)

end Owned

theorem run_ownSession {s : AndroidClient}
    (run : machine.Run (fun _ s label => s.keepsResolved label = true) (fun _ _ _ _ => ()) () () s) :
    OwnSession s := by
  refine Owned.ownSession (run.invariant (P := fun _ => Owned) ?_ ?_)
  · rintro s ⟨now, rfl⟩
    exact ⟨by simp [start], by simp [start]⟩
  · intro _ s label s' before owned ok step
    exact owned.step (.reach before.reach) ok step

/-- A `connect` to a free address, up to its `onConnected`. -/
def dialling (number : Nat) : List AndroidStep :=
  [.call ⟨"a"⟩, .claim number, .dialled number .dialled, .onConnected ⟨"a"⟩]

/-- The link of the address goes. -/
def loss : List AndroidStep := [.forget ⟨"a"⟩, .onDisconnected ⟨"a"⟩, .elapse redialGap]

/-- A handle is left behind, and another connection writes. -/
def replacement : List AndroidStep := dialling 0 ++ [.resume 0] ++ loss ++ dialling 1 ++ [.resume 1, .operate 1 .write]

/-- The first handle's write neither acts nor replaces the waiter of the
second. -/
def refusesFirst (s : AndroidClient) : Bool :=
  s.handles[0]?.any fun handle => decide (handle.session = some 1) &&
    decide ((s.operate 0 handle .write).1 = .error (.notConnected "a")) &&
      decide ((s.operate 0 handle .write).2.connections[handle.address]?.bind ConnectionState.writeTx = some 3)

theorem run_ownSession_replacement : ∃ s, OwnSession s ∧ s.refusesFirst = true := by
  obtain ⟨_, s, run, refused⟩ := Machine.Run.exists_of_follow machine
    (fun (_ : Unit) s label => s.keepsResolved label = true) (fun _ _ _ _ => ()) () (fun _ => refusesFirst)
    ⟨0, rfl⟩ replacement (by decide +kernel)
  exact ⟨s, run_ownSession run, refused⟩

/-- The same, but that the link goes before the first `connect` resumes. -/
def lateResume : List AndroidStep := dialling 0 ++ loss ++ [.resume 0] ++ dialling 1 ++ [.resume 1, .operate 1 .write]

/-- The first handle has no session, and its write replaces the waiter of the
second. -/
def replacesSecond (s : AndroidClient) : Bool :=
  s.handles[0]?.any fun handle => handle.session.isNone && decide ((s.operate 0 handle .write).1 = .ok ()) &&
    decide (s.connections[handle.address]?.bind ConnectionState.writeTx = some 3) &&
      decide ((s.operate 0 handle .write).2.connections[handle.address]?.bind ConnectionState.writeTx = some 4)

theorem not_ownSession : ∃ s, machine.Reach s ∧ s.replacesSecond = true ∧ ¬ OwnSession s := by
  obtain ⟨s, reached, replaced⟩ := Machine.Reach.exists_of_follow machine replacesSecond ⟨0, rfl⟩ lateResume
    (by decide +kernel)
  refine ⟨s, reached, replaced, fun own => ?_⟩
  unfold replacesSecond at replaced
  simp only [Option.any_eq_true, Bool.and_eq_true, Option.isNone_iff_eq_none] at replaced
  obtain ⟨handle, first, ⟨⟨session, _⟩, _⟩, _⟩ := replaced
  obtain ⟨dial, _, _, minted, same⟩ := own.minted handle (List.mem_of_getElem? first)
  rw [← same, session] at minted
  simp at minted

end AndroidClient

end BleGatt
