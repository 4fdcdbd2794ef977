import BleGatt.Drivers.LinuxDialSteps
import BleGatt.Lib.Roster

namespace BleGatt
open Std

/-! What an abandoned dial leaves behind, and for how long: the quarantine of
its address, its cleanup and its permit. -/

namespace LinuxDialer

/-- The dial's `Connect` is abandoned, and its quarantine not lifted. -/
def Quarantined (number : Nat) (call : ConnectCall) (s : LinuxDialer) : Prop :=
  call.phase = .abandoned ∨ call.phase = .forgotten ∨
    ∃ (n : Nat) (cleanup : Cleanup), s.cleanups[n]? = some cleanup ∧ cleanup.connect = number ∧
      cleanup.phase.quarantines = true

/-- A cleanup may lift its quarantine for this reason. -/
def Justified (disconnects : List DisconnectCall) (number : Nat) (reason : LiftReason) : Prop :=
  reason = .noDevice ∨ ∃ (call : Nat) (made : DisconnectCall) (result : DisconnectResult), reason = .clean call ∧
    disconnects[call]? = some made ∧ made.issuer = .cleanup number ∧ made.result = some result ∧ result.clean = true

structure DialsGuarded (s : LinuxDialer) : Prop where
  /-- No `Connect` is out to a quarantined address. -/
  barred : ∀ (n m : Nat) (call other : ConnectCall), s.connects[n]? = some call → s.connects[m]? = some other →
    call.address = other.address → call.phase = .issued → ¬s.Quarantined m other
  lifted : ∀ (n : Nat) (cleanup : Cleanup) (reason : LiftReason), s.cleanups[n]? = some cleanup →
    cleanup.phase.reason = some reason → Justified s.disconnects n reason
  alone : ∀ (n m : Nat) (call other : ConnectCall), s.connects[n]? = some call → s.connects[m]? = some other →
    call.address = other.address → call.phase.accepted = true → other.phase.accepted = true → n = m
  bounded : s.connects.countP (fun call => decide (call.phase = .issued)) +
    s.cleanups.countP (fun cleanup => cleanup.phase.running) ≤ maxConcurrentCleanupDisconnects
  /-- A cleanup has one call out at most. -/
  single : ∀ (n i j : Nat) (made other : DisconnectCall), s.disconnects[i]? = some made →
    s.disconnects[j]? = some other → made.issuer = .cleanup n → other.issuer = .cleanup n → made.result = none →
      other.result = none → i = j
  inFlight : ∀ address, address ∈ s.inFlight ↔
    ∃ call ∈ s.connects, call.address = address ∧ call.phase.accepted = true
  pendingCleanup : ∀ address, address ∈ s.pendingCleanup ↔
    ∃ cleanup ∈ s.cleanups, cleanup.address = address ∧ cleanup.phase.quarantines = true
  permits : s.cleanupPermits + s.connects.countP (fun call => call.phase.reserves) +
    s.cleanups.countP (fun cleanup => cleanup.phase.running) = maxConcurrentCleanupDisconnects

/-- `in_flight` has the addresses of the accepted calls. -/
def Flights (connects : List ConnectCall) (inFlight : List PeerAddress) : Prop :=
  TaskList.Roster ConnectCall.address (fun call => call.phase.accepted) connects inFlight

theorem Flights.step {s s' : LinuxDialer} {label : DialStep} (flights : Flights s.connects s.inFlight)
    (stepped : Stepped s label s') : Flights s'.connects s'.inFlight := by
  cases stepped with
  | called address => exact TaskList.Roster.start flights rfl
  | moved phase here accepted => exact TaskList.Roster.set flights here rfl accepted
  | refused here phase | issued here phase | locked here phase | cleared here phase | dialed here phase
  | reserved here phase | ended here phase | quarantined here phase | unlocked here phase =>
    exact TaskList.Roster.set flights here rfl (by rw [phase]; rfl)
  | accepted here phase free => exact TaskList.Roster.enter flights here rfl rfl free
  | dropped here phase =>
    refine TaskList.Roster.set flights here rfl ?_
    rcases phase with phase | phase <;> rw [phase] <;> rfl
  | undialed phase dialed here from_ =>
    refine TaskList.Roster.set flights here rfl ?_
    rcases from_ with ⟨was, rfl⟩ | ⟨was, rfl⟩ | ⟨was, rfl⟩ <;> rw [was] <;> rfl
  | finished here phase => exact TaskList.Roster.leave flights here (by rw [phase]; rfl) rfl
  | _ => exact flights

/-- `pending_cleanup` has the addresses of the quarantining cleanups, and
none of them is dialed. -/
structure Quarantining (dialed : PeerMap Nat) (pendingCleanup : List PeerAddress) (connects : List ConnectCall)
    (cleanups : List Cleanup) : Prop where
  roster : TaskList.Roster Cleanup.address (fun cleanup => cleanup.phase.quarantines) cleanups pendingCleanup
  clear : ∀ (n : Nat) (call : ConnectCall), connects[n]? = some call → call.phase.clear = true →
    call.address ∉ pendingCleanup
  undialed : ∀ address ∈ pendingCleanup, dialed[address]? = none
  own : ∀ (n : Nat) (call : ConnectCall), connects[n]? = some call → call.phase.dials = true →
    ∀ generation, dialed[call.address]? = some generation → generation = call.generation
  forgotten : ∀ (n : Nat) (call : ConnectCall), connects[n]? = some call → call.phase = .forgotten →
    dialed[call.address]? = none
  origin : ∀ (n : Nat) (cleanup : Cleanup), cleanups[n]? = some cleanup →
    ∃ call, connects[cleanup.connect]? = some call ∧ call.address = cleanup.address

namespace Quarantining

section Phases

variable {phase : ConnectPhase}

/-- Whoever counts on no quarantine, or on its own dial, has the lock. -/
theorem locks_of_clear (clear : phase.clear = true) : phase.locks = true := by
  cases phase <;> first | rfl | exact absurd clear (by decide)

theorem clear_of_dials (dials : phase.dials = true) : phase.clear = true := by
  cases phase <;> first | rfl | exact absurd dials (by decide)

end Phases

variable {dialed less : PeerMap Nat} {pendingCleanup : List PeerAddress} {connects : List ConnectCall}
  {cleanups : List Cleanup} {number : Nat} {call call' : ConnectCall} {cleanup cleanup' : Cleanup}

theorem origin_set (held : Quarantining dialed pendingCleanup connects cleanups) (here : connects[number]? = some call)
    (address : call'.address = call.address) (n : Nat) (cleanup : Cleanup) (there : cleanups[n]? = some cleanup) :
    ∃ found, (connects.set number call')[cleanup.connect]? = some found ∧ found.address = cleanup.address := by
  obtain ⟨found, was, same⟩ := held.origin n cleanup there
  rw [TaskList.getElem?_set here]
  split
  · rename_i at_
    rw [at_, here, Option.some.injEq] at was
    exact ⟨call', rfl, by rw [address, was, same]⟩
  · exact ⟨found, was, same⟩

/-- A call goes on, and gains no claim of its own. -/
theorem setConnect (held : Quarantining dialed pendingCleanup connects cleanups) (here : connects[number]? = some call)
    (phase : ConnectPhase) (clear : phase.clear = true → call.phase.clear = true)
    (dials : phase.dials = true → call.phase.dials = true) (forgets : phase ≠ .forgotten) :
    Quarantining dialed pendingCleanup (connects.set number { call with phase := phase }) cleanups := by
  refine ⟨held.roster, ?_, held.undialed, ?_, ?_, held.origin_set here rfl⟩
  · intro n found there on
    obtain ⟨rfl, rfl⟩ | ⟨_, there⟩ := TaskList.of_set there
    · exact held.clear n call here (clear on)
    · exact held.clear n found there on
  · intro n found there on
    obtain ⟨rfl, rfl⟩ | ⟨_, there⟩ := TaskList.of_set there
    · exact held.own n call here (dials on)
    · exact held.own n found there on
  · intro n found there forgotten
    obtain ⟨rfl, rfl⟩ | ⟨_, there⟩ := TaskList.of_set there
    · exact absurd forgotten forgets
    · exact held.forgotten n found there forgotten

/-- A call that counts on nothing any more. -/
theorem retire (held : Quarantining dialed pendingCleanup connects cleanups) (here : connects[number]? = some call)
    (phase : ConnectPhase) (clear : phase.clear = false) :
    Quarantining dialed pendingCleanup (connects.set number { call with phase := phase }) cleanups := by
  have never : phase.clear ≠ true := by rw [clear]; simp
  refine held.setConnect here phase (fun on => absurd on never) (fun on => absurd (clear_of_dials on) never) ?_
  rintro rfl
  exact never rfl

/-- A call starts, and counts on nothing yet. -/
theorem start (held : Quarantining dialed pendingCleanup connects cleanups) (idle : call.phase.clear = false) :
    Quarantining dialed pendingCleanup (connects ++ [call]) cleanups := by
  have lift : ∀ {n : Nat} {found : ConnectCall}, (connects ++ [call])[n]? = some found → found.phase.clear = true →
      connects[n]? = some found := by
    intro n found there on
    obtain there | ⟨_, rfl⟩ := TaskList.of_append there
    · exact there
    · rw [idle] at on
      simp at on
  refine ⟨held.roster, ?_, held.undialed, ?_, ?_, ?_⟩
  · intro n found there on
    exact held.clear n found (lift there on) on
  · intro n found there on
    exact held.own n found (lift there (clear_of_dials on)) on
  · intro n found there phase
    exact held.forgotten n found (lift there (by rw [phase]; rfl)) phase
  · intro n cleanup there
    obtain ⟨found, was, same⟩ := held.origin n cleanup there
    exact ⟨found, TaskList.getElem?_append_of was _, same⟩

/-- A cleanup goes on, and its quarantine stays as it is. -/
theorem setCleanup (held : Quarantining dialed pendingCleanup connects cleanups) (here : cleanups[number]? = some cleanup)
    (phase : CleanupPhase) (quarantines : phase.quarantines = cleanup.phase.quarantines) :
    Quarantining dialed pendingCleanup connects (cleanups.set number { cleanup with phase := phase }) := by
  refine ⟨held.roster.set here rfl quarantines, held.clear, held.undialed, held.own, held.forgotten, ?_⟩
  intro n found there
  obtain ⟨rfl, rfl⟩ | ⟨_, there⟩ := TaskList.of_set there
  · exact held.origin n cleanup here
  · exact held.origin n found there

/-- Entries of `dialed` are gone. -/
theorem fewer (held : Quarantining dialed pendingCleanup connects cleanups)
    (fewer : ∀ (address : PeerAddress) (generation : Nat), less[address]? = some generation →
      dialed[address]? = some generation) : Quarantining less pendingCleanup connects cleanups := by
  have absent : ∀ address : PeerAddress, dialed[address]? = none → less[address]? = none := by
    intro address gone
    refine Option.eq_none_iff_forall_ne_some.mpr fun generation there => ?_
    rw [fewer address generation there] at gone
    simp at gone
  refine ⟨held.roster, held.clear, ?_, ?_, ?_, held.origin⟩
  · intro address there
    exact absent address (held.undialed address there)
  · intro n call here on generation there
    exact held.own n call here on generation (fewer _ _ there)
  · intro n call here phase
    exact absent _ (held.forgotten n call here phase)

theorem cleared (held : Quarantining dialed pendingCleanup connects cleanups) (here : connects[number]? = some call)
    (unquarantined : call.address ∉ pendingCleanup) :
    Quarantining dialed pendingCleanup (connects.set number { call with phase := .cleared }) cleanups := by
  refine ⟨held.roster, ?_, held.undialed, ?_, ?_, held.origin_set here rfl⟩
  · intro n found there on
    obtain ⟨rfl, rfl⟩ | ⟨_, there⟩ := TaskList.of_set there
    · exact unquarantined
    · exact held.clear n found there on
  · intro n found there on
    obtain ⟨rfl, rfl⟩ | ⟨_, there⟩ := TaskList.of_set there
    · simp [ConnectPhase.dials] at on
    · exact held.own n found there on
  · intro n found there phase
    obtain ⟨rfl, rfl⟩ | ⟨_, there⟩ := TaskList.of_set there
    · simp at phase
    · exact held.forgotten n found there phase

/-- No other call counts on anything at this address. -/
def Alone (connects : List ConnectCall) (number : Nat) (call : ConnectCall) : Prop :=
  ∀ (n : Nat) (found : ConnectCall), n ≠ number → connects[n]? = some found → found.phase.clear = true →
    found.address ≠ call.address

theorem alone {s : LinuxDialer} (exclusive : Exclusive s) (here : s.connects[number]? = some call)
    (clear : call.phase.clear = true) : Alone s.connects number call := by
  intro n found apart there on same
  have first := held_connect here
  have second := held_connect there
  rw [if_pos (locks_of_clear clear)] at first
  rw [if_pos (locks_of_clear on), same] at second
  exact apart (DriverTask.connect.inj (KeyedLock.Owned.alone exclusive second first))

/-- The new entry is the only one that its address can have. -/
theorem dial {generation : Nat} (held : Quarantining dialed pendingCleanup connects cleanups)
    (alone : Alone connects number call) (here : connects[number]? = some call) (clear : call.phase.clear = true) :
    Quarantining (dialed.insert call.address generation) pendingCleanup
      (connects.set number { call with phase := .dialed, generation := generation }) cleanups := by
  refine ⟨held.roster, ?_, ?_, ?_, ?_, held.origin_set here rfl⟩
  · intro n found there on
    obtain ⟨rfl, rfl⟩ | ⟨_, there⟩ := TaskList.of_set there
    · exact held.clear n call here clear
    · exact held.clear n found there on
  · intro address there
    rw [FiniteMap.getElem?_insert, if_neg]
    · exact held.undialed address there
    · rintro rfl
      exact held.clear number call here clear there
  · intro n found there on other at_
    rw [FiniteMap.getElem?_insert] at at_
    obtain ⟨rfl, rfl⟩ | ⟨apart, there⟩ := TaskList.of_set there
    · rw [if_pos rfl, Option.some.injEq] at at_
      exact at_.symm
    · rw [if_neg (alone n found apart there (clear_of_dials on))] at at_
      exact held.own n found there on other at_
  · intro n found there on
    obtain ⟨rfl, rfl⟩ | ⟨apart, there⟩ := TaskList.of_set there
    · simp at on
    · rw [FiniteMap.getElem?_insert, if_neg (alone n found apart there (by rw [on]; rfl))]
      exact held.forgotten n found there on

/-- The guard forgets its dial: what was in `dialed` was its own. -/
theorem forget (held : Quarantining dialed pendingCleanup connects cleanups) (here : connects[number]? = some call)
    (phase : call.phase = .abandoned)
    (fewer : ∀ (address : PeerAddress) (generation : Nat), less[address]? = some generation →
      dialed[address]? = some generation) (gone : less[call.address]? ≠ some call.generation) :
    Quarantining less pendingCleanup (connects.set number { call with phase := .forgotten }) cleanups := by
  have kept := held.fewer fewer
  refine ⟨held.roster, ?_, kept.undialed, ?_, ?_, held.origin_set here rfl⟩
  · intro n found there on
    obtain ⟨rfl, rfl⟩ | ⟨_, there⟩ := TaskList.of_set there
    · exact held.clear n call here (by rw [phase]; rfl)
    · exact held.clear n found there on
  · intro n found there on
    obtain ⟨rfl, rfl⟩ | ⟨_, there⟩ := TaskList.of_set there
    · simp [ConnectPhase.dials] at on
    · exact kept.own n found there on
  · intro n found there on
    obtain ⟨rfl, rfl⟩ | ⟨_, there⟩ := TaskList.of_set there
    · refine Option.eq_none_iff_forall_ne_some.mpr fun generation at_ => gone ?_
      rw [held.own n call here (by rw [phase]; rfl) generation (fewer _ _ at_)] at at_
      exact at_
    · exact kept.forgotten n found there on

/-- The guard publishes the quarantine under the lock of its address. -/
theorem publish (held : Quarantining dialed pendingCleanup connects cleanups) (alone : Alone connects number call)
    (here : connects[number]? = some call) (phase : call.phase = .forgotten) :
    Quarantining dialed (pendingCleanup ++ [call.address]) (connects.set number { call with phase := .releasing })
      (cleanups ++ [{ address := call.address, connect := number }]) := by
  have clear : call.phase.clear = true := by rw [phase]; rfl
  have free := held.clear number call here clear
  refine ⟨held.roster.startActive rfl free, ?_, ?_, ?_, ?_, ?_⟩
  · intro n found there on member
    obtain ⟨rfl, rfl⟩ | ⟨apart, there⟩ := TaskList.of_set there
    · simp [ConnectPhase.clear] at on
    · obtain member | member := List.mem_append.mp member
      · exact held.clear n found there on member
      · exact alone n found apart there on (List.mem_singleton.mp member)
  · intro address member
    obtain member | member := List.mem_append.mp member
    · exact held.undialed address member
    · rw [List.mem_singleton.mp member]
      exact held.forgotten number call here phase
  · intro n found there on
    obtain ⟨rfl, rfl⟩ | ⟨_, there⟩ := TaskList.of_set there
    · simp [ConnectPhase.dials] at on
    · exact held.own n found there on
  · intro n found there on
    obtain ⟨rfl, rfl⟩ | ⟨_, there⟩ := TaskList.of_set there
    · simp at on
    · exact held.forgotten n found there on
  · intro n found there
    obtain there | ⟨_, rfl⟩ := TaskList.of_append there
    · exact held.origin_set here (by rfl) n found there
    · exact ⟨_, TaskList.getElem?_set_self here, rfl⟩

theorem lift {reason : LiftReason} (held : Quarantining dialed pendingCleanup connects cleanups)
    (here : cleanups[number]? = some cleanup) (quarantines : cleanup.phase.quarantines = true) :
    Quarantining dialed (pendingCleanup.erase cleanup.address) connects
      (cleanups.set number { cleanup with phase := .lifted reason }) := by
  refine ⟨held.roster.leave here quarantines rfl, ?_, ?_, held.own, held.forgotten, ?_⟩
  · intro n found there on member
    exact held.clear n found there on (List.mem_of_mem_erase member)
  · intro address member
    exact held.undialed address (List.mem_of_mem_erase member)
  · intro n found there
    obtain ⟨rfl, rfl⟩ | ⟨_, there⟩ := TaskList.of_set there
    · exact held.origin n cleanup here
    · exact held.origin n found there

theorem step {s s' : LinuxDialer} {label : DialStep}
    (held : Quarantining s.dialed s.pendingCleanup s.connects s.cleanups) (exclusive : Exclusive s)
    (stepped : Stepped s label s') : Quarantining s'.dialed s'.pendingCleanup s'.connects s'.cleanups := by
  cases stepped with
  | called address => exact held.start rfl
  | moved phase here accepted locks reserves clear dials forgets => exact held.setConnect here phase clear dials forgets
  | refused here => exact held.retire here .over rfl
  | issued here phase =>
    exact held.setConnect here .issued (fun _ => by rw [phase]; rfl) (fun _ => by rw [phase]; rfl) (by decide)
  | accepted here => exact held.retire here .settling rfl
  | dropped here => exact held.retire here .unlocked rfl
  | locked here => exact held.retire here .locked rfl
  | cleared here phase unquarantined => exact held.cleared here unquarantined
  | @dialed number call here phase =>
    have clear : call.phase.clear = true := by rw [phase]; rfl
    exact held.dial (alone exclusive here clear) here clear
  | reserved here phase =>
    exact held.setConnect here .reserved (fun _ => by rw [phase]; rfl) (fun _ => by rw [phase]; rfl) (by decide)
  | undialed phase dialed here from_ less gone =>
    rcases from_ with ⟨_, rfl⟩ | ⟨was, rfl⟩ | ⟨was, rfl⟩
    · exact (held.fewer less).retire here .releasing rfl
    · exact (held.fewer less).setConnect here .ending (fun _ => by rw [was]; rfl) (fun on => absurd on (by decide))
        (by decide)
    · exact held.forget here was less gone
  | ended here => exact held.retire here .releasing rfl
  | @quarantined number call here phase =>
    have clear : call.phase.clear = true := by rw [phase]; rfl
    have pending : (s.quarantine number call).pendingCleanup = s.pendingCleanup ++ [call.address] :=
      if_neg (held.clear number call here clear)
    have published := held.publish (alone exclusive here clear) here phase
    rwa [← pending] at published
  | unlocked here => exact held.retire here .unlocked rfl
  | finished here => exact held.retire here .over rfl
  | cleanupLocked here phase => exact held.setCleanup here .locked (by rw [phase]; rfl)
  | cleanupChecked here phase => exact held.setCleanup here .checked (by rw [phase]; rfl)
  | superseded here phase => exact held.setCleanup here (.lifting .newerDial) (by rw [phase]; rfl)
  | cleanupIssued here phase => exact held.setCleanup here (.waiting _) (by rw [phase]; rfl)
  | noDevice here phase => exact held.setCleanup here (.lifting .noDevice) (by rw [phase]; rfl)
  | cleaned here phase => exact held.setCleanup here (.lifting _) (by rw [phase]; rfl)
  | cleanupRetried here phase => exact held.setCleanup here .locking (by rw [phase]; rfl)
  | lifted here phase => exact held.lift here (by rw [phase]; rfl)
  | cleanupOver here phase => exact held.setCleanup here (.over _) (by rw [phase]; rfl)
  | tornDown dialed here less => exact held.fewer less
  | lost dialed less => exact held.fewer less
  | _ => exact held

end Quarantining

theorem Justified.mono {disconnects more : List DisconnectCall} {number : Nat} {reason : LiftReason}
    (held : Justified disconnects number reason) (kept : ∀ (i : Nat) (made : DisconnectCall) (result : DisconnectResult),
      disconnects[i]? = some made → made.result = some result → ∃ found, more[i]? = some found ∧
        found.issuer = made.issuer ∧ found.result = some result) : Justified more number reason := by
  rcases held with nothing | ⟨call, made, result, rfl, out, issuer, returned, clean⟩
  · exact .inl nothing
  · obtain ⟨found, there, same, still⟩ := kept call made result out returned
    exact .inr ⟨call, found, result, rfl, there, same.trans issuer, still, clean⟩

/-- A cleanup waits for what it has out, and lifts with a reason. -/
structure Waiting (cleanups : List Cleanup) (disconnects : List DisconnectCall) : Prop where
  silent : ∀ (i n : Nat) (made : DisconnectCall), disconnects[i]? = some made → made.issuer = .cleanup n →
    made.result = none → ∃ cleanup, cleanups[n]? = some cleanup ∧ cleanup.phase = .waiting i
  issued : ∀ (n i : Nat) (cleanup : Cleanup), cleanups[n]? = some cleanup → cleanup.phase = .waiting i →
    ∃ made, disconnects[i]? = some made ∧ made.issuer = .cleanup n
  justified : ∀ (n : Nat) (cleanup : Cleanup) (reason : LiftReason), cleanups[n]? = some cleanup →
    cleanup.phase.reason = some reason → Justified disconnects n reason

namespace Waiting

variable {cleanups : List Cleanup} {disconnects : List DisconnectCall} {number call : Nat} {cleanup : Cleanup}
  {made made' : DisconnectCall} {reason : LiftReason}

/-- A cleanup goes on that has nothing out. -/
theorem setCleanup (held : Waiting cleanups disconnects) (here : cleanups[number]? = some cleanup)
    (phase : CleanupPhase) (answered : ∀ i, cleanup.phase = .waiting i → ∃ (made : DisconnectCall)
      (result : DisconnectResult), disconnects[i]? = some made ∧ made.result = some result)
    (idle : ∀ i, phase ≠ .waiting i) (why : ∀ reason, phase.reason = some reason → Justified disconnects number reason) :
    Waiting (cleanups.set number { cleanup with phase := phase }) disconnects := by
  refine ⟨?_, ?_, ?_⟩
  · intro i n made out issuer silent
    obtain ⟨found, there, waits⟩ := held.silent i n made out issuer silent
    refine ⟨found, ?_, waits⟩
    rw [TaskList.getElem?_set here, if_neg]
    · exact there
    · rintro rfl
      cases here.symm.trans there
      obtain ⟨_, result, out', returned⟩ := answered i waits
      cases out.symm.trans out'
      rw [silent] at returned
      simp at returned
  · intro n i found there waits
    obtain ⟨rfl, rfl⟩ | ⟨_, there⟩ := TaskList.of_set there
    · exact absurd waits (idle i)
    · exact held.issued n i found there waits
  · intro n found reason there lifts
    obtain ⟨rfl, rfl⟩ | ⟨_, there⟩ := TaskList.of_set there
    · exact why reason lifts
    · exact held.justified n found reason there lifts

theorem start (held : Waiting cleanups disconnects) (phase : cleanup.phase = .locking) :
    Waiting (cleanups ++ [cleanup]) disconnects := by
  refine ⟨?_, ?_, ?_⟩
  · intro i n made out issuer silent
    obtain ⟨found, there, waits⟩ := held.silent i n made out issuer silent
    exact ⟨found, TaskList.getElem?_append_of there _, waits⟩
  · intro n i found there waits
    obtain there | ⟨_, rfl⟩ := TaskList.of_append there
    · exact held.issued n i found there waits
    · rw [phase] at waits
      simp at waits
  · intro n found reason there lifts
    obtain there | ⟨_, rfl⟩ := TaskList.of_append there
    · exact held.justified n found reason there lifts
    · rw [phase] at lifts
      simp [CleanupPhase.reason] at lifts

theorem append (held : Waiting cleanups disconnects) (idle : ∀ n, made.issuer = .cleanup n →
    ∃ cleanup, cleanups[n]? = some cleanup ∧ cleanup.phase = .waiting disconnects.length) :
    Waiting cleanups (disconnects ++ [made]) := by
  refine ⟨?_, ?_, ?_⟩
  · intro i n found out issuer silent
    obtain out | ⟨rfl, rfl⟩ := TaskList.of_append out
    · exact held.silent i n found out issuer silent
    · exact idle n issuer
  · intro n i found there waits
    obtain ⟨made, out, issuer⟩ := held.issued n i found there waits
    exact ⟨made, TaskList.getElem?_append_of out _, issuer⟩
  · intro n found reason there lifts
    refine (held.justified n found reason there lifts).mono fun i made result out returned => ?_
    exact ⟨made, TaskList.getElem?_append_of out _, rfl, returned⟩

/-- A cleanup that waited for nothing asks for its disconnect. -/
theorem issue (held : Waiting cleanups disconnects) (here : cleanups[number]? = some cleanup)
    (idle : ∀ i, cleanup.phase ≠ .waiting i) (issuer : made.issuer = .cleanup number) :
    Waiting (cleanups.set number { cleanup with phase := .waiting disconnects.length }) (disconnects ++ [made]) := by
  refine ⟨?_, ?_, ?_⟩
  · intro i n found out from_ silent
    rw [TaskList.getElem?_set here]
    obtain out | ⟨rfl, rfl⟩ := TaskList.of_append out
    · obtain ⟨before, there, waits⟩ := held.silent i n found out from_ silent
      rw [if_neg]
      · exact ⟨before, there, waits⟩
      · rintro rfl
        cases here.symm.trans there
        exact idle i waits
    · rw [if_pos (DriverTask.cleanup.inj (from_.symm.trans issuer))]
      exact ⟨_, rfl, rfl⟩
  · intro n i found there waits
    obtain ⟨rfl, rfl⟩ | ⟨_, there⟩ := TaskList.of_set there
    · cases CleanupPhase.waiting.inj waits
      exact ⟨made, List.getElem?_concat_length, issuer⟩
    · obtain ⟨before, out, from_⟩ := held.issued n i found there waits
      exact ⟨before, TaskList.getElem?_append_of out _, from_⟩
  · intro n found reason there lifts
    obtain ⟨rfl, rfl⟩ | ⟨_, there⟩ := TaskList.of_set there
    · simp [CleanupPhase.reason] at lifts
    · refine (held.justified n found reason there lifts).mono fun i made result out returned => ?_
      exact ⟨made, TaskList.getElem?_append_of out _, rfl, returned⟩

/-- More is known of a call that is out. -/
theorem learn (held : Waiting cleanups disconnects) (out : disconnects[call]? = some made)
    (issuer : made'.issuer = made.issuer)
    (kept : ∀ result, made.result = some result → made'.result = some result) :
    Waiting cleanups (disconnects.set call made') := by
  have now : ∀ (i : Nat) (found : DisconnectCall), disconnects[i]? = some found →
      ∃ after, (disconnects.set call made')[i]? = some after ∧ after.issuer = found.issuer ∧
        ∀ result, found.result = some result → after.result = some result := by
    intro i found there
    rw [TaskList.getElem?_set out]
    split
    · rename_i same
      subst same
      cases out.symm.trans there
      exact ⟨made', rfl, issuer, kept⟩
    · exact ⟨found, there, rfl, fun _ => id⟩
  refine ⟨?_, ?_, ?_⟩
  · intro i n found there from_ silent
    obtain ⟨rfl, rfl⟩ | ⟨_, there⟩ := TaskList.of_set there
    · refine held.silent i n made out (issuer ▸ from_) (Option.eq_none_iff_forall_ne_some.mpr fun result was => ?_)
      rw [kept result was] at silent
      simp at silent
    · exact held.silent i n found there from_ silent
  · intro n i found there waits
    obtain ⟨before, was, from_⟩ := held.issued n i found there waits
    obtain ⟨after, is, same, _⟩ := now i before was
    exact ⟨after, is, same.trans from_⟩
  · intro n found reason there lifts
    refine (held.justified n found reason there lifts).mono fun i before result was returned => ?_
    obtain ⟨after, is, same, still⟩ := now i before was
    exact ⟨after, is, same, still result returned⟩

theorem step {s s' : LinuxDialer} {label : DialStep} (held : Waiting s.cleanups s.disconnects)
    (quarantining : Quarantining s.dialed s.pendingCleanup s.connects s.cleanups) (stepped : Stepped s label s') :
    Waiting s'.cleanups s'.disconnects := by
  cases stepped with
  | quarantined here => exact held.start rfl
  | cleanupLocked here phase =>
    exact held.setCleanup here .locked (by simp [phase]) (by simp) (by simp [CleanupPhase.reason])
  | cleanupChecked here phase =>
    exact held.setCleanup here .checked (by simp [phase]) (by simp) (by simp [CleanupPhase.reason])
  | @superseded number cleanup _ here phase newer =>
    -- an address in `pending_cleanup` is not in `dialed`
    have quarantines : cleanup.phase.quarantines = true := by rw [phase]; rfl
    rw [quarantining.undialed _ (quarantining.roster.entered number cleanup here quarantines)] at newer
    simp at newer
  | cleanupIssued here phase => exact held.issue here (by simp [phase]) rfl
  | noDevice here phase =>
    refine held.setCleanup here (.lifting .noDevice) (by simp [phase]) (by simp) fun reason lifts => .inl ?_
    exact (Option.some.inj lifts).symm
  | @cleaned number call cleanup made result _ here phase out returned clean =>
    obtain ⟨found, there, issuer⟩ := held.issued number call cleanup here phase
    cases out.symm.trans there
    refine held.setCleanup here (.lifting (.clean call)) (fun i waits => ?_) (by simp) fun reason lifts => .inr ?_
    · rw [phase, CleanupPhase.waiting.injEq] at waits
      exact waits ▸ ⟨made, result, out, returned⟩
    · exact ⟨call, made, result, (Option.some.inj lifts).symm, out, issuer, returned, clean⟩
  | @cleanupRetried number call cleanup made result _ here phase out returned =>
    refine held.setCleanup here .locking (fun i waits => ?_) (by simp) (by simp [CleanupPhase.reason])
    rw [phase, CleanupPhase.waiting.injEq] at waits
    exact waits ▸ ⟨made, result, out, returned⟩
  | @lifted number cleanup reason _ here phase =>
    refine held.setCleanup here (.lifted reason) (by simp [phase]) (by simp) fun why lifts => ?_
    exact held.justified number cleanup why here (by rw [phase]; exact lifts)
  | @cleanupOver number cleanup reason _ here phase =>
    refine held.setCleanup here (.over reason) (by simp [phase]) (by simp) fun why lifts => ?_
    exact held.justified number cleanup why here (by rw [phase]; exact lifts)
  | teardownIssued here phase => exact held.append (by simp)
  | returned out silent =>
    refine held.learn out rfl fun result was => ?_
    rw [silent] at was
    simp at was
  | resolved out => exact held.learn out rfl fun _ was => was
  | _ => exact held

end Waiting

/-- Each permit is free, reserved by a call, or with a cleanup. -/
def Balanced (permits : Nat) (connects : List ConnectCall) (cleanups : List Cleanup) : Prop :=
  permits + connects.countP (fun call => call.phase.reserves) + cleanups.countP (fun cleanup => cleanup.phase.running) =
    maxConcurrentCleanupDisconnects

namespace Balanced

variable {permits number : Nat} {connects : List ConnectCall} {cleanups : List Cleanup} {call call' : ConnectCall}
  {cleanup cleanup' : Cleanup}

theorem setConnect (held : Balanced permits connects cleanups) (here : connects[number]? = some call)
    (reserves : call'.phase.reserves = call.phase.reserves) : Balanced permits (connects.set number call') cleanups := by
  unfold Balanced
  rw [TaskList.countP_set_same here reserves]
  exact held

theorem setCleanup (held : Balanced permits connects cleanups) (here : cleanups[number]? = some cleanup)
    (running : cleanup'.phase.running = cleanup.phase.running) :
    Balanced permits connects (cleanups.set number cleanup') := by
  unfold Balanced
  rw [TaskList.countP_set_same here running]
  exact held

theorem step {s s' : LinuxDialer} {label : DialStep} (held : Balanced s.cleanupPermits s.connects s.cleanups)
    (stepped : Stepped s label s') : Balanced s'.cleanupPermits s'.connects s'.cleanups := by
  cases stepped with
  | called address =>
    unfold Balanced
    rw [List.countP_append]
    exact held
  | moved phase here accepted locks reserves => exact held.setConnect here reserves
  | refused here phase | issued here phase | accepted here phase | locked here phase | cleared here phase
  | dialed here phase | unlocked here phase | finished here phase =>
    exact held.setConnect here (by rw [phase]; rfl)
  | dropped here phase =>
    refine held.setConnect here ?_
    rcases phase with phase | phase <;> rw [phase] <;> rfl
  | undialed phase dialed here from_ =>
    refine held.setConnect here ?_
    rcases from_ with ⟨was, rfl⟩ | ⟨was, rfl⟩ | ⟨was, rfl⟩ <;> rw [was] <;> rfl
  | @reserved number call here phase some_ =>
    have counted := TaskList.countP_set_on (p := fun call => call.phase.reserves) here (by rw [phase]; rfl)
      (show ({ call with phase := .reserved } : ConnectCall).phase.reserves = true from rfl)
    unfold Balanced at held ⊢
    dsimp only [LinuxDialer.setConnect]
    omega
  | @ended number call here phase =>
    have counted := TaskList.countP_set_off (p := fun call => call.phase.reserves) here (by rw [phase]; rfl)
      (show ({ call with phase := .releasing } : ConnectCall).phase.reserves = false from rfl)
    unfold Balanced at held ⊢
    dsimp only [LinuxDialer.setConnect]
    omega
  | @quarantined number call here phase =>
    -- the permit goes from the call to its cleanup
    have counted := TaskList.countP_set_off (p := fun call => call.phase.reserves) here (by rw [phase]; rfl)
      (show ({ call with phase := .releasing } : ConnectCall).phase.reserves = false from rfl)
    have started : (s.quarantine number call).cleanups.countP (fun cleanup => cleanup.phase.running) =
        s.cleanups.countP (fun cleanup => cleanup.phase.running) + 1 := List.countP_append
    unfold Balanced at held ⊢
    dsimp only [LinuxDialer.setConnect, LinuxDialer.quarantine] at started ⊢
    omega
  | cleanupLocked here phase | cleanupChecked here phase | superseded here phase | cleanupIssued here phase
  | noDevice here phase | cleaned here phase | cleanupRetried here phase | lifted here phase =>
    exact held.setCleanup here (by rw [phase]; rfl)
  | @cleanupOver number cleanup reason _ here phase =>
    have counted := TaskList.countP_set_off (p := fun cleanup => cleanup.phase.running) here (by rw [phase]; rfl)
      (show ({ cleanup with phase := .over reason } : Cleanup).phase.running = false from rfl)
    unfold Balanced at held ⊢
    dsimp only [LinuxDialer.setCleanup]
    omega
  | _ => exact held

end Balanced

/-- What holds of every reachable state of the dials. -/
structure Dialing (s : LinuxDialer) : Prop where
  flights : Flights s.connects s.inFlight
  exclusive : Exclusive s
  quarantining : Quarantining s.dialed s.pendingCleanup s.connects s.cleanups
  waiting : Waiting s.cleanups s.disconnects
  balanced : Balanced s.cleanupPermits s.connects s.cleanups

theorem Dialing.init : Dialing {} := by
  have roster : ∀ {α : Type} (key : α → PeerAddress) (active : α → Bool), TaskList.Roster key active [] [] := by
    intro α key active
    exact ⟨by simp, by simp, by simp, List.nodup_nil⟩
  refine ⟨roster _ _, ?_, ⟨roster _ _, by simp, by simp, by simp, by simp, by simp⟩,
    ⟨by simp, by simp, by simp⟩, rfl⟩
  intro task address here
  cases task <;> simp [held] at here

theorem Dialing.step {s s' : LinuxDialer} {label : DialStep} (held : Dialing s) (stepped : Stepped s label s') :
    Dialing s' :=
  ⟨held.flights.step stepped, held.exclusive.step stepped, held.quarantining.step held.exclusive stepped,
    held.waiting.step held.quarantining stepped, held.balanced.step stepped⟩

theorem reach_dialing {s : LinuxDialer} (reach : machine.Reach s) : Dialing s := by
  refine Machine.Reach.invariant ?_ ?_ reach
  · rintro s rfl
    exact Dialing.init
  · intro s label s' _ held step
    exact held.step (step_cases step)

/-- Its locks are one lock for each address, as the map with its mutexes is. -/
theorem reach_turns {s : LinuxDialer} (reach : machine.Reach s) :
    KeyedLock.Turns fun address : PeerAddress => s.dialLock[address]? := by
  refine KeyedLock.turns_of_reach (fun (s : LinuxDialer) (address : PeerAddress) => s.dialLock[address]?) ?_ ?_ reach
  · rintro s rfl
    exact funext fun address => ExtTreeMap.getElem?_empty
  · intro s label s' reach step
    exact (reach_dialing reach).exclusive.turn (step_cases step)

namespace Dialing

variable {s : LinuxDialer} {number other : Nat} {call issued : ConnectCall}

/-- An abandoned dial that still has its lock. -/
theorem unissued_of_locked (dialing : Dialing s) (here : s.connects[number]? = some issued)
    (there : s.connects[other]? = some call) (same : issued.address = call.address) (phase : issued.phase = .issued)
    (clear : call.phase.clear = true) : call.phase = .issued := by
  have first := held_connect here
  have second := held_connect there
  rw [if_pos (Quarantining.locks_of_clear (by rw [phase]; rfl)), same] at first
  rw [if_pos (Quarantining.locks_of_clear clear)] at second
  cases DriverTask.connect.inj (KeyedLock.Owned.alone dialing.exclusive first second)
  cases here.symm.trans there
  exact phase

theorem not_quarantined (dialing : Dialing s) (here : s.connects[number]? = some issued)
    (there : s.connects[other]? = some call) (same : issued.address = call.address) (phase : issued.phase = .issued) :
    ¬s.Quarantined other call := by
  rintro (abandoned | forgotten | ⟨n, cleanup, cleans, own, quarantines⟩)
  · have locked := dialing.unissued_of_locked here there same phase (by rw [abandoned]; rfl)
    rw [abandoned] at locked
    simp at locked
  · have locked := dialing.unissued_of_locked here there same phase (by rw [forgotten]; rfl)
    rw [forgotten] at locked
    simp at locked
  · obtain ⟨found, origin, address⟩ := dialing.quarantining.origin n cleanup cleans
    rw [own, there, Option.some.injEq] at origin
    have pending := dialing.quarantining.roster.entered n cleanup cleans quarantines
    rw [← address, ← origin, ← same] at pending
    exact dialing.quarantining.clear number issued here (by rw [phase]; rfl) pending

end Dialing

/-- A dial is abandoned at its `Connect`; the first disconnect of its cleanup
fails and the second is done. -/
def abandonedAndCleaned (address : PeerAddress) : List DialStep :=
  List.flatten [[.connect address], List.replicate 7 (.proceed 0), [.abandon 0], List.replicate 4 (.proceed 0),
    [.connect address], List.replicate 3 (.cleanUp 0 true), [.returns 0 .failed], List.replicate 4 (.cleanUp 0 true),
    [.resolve 1, .returns 1 .notConnected], List.replicate 3 (.cleanUp 0 true)]

end LinuxDialer

end BleGatt
