import BleGatt.Drivers.LinuxServed

namespace BleGatt
open Std

/-! Whether somebody watches the link of every served central. -/

namespace LinuxServer

/-- No operation of the driver is in progress. -/
def Quiet (s : LinuxServer) : Prop := s.operation = .idle ∧ ∀ watch ∈ s.watches, watch.phase ≠ .admitted

structure ServedWatched (s : LinuxServer) : Prop where
  watched : s.Quiet → ∀ (address : PeerAddress) (session : Nat), s.servedPeers[address]? = some session →
    ∃ (n : Nat) (watch : ServedWatch), s.watches[n]? = some watch ∧ watch.address = address ∧
      watch.session = session ∧ watch.live = true
  /-- When such a central is lost, its watcher reports that and forgets it. -/
  freed : ∀ (n : Nat) (watch : ServedWatch), s.watches[n]? = some watch → watch.live = true →
    s.servedPeers[watch.address]? = some watch.session → ∃ lost after,
      (watch.phase = .ending ∧ lost = s ∨ s.step (.lose n) = some lost) ∧ lost.step (.retire n) = some after ∧
        after.servedPeers[watch.address]? = none ∧
        after.disconnected = s.disconnected ++ [(watch.address, some watch.session)] ∧
        (watch.address, some watch.session) ∉ s.disconnected
  once : ∀ (address : PeerAddress) (session : Nat), s.disconnected.count (address, some session) ≤ 1

/-- None of the centrals whose watchers were aborted is still served. -/
def abortedAreGone (s : LinuxServer) : Bool :=
  s.operation.aborted.all fun n => s.watches[n]?.all fun watch =>
    decide (s.servedPeers[watch.address]? ≠ some watch.session)

/-- An operation that aborted watchers ends without having released their
centrals only when those are gone. -/
def releasesAborted (s : LinuxServer) : LinuxServerStep → Bool
  | .answer false | .drop => s.abortedAreGone
  | _ => true

/-- What a step does. -/
inductive Stepped (s : LinuxServer) : LinuxServerStep → LinuxServer → Prop
  | same (label : LinuxServerStep) : Stepped s label s
  /-- An operation begins, or goes on. -/
  | moved {label : LinuxServerStep} (operation : ServerOperation) (generation counter session : Nat)
      (aborted : operation.aborted = s.operation.aborted) (later : s.nextSession ≤ session) : Stepped s label
        { s with
          operation := operation, advertiseGeneration := generation, generationCounter := counter
          nextSession := session }
  /-- It ends with what it aborted. -/
  | ended {label : LinuxServerStep} (label_ : label = .answer false ∨ label = .drop) :
      Stepped s label { s with operation := .idle }
  | aborted (operation : ServerOperation) (counter : Nat) (handlers : List Nat)
      (before : s.operation.aborted = []) (after : operation.aborted = s.serverWatch) : Stepped s .proceed
        { s.abortWatchers with operation := operation, generationCounter := counter, handlers := handlers }
  | released (operation : ServerOperation) (generation : Nat) (after : operation.aborted = []) : Stepped s .proceed
      { s.releaseServedPeers with operation := operation, advertiseGeneration := generation }
  | admitted {address : PeerAddress} (free : s.servedPeers[address]? = none) : Stepped s (.admitCentral address)
      { s with
        servedPeers := s.servedPeers.insert address s.nextSession
        nextSession := s.nextSession + 1
        watches := s.watches ++ [{ address := address, session := s.nextSession }] }
  | watched {number : Nat} {watch : ServedWatch} (here : s.watches[number]? = some watch)
      (phase : watch.phase = .admitted) : Stepped s (.watch number)
        { s with
          watches := s.watches.set number { watch with phase := .watching, aborted := false }
          serverWatch := s.serverWatch ++ [number] }
  | lost {number : Nat} {watch : ServedWatch} (here : s.watches[number]? = some watch)
      (phase : watch.phase = .watching) :
      Stepped s (.lose number) { s with watches := s.watches.set number { watch with phase := .ending } }
  | retired {number : Nat} {watch : ServedWatch} (here : s.watches[number]? = some watch)
      (phase : watch.phase = .ending) (own : s.servedPeers[watch.address]? = some watch.session) :
      Stepped s (.retire number)
        { s with
          watches := s.watches.set number { watch with phase := .over }
          servedPeers := s.servedPeers.erase watch.address
          disconnected := s.disconnected ++ [(watch.address, some watch.session)] }
  | outlived {number : Nat} {watch : ServedWatch} (here : s.watches[number]? = some watch)
      (phase : watch.phase = .ending) (other : s.servedPeers[watch.address]? ≠ some watch.session) :
      Stepped s (.retire number) { s with watches := s.watches.set number { watch with phase := .over } }

theorem step_cases {s s' : LinuxServer} {label : LinuxServerStep} (step : s.step label = some s') :
    Stepped s label s' := by
  unfold LinuxServer.step at step
  cases label with
  | advertise =>
    simp only [Option.ite_none_right_eq_some, Option.some.injEq] at step
    obtain ⟨idle, rfl⟩ := step
    exact .moved .advertising _ _ _ (by rw [idle]; rfl) Nat.le.refl
  | stopAdvertising =>
    simp only [Option.ite_none_right_eq_some, Option.some.injEq] at step
    obtain ⟨idle, rfl⟩ := step
    exact .moved .stopping _ _ _ (by rw [idle]; rfl) Nat.le.refl
  | proceed =>
    unfold proceed at step
    dsimp only at step
    split at step
    · rename_i operation
      cases Option.some.inj step
      exact .aborted _ _ _ (by rw [operation]; rfl) rfl
    · cases Option.some.inj step
      exact .released _ _ rfl
    · rename_i operation
      cases Option.some.inj step
      exact .moved .invalidated _ _ _ (by rw [operation]; rfl) Nat.le.refl
    · rename_i operation
      cases Option.some.inj step
      exact .aborted _ _ _ (by rw [operation]; rfl) rfl
    · cases Option.some.inj step
      exact .released _ _ rfl
    · rename_i operation
      cases Option.some.inj step
      exact .moved .idle _ _ _ (by rw [operation]; rfl) Nat.le.refl
    · simp at step
    · simp at step
    · simp at step
  | answer ok =>
    unfold answer at step
    dsimp only at step
    split at step
    · rename_i generation aborted operation
      cases Option.some.inj step
      cases ok with
      | true => exact .moved (.serving generation aborted) _ _ _ (by rw [operation]; rfl) Nat.le.refl
      | false => exact .ended (.inl rfl)
    · rename_i operation
      cases Option.some.inj step
      exact .moved .idle _ _ _ (by rw [operation]; rfl) Nat.le.refl
    · simp at step
  | drop =>
    unfold drop at step
    dsimp only at step
    split at step
    all_goals first
      | cases Option.some.inj step
        exact .ended (.inr rfl)
      | simp at step
  | admitCentral address =>
    cases Option.some.inj step
    unfold admitCentral
    split
    · rename_i free
      exact .admitted free.2
    · exact .same _
  | watch number =>
    obtain ⟨watch, here, moved⟩ := Option.bind_eq_some_iff.mp step
    obtain ⟨here, phase⟩ := Option.filter_eq_some_iff.mp here
    cases Option.some.inj moved
    exact .watched here (of_decide_eq_true phase)
  | lose number =>
    obtain ⟨watch, here, moved⟩ := Option.bind_eq_some_iff.mp step
    obtain ⟨here, phase⟩ := Option.filter_eq_some_iff.mp here
    cases Option.some.inj moved
    exact .lost here (of_decide_eq_true phase)
  | retire number =>
    obtain ⟨watch, here, moved⟩ := Option.bind_eq_some_iff.mp step
    obtain ⟨here, phase⟩ := Option.filter_eq_some_iff.mp here
    cases Option.some.inj moved
    unfold retire
    dsimp only
    split
    · rename_i own
      exact .retired here (of_decide_eq_true phase) own
    · rename_i other
      exact .outlived here (of_decide_eq_true phase) other
  | dial =>
    cases Option.some.inj step
    exact .moved s.operation _ _ _ rfl (Nat.le_succ _)

/-- Nothing stops it but the operation that aborted these. -/
def Tends (aborted : List Nat) (n : Nat) (watch : ServedWatch) : Prop :=
  watch.phase ≠ .over ∧ (watch.phase = .admitted ∨ watch.aborted = false ∨ n ∈ aborted)

/-- Every served central has its watcher, which has its session to itself. -/
structure Tended (aborted : List Nat) (servedPeers : PeerMap Nat) (nextSession : Nat) (watches : List ServedWatch)
    (disconnected : List (PeerAddress × Option Nat)) : Prop where
  covered : ∀ (address : PeerAddress) (session : Nat), servedPeers[address]? = some session →
    ∃ (n : Nat) (watch : ServedWatch), watches[n]? = some watch ∧ watch.address = address ∧ watch.session = session ∧
      Tends aborted n watch
  fresh : ∀ (n : Nat) (watch : ServedWatch), watches[n]? = some watch → watch.session < nextSession
  unique : ∀ (n m : Nat) (watch other : ServedWatch), watches[n]? = some watch → watches[m]? = some other →
    watch.session = other.session → n = m
  reported : ∀ (address : PeerAddress) (session : Nat), (address, some session) ∈ disconnected →
    servedPeers[address]? ≠ some session ∧ session < nextSession
  once : ∀ (address : PeerAddress) (session : Nat), disconnected.count (address, some session) ≤ 1

namespace Tended

variable {aborted : List Nat} {servedPeers : PeerMap Nat} {nextSession number : Nat} {watches : List ServedWatch}
  {disconnected : List (PeerAddress × Option Nat)} {watch new : ServedWatch}

/-- The watcher that has a served session is the one that tends it. -/
theorem tends (held : Tended aborted servedPeers nextSession watches disconnected)
    (here : watches[number]? = some watch) (own : servedPeers[watch.address]? = some watch.session) :
    Tends aborted number watch := by
  obtain ⟨n, found, there, _, session, tends⟩ := held.covered _ _ own
  cases held.unique n number found watch there here session
  cases here.symm.trans there
  exact tends

/-- A watcher goes on. -/
theorem setWatch (held : Tended aborted servedPeers nextSession watches disconnected)
    (here : watches[number]? = some watch) (address : new.address = watch.address)
    (session : new.session = watch.session)
    (tends : servedPeers[watch.address]? = some watch.session → Tends aborted number new) :
    Tended aborted servedPeers nextSession (watches.set number new) disconnected := by
  have lift : ∀ {n : Nat} {found : ServedWatch}, (watches.set number new)[n]? = some found →
      ∃ before, watches[n]? = some before ∧ found.session = before.session := by
    intro n found there
    obtain ⟨rfl, rfl⟩ | ⟨_, there⟩ := TaskList.of_set there
    · exact ⟨watch, here, session⟩
    · exact ⟨found, there, rfl⟩
  refine ⟨?_, ?_, ?_, held.reported, held.once⟩
  · intro at_ served there
    obtain ⟨n, found, was, own, same, tended⟩ := held.covered at_ served there
    by_cases at_number : n = number
    · subst at_number
      cases here.symm.trans was
      rw [← own, ← same] at there
      exact ⟨n, new, TaskList.getElem?_set_self here, address.trans own, session.trans same, tends there⟩
    · exact ⟨n, found, by rw [TaskList.getElem?_set here, if_neg at_number, was], own, same, tended⟩
  · intro n found there
    obtain ⟨before, was, same⟩ := lift there
    rw [same]
    exact held.fresh n before was
  · intro n m found other there there' both
    obtain ⟨before, was, same⟩ := lift there
    obtain ⟨before', was', same'⟩ := lift there'
    exact held.unique n m before before' was was' (by rw [← same, ← same', both])

/-- Sessions are given to others. -/
theorem later {session : Nat} (held : Tended aborted servedPeers nextSession watches disconnected)
    (later : nextSession ≤ session) : Tended aborted servedPeers session watches disconnected := by
  refine ⟨held.covered, ?_, held.unique, ?_, held.once⟩
  · intro n found there
    exact (held.fresh n found there).trans_le later
  · intro address reported there
    exact ⟨(held.reported address reported there).1, (held.reported address reported there).2.trans_le later⟩

/-- The operation ends, and none of the centrals of what it aborted is left. -/
theorem finish (held : Tended aborted servedPeers nextSession watches disconnected)
    (gone : ∀ n ∈ aborted, ∀ watch, watches[n]? = some watch → servedPeers[watch.address]? ≠ some watch.session) :
    Tended [] servedPeers nextSession watches disconnected := by
  refine ⟨?_, held.fresh, held.unique, held.reported, held.once⟩
  intro address session there
  obtain ⟨n, found, was, own, same, unended, tends⟩ := held.covered address session there
  refine ⟨n, found, was, own, same, unended, ?_⟩
  rcases tends with admitted | running | member
  · exact .inl admitted
  · exact .inr (.inl running)
  · rw [← own, ← same] at there
    exact absurd there (gone n member found was)

/-- What is aborted is kept in mind by the operation. -/
theorem abort {serverWatch : List Nat} (held : Tended [] servedPeers nextSession watches disconnected) :
    Tended serverWatch servedPeers nextSession
      (watches.mapIdx fun n watch => if n ∈ serverWatch then { watch with aborted := true } else watch)
      disconnected := by
  have lift : ∀ {n : Nat} {found : ServedWatch}, (watches.mapIdx fun n watch =>
      if n ∈ serverWatch then { watch with aborted := true } else watch)[n]? = some found →
        ∃ before, watches[n]? = some before ∧ found.session = before.session := by
    intro n found there
    rw [List.getElem?_mapIdx] at there
    obtain ⟨before, was, rfl⟩ := Option.map_eq_some_iff.mp there
    refine ⟨before, was, ?_⟩
    split <;> rfl
  refine ⟨?_, ?_, ?_, held.reported, held.once⟩
  · intro address session there
    obtain ⟨n, found, was, own, same, unended, tends⟩ := held.covered address session there
    refine ⟨n, if n ∈ serverWatch then { found with aborted := true } else found, ?_, ?_⟩
    · rw [List.getElem?_mapIdx, was]
      rfl
    · split
      · rename_i member
        exact ⟨own, same, unended, .inr (.inr member)⟩
      · exact ⟨own, same, unended, tends.imp_right (Or.imp_right (absurd · List.not_mem_nil))⟩
  · intro n found there
    obtain ⟨before, was, same⟩ := lift there
    rw [same]
    exact held.fresh n before was
  · intro n m found other there there' both
    obtain ⟨before, was, same⟩ := lift there
    obtain ⟨before', was', same'⟩ := lift there'
    exact held.unique n m before before' was was' (by rw [← same, ← same', both])

theorem release (held : Tended aborted servedPeers nextSession watches disconnected) (released : List PeerAddress) :
    Tended [] ∅ nextSession watches (disconnected ++ released.map fun address => (address, none)) := by
  have other : ∀ (address : PeerAddress) (session : Nat),
      (address, some session) ∉ released.map fun address => (address, (none : Option Nat)) := by
    intro address session there
    obtain ⟨_, _, same⟩ := List.mem_map.mp there
    simp at same
  refine ⟨by simp, held.fresh, held.unique, ?_, ?_⟩
  · intro address session there
    obtain there | there := List.mem_append.mp there
    · exact ⟨by simp, (held.reported address session there).2⟩
    · exact absurd there (other address session)
  · intro address session
    rw [List.count_append, List.count_eq_zero_of_not_mem (other address session)]
    exact held.once address session

theorem admitCentral {address : PeerAddress} (held : Tended aborted servedPeers nextSession watches disconnected) :
    Tended aborted (servedPeers.insert address nextSession) (nextSession + 1)
      (watches ++ [{ address := address, session := nextSession }]) disconnected := by
  refine ⟨?_, ?_, ?_, ?_, held.once⟩
  · intro at_ session there
    rw [FiniteMap.getElem?_insert] at there
    split at there
    · rename_i same
      cases Option.some.inj there
      exact ⟨watches.length, _, List.getElem?_concat_length, same.symm, rfl, by simp [Tends]⟩
    · obtain ⟨n, found, was, tended⟩ := held.covered at_ session there
      exact ⟨n, found, TaskList.getElem?_append_of was _, tended⟩
  · intro n found there
    obtain there | ⟨_, rfl⟩ := TaskList.of_append there
    · exact Nat.lt_succ_of_lt (held.fresh n found there)
    · exact Nat.lt_succ_self _
  · intro n m found other there there' same
    obtain there | ⟨rfl, rfl⟩ := TaskList.of_append there
    · obtain there' | ⟨rfl, rfl⟩ := TaskList.of_append there'
      · exact held.unique n m found other there there' same
      · exact absurd same (held.fresh n found there).ne
    · obtain there' | ⟨rfl, rfl⟩ := TaskList.of_append there'
      · exact absurd same.symm (held.fresh m other there').ne
      · rfl
  · intro at_ session there
    obtain ⟨unserved, before⟩ := held.reported at_ session there
    refine ⟨?_, Nat.lt_succ_of_lt before⟩
    rw [FiniteMap.getElem?_insert]
    split
    · rw [ne_eq, Option.some.injEq]
      exact before.ne'
    · exact unserved

/-- The watcher ends, and its central with it. -/
theorem retire (held : Tended aborted servedPeers nextSession watches disconnected)
    (here : watches[number]? = some watch) (own : servedPeers[watch.address]? = some watch.session) :
    Tended aborted (servedPeers.erase watch.address) nextSession (watches.set number { watch with phase := .over })
      (disconnected ++ [(watch.address, some watch.session)]) := by
  have unreported : (watch.address, some watch.session) ∉ disconnected := fun there =>
    (held.reported _ _ there).1 own
  have less : ∀ (address : PeerAddress) (session : Nat), (servedPeers.erase watch.address)[address]? = some session →
      address ≠ watch.address ∧ servedPeers[address]? = some session := by
    intro address session there
    rw [FiniteMap.getElem?_erase] at there
    split at there
    · simp at there
    · rename_i other
      exact ⟨other, there⟩
  have others : Tended aborted (servedPeers.erase watch.address) nextSession watches disconnected := by
    refine ⟨?_, held.fresh, held.unique, ?_, held.once⟩
    · intro address session there
      exact held.covered address session (less address session there).2
    · intro address session there
      obtain ⟨unserved, before⟩ := held.reported address session there
      exact ⟨fun still => unserved (less address session still).2, before⟩
  have ended : Tended aborted (servedPeers.erase watch.address) nextSession
      (watches.set number { watch with phase := .over }) disconnected :=
    others.setWatch here rfl rfl fun still => absurd rfl (less _ _ still).1
  refine ⟨ended.covered, ended.fresh, ended.unique, ?_, ?_⟩
  · intro address session there
    obtain there | there := List.mem_append.mp there
    · exact ended.reported address session there
    · obtain ⟨rfl, same⟩ := Prod.mk.inj (List.mem_singleton.mp there)
      cases Option.some.inj same
      exact ⟨fun still => absurd rfl (less _ _ still).1, held.fresh number watch here⟩
  · intro address session
    rw [List.count_append, List.count_singleton]
    split
    · rename_i same
      rw [beq_iff_eq] at same
      rw [← same, List.count_eq_zero_of_not_mem unreported]
    · exact held.once address session

theorem step {s s' : LinuxServer} {label : LinuxServerStep}
    (held : Tended s.operation.aborted s.servedPeers s.nextSession s.watches s.disconnected)
    (releases : s.releasesAborted label = true) (stepped : Stepped s label s') :
    Tended s'.operation.aborted s'.servedPeers s'.nextSession s'.watches s'.disconnected := by
  cases stepped with
  | same label => exact held
  | moved operation generation counter session same later =>
    rw [same]
    exact held.later later
  | ended label_ =>
    have gone : s.abortedAreGone = true := by rcases label_ with rfl | rfl <;> exact releases
    refine held.finish fun n member watch here => ?_
    have kept := List.all_eq_true.mp gone n member
    rw [here, Option.all_some, decide_eq_true_eq] at kept
    exact kept
  | aborted operation counter handlers before after =>
    rw [before] at held
    rw [after]
    exact held.abort
  | released operation generation after =>
    rw [after]
    exact held.release _
  | admitted => exact held.admitCentral
  | watched here phase => exact held.setWatch here rfl rfl fun _ => ⟨by simp, .inr (.inl rfl)⟩
  | lost here phase =>
    refine held.setWatch here rfl rfl fun own => ⟨by simp, ?_⟩
    obtain ⟨_, admitted | rest⟩ := held.tends here own
    · rw [phase] at admitted
      simp at admitted
    · exact .inr rest
  | retired here phase own => exact held.retire here own
  | outlived here phase other => exact held.setWatch here rfl rfl fun own => absurd own other

end Tended

section Run

variable {h : Unit} {s : LinuxServer} {n : Nat} {watch : ServedWatch}

theorem run_tended (run : machine.Run (fun _ s label => s.releasesAborted label = true) (fun _ _ _ _ => ()) () h s) :
    Tended s.operation.aborted s.servedPeers s.nextSession s.watches s.disconnected := by
  refine Machine.Run.invariant
    (P := fun _ s => Tended s.operation.aborted s.servedPeers s.nextSession s.watches s.disconnected) ?_ ?_ run
  · rintro s rfl
    exact ⟨by simp, by simp, by simp, by simp, by simp⟩
  · intro _ s label s' _ held releases step
    exact held.step releases (step_cases step)

/-- A watcher that is done watching forgets its central and reports it. -/
theorem retire_frees (here : s.watches[n]? = some watch) (phase : watch.phase = .ending)
    (own : s.servedPeers[watch.address]? = some watch.session) : ∃ after, s.step (.retire n) = some after ∧
      after.servedPeers[watch.address]? = none ∧
        after.disconnected = s.disconnected ++ [(watch.address, some watch.session)] := by
  refine ⟨s.retire n watch, ?_, ?_, ?_⟩
  · unfold step
    dsimp only
    rw [here, Option.filter_some_pos (by simp [phase])]
    rfl
  · unfold retire
    rw [if_pos own]
    dsimp only
    rw [FiniteMap.getElem?_erase, if_pos rfl]
  · unfold retire
    rw [if_pos own]

theorem lose_ends (here : s.watches[n]? = some watch) (phase : watch.phase = .watching) :
    s.step (.lose n) = some { s with watches := s.watches.set n { watch with phase := .ending } } := by
  unfold step
  dsimp only
  rw [here, Option.filter_some_pos (by simp [phase])]
  rfl

theorem run_servedWatched
    (run : machine.Run (fun _ s label => s.releasesAborted label = true) (fun _ _ _ _ => ()) () h s) :
    ServedWatched s := by
  have held := run_tended run
  refine ⟨?_, ?_, held.once⟩
  · rintro ⟨idle, spawned⟩ address session there
    obtain ⟨n, watch, here, own, same, unended, tends⟩ := held.covered address session there
    refine ⟨n, watch, here, own, same, ?_⟩
    have running : watch.aborted = false := by
      rcases tends with admitted | running | member
      · exact absurd admitted (spawned watch (List.mem_of_getElem? here))
      · exact running
      · rw [idle] at member
        exact absurd member List.not_mem_nil
    have out := spawned watch (List.mem_of_getElem? here)
    unfold ServedWatch.live
    rw [running]
    cases phase : watch.phase <;> simp_all
  · intro n watch here live own
    have unreported : (watch.address, some watch.session) ∉ s.disconnected := fun there =>
      (held.reported _ _ there).1 own
    unfold ServedWatch.live at live
    rw [Bool.and_eq_true] at live
    cases phase : watch.phase with
    | ending =>
      obtain ⟨after, retired, freed, reported⟩ := retire_frees here phase own
      exact ⟨s, after, .inl ⟨rfl, rfl⟩, retired, freed, reported, unreported⟩
    | watching =>
      have there : (s.watches.set n { watch with phase := .ending })[n]? = some { watch with phase := .ending } :=
        TaskList.getElem?_set_self here
      obtain ⟨after, retired, freed, reported⟩ := retire_frees
        (s := { s with watches := s.watches.set n { watch with phase := .ending } }) there rfl own
      exact ⟨_, after, .inr (lose_ends here phase), retired, freed, reported, unreported⟩
    | _ =>
      rw [phase] at live
      simp at live

end Run

/-- A service is registered, and a central subscribes. -/
def registerAndServe (address : PeerAddress) : List LinuxServerStep :=
  [.advertise, .proceed, .answer true, .proceed, .answer true, .admitCentral address, .watch 0]

/-- It is registered again, and the central subscribes again. -/
def reRegister (address : PeerAddress) : List LinuxServerStep :=
  [.advertise, .proceed, .answer true, .proceed, .answer true, .admitCentral address, .watch 1]

theorem run_servedWatched_again : ∃ s, ServedWatched s ∧ s.servedPeers[(⟨"AA"⟩ : PeerAddress)]? = some 2 := by
  obtain ⟨_, s, run, ended⟩ := Machine.Run.exists_of_follow machine
    (fun _ s label => s.releasesAborted label = true) (fun _ _ _ _ => ()) ()
    (fun _ s => decide (s.servedPeers[(⟨"AA"⟩ : PeerAddress)]? = some 2))
    rfl (registerAndServe ⟨"AA"⟩ ++ reRegister ⟨"AA"⟩) (by decide +kernel)
  exact ⟨s, run_servedWatched run, of_decide_eq_true ended⟩

/-- BlueZ refuses the second application. -/
theorem not_servedWatched : ¬ ∀ s : LinuxServer, machine.Reach s → ServedWatched s := by
  intro claim
  obtain ⟨s, reach, ended⟩ := Machine.Reach.exists_of_follow machine
    (fun s => decide (s.operation = .idle ∧ s.servedPeers[(⟨"AA"⟩ : PeerAddress)]? = some 1) &&
      s.watches.all fun watch => decide (watch.phase = .watching) && watch.aborted)
    rfl (registerAndServe ⟨"AA"⟩ ++ [.advertise, .proceed, .answer false]) (by decide +kernel)
  rw [Bool.and_eq_true, decide_eq_true_eq, List.all_eq_true] at ended
  obtain ⟨⟨idle, served⟩, aborted⟩ := ended
  have quiet : s.Quiet := by
    refine ⟨idle, fun watch member => ?_⟩
    have spawned := aborted watch member
    rw [Bool.and_eq_true, decide_eq_true_eq] at spawned
    rw [spawned.1]
    decide
  obtain ⟨n, watch, here, _, _, live⟩ := (claim s reach).watched quiet _ _ served
  have stopped := aborted watch (List.mem_of_getElem? here)
  rw [Bool.and_eq_true] at stopped
  unfold ServedWatch.live at live
  rw [stopped.2] at live
  simp at live

end LinuxServer

end BleGatt
