import BleGatt.Drivers.PreparedWrites

namespace BleGatt
open Std

/-! What an execute makes of the chunks prepared before it. -/

namespace WriteServer

/-- The chunks of each central and characteristic, in the order they were
prepared, until they are applied or dropped. -/
abbrev Arrivals := PeerAddress → CharacteristicUuid → List (Nat × Bytes)

def noteArrival (h : Arrivals) (s : WriteServer) (label : WriteStep) (t : WriteServer) : Arrivals :=
  match label with
  | .onCharacteristicWriteRequest generation device _ characteristic true _ offset value =>
    if s.serverGeneration = generation then
      Function.update h device (Function.update (h device) characteristic (h device characteristic ++ [(offset, value)]))
    else h
  | .onExecuteWrite generation device _ _ _ =>
    if s.serverGeneration = generation ∧ t.responses.getLast?.map GattResponse.status = some .success then
      Function.update h device fun _ => []
    else h
  | .onDisconnected generation device =>
    if s.serverGeneration = generation then Function.update h device fun _ => [] else h
  | .startAdvertising _ | .stopAdvertising | .closeAllClientGatts => fun _ _ => []
  | _ => h

/-- An execute finds a gap in what a characteristic of the server was sent,
and answers that; nothing else is different. -/
def Refused (device : PeerAddress) (requestId : Nat) (chunks : CharacteristicUuid → List (Nat × Bytes)) (s s' : WriteServer) :
    Prop :=
  (∃ uuid kept, uuid ∈ s.serverCharacteristics ∧ Overlay.Kept (chunks uuid) kept ∧ Overlay.Gap kept) ∧
    s' = s.respond ⟨device, requestId, .invalidOffset, 0, none⟩

/-- It writes each characteristic of the server that was sent something, and
no other one, and reports each write once. What is written is laid from its
chunks, in some order of them. -/
structure Written (order : List (Nat × Bytes) → List (Nat × Bytes) → Prop) (device : PeerAddress)
    (chunks : CharacteristicUuid → List (Nat × Bytes)) (s s' : WriteServer) (writes : List (CharacteristicUuid × Bytes)) :
    Prop where
  whole : ∀ uuid kept, uuid ∈ s.serverCharacteristics → Overlay.Kept (chunks uuid) kept → ¬Overlay.Gap kept
  once : (writes.map Prod.fst).Nodup
  every : ∀ uuid, uuid ∈ writes.map Prod.fst ↔ uuid ∈ s.serverCharacteristics ∧ chunks uuid ≠ []
  value : ∀ uuid value, (uuid, value) ∈ writes →
    ∃ ordered, order (chunks uuid) ordered ∧ ∀ i, value[i]? = Overlay.laid ordered i
  values : ∀ uuid, s'.serverCharacteristics[uuid]? = (writes.lookup uuid).or s.serverCharacteristics[uuid]?
  reported : ∃ session, s'.serverSessions[device]? = some session ∧
    s'.written = s.written ++ writes.map fun write => ⟨device, write.1, write.2, session⟩

/-- All or nothing, in that order of the chunks. -/
def Transacted (order : List (Nat × Bytes) → List (Nat × Bytes) → Prop) (device : PeerAddress) (requestId : Nat)
    (chunks : CharacteristicUuid → List (Nat × Bytes)) (s s' : WriteServer) : Prop :=
  Refused device requestId chunks s s' ∨ ∃ writes, Written order device chunks s s' writes

/-- What `staged` holds of the chunks that arrived. -/
def Holds (arrived : List (Nat × Bytes)) : Option StagedChunks → Prop
  | none => arrived = []
  | some chunks => arrived ≠ [] ∧ ∀ offset, chunks[offset]? = arrived.reverse.lookup offset

theorem Holds.kept {arrived : List (Nat × Bytes)} {chunks : StagedChunks} (holds : Holds arrived (some chunks)) :
    Overlay.Kept arrived chunks.toList := by
  refine ⟨?_, fun offset content => ?_⟩
  · exact ExtTreeMap.ordered_keys_toList.imp fun lower => Nat.compare_eq_lt.mp lower
  · rw [ExtTreeMap.mem_toList_iff_getElem?_eq_some, holds.2]

variable {device : PeerAddress} {s s' : WriteServer} {h : Arrivals}

/-- The keys that are staged, and served. -/
theorem assembled_eq_none {keys : List CharacteristicUuid} : s.assembled device keys = none ↔
    ∃ uuid ∈ keys, ∃ chunks, (s.staged device)[uuid]? = some chunks ∧ uuid ∈ s.serverCharacteristics ∧
      Overlay.assemble 0 chunks.toList = none := by
  induction keys with
  | nil => simp [assembled]
  | cons uuid keys ih =>
    unfold assembled
    cases there : (s.staged device)[uuid]? with
    | none =>
      dsimp only
      rw [ih]
      simp [there]
    | some chunks =>
      dsimp only
      by_cases served : uuid ∈ s.serverCharacteristics
      · rw [if_pos (ExtTreeMap.contains_iff_mem.mpr served)]
        cases value : Overlay.assemble 0 chunks.toList with
        | none => simp [there, served, value]
        | some value =>
          dsimp only
          rw [Option.map_eq_none_iff, ih]
          simp [there, value]
      · rw [if_neg (by rwa [ExtTreeMap.contains_iff_mem]), ih]
        simp [there, served]

theorem assembled_eq_some {keys : List CharacteristicUuid} {writes : List (CharacteristicUuid × Bytes)}
    (whole : s.assembled device keys = some writes) :
    (writes.map Prod.fst).Sublist keys ∧ ∀ uuid value, (uuid, value) ∈ writes ↔ uuid ∈ keys ∧ ∃ chunks,
      (s.staged device)[uuid]? = some chunks ∧ uuid ∈ s.serverCharacteristics ∧
        Overlay.assemble 0 chunks.toList = some value := by
  induction keys generalizing writes with
  | nil =>
    cases Option.some.inj whole
    simp
  | cons uuid keys ih =>
    unfold assembled at whole
    cases there : (s.staged device)[uuid]? with
    | none =>
      rw [there] at whole
      obtain ⟨sub, entries⟩ := ih whole
      refine ⟨sub.cons uuid, fun other value => ?_⟩
      rw [entries, List.mem_cons, or_and_right]
      refine (or_iff_right ?_).symm
      rintro ⟨rfl, chunks, here, _⟩
      simp [there] at here
    | some chunks =>
      rw [there] at whole
      dsimp only at whole
      by_cases served : uuid ∈ s.serverCharacteristics
      · rw [if_pos (ExtTreeMap.contains_iff_mem.mpr served)] at whole
        cases result : Overlay.assemble 0 chunks.toList with
        | none => simp [result] at whole
        | some value =>
          rw [result] at whole
          obtain ⟨rest, tail, rfl⟩ := Option.map_eq_some_iff.mp whole
          obtain ⟨sub, entries⟩ := ih tail
          refine ⟨sub.cons_cons uuid, fun other content => ?_⟩
          rw [List.mem_cons, entries, List.mem_cons, or_and_right]
          refine or_congr_left ?_
          rw [Prod.mk.injEq]
          refine and_congr_right ?_
          rintro rfl
          simp [there, served, result, eq_comm]
      · rw [if_neg (by rwa [ExtTreeMap.contains_iff_mem])] at whole
        obtain ⟨sub, entries⟩ := ih whole
        refine ⟨sub.cons uuid, fun other value => ?_⟩
        rw [entries, List.mem_cons, or_and_right]
        refine (or_iff_right ?_).symm
        rintro ⟨rfl, _, _, inside, _⟩
        exact served inside

theorem session_fields (s : WriteServer) :
    (s.session device).2.serverCharacteristics = s.serverCharacteristics ∧ (s.session device).2.written = s.written ∧
      (s.session device).2.preparedWrites = s.preparedWrites ∧
        (s.session device).2.serverSessions[device]? = some (s.session device).1 := by
  unfold session
  split
  · rename_i there
    exact ⟨rfl, rfl, rfl, there⟩
  · exact ⟨rfl, rfl, rfl, ExtTreeMap.getElem?_insert_self⟩

/-- Every characteristic that is written to is one of the server's. -/
theorem foldl_apply (session : UInt64) {writes : List (CharacteristicUuid × Bytes)} (once : (writes.map Prod.fst).Nodup)
    (served : ∀ write ∈ writes, write.1 ∈ s.serverCharacteristics) :
    (writes.foldl (apply device session) s).written = s.written ++ writes.map (fun write => ⟨device, write.1, write.2, session⟩) ∧
      (writes.foldl (apply device session) s).serverSessions = s.serverSessions ∧
      ∀ uuid, (writes.foldl (apply device session) s).serverCharacteristics[uuid]? =
        (writes.lookup uuid).or s.serverCharacteristics[uuid]? := by
  induction writes generalizing s with
  | nil => simp
  | cons write writes ih =>
    obtain ⟨uuid, value⟩ := write
    rw [List.map_cons, List.nodup_cons] at once
    have still : ∀ write ∈ writes, write.1 ∈ (s.apply device session (uuid, value)).serverCharacteristics := by
      intro write there
      exact ExtTreeMap.mem_modify.mpr (served write (List.mem_cons_of_mem _ there))
    obtain ⟨written, sessions, values⟩ := ih once.2 still
    refine ⟨?_, sessions, fun other => ?_⟩
    · rw [List.foldl_cons, written]
      simp [apply]
    · rw [List.foldl_cons, values]
      have here : (s.apply device session (uuid, value)).serverCharacteristics[other]? =
          if other = uuid then s.serverCharacteristics[other]?.map fun _ => value else s.serverCharacteristics[other]? :=
        FiniteMap.getElem?_modify
      rw [here, List.lookup_cons]
      by_cases same : other = uuid
      · subst same
        have absent : writes.lookup other = none := by
          rw [List.lookup_eq_none_iff]
          intro write there
          rw [bne_iff_ne]
          intro same
          have key : write.1 ∈ writes.map Prod.fst := List.mem_map_of_mem there
          exact once.1 (same ▸ key)
        obtain ⟨old, before⟩ := ExtTreeMap.mem_iff_isSome_getElem?.mp (served (other, value) List.mem_cons_self) |>
          Option.isSome_iff_exists.mp
        simp [absent, before]
      · have differs : (other == uuid) = false := beq_eq_false_iff_ne.mpr same
        simp [same, differs]

/-- What is staged of every central and characteristic. -/
def Tracks (h : Arrivals) (s : WriteServer) : Prop :=
  ∀ device uuid, Holds (h device uuid) (s.staged device)[uuid]?

/-- An execute does all or nothing of what is staged. -/
theorem Tracks.execute {requestId : Nat} {keys : List CharacteristicUuid} (tracks : Tracks h s)
    (complete : keys.Perm (s.staged device).keys) :
    Transacted Overlay.Kept device requestId (h device) s (s.onExecuteWrite device requestId true keys) := by
  have staged : ∀ uuid, uuid ∈ keys ↔ ∃ chunks, (s.staged device)[uuid]? = some chunks := by
    intro uuid
    rw [complete.mem_iff, ExtTreeMap.mem_keys, ExtTreeMap.mem_iff_isSome_getElem?, Option.isSome_iff_exists]
  have kept : ∀ {uuid chunks}, (s.staged device)[uuid]? = some chunks → Overlay.Kept (h device uuid) chunks.toList := by
    intro uuid chunks there
    have holds := tracks device uuid
    rw [there] at holds
    exact holds.kept
  unfold onExecuteWrite
  rw [if_pos rfl]
  cases whole : s.assembled device keys with
  | none =>
    obtain ⟨uuid, _, chunks, there, served, gap⟩ := assembled_eq_none.mp whole
    refine .inl ⟨⟨uuid, chunks.toList, served, kept there, ?_⟩, rfl⟩
    exact (Overlay.assemble_eq_none (kept there).ascending).mp gap
  | some writes =>
    obtain ⟨sub, entries⟩ := assembled_eq_some whole
    have once : (writes.map Prod.fst).Nodup := sub.nodup (complete.nodup_iff.mpr ExtTreeMap.nodup_keys)
    obtain ⟨characteristics, reports, _, session⟩ :=
      session_fields { s with preparedWrites := s.preparedWrites.erase device }
    dsimp only
    generalize WriteServer.session device { s with preparedWrites := s.preparedWrites.erase device } = minted at *
    have served : ∀ write ∈ writes, write.1 ∈ minted.2.serverCharacteristics := by
      rintro ⟨uuid, value⟩ there
      rw [characteristics]
      obtain ⟨_, _, _, inside, _⟩ := (entries uuid value).mp there
      exact inside
    obtain ⟨written, sessions, values⟩ := foldl_apply _ once served
    have assembles : ∀ {uuid chunks}, (s.staged device)[uuid]? = some chunks → uuid ∈ s.serverCharacteristics →
        Overlay.assemble 0 chunks.toList ≠ none := by
      intro uuid chunks there inside gap
      have refused := assembled_eq_none.mpr ⟨uuid, (staged uuid).mpr ⟨chunks, there⟩, chunks, there, inside, gap⟩
      simp [whole] at refused
    refine .inr ⟨writes, fun uuid other inside order gap => ?_, once, fun uuid => ⟨fun there => ?_, fun sent => ?_⟩, ?_, ?_, ?_⟩
    · have holds := tracks device uuid
      cases there : (s.staged device)[uuid]? with
      | none =>
        rw [there] at holds
        obtain ⟨chunk, member, _⟩ := gap
        have found := (order.last chunk.1 chunk.2).mp member
        have nothing : h device uuid = [] := holds
        simp [nothing] at found
      | some chunks =>
        rw [order.unique (kept there)] at gap
        exact assembles there inside ((Overlay.assemble_eq_none (kept there).ascending).mpr gap)
    · obtain ⟨write, member, rfl⟩ := List.mem_map.mp there
      obtain ⟨_, chunks, here, inside, _⟩ := (entries write.1 write.2).mp member
      have holds := tracks device write.1
      rw [here] at holds
      exact ⟨inside, holds.1⟩
    · have holds := tracks device uuid
      cases there : (s.staged device)[uuid]? with
      | none =>
        rw [there] at holds
        exact absurd holds sent.2
      | some chunks =>
        obtain ⟨value, result⟩ := Option.ne_none_iff_exists'.mp (assembles there sent.1)
        have member : (uuid, value) ∈ writes :=
          (entries uuid value).mpr ⟨(staged uuid).mpr ⟨chunks, there⟩, chunks, there, sent.1, result⟩
        exact List.mem_map_of_mem member
    · intro uuid value member
      obtain ⟨_, chunks, there, _, result⟩ := (entries uuid value).mp member
      exact ⟨chunks.toList, kept there, fun i => Overlay.getElem?_assemble result⟩
    · intro uuid
      have known : minted.2.serverCharacteristics[uuid]? = s.serverCharacteristics[uuid]? := by rw [characteristics]
      exact (values uuid).trans (congrArg _ known)
    · refine ⟨minted.1, ?_, written.trans (congrArg (· ++ _) reports)⟩
      exact (congrArg (fun sessions : PeerMap UInt64 => sessions[device]?) sessions).trans session

theorem staged_insert {other : PeerAddress} {chunks : ExtTreeMap CharacteristicUuid StagedChunks} :
    ((s.preparedWrites.insert device chunks)[other]?.getD ∅) = if other = device then chunks else s.staged other := by
  rw [FiniteMap.getElem?_insert]
  split
  · rfl
  · rfl

theorem staged_erase {other : PeerAddress} :
    ((s.preparedWrites.erase device)[other]?.getD ∅) = if other = device then ∅ else s.staged other := by
  rw [FiniteMap.getElem?_erase]
  split
  · rfl
  · rfl

namespace Tracks

/-- Nothing of what is staged changes. -/
theorem of_same (tracks : Tracks h s) (same : s'.preparedWrites = s.preparedWrites) : Tracks h s' := by
  intro device uuid
  unfold staged
  rw [same]
  exact tracks device uuid

theorem cleared (nothing : s.preparedWrites = ∅) : Tracks (fun _ _ => []) s := by
  intro device uuid
  simp [staged, nothing, Holds]

/-- What a central prepared is dropped, or applied. -/
theorem dropped (tracks : Tracks h s) (device : PeerAddress) (erased : s'.preparedWrites = s.preparedWrites.erase device) :
    Tracks (Function.update h device fun _ => []) s' := by
  intro other uuid
  unfold staged
  rw [erased, staged_erase, Function.update_apply]
  split
  · simp [Holds]
  · exact tracks other uuid

theorem prepare (tracks : Tracks h s) (device : PeerAddress) (characteristic : CharacteristicUuid) (offset : Nat) (value : Bytes) :
    Tracks (Function.update h device (Function.update (h device) characteristic (h device characteristic ++ [(offset, value)])))
      (s.prepare device characteristic offset value) := by
  intro other uuid
  unfold staged WriteServer.prepare
  dsimp only
  rw [staged_insert, Function.update_apply]
  by_cases same : other = device
  · subst same
    rw [if_pos rfl, if_pos rfl, FiniteMap.getElem?_insert, Function.update_apply]
    split
    · rename_i here
      subst here
      refine ⟨by simp, fun at_ => ?_⟩
      rw [FiniteMap.getElem?_insert, List.reverse_append, List.reverse_singleton, List.singleton_append, List.lookup_cons]
      have before := tracks other uuid
      by_cases now : at_ = offset
      · simp [now]
      · rw [if_neg now, beq_eq_false_iff_ne.mpr now]
        cases there : (s.staged other)[uuid]? with
        | none =>
          rw [there] at before
          have nothing : h other uuid = [] := before
          simp [nothing]
        | some chunks =>
          rw [there] at before
          exact before.2 at_
    · exact tracks other uuid
  · rw [if_neg same, if_neg same]
    exact tracks other uuid

end Tracks

theorem preparedWrites_foldl (session : UInt64) (writes : List (CharacteristicUuid × Bytes)) (s : WriteServer) :
    (writes.foldl (apply device session) s).preparedWrites = s.preparedWrites := by
  induction writes generalizing s with
  | nil => rfl
  | cons write writes ih => rw [List.foldl_cons, ih, apply]

/-- An execute drops what is staged, and answers so, or leaves it. -/
theorem onExecuteWrite_staged (device : PeerAddress) (requestId : Nat) (execute : Bool) (keys : List CharacteristicUuid)
    (s : WriteServer) :
    let s' := s.onExecuteWrite device requestId execute keys
    s'.responses.getLast?.map GattResponse.status = some .success ∧ s'.preparedWrites = s.preparedWrites.erase device ∨
      s'.responses.getLast?.map GattResponse.status = some .invalidOffset ∧ s'.preparedWrites = s.preparedWrites := by
  dsimp only
  unfold onExecuteWrite
  split
  · refine .inr ⟨?_, rfl⟩
    simp [respond]
  · refine .inl ⟨?_, ?_⟩
    · simp [respond]
    · dsimp only [respond]
      rw [preparedWrites_foldl]
      exact (session_fields _).2.2.1

theorem step_tracks {label : WriteStep} (tracks : Tracks h s) (stepped : step s label = some s') :
    Tracks (noteArrival h s label s') s' := by
  cases label with
  | startAdvertising characteristics =>
    cases Option.some.inj stepped
    exact .cleared rfl
  | stopAdvertising =>
    cases Option.some.inj stepped
    exact .cleared rfl
  | closeAllClientGatts =>
    cases Option.some.inj stepped
    exact .cleared rfl
  | endSession address =>
    cases Option.some.inj stepped
    exact tracks.of_same rfl
  | onDisconnected generation device =>
    cases Option.some.inj stepped
    unfold noteArrival current
    dsimp only
    split
    · exact tracks.dropped device rfl
    · exact tracks
  | onCharacteristicWriteRequest generation device requestId characteristic preparedWrite responseNeeded offset value =>
    cases Option.some.inj stepped
    unfold current
    cases preparedWrite with
    | true =>
      unfold noteArrival
      dsimp only
      split
      · refine (tracks.prepare device characteristic offset value).of_same ?_
        cases responseNeeded <;> rfl
      · exact tracks
    | false =>
      show Tracks h _
      split
      · refine tracks.of_same ?_
        unfold onCharacteristicWriteRequest
        dsimp only [Bool.false_eq_true, if_false]
        refine (session_fields _).2.2.1.trans ?_
        cases responseNeeded <;> rfl
      · exact tracks
  | onExecuteWrite generation device requestId execute keys =>
    obtain ⟨_, ⟨⟩⟩ := Option.ite_none_right_eq_some.mp stepped
    unfold noteArrival current
    dsimp only
    by_cases newest : s.serverGeneration = generation
    · rw [if_pos newest]
      obtain ⟨success, erased⟩ | ⟨invalid, same⟩ := onExecuteWrite_staged device requestId execute keys s
      · rw [if_pos ⟨newest, success⟩]
        exact tracks.dropped device erased
      · rw [if_neg (by simp [invalid])]
        exact tracks.of_same same
    · rw [if_neg newest, if_neg (by simp [newest])]
      exact tracks

section Run
variable {requestId : Nat} {keys : List CharacteristicUuid}

/-- In every run an execute applies all that a central has prepared, or none
of it. A chunk replaces one that was prepared before it at the same offset,
and where chunks overlap the one at the higher offset counts. -/
theorem run_executed (run : machine.Run (fun _ _ _ => True) noteArrival (fun _ _ => []) h s)
    (stepped : step s (.onExecuteWrite s.serverGeneration device requestId true keys) = some s') :
    Transacted Overlay.Kept device requestId (h device) s s' := by
  have tracks : Tracks h s := by
    refine run.invariant (P := Tracks) ?_ ?_
    · rintro _ rfl
      exact .cleared rfl
    · intro _ _ _ _ _ tracks _ stepped
      exact step_tracks tracks stepped
  obtain ⟨complete, ⟨⟩⟩ := Option.ite_none_right_eq_some.mp stepped
  unfold current
  rw [if_pos rfl]
  exact tracks.execute complete

end Run

/-- Chunks that were prepared in ascending order are applied in the order they
were prepared. -/
theorem Transacted.in_order {chunks : CharacteristicUuid → List (Nat × Bytes)} {requestId : Nat}
    (ascending : ∀ uuid, (chunks uuid).Pairwise fun a b => a.1 < b.1)
    (transacted : Transacted Overlay.Kept device requestId chunks s s') :
    Transacted (fun prepared ordered => ordered = prepared) device requestId chunks s s' := by
  obtain refused | ⟨writes, written⟩ := transacted
  · exact .inl refused
  · have value : ∀ uuid value, (uuid, value) ∈ writes →
        ∃ ordered, ordered = chunks uuid ∧ ∀ i, value[i]? = Overlay.laid ordered i := by
      intro uuid value member
      obtain ⟨ordered, kept, laid⟩ := written.value uuid value member
      exact ⟨ordered, kept.unique (.refl (ascending uuid)), laid⟩
    exact .inr ⟨writes, { written with value := value }⟩

/-- Two chunks that overlap, the one at the higher offset first. -/
def overlapping : List WriteStep :=
  let central : PeerAddress := ⟨"c"⟩
  [.startAdvertising [(⟨1⟩, []), (⟨2⟩, [])],
    .onCharacteristicWriteRequest 2 central 1 ⟨1⟩ true true 2 [9, 9],
    .onCharacteristicWriteRequest 2 central 2 ⟨1⟩ true true 0 [1, 1, 1],
    .onCharacteristicWriteRequest 2 central 3 ⟨2⟩ true true 0 [5]]

/-- What was prepared, and what an execute then reports. -/
def reportsOverlap (h : Arrivals) (s : WriteServer) : Bool :=
  decide (s.serverGeneration = 2) && decide (h ⟨"c"⟩ ⟨1⟩ = [(2, [9, 9]), (0, [1, 1, 1])]) && decide (s.written = []) &&
    (step s (.onExecuteWrite 2 ⟨"c"⟩ 4 true [⟨2⟩, ⟨1⟩])).any fun s' : WriteServer =>
      decide (s'.written = [⟨⟨"c"⟩, ⟨2⟩, [5], 1⟩, ⟨⟨"c"⟩, ⟨1⟩, [1, 1, 9, 9], 1⟩])

theorem run_executed_overlap : ∃ (h : Arrivals) (s s' : WriteServer),
    s'.written = [⟨⟨"c"⟩, ⟨2⟩, [5], 1⟩, ⟨⟨"c"⟩, ⟨1⟩, [1, 1, 9, 9], 1⟩] ∧ Transacted Overlay.Kept ⟨"c"⟩ 4 (h ⟨"c"⟩) s s' := by
  obtain ⟨h, s, run, good⟩ := Machine.Run.exists_of_follow machine (fun _ _ _ => True) noteArrival (fun _ _ => [])
    reportsOverlap (s := {}) rfl overlapping (by decide +kernel)
  simp only [reportsOverlap, Bool.and_eq_true, decide_eq_true_eq, Option.any_eq_true] at good
  obtain ⟨⟨⟨generation, _⟩, _⟩, s', stepped, written⟩ := good
  rw [← generation] at stepped
  exact ⟨h, s, s', written, run_executed run stepped⟩

/-- The later chunk does not overwrite the earlier one there. -/
theorem not_executed_in_order : ¬∀ (h : Arrivals) (s s' : WriteServer) (device : PeerAddress) (requestId : Nat)
    (keys : List CharacteristicUuid), machine.Run (fun _ _ _ => True) noteArrival (fun _ _ => []) h s →
      step s (.onExecuteWrite s.serverGeneration device requestId true keys) = some s' →
        Transacted (fun prepared ordered => ordered = prepared) device requestId (h device) s s' := by
  intro all
  obtain ⟨h, s, run, bad⟩ := Machine.Run.exists_of_follow machine (fun _ _ _ => True) noteArrival (fun _ _ => [])
    reportsOverlap (s := {}) rfl overlapping (by decide +kernel)
  simp only [reportsOverlap, Bool.and_eq_true, decide_eq_true_eq, Option.any_eq_true] at bad
  obtain ⟨⟨⟨generation, prepared⟩, before⟩, s', stepped, written⟩ := bad
  rw [← generation] at stepped
  obtain ⟨_, rfl⟩ | ⟨writes, result⟩ := all h s s' _ _ _ run stepped
  · simp [respond, before] at written
  · obtain ⟨session, _, reported⟩ := result.reported
    rw [before, List.nil_append, written] at reported
    have member : ((⟨1⟩, [1, 1, 9, 9]) : CharacteristicUuid × Bytes) ∈ writes := by
      have there : (⟨⟨"c"⟩, ⟨1⟩, [1, 1, 9, 9], 1⟩ : ServerWrite) ∈
          writes.map fun write => (⟨⟨"c"⟩, write.1, write.2, session⟩ : ServerWrite) := by
        rw [← reported]
        simp
      obtain ⟨⟨uuid, value⟩, inside, same⟩ := List.mem_map.mp there
      obtain ⟨_, uuid_eq, value_eq, _⟩ := ServerWrite.mk.inj same
      rw [← uuid_eq, ← value_eq]
      exact inside
    obtain ⟨ordered, rfl, laid⟩ := result.value _ _ member
    rw [prepared] at laid
    exact absurd (laid 2) (by decide)

end WriteServer
end BleGatt
