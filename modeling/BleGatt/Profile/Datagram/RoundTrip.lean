import BleGatt.Profile.Datagram.ReassemblySound

namespace BleGatt
open Std Reassembler

/-! What `split` takes apart, a reassembler puts together. -/

namespace Reassembler

/-- What a reassembler answers to the calls of one id among others. -/
def answersTo (x : UInt32) : Reassembler → List Call → List Accept
  | _, [] => []
  | r, call :: calls =>
    (if call.header.msgId = x then [r.answer call] else []) ++ answersTo x (r.feed (.accept call)) calls

theorem answersTo_foreign {x : UInt32} {calls : List Call} (foreign : ∀ call ∈ calls, call.header.msgId ≠ x)
    (r : Reassembler) : answersTo x r calls = [] := by
  induction calls generalizing r with
  | nil => rfl
  | cons call calls ih =>
    rw [answersTo, if_neg (foreign call List.mem_cons_self), List.nil_append]
    exact ih (fun c member => foreign c (List.mem_cons_of_mem _ member)) _

theorem answersTo_append (x : UInt32) (r : Reassembler) (calls later : List Call) :
    answersTo x r (calls ++ later) = answersTo x r calls ++
      answersTo x ((calls.map Feed.accept).foldl feed r) later := by
  induction calls generalizing r with
  | nil => rfl
  | cons first calls ih => simp [answersTo, ih]

end Reassembler

/-- The call carries the fragment of a split payload at `index`. -/
structure Genuine (msgId : UInt32) (payload : Bytes) (budget index : Nat) (call : Call) : Prop where
  header : call.header = ⟨msgId, UInt16.ofNat index, UInt16.ofNat (bodies payload budget).length⟩
  body : (bodies payload budget)[index]? = some call.payload

namespace Genuine

variable {msgId : UInt32} {payload : Bytes} {budget index : Nat} {call : Call}

theorem index_lt (genuine : Genuine msgId payload budget index call) : index < (bodies payload budget).length :=
  (List.getElem?_eq_some_iff.mp genuine.body).1

theorem member (genuine : Genuine msgId payload budget index call) : call.payload ∈ bodies payload budget :=
  List.mem_of_getElem? genuine.body

theorem total (genuine : Genuine msgId payload budget index call)
    (few : (bodies payload budget).length ≤ maxFragments) :
    call.header.total.toNat = (bodies payload budget).length := by
  rw [genuine.header]
  exact UInt16.toNat_ofNat_of_lt' (Nat.lt_succ_of_le few)

theorem index_eq (genuine : Genuine msgId payload budget index call)
    (few : (bodies payload budget).length ≤ maxFragments) : call.header.index.toNat = index := by
  rw [genuine.header]
  exact UInt16.toNat_ofNat_of_lt' (genuine.index_lt.trans (Nat.lt_succ_of_le few))

theorem length_le (genuine : Genuine msgId payload budget index call) (positive : 0 < budget) :
    call.payload.length ≤ payload.length := by
  have part : call.payload.length ≤ (bodies payload budget).flatten.length := by
    rw [List.length_flatten]
    exact List.le_sum_of_mem (List.mem_map_of_mem genuine.member)
  rwa [flatten_bodies positive] at part

theorem wellFormed (genuine : Genuine msgId payload budget index call) (positive : 0 < budget)
    (few : (bodies payload budget).length ≤ maxFragments) {limits : ReassemblyLimits}
    (fits : payload.length ≤ limits.maxMessageLen) : call.wellFormed limits = true := by
  have total := genuine.total few
  have at_index := genuine.index_eq few
  have inside := genuine.index_lt
  refine decide_eq_true ⟨?_, ?_, (genuine.length_le positive).trans fits⟩
  · intro zero
    rw [zero] at total
    change 0 = _ at total
    omega
  · rw [UInt16.lt_iff_toNat_lt, total, at_index]
    exact inside

/-- The declared size of a split message is within the message. -/
theorem declaredMin_le (genuine : Genuine msgId payload budget index call) (positive : 0 < budget)
    (few : (bodies payload budget).length ≤ maxFragments) (several : 2 ≤ (bodies payload budget).length) :
    call.declaredMin ≤ payload.length := by
  have least := bodies_minimum positive genuine.member several
  rw [Call.declaredMin, genuine.total few]
  exact (min_le_left _ _).trans least

end Genuine

theorem Genuine.unique {msgId : UInt32} {payload : Bytes} {budget index other : Nat} {call earlier : Call}
    (genuine : Genuine msgId payload budget index call) (before : Genuine msgId payload budget other earlier)
    (few : (bodies payload budget).length ≤ maxFragments) (same : earlier.header.index = call.header.index) :
    earlier.payload = call.payload := by
  have indices : other = index := by rw [← before.index_eq few, same, genuine.index_eq few]
  exact Option.some.inj (before.body.symm.trans (indices ▸ genuine.body))

/-- Distinct fragments of a payload are together no longer than it. -/
theorem sum_genuine_le {msgId : UInt32} {payload : Bytes} {budget : Nat} (positive : 0 < budget)
    (few : (bodies payload budget).length ≤ maxFragments) {calls : List Call}
    (genuine : ∀ call ∈ calls, ∃ index, Genuine msgId payload budget index call)
    (indices : (calls.map fun call => call.header.index).Nodup) :
    (calls.map fun call => call.payload.length).sum ≤ payload.length := by
  let size : Nat → Nat := fun index => ((bodies payload budget)[index]?.getD []).length
  have sizes : (calls.map fun call => call.payload.length) =
      (calls.map fun call => call.header.index.toNat).map size := by
    rw [List.map_map]
    refine List.map_congr_left fun call member => ?_
    obtain ⟨index, own⟩ := genuine call member
    simp [size, own.index_eq few, own.body]
  have nodup : (calls.map fun call => call.header.index.toNat).Nodup := by
    have numbers := indices.map fun _ _ => UInt16.toNat_inj.mp
    rwa [List.map_map] at numbers
  have covered : (calls.map fun call => call.header.index.toNat).Subperm
      (List.range (bodies payload budget).length) := by
    refine List.Nodup.subperm nodup ?_
    intro i member
    obtain ⟨call, held, rfl⟩ := List.mem_map.mp member
    obtain ⟨index, own⟩ := genuine call held
    rw [own.index_eq few]
    exact List.mem_range.mpr own.index_lt
  have whole : ((List.range (bodies payload budget).length).map size).sum = payload.length := by
    have each : (List.range (bodies payload budget).length).map size = (bodies payload budget).map List.length := by
      refine List.ext_getElem (by simp) ?_
      intro i _ below
      have inside : i < (bodies payload budget).length := by simpa using below
      simp [size, inside]
    rw [each, ← List.length_flatten, flatten_bodies positive]
  obtain ⟨chosen, perm, sublist⟩ := covered
  calc (calls.map fun call => call.payload.length).sum
      = (chosen.map size).sum := by rw [sizes]; exact ((perm.map size).sum_eq).symm
    _ ≤ ((List.range (bodies payload budget).length).map size).sum := (sublist.map size).sum_le_sum (by simp)
    _ = payload.length := whole

/-- The set of a payload not all of whose fragments have arrived: those of
`stored` made it, and every call of `done` for it carried a fragment of theirs. -/
structure Collecting (limits : ReassemblyLimits) (msgId : UInt32) (payload : Bytes) (budget : Nat) (start : Instant)
    (done : List Call) (message : PartialMessage) (first : Call) (stored : List Call) : Prop where
  startedAt : message.startedAt = start
  total : message.total = UInt16.ofNat (bodies payload budget).length
  incomplete : stored.length < (bodies payload budget).length
  tally : Tally limits msgId first stored message
  genuine : ∀ call ∈ stored, call ∈ done ∧ ∃ index, Genuine msgId payload budget index call
  copied : ∀ call ∈ done, call.header.msgId = msgId → ∃ copy ∈ stored, copy.header.index = call.header.index

/-- A reassembler on its way to a payload. -/
structure Progress (limits : ReassemblyLimits) (msgId : UInt32) (payload : Bytes) (budget : Nat) (start : Instant)
    (others : List UInt32) (done : List Call) (r : Reassembler) : Prop where
  configured : r.limits = limits
  ids : ∀ x : UInt32, x ∈ r.partials → x = msgId ∨ x ∈ others
  buffered : (∀ call ∈ done, call.header.msgId ≠ msgId) ∧ r.partials[msgId]? = none ∨
    ∃ message first stored, r.partials[msgId]? = some message ∧
      Collecting limits msgId payload budget start done message first stored

theorem Instant.sub_lt {a b c : Nat} (before : a < b + c) (positive : 0 < c) : a - b < c := by omega

namespace Progress

variable {limits : ReassemblyLimits} {msgId : UInt32} {payload : Bytes} {budget : Nat} {start : Instant}
  {others : List UInt32} {done : List Call} {r : Reassembler} {call : Call}

/-- In time, the set of the payload does not expire. -/
theorem live (progress : Progress limits msgId payload budget start others done r)
    (timely : call.now < start + limits.reassemblyTimeout) (positive : 0 < limits.reassemblyTimeout) :
    r.live msgId call.now = r.partials[msgId]? := by
  rw [Reassembler.live, getElem?_expire, progress.configured]
  rcases progress.buffered with ⟨_, none_yet⟩ | ⟨message, _, _, held, collecting⟩
  · rw [none_yet]
    rfl
  · rw [held, Option.filter_some, if_pos]
    rw [collecting.startedAt]
    exact decide_eq_true (Instant.sub_lt timely positive)

/-- A buffered set is that of the payload, collecting. -/
theorem collecting (progress : Progress limits msgId payload budget start others done r) {message : PartialMessage}
    (held : r.partials[msgId]? = some message) :
    ∃ first stored, Collecting limits msgId payload budget start done message first stored := by
  rcases progress.buffered with ⟨_, none_yet⟩ | ⟨_, first, stored, known, collecting⟩
  · simp [none_yet] at held
  · cases known.symm.trans held
    exact ⟨first, stored, collecting⟩

/-- Whatever a call does, only its own id can be new. -/
theorem ids_feed (progress : Progress limits msgId payload budget start others done r)
    (known : call.header.msgId = msgId ∨ call.header.msgId ∈ others) {x : UInt32}
    (member : x ∈ (r.feed (.accept call)).partials) : x = msgId ∨ x ∈ others := by
  have among : ∀ {message}, r.partials[x]? = some message → x = msgId ∨ x ∈ others := by
    intro message held
    refine progress.ids x ?_
    rw [ExtTreeMap.mem_iff_isSome_getElem?, held]
    rfl
  obtain ⟨message, after⟩ := Option.isSome_iff_exists.mp (ExtTreeMap.mem_iff_isSome_getElem?.mp member)
  rcases accept_entry after with ⟨before, _⟩ | ⟨rfl, _⟩ | ⟨rfl, _⟩
  · exact among before
  · exact known
  · exact known

end Progress

namespace Collecting

variable {limits : ReassemblyLimits} {msgId : UInt32} {payload : Bytes} {budget index : Nat} {start : Instant}
  {done stored : List Call} {first call : Call} {message : PartialMessage}

/-- The first fragment, of several. -/
theorem opened (positive : 0 < budget) (few : (bodies payload budget).length ≤ maxFragments)
    (fits : payload.length ≤ limits.maxMessageLen) (several : 2 ≤ (bodies payload budget).length)
    (none_yet : ∀ c ∈ done, c.header.msgId ≠ msgId) (genuine : Genuine msgId payload budget index call)
    (now : call.now = start) :
    Collecting limits msgId payload budget start (done ++ [call]) call.first call [call] := by
  have own : call.header.msgId = msgId := by rw [genuine.header]
  constructor
  case startedAt => exact now
  case total => exact congrArg FragmentHeader.total genuine.header
  case incomplete => exact several
  case tally => exact .first own (genuine.wellFormed positive few fits)
  case genuine =>
    intro c member
    cases List.mem_singleton.mp member
    exact ⟨List.mem_append_right _ member, index, genuine⟩
  case copied =>
    intro c member same
    rcases List.mem_append.mp member with old | new
    · exact absurd same (none_yet c old)
    · cases List.mem_singleton.mp new
      exact ⟨call, List.mem_cons_self, rfl⟩

/-- A call of another id, or one whose fragment is there already. -/
theorem pass (collecting : Collecting limits msgId payload budget start done message first stored)
    (copied : call.header.msgId = msgId → ∃ copy ∈ stored, copy.header.index = call.header.index) :
    Collecting limits msgId payload budget start (done ++ [call]) message first stored := by
  refine { collecting with genuine := ?_, copied := ?_ }
  · intro c member
    exact ⟨List.mem_append_left _ (collecting.genuine c member).1, (collecting.genuine c member).2⟩
  · intro c member same
    rcases List.mem_append.mp member with old | new
    · exact collecting.copied c old same
    · cases List.mem_singleton.mp new
      exact copied same

/-- What one more fragment leaves room for. -/
theorem fits (collecting : Collecting limits msgId payload budget start done message first stored)
    (positive : 0 < budget) (few : (bodies payload budget).length ≤ maxFragments)
    (genuine : Genuine msgId payload budget index call)
    (absent : message.fragments[call.header.index]? = none) :
    message.cumulativeLen + call.payload.length ≤ payload.length := by
  have fresh : ∀ c ∈ stored, c.header.index ≠ call.header.index := by
    intro c member same
    have held := (collecting.tally.fragments call.header.index c.payload).mpr ⟨c, member, same, rfl⟩
    rw [absent] at held
    exact absurd held (by simp)
  have indices : ((stored ++ [call]).map fun c => c.header.index).Nodup := by
    rw [List.map_append]
    refine List.Nodup.append collecting.tally.indices (List.nodup_singleton _) ?_
    intro i old new
    obtain ⟨c, member, rfl⟩ := List.mem_map.mp old
    exact fresh c member (List.mem_singleton.mp new)
  have all : ∀ c ∈ stored ++ [call], ∃ i, Genuine msgId payload budget i c := by
    intro c member
    rcases List.mem_append.mp member with old | new
    · exact (collecting.genuine c old).2
    · cases List.mem_singleton.mp new
      exact ⟨index, genuine⟩
  have together := sum_genuine_le positive few all indices
  simpa [collecting.tally.cumulative] using together

/-- One more fragment, the last one or not. -/
theorem add (collecting : Collecting limits msgId payload budget start done message first stored)
    (positive : 0 < budget) (few : (bodies payload budget).length ≤ maxFragments)
    (limit : payload.length ≤ limits.maxMessageLen) (genuine : Genuine msgId payload budget index call)
    (absent : message.fragments[call.header.index]? = none)
    (recent : call.now - message.startedAt < limits.reassemblyTimeout) :
    Tally limits msgId first (stored ++ [call]) (message.add call.header.index call.payload) := by
  have own : call.header.msgId = msgId := by rw [genuine.header]
  have total : message.total = call.header.total := by rw [collecting.total, genuine.header]
  exact collecting.tally.add own (genuine.wellFormed positive few limit) total absent
    ((collecting.fits positive few genuine absent).trans limit) recent

/-- A full set holds every fragment, and joins to the payload. -/
theorem joined (collecting : Collecting limits msgId payload budget start done message first stored)
    (positive : 0 < budget) (few : (bodies payload budget).length ≤ maxFragments)
    (genuine : Genuine msgId payload budget index call)
    (whole : Tally limits msgId first (stored ++ [call]) (message.add call.header.index call.payload))
    (full : UInt16.ofNat (message.add call.header.index call.payload).fragments.size = message.total) :
    (message.add call.header.index call.payload).joined = payload ∧
      ∀ i < (bodies payload budget).length, ∃ c ∈ done ++ [call], Genuine msgId payload budget i c := by
  obtain ⟨ordered, perm, joined, headers⟩ := whole.ordered full
  have all : ∀ c ∈ ordered, c ∈ done ++ [call] ∧ ∃ i, Genuine msgId payload budget i c := by
    intro c member
    rcases List.mem_append.mp (perm.mem_iff.mp member) with old | new
    · exact ⟨List.mem_append_left _ (collecting.genuine c old).1, (collecting.genuine c old).2⟩
    · cases List.mem_singleton.mp new
      exact ⟨List.mem_append_right _ new, index, genuine⟩
  have count : message.total.toNat = (bodies payload budget).length := by
    rw [collecting.total]
    exact UInt16.toNat_ofNat_of_lt' (Nat.lt_succ_of_le few)
  rw [PartialMessage.add_total, count] at headers
  have length : ordered.length = (bodies payload budget).length := by
    have lengths := congrArg List.length headers
    rwa [List.length_map, List.length_map, List.length_range] at lengths
  have each : ∀ (i : Nat) (below : i < ordered.length), Genuine msgId payload budget i ordered[i] := by
    intro i below
    have header : ordered[i].header = ⟨msgId, UInt16.ofNat i, message.total⟩ := by
      have at_i := congrArg (fun l => l[i]?) headers
      simpa [below, length ▸ below] using at_i
    obtain ⟨_, j, own⟩ := all ordered[i] (List.getElem_mem below)
    have same : j = i := by
      rw [← own.index_eq few, header]
      exact UInt16.toNat_ofNat_of_lt' ((length ▸ below).trans (Nat.lt_succ_of_le few))
    exact same ▸ own
  constructor
  · have payloads : ordered.map Call.payload = bodies payload budget := by
      refine List.ext_getElem (by rw [List.length_map, length]) ?_
      intro i below inside
      rw [List.length_map] at below
      have at_i := (each i below).body
      rw [List.getElem?_eq_getElem inside] at at_i
      rw [List.getElem_map]
      exact (Option.some.inj at_i).symm
    rw [joined, List.flatMap_def, payloads, flatten_bodies positive]
  · intro i below
    have inside : i < ordered.length := length ▸ below
    exact ⟨ordered[i], (all _ (List.getElem_mem inside)).1, each i inside⟩

end Collecting

namespace Progress

variable {limits : ReassemblyLimits} {msgId : UInt32} {payload : Bytes} {budget index : Nat} {start : Instant}
  {others : List UInt32} {done : List Call} {r : Reassembler} {call : Call}

theorem new (limits : ReassemblyLimits) (msgId : UInt32) (payload : Bytes) (budget : Nat) (start : Instant)
    (others : List UInt32) : Progress limits msgId payload budget start others [] (.new limits) := by
  constructor
  case configured => rfl
  case ids =>
    intro x member
    simp [Reassembler.new] at member
  case buffered => exact .inl ⟨fun _ => (by simp), by simp [Reassembler.new]⟩

/-- A fragment of the payload is never refused: it waits for the others, or
it is the last of them. -/
theorem own (progress : Progress limits msgId payload budget start others done r) (positive : 0 < budget)
    (few : (bodies payload budget).length ≤ maxFragments) (fits : payload.length ≤ limits.maxMessageLen)
    (several : 2 ≤ (bodies payload budget).length) (genuine : Genuine msgId payload budget index call)
    (timely : call.now < start + limits.reassemblyTimeout) (lasting : 0 < limits.reassemblyTimeout)
    (now : (∀ c ∈ done, c.header.msgId ≠ msgId) → call.now = start) :
    (r.answer call = .pending ∧
      Progress limits msgId payload budget start others (done ++ [call]) (r.feed (.accept call))) ∨
    (r.answer call = .complete payload ∧
      ∀ i < (bodies payload budget).length, ∃ c ∈ done ++ [call], Genuine msgId payload budget i c) := by
  have mine : call.header.msgId = msgId := by rw [genuine.header]
  have well_formed := genuine.wellFormed positive few fits
  have split_up : call.header.total ≠ 1 := by
    intro one
    have total := genuine.total few
    rw [one] at total
    change 1 = _ at total
    omega
  have held : r.live call.header.msgId call.now = r.partials[msgId]? := by rw [mine, progress.live timely lasting]
  have ids : ∀ x : UInt32, x ∈ (r.accept call.header call.payload call.now).2.partials → x = msgId ∨ x ∈ others :=
    fun x => progress.ids_feed (.inl mine)
  have limits' := (r.accept_exit call).limits.trans progress.configured
  have collected : ∀ {message}, r.live call.header.msgId call.now = some message →
      ∃ first stored, Collecting limits msgId payload budget start done message first stored :=
    fun live => progress.collecting (held.symm.trans live)
  have exit := r.accept_exit call
  change (r.answer call = .pending ∧ Progress limits msgId payload budget start others (done ++ [call])
    (r.accept call.header call.payload call.now).2) ∨ _
  unfold answer
  generalize r.accept call.header call.payload call.now = result at exit ids limits' ⊢
  obtain ⟨answer, r'⟩ := result
  dsimp only at exit ids limits' ⊢
  rw [← progress.configured] at well_formed
  cases exit with
  | malformed bad => simp [bad] at well_formed
  | whole _ one => exact absurd one split_up
  | inconsistent _ _ live differs =>
    obtain ⟨first, stored, collecting⟩ := collected live
    exact absurd (by rw [collecting.total, genuine.header]) differs
  | declared _ _ _ large =>
    have small := (genuine.declaredMin_le positive few several).trans fits
    rw [progress.configured] at large
    exact absurd small (Nat.not_le_of_lt large)
  | started _ _ live _ =>
    rcases progress.buffered with ⟨none_yet, _⟩ | ⟨message, _, _, known, _⟩
    · refine .inl ⟨rfl, limits', ids, .inr ⟨call.first, call, [call], ?_, ?_⟩⟩
      · rw [getElem?_put, if_pos mine.symm]
      · exact .opened positive few fits several none_yet genuine (now none_yet)
    · rw [held, known] at live
      simp at live
  | @duplicate message _ _ live _ copy =>
    obtain ⟨first, stored, collecting⟩ := collected live
    refine .inl ⟨rfl, limits', ids, .inr ⟨message, first, stored, ?_, collecting.pass fun _ => ?_⟩⟩
    · exact mine ▸ live
    · obtain ⟨c, member, same, _⟩ := (collecting.tally.fragments _ _).mp copy
      exact ⟨c, member, same⟩
  | restarted _ _ live _ at_index differs =>
    obtain ⟨first, stored, collecting⟩ := collected live
    obtain ⟨c, member, same, held'⟩ := (collecting.tally.fragments _ _).mp at_index
    obtain ⟨_, _, earlier⟩ := collecting.genuine c member
    exact absurd (held'.symm.trans (genuine.unique earlier few same)) differs
  | tooLarge _ _ live _ absent large =>
    obtain ⟨first, stored, collecting⟩ := collected live
    have small := (collecting.fits positive few genuine absent).trans fits
    rw [progress.configured] at large
    exact absurd small (Nat.not_le_of_lt large)
  | @stored message _ _ live total absent _ missing =>
    obtain ⟨first, stored, collecting⟩ := collected live
    have recent : call.now - message.startedAt < limits.reassemblyTimeout := by
      rw [collecting.startedAt]
      exact Instant.sub_lt timely lasting
    have tally := collecting.add positive few fits genuine absent recent
    have count : message.total.toNat = (bodies payload budget).length := by
      rw [total, genuine.total few]
    refine .inl ⟨rfl, limits', ids, .inr ⟨_, first, stored ++ [call], by rw [getElem?_put, if_pos mine.symm], ?_⟩⟩
    constructor
    case startedAt => exact collecting.startedAt
    case total => exact collecting.total
    case tally => exact tally
    case incomplete =>
      have most := tally.length_le
      have not_all : (stored ++ [call]).length ≠ message.total.toNat := fun all =>
        missing ((tally.full_iff.mpr all).trans total)
      rw [PartialMessage.add_total] at most
      omega
    case genuine =>
      intro c member
      rcases List.mem_append.mp member with old | new
      · exact ⟨List.mem_append_left _ (collecting.genuine c old).1, (collecting.genuine c old).2⟩
      · cases List.mem_singleton.mp new
        exact ⟨List.mem_append_right _ new, index, genuine⟩
    case copied =>
      intro c member same
      rcases List.mem_append.mp member with old | new
      · obtain ⟨copy, held', at_index⟩ := collecting.copied c old same
        exact ⟨copy, List.mem_append_left _ held', at_index⟩
      · exact ⟨c, List.mem_append_right _ new, rfl⟩
  | @completed message _ _ live total absent _ full =>
    obtain ⟨first, stored, collecting⟩ := collected live
    have recent : call.now - message.startedAt < limits.reassemblyTimeout := by
      rw [collecting.startedAt]
      exact Instant.sub_lt timely lasting
    have tally := collecting.add positive few fits genuine absent recent
    obtain ⟨joined, covered⟩ := collecting.joined positive few genuine tally (full.trans total.symm)
    exact .inr ⟨congrArg Accept.complete joined, covered⟩

/-- A call of another id leaves the payload's set alone: there is room for
theirs, and no time for it to expire. -/
theorem foreign (progress : Progress limits msgId payload budget start others done r)
    (other : call.header.msgId ≠ msgId) (known : call.header.msgId ∈ others)
    (room : others.length < limits.maxConcurrentReassemblies)
    (timely : call.now < start + limits.reassemblyTimeout) (lasting : 0 < limits.reassemblyTimeout) :
    Progress limits msgId payload budget start others (done ++ [call]) (r.feed (.accept call)) := by
  have live := progress.live timely lasting
  have kept : (r.feed (.accept call)).partials[msgId]? = r.partials[msgId]? := by
    have exit := r.accept_exit call
    change (r.accept call.header call.payload call.now).2.partials[msgId]? = _
    generalize r.accept call.header call.payload call.now = result at exit ⊢
    obtain ⟨answer, r'⟩ := result
    dsimp only at exit ⊢
    have apart : ¬ msgId = call.header.msgId := fun same => other same.symm
    cases exit with
    | malformed _ => rfl
    | declared _ _ _ _ => exact live
    | duplicate _ _ _ _ _ => exact live
    | started _ _ absent _ =>
      have free : (r.expire call.now).partials.size < (r.expire call.now).limits.maxConcurrentReassemblies := by
        have fresh : call.header.msgId ∉ (r.expire call.now).partials.keys := by
          rw [ExtTreeMap.mem_keys, FiniteMap.not_mem_iff]
          exact absent
        have among : (call.header.msgId :: (r.expire call.now).partials.keys) ⊆ msgId :: others := by
          intro x member
          rcases List.mem_cons.mp member with rfl | held
          · exact List.mem_cons_of_mem _ known
          · rcases progress.ids x (ExtTreeMap.mem_of_mem_filter (ExtTreeMap.mem_keys.mp held)) with rfl | one
            · exact List.mem_cons_self
            · exact List.mem_cons_of_mem _ one
        have fewer := (List.Nodup.subperm (List.nodup_cons.mpr ⟨fresh, ExtTreeMap.nodup_keys⟩) among).length_le
        rw [List.length_cons, List.length_cons, ExtTreeMap.length_keys] at fewer
        change _ < r.limits.maxConcurrentReassemblies
        rw [progress.configured]
        omega
      rw [getElem?_put, if_neg apart, evictIfAtCapacity_room free]
      exact live
    | restarted _ _ _ _ _ _ => rw [getElem?_put, if_neg apart]; exact live
    | stored _ _ _ _ _ _ _ => rw [getElem?_put, if_neg apart]; exact live
    | whole _ _ => rw [getElem?_remove, if_neg apart]; exact live
    | inconsistent _ _ _ _ => rw [getElem?_remove, if_neg apart]; exact live
    | tooLarge _ _ _ _ _ _ => rw [getElem?_remove, if_neg apart]; exact live
    | completed _ _ _ _ _ _ _ => rw [getElem?_remove, if_neg apart]; exact live
  constructor
  case configured => exact (limits_feed r _).trans progress.configured
  case ids => exact fun x => progress.ids_feed (.inr known)
  case buffered =>
    rw [kept]
    rcases progress.buffered with ⟨none_yet, absent⟩ | ⟨message, first, stored, held, collecting⟩
    · refine .inl ⟨fun c member => ?_, absent⟩
      rcases List.mem_append.mp member with old | new
      · exact none_yet c old
      · exact List.mem_singleton.mp new ▸ other
    · exact .inr ⟨message, first, stored, held, collecting.pass fun same => absurd same other⟩

/-- While it is collecting, some fragment has not arrived. -/
theorem missing (progress : Progress limits msgId payload budget start others done r)
    (positive : 0 < budget) (few : (bodies payload budget).length ≤ maxFragments) :
    ∃ i < (bodies payload budget).length, ∀ c ∈ done, ¬ Genuine msgId payload budget i c := by
  by_contra all
  push Not at all
  have length : 0 < (bodies payload budget).length := List.length_pos_iff.mpr (bodies_ne_nil positive)
  rcases progress.buffered with ⟨none_yet, _⟩ | ⟨message, first, stored, _, collecting⟩
  · obtain ⟨c, member, genuine⟩ := all 0 length
    exact none_yet c member (by rw [genuine.header])
  · have covered : List.range (bodies payload budget).length ⊆ stored.map fun c => c.header.index.toNat := by
      intro i inside
      obtain ⟨c, member, genuine⟩ := all i (List.mem_range.mp inside)
      obtain ⟨copy, held, same⟩ := collecting.copied c member (by rw [genuine.header])
      refine List.mem_map.mpr ⟨copy, held, ?_⟩
      rw [same, genuine.index_eq few]
    have most := (List.Nodup.subperm List.nodup_range covered).length_le
    rw [List.length_range, List.length_map] at most
    exact absurd most (Nat.not_le_of_lt collecting.incomplete)

end Progress

/-- A payload of one fragment is complete with it. -/
theorem Genuine.whole {msgId : UInt32} {payload : Bytes} {budget index : Nat} {call : Call}
    (genuine : Genuine msgId payload budget index call) (positive : 0 < budget)
    (one : (bodies payload budget).length = 1) {r : Reassembler} (fits : payload.length ≤ r.limits.maxMessageLen) :
    r.answer call = .complete payload := by
  have few : (bodies payload budget).length ≤ maxFragments := one ▸ by decide
  have well_formed := genuine.wellFormed positive few fits
  have single : call.header.total = 1 := by rw [genuine.header, one]; rfl
  have payloads : call.payload = payload := by
    obtain ⟨body, only⟩ := List.length_eq_one_iff.mp one
    have inside := genuine.member
    have joined : (bodies payload budget).flatten = payload := flatten_bodies positive
    rw [only, List.mem_singleton] at inside
    rw [only, List.flatten_singleton] at joined
    exact inside.trans joined
  have exit := r.accept_exit call
  unfold answer
  generalize r.accept call.header call.payload call.now = result at exit ⊢
  obtain ⟨answer, r'⟩ := result
  dsimp only at exit ⊢
  cases exit with
  | malformed bad => simp [bad] at well_formed
  | whole _ _ => rw [payloads]
  | inconsistent _ several _ _ => exact absurd single several
  | declared _ several _ _ => exact absurd single several
  | started _ several _ _ => exact absurd single several
  | duplicate _ several _ _ _ => exact absurd single several
  | restarted _ several _ _ _ _ => exact absurd single several
  | tooLarge _ several _ _ _ _ => exact absurd single several
  | stored _ several _ _ _ _ _ => exact absurd single several
  | completed _ several _ _ _ _ _ => exact absurd single several

/-- The calls are fragments of the payload and of other ids, in time. -/
structure Feeding (limits : ReassemblyLimits) (msgId : UInt32) (payload : Bytes) (budget : Nat) (start : Instant)
    (others : List UInt32) (calls : List Call) : Prop where
  genuine : ∀ call ∈ calls, call.header.msgId = msgId → ∃ index, Genuine msgId payload budget index call
  known : ∀ call ∈ calls, call.header.msgId ≠ msgId → call.header.msgId ∈ others
  timely : ∀ call ∈ calls, call.now < start + limits.reassemblyTimeout
  first : ∀ call ∈ calls.find? fun call => decide (call.header.msgId = msgId), call.now = start

namespace Feeding

variable {limits : ReassemblyLimits} {msgId : UInt32} {payload : Bytes} {budget : Nat} {start : Instant}
  {others : List UInt32} {calls later : List Call} {call : Call}

theorem of_append (feeding : Feeding limits msgId payload budget start others (calls ++ later)) :
    Feeding limits msgId payload budget start others calls := by
  constructor
  · exact fun call member => feeding.genuine call (List.mem_append_left _ member)
  · exact fun call member => feeding.known call (List.mem_append_left _ member)
  · exact fun call member => feeding.timely call (List.mem_append_left _ member)
  · intro call found
    refine feeding.first call ?_
    rw [List.find?_append, Option.mem_def.mp found]
    rfl

/-- The first fragment of the payload starts its clock. -/
theorem now_of_first (feeding : Feeding limits msgId payload budget start others (calls ++ [call]))
    (mine : call.header.msgId = msgId) (none_yet : ∀ c ∈ calls, c.header.msgId ≠ msgId) : call.now = start := by
  refine feeding.first call ?_
  have before : calls.find? (fun call => decide (call.header.msgId = msgId)) = none := by
    refine List.find?_eq_none.mpr fun c member => ?_
    simpa using none_yet c member
  rw [List.find?_append, before, Option.none_or]
  simp [mine]

/-- As long as one fragment is missing, the others wait for it. -/
theorem collects (feeding : Feeding limits msgId payload budget start others calls) (positive : 0 < budget)
    (few : (bodies payload budget).length ≤ maxFragments) (fits : payload.length ≤ limits.maxMessageLen)
    (several : 2 ≤ (bodies payload budget).length) (lasting : 0 < limits.reassemblyTimeout)
    (room : others.length < limits.maxConcurrentReassemblies) {last : Nat}
    (inside : last < (bodies payload budget).length)
    (missing : ∀ call ∈ calls, ¬ Genuine msgId payload budget last call) :
    Progress limits msgId payload budget start others calls (fed limits (calls.map Feed.accept)) ∧
      answersTo msgId (.new limits) calls =
        List.replicate (calls.countP fun call => decide (call.header.msgId = msgId)) .pending := by
  induction calls using List.reverseRecOn with
  | nil => exact ⟨.new limits msgId payload budget start others, rfl⟩
  | append_singleton calls call ih =>
    obtain ⟨progress, answers⟩ := ih feeding.of_append fun c member => missing c (List.mem_append_left _ member)
    have here : call ∈ calls ++ [call] := List.mem_append_right _ List.mem_cons_self
    have timely := feeding.timely call here
    rw [List.map_append, List.map_singleton, fed_concat, answersTo_append, answers, List.countP_append]
    by_cases mine : call.header.msgId = msgId
    · obtain ⟨index, genuine⟩ := feeding.genuine call here mine
      rcases progress.own positive few fits several genuine timely lasting (feeding.now_of_first mine) with
        ⟨waits, next⟩ | ⟨_, covered⟩
      · refine ⟨next, ?_⟩
        change List.replicate _ _ ++ answersTo msgId (fed limits (calls.map Feed.accept)) [call] = _
        simp [answersTo, mine, waits, List.replicate_succ']
      · obtain ⟨c, member, own⟩ := covered last inside
        exact absurd own (missing c member)
    · refine ⟨progress.foreign mine (feeding.known call here mine) room timely lasting, ?_⟩
      simp [answersTo, mine]

/-- The fragments before the last one wait for it, and it completes them. -/
theorem completes {before : List Call} {final : Call}
    (feeding : Feeding limits msgId payload budget start others (before ++ [final])) (positive : 0 < budget)
    (few : (bodies payload budget).length ≤ maxFragments) (fits : payload.length ≤ limits.maxMessageLen)
    (lasting : 0 < limits.reassemblyTimeout) (room : others.length < limits.maxConcurrentReassemblies) {last : Nat}
    (genuine : Genuine msgId payload budget last final)
    (missing : ∀ call ∈ before, ¬ Genuine msgId payload budget last call)
    (covered : ∀ i < (bodies payload budget).length,
      ∃ call ∈ before ++ [final], Genuine msgId payload budget i call) :
    answersTo msgId (.new limits) before =
        List.replicate (before.countP fun call => decide (call.header.msgId = msgId)) .pending ∧
      (fed limits (before.map Feed.accept)).answer final = .complete payload := by
  have mine : final.header.msgId = msgId := by rw [genuine.header]
  have final_called : final ∈ before ++ [final] := List.mem_append_right _ List.mem_cons_self
  by_cases several : 2 ≤ (bodies payload budget).length
  · obtain ⟨progress, waits⟩ := feeding.of_append.collects positive few fits several lasting room
      genuine.index_lt missing
    refine ⟨waits, ?_⟩
    rcases progress.own positive few fits several genuine (feeding.timely final final_called) lasting
      (feeding.now_of_first mine) with ⟨_, next⟩ | ⟨complete, _⟩
    · obtain ⟨i, inside, absent⟩ := next.missing positive few
      obtain ⟨call, member, own⟩ := covered i inside
      exact absurd own (absent call member)
    · exact complete
  · have one : (bodies payload budget).length = 1 := by
      have some_body : 0 < (bodies payload budget).length := List.length_pos_iff.mpr (bodies_ne_nil positive)
      omega
    -- a single fragment is the last one, and none of its copies came before
    have others_only : ∀ call ∈ before, call.header.msgId ≠ msgId := by
      intro call member own
      obtain ⟨index, earlier_one⟩ := feeding.of_append.genuine call member own
      have same : index = last := by
        have zero := earlier_one.index_lt
        have zero' := genuine.index_lt
        omega
      exact missing call member (same ▸ earlier_one)
    have none_waiting : (before.countP fun call => decide (call.header.msgId = msgId)) = 0 :=
      List.countP_eq_zero.mpr fun call member => by simpa using others_only call member
    rw [none_waiting]
    exact ⟨answersTo_foreign others_only _, genuine.whole positive one (by rw [limits_fed]; exact fits)⟩

end Feeding

/-- What reached the reassembler of the fragments of `msgId`: copies of those
of `arrived`, in that order, and at the end one of `last`. -/
structure Arrival (msgId : UInt32) (arrived : List Bytes) (last : Bytes) (calls : List Call) : Prop where
  parsed : ((calls.filter fun call => decide (call.header.msgId = msgId)).map fun call =>
    some (call.header, call.payload)) = (arrived ++ [last]).map FragmentHeader.parse

namespace Arrival

variable {msgId : UInt32} {arrived : List Bytes} {last : Bytes} {calls : List Call}

/-- The calls up to the one of `last`, that one, and the others' after it. -/
theorem split_at_last (arrival : Arrival msgId arrived last calls) :
    ∃ before final after, calls = before ++ final :: after ∧ final.header.msgId = msgId ∧
      FragmentHeader.parse last = some (final.header, final.payload) ∧ (∀ call ∈ after, call.header.msgId ≠ msgId) ∧
      ((before.filter fun call => decide (call.header.msgId = msgId)).map fun call =>
        some (call.header, call.payload)) = arrived.map FragmentHeader.parse := by
  have parsed := arrival.parsed
  rw [List.map_append, List.map_singleton] at parsed
  obtain ⟨earlier, rest, filtered, earlier_parsed, rest_parsed⟩ := List.map_eq_append_iff.mp parsed
  obtain ⟨final, rfl, at_last⟩ := List.map_eq_singleton_iff.mp rest_parsed
  obtain ⟨before, tail, rfl, of_before, of_tail⟩ := List.filter_eq_append_iff.mp filtered
  obtain ⟨between, after, rfl, foreign, mine, of_after⟩ := List.filter_eq_cons_iff.mp of_tail
  refine ⟨before ++ between, final, after, by simp, of_decide_eq_true mine, at_last.symm, ?_, ?_⟩
  · intro call member
    simpa using List.filter_eq_nil_iff.mp of_after call member
  · rw [List.filter_append, of_before, List.filter_eq_nil_iff.mpr foreign, List.append_nil, earlier_parsed]

theorem parsed_of_mine (arrival : Arrival msgId arrived last calls) {call : Call} (member : call ∈ calls)
    (mine : call.header.msgId = msgId) :
    ∃ fragment ∈ arrived ++ [last], FragmentHeader.parse fragment = some (call.header, call.payload) := by
  have listed : some (call.header, call.payload) ∈ (arrived ++ [last]).map FragmentHeader.parse := by
    rw [← arrival.parsed]
    exact List.mem_map.mpr ⟨call, List.mem_filter.mpr ⟨member, decide_eq_true mine⟩, rfl⟩
  exact List.mem_map.mp listed

end Arrival

section Sent

variable {msgId : UInt32} {payload : Bytes} {budget index : Nat} {arrived : List Bytes} {last fragment : Bytes}
  {before : List Call} {call final : Call}

/-- The fragments of a payload, as `split` makes them. -/
def sentFragments (msgId : UInt32) (payload : Bytes) (budget : Nat) : List Bytes :=
  (bodies payload budget).mapIdx fun index body =>
    (⟨msgId, UInt16.ofNat index, UInt16.ofNat (bodies payload budget).length⟩ : FragmentHeader).writeTo [] ++ body

theorem Genuine.of_sent (sent : fragment ∈ sentFragments msgId payload budget)
    (parsed : FragmentHeader.parse fragment = some (call.header, call.payload)) :
    ∃ index, Genuine msgId payload budget index call := by
  obtain ⟨index, inside, made⟩ := List.mem_mapIdx.mp sent
  rw [← made, FragmentHeader.parse_writeTo] at parsed
  obtain ⟨header, body⟩ := Prod.mk.inj (Option.some.inj parsed)
  exact ⟨index, header.symm, by rw [List.getElem?_eq_getElem inside, body]⟩

/-- No copy of the last fragment came before it. -/
theorem Genuine.not_before (genuine : Genuine msgId payload budget index final)
    (at_last : FragmentHeader.parse last = some (final.header, final.payload)) (fresh : last ∉ arrived)
    (earlier : ((before.filter fun call => decide (call.header.msgId = msgId)).map fun call =>
      some (call.header, call.payload)) = arrived.map FragmentHeader.parse) (member : call ∈ before) :
    ¬ Genuine msgId payload budget index call := by
  intro own
  have listed : some (call.header, call.payload) ∈ arrived.map FragmentHeader.parse := by
    rw [← earlier]
    exact List.mem_map.mpr ⟨call, List.mem_filter.mpr ⟨member, decide_eq_true (by rw [own.header])⟩, rfl⟩
  obtain ⟨fragment, arrives, parsed⟩ := List.mem_map.mp listed
  have header : call.header = final.header := own.header.trans genuine.header.symm
  have body : call.payload = final.payload := Option.some.inj (own.body.symm.trans genuine.body)
  rw [header, body] at parsed
  have same : fragment = last :=
    (FragmentHeader.writeTo_of_parse parsed).symm.trans (FragmentHeader.writeTo_of_parse at_last)
  exact fresh (same ▸ arrives)

/-- Each fragment of the payload is among the calls. -/
theorem covered_of_sent
    (every : ∀ fragment, fragment ∈ sentFragments msgId payload budget → fragment ∈ arrived ++ [last])
    (at_last : FragmentHeader.parse last = some (final.header, final.payload))
    (earlier : ((before.filter fun call => decide (call.header.msgId = msgId)).map fun call =>
      some (call.header, call.payload)) = arrived.map FragmentHeader.parse)
    (inside : index < (bodies payload budget).length) :
    ∃ call ∈ before ++ [final], Genuine msgId payload budget index call := by
  have sent : (⟨msgId, UInt16.ofNat index, UInt16.ofNat (bodies payload budget).length⟩ : FragmentHeader).writeTo [] ++
      (bodies payload budget)[index] ∈ arrived ++ [last] :=
    every _ (List.mem_mapIdx.mpr ⟨index, inside, rfl⟩)
  have listed := List.mem_map_of_mem (f := FragmentHeader.parse) sent
  rw [FragmentHeader.parse_writeTo, List.map_append, ← earlier, List.map_singleton, at_last] at listed
  have at_index : (bodies payload budget)[index]? = some (bodies payload budget)[index] :=
    List.getElem?_eq_getElem inside
  rcases List.mem_append.mp listed with old | new
  · obtain ⟨call, member, same⟩ := List.mem_map.mp old
    obtain ⟨header, body⟩ := Prod.mk.inj (Option.some.inj same)
    exact ⟨call, List.mem_append_left _ (List.mem_filter.mp member).1, header, body ▸ at_index⟩
  · obtain ⟨header, body⟩ := Prod.mk.inj (Option.some.inj (List.mem_singleton.mp new))
    exact ⟨final, List.mem_append_right _ List.mem_cons_self, header.symm, body ▸ at_index⟩

end Sent

/-- A payload within the limits is split, and its fragments, in any order and
with any copies before the last of them to arrive, among fragments of fewer
other messages than fit beside it, make that payload and no rejection. -/
theorem split_round_trip (limits : ReassemblyLimits) (msgId : UInt32) (payload : Bytes) (budget : Nat)
    (positive : 0 < budget) (fits : payload.length ≤ limits.maxMessageLen)
    (count : payload.length ≤ budget * maxFragments) :
    ∃ fragments, split msgId payload budget = .ok fragments ∧
      ∀ calls arrived last, Arrival msgId arrived last calls →
        (∀ fragment, fragment ∈ arrived ++ [last] ↔ fragment ∈ fragments) → last ∉ arrived →
        ((calls.map fun call => call.header.msgId).filter fun id => decide (id ≠ msgId)).dedup.length <
          limits.maxConcurrentReassemblies →
        (∀ first ∈ calls.find? (fun call => decide (call.header.msgId = msgId)), ∀ call ∈ calls,
          call.now < first.now + limits.reassemblyTimeout) →
        answersTo msgId (.new limits) calls = List.replicate arrived.length .pending ++ [.complete payload] := by
  have few := length_bodies_le positive count
  refine ⟨sentFragments msgId payload budget, split_ok positive count, ?_⟩
  intro calls arrived last arrival every fresh room timely
  have genuine_of_mine : ∀ call ∈ calls, call.header.msgId = msgId →
      ∃ index, Genuine msgId payload budget index call := by
    intro call member mine
    obtain ⟨fragment, arrives, parsed⟩ := arrival.parsed_of_mine member mine
    exact Genuine.of_sent ((every fragment).mp arrives) parsed
  obtain ⟨before, final, after, rfl, mine, at_last, foreign, earlier⟩ := arrival.split_at_last
  have final_called : final ∈ before ++ final :: after := List.mem_append_right _ List.mem_cons_self
  obtain ⟨last_index, genuine⟩ := genuine_of_mine final final_called mine
  have started : ∃ first,
      (before ++ final :: after).find? (fun call => decide (call.header.msgId = msgId)) = some first :=
    Option.isSome_iff_exists.mp (List.find?_isSome.mpr ⟨final, final_called, decide_eq_true mine⟩)
  obtain ⟨first, found⟩ := started
  have in_time := timely first found
  have lasting : 0 < limits.reassemblyTimeout :=
    Nat.pos_of_lt_add_right (in_time first (List.mem_of_find?_eq_some found))
  have feeding : Feeding limits msgId payload budget first.now
      ((((before ++ final :: after).map fun call => call.header.msgId).filter fun id => decide (id ≠ msgId)).dedup)
      ((before ++ [final]) ++ after) := by
    rw [List.append_assoc, List.singleton_append]
    constructor
    case genuine => exact genuine_of_mine
    case known =>
      intro call member other
      exact List.mem_dedup.mpr (List.mem_filter.mpr ⟨List.mem_map_of_mem member, decide_eq_true other⟩)
    case timely => exact in_time
    case first =>
      intro call at_first
      cases found.symm.trans at_first
      rfl
  obtain ⟨waits, complete⟩ := feeding.of_append.completes positive few fits lasting room genuine
    (fun call member => genuine.not_before at_last fresh earlier member)
    (fun i inside => covered_of_sent (fun fragment => (every fragment).mpr) at_last earlier inside)
  have waiting : (before.countP fun call => decide (call.header.msgId = msgId)) = arrived.length := by
    have lengths := congrArg List.length earlier
    rwa [List.length_map, List.length_map, ← List.countP_eq_length_filter] at lengths
  rw [waiting] at waits
  rw [answersTo_append, waits, answersTo, if_pos mine, answersTo_foreign foreign]
  have complete' : ((before.map Feed.accept).foldl feed (.new limits)).answer final = .complete payload := complete
  rw [complete']
  rfl

/-- The last fragment of five bytes first, the first one twice, and one of
another message between them. -/
def shuffled : List Call :=
  [⟨⟨7, 2, 3⟩, [5], 0⟩, ⟨⟨9, 0, 2⟩, [6], 1⟩, ⟨⟨7, 0, 3⟩, [1, 2], 2⟩, ⟨⟨7, 0, 3⟩, [1, 2], 3⟩, ⟨⟨7, 1, 3⟩, [3, 4], 4⟩]

theorem split_round_trip_shuffled : ∃ fragments, split 7 [1, 2, 3, 4, 5] 2 = .ok fragments ∧ fragments.length = 3 ∧
    answersTo 7 (.new ⟨5, 10, 2⟩) shuffled = [.pending, .pending, .pending, .complete [1, 2, 3, 4, 5]] := by
  obtain ⟨fragments, made, complete⟩ := split_round_trip ⟨5, 10, 2⟩ 7 [1, 2, 3, 4, 5] 2 (by decide) (by decide) (by decide)
  have pieces : split 7 [1, 2, 3, 4, 5] 2 =
      .ok [[7, 0, 0, 0, 0, 0, 3, 0, 1, 2], [7, 0, 0, 0, 1, 0, 3, 0, 3, 4], [7, 0, 0, 0, 2, 0, 3, 0, 5]] := by
    decide +kernel
  obtain rfl : fragments = _ := Except.ok.inj (made.symm.trans pieces)
  refine ⟨_, made, rfl, complete shuffled
    [[7, 0, 0, 0, 2, 0, 3, 0, 5], [7, 0, 0, 0, 0, 0, 3, 0, 1, 2], [7, 0, 0, 0, 0, 0, 3, 0, 1, 2]]
    [7, 0, 0, 0, 1, 0, 3, 0, 3, 4] ⟨by decide +kernel⟩ (fun fragment => ⟨?_, ?_⟩) (by decide) (by decide) ?_⟩
  · exact fun arrives => (by decide : ([[7, 0, 0, 0, 2, 0, 3, 0, 5], [7, 0, 0, 0, 0, 0, 3, 0, 1, 2],
      [7, 0, 0, 0, 0, 0, 3, 0, 1, 2]] ++ [[7, 0, 0, 0, 1, 0, 3, 0, 3, 4]] : List Bytes) ⊆
      [[7, 0, 0, 0, 0, 0, 3, 0, 1, 2], [7, 0, 0, 0, 1, 0, 3, 0, 3, 4], [7, 0, 0, 0, 2, 0, 3, 0, 5]]) arrives
  · exact fun sent => (by decide : ([[7, 0, 0, 0, 0, 0, 3, 0, 1, 2], [7, 0, 0, 0, 1, 0, 3, 0, 3, 4],
      [7, 0, 0, 0, 2, 0, 3, 0, 5]] : List Bytes) ⊆ [[7, 0, 0, 0, 2, 0, 3, 0, 5], [7, 0, 0, 0, 0, 0, 3, 0, 1, 2],
      [7, 0, 0, 0, 0, 0, 3, 0, 1, 2]] ++ [[7, 0, 0, 0, 1, 0, 3, 0, 3, 4]]) sent
  · intro first found
    cases found
    decide

end BleGatt
