import BleGatt.Profile.Datagram.OrderedChannel

namespace BleGatt
open Std Reassembler

/-! What one end of a channel sends, the other end completes. -/

namespace Progress

variable {limits : ReassemblyLimits} {msgId : UInt32} {payload : Bytes} {budget index : Nat} {start : Instant}
  {others : List UInt32} {done : List Call} {r : Reassembler} {call : Call}

theorem expire (progress : Progress limits msgId payload budget start others done r) {now : Instant}
    (timely : now < start + limits.reassemblyTimeout) (lasting : 0 < limits.reassemblyTimeout) :
    Progress limits msgId payload budget start others done (r.expire now) := by
  have kept : (r.expire now).partials[msgId]? = r.partials[msgId]? := by
    rw [getElem?_expire, progress.configured]
    rcases progress.buffered with ⟨_, none_yet⟩ | ⟨message, _, _, held, collecting⟩
    · rw [none_yet]
      rfl
    · rw [held, Option.filter_some, if_pos]
      rw [collecting.startedAt]
      exact decide_eq_true (Instant.sub_lt timely lasting)
  refine ⟨progress.configured, fun x member => ?_, ?_⟩
  · exact progress.ids x (ExtTreeMap.mem_of_mem_filter member)
  · rw [kept]
    exact progress.buffered

/-- The first fragment of several takes a slot, whoever is evicted for it. -/
theorem begin (configured : r.limits = limits) (ids : ∀ x : UInt32, x ∈ r.partials → x ∈ others)
    (fresh : r.partials[msgId]? = none) (positive : 0 < budget)
    (few : (bodies payload budget).length ≤ maxFragments) (fits : payload.length ≤ limits.maxMessageLen)
    (several : 2 ≤ (bodies payload budget).length) (genuine : Genuine msgId payload budget index call)
    (now : call.now = start) :
    r.answer call = .pending ∧ Progress limits msgId payload budget start others [call] (r.feed (.accept call)) := by
  have mine : call.header.msgId = msgId := by rw [genuine.header]
  have well_formed := genuine.wellFormed positive few fits
  have split_up : call.header.total ≠ 1 := by
    intro one
    have total := genuine.total few
    rw [one] at total
    change 1 = _ at total
    omega
  have nothing : r.live call.header.msgId call.now = none := by
    rw [mine, Reassembler.live, getElem?_expire, fresh]
    rfl
  have ids' : ∀ x : UInt32, x ∈ (r.accept call.header call.payload call.now).2.partials → x = msgId ∨ x ∈ others := by
    intro x member
    obtain ⟨message, after⟩ := Option.isSome_iff_exists.mp (ExtTreeMap.mem_iff_isSome_getElem?.mp member)
    rcases accept_entry after with ⟨before, _⟩ | ⟨rfl, _⟩ | ⟨rfl, _⟩
    · refine .inr (ids x ?_)
      rw [ExtTreeMap.mem_iff_isSome_getElem?, before]
      rfl
    · exact .inl mine
    · exact .inl mine
  have limits' := (r.accept_exit call).limits.trans configured
  have exit := r.accept_exit call
  change r.answer call = .pending ∧ Progress limits msgId payload budget start others [call]
    (r.accept call.header call.payload call.now).2
  unfold answer
  generalize r.accept call.header call.payload call.now = result at exit ids' limits' ⊢
  obtain ⟨answer, r'⟩ := result
  dsimp only at exit ids' limits' ⊢
  rw [← configured] at well_formed
  cases exit with
  | malformed bad => simp [bad] at well_formed
  | whole _ one => exact absurd one split_up
  | inconsistent _ _ live _ => simp [nothing] at live
  | declared _ _ _ large =>
    have small := (genuine.declaredMin_le positive few several).trans fits
    rw [configured] at large
    exact absurd small (Nat.not_le_of_lt large)
  | started _ _ _ _ =>
    have opened : Collecting limits msgId payload budget start ([] ++ [call]) call.first call [call] :=
      .opened positive few fits several (fun _ member => absurd member List.not_mem_nil) genuine now
    refine ⟨rfl, limits', ids', .inr ⟨call.first, call, [call], ?_, opened⟩⟩
    rw [getElem?_put, if_pos mine.symm]
  | duplicate _ _ live _ _ => simp [nothing] at live
  | restarted _ _ live _ _ _ => simp [nothing] at live
  | tooLarge _ _ live _ _ _ => simp [nothing] at live
  | stored _ _ live _ _ _ _ => simp [nothing] at live
  | completed _ _ live _ _ _ _ => simp [nothing] at live

end Progress

/-- The fragments of a payload up to `index` arrived, in order. -/
def Gathered (limits : ReassemblyLimits) (msgId : UInt32) (payload : Bytes) (budget : Nat) (start : Instant)
    (index : Nat) (r : Reassembler) : Prop :=
  ∃ others done, Progress limits msgId payload budget start others done r ∧
    (∀ call ∈ done, ∃ i ≤ index, Genuine msgId payload budget i call) ∧
    ∀ i ≤ index, ∃ call ∈ done, Genuine msgId payload budget i call

namespace Gathered

variable {limits : ReassemblyLimits} {msgId : UInt32} {payload : Bytes} {budget index : Nat} {start : Instant}
  {r : Reassembler} {call : Call}

theorem expire (gathered : Gathered limits msgId payload budget start index r) {now : Instant}
    (timely : now < start + limits.reassemblyTimeout) (lasting : 0 < limits.reassemblyTimeout) :
    Gathered limits msgId payload budget start index (r.expire now) := by
  obtain ⟨others, done, progress, among, all⟩ := gathered
  exact ⟨others, done, progress.expire timely lasting, among, all⟩

/-- The fragment after them is awaited with more to come, or completes the payload. -/
theorem next (gathered : Gathered limits msgId payload budget start index r) (positive : 0 < budget)
    (few : (bodies payload budget).length ≤ maxFragments) (fits : payload.length ≤ limits.maxMessageLen)
    (genuine : Genuine msgId payload budget (index + 1) call)
    (timely : call.now < start + limits.reassemblyTimeout) (lasting : 0 < limits.reassemblyTimeout) :
    (index + 2 < (bodies payload budget).length ∧ r.answer call = .pending ∧
      Gathered limits msgId payload budget start (index + 1) (r.feed (.accept call))) ∨
    (index + 2 = (bodies payload budget).length ∧ r.answer call = .complete payload) := by
  obtain ⟨others, done, progress, among, all⟩ := gathered
  have inside := genuine.index_lt
  have among' : ∀ c ∈ done ++ [call], ∃ i ≤ index + 1, Genuine msgId payload budget i c := by
    intro c member
    rcases List.mem_append.mp member with before | now
    · obtain ⟨i, most, own⟩ := among c before
      exact ⟨i, Nat.le_succ_of_le most, own⟩
    · exact ⟨index + 1, le_rfl, List.mem_singleton.mp now ▸ genuine⟩
  have all' : ∀ i ≤ index + 1, ∃ c ∈ done ++ [call], Genuine msgId payload budget i c := by
    intro i most
    rcases Nat.le_succ_iff.mp most with before | rfl
    · obtain ⟨c, member, own⟩ := all i before
      exact ⟨c, List.mem_append_left _ member, own⟩
    · exact ⟨call, List.mem_append_right _ List.mem_cons_self, genuine⟩
  have begun : (∀ c ∈ done, c.header.msgId ≠ msgId) → call.now = start := by
    intro none_yet
    obtain ⟨c, member, own⟩ := all 0 (Nat.zero_le _)
    exact absurd (by rw [own.header]) (none_yet c member)
  rcases progress.own positive few fits (by omega) genuine timely lasting begun with
    ⟨pending, onward⟩ | ⟨complete, covered⟩
  · refine .inl ⟨?_, pending, others, done ++ [call], onward, among', all'⟩
    obtain ⟨i, below, absent⟩ := onward.missing positive few
    by_contra last
    obtain ⟨c, member, own⟩ := all' i (by omega)
    exact absent c member own
  · refine .inr ⟨?_, complete⟩
    obtain ⟨c, member, own⟩ := covered ((bodies payload budget).length - 1) (by omega)
    obtain ⟨i, most, own'⟩ := among' c member
    have same : i = (bodies payload budget).length - 1 := (own'.index_eq few).symm.trans (own.index_eq few)
    omega

end Gathered

namespace ChannelPair

variable {cfg : DatagramConfig} {peer : PeerAddress} {budget limit : Nat} {s s' : ChannelPair}
  {began : Nat → Option Instant}

/-- When the first fragment of each send arrived. -/
def notice (began : Nat → Option Instant) (s : ChannelPair) (label : ChannelStep) (_ : ChannelPair) :
    Nat → Option Instant :=
  match label, s.written[s.arrived]? with
  | .deliver, some next =>
    if (began next.send).isSome then began else Function.update began next.send (some s.now)
  | _, _ => began

/-- There are fewer than `2 ^ 32` sends, and the fragments of each that
arrive do so within the timeout. -/
def timely (timeout : Duration) (began : Nat → Option Instant) (s : ChannelPair) : ChannelStep → Bool
  | .send _ => decide (s.sends.length < 2 ^ 32)
  | .deliver => s.written[s.arrived]?.all fun next =>
    (began next.send).all fun start => decide (s.now < start + timeout)
  | _ => true

/-- What a fragment that was written carries. -/
structure Carried (budget limit : Nat) (w : Written) (message : Message) (header : FragmentHeader) (body : Bytes) :
    Prop where
  positive : 0 < budget
  few : (bodies message.payload budget).length ≤ maxFragments
  fits : message.payload.length ≤ limit
  numbered : message.msgId = UInt32.ofNat w.send
  length : message.fragments.length = (bodies message.payload budget).length
  parsed : FragmentHeader.parse w.fragment = some (header, body)
  genuine : ∀ now, Genuine message.msgId message.payload budget w.index ⟨header, body, now⟩

theorem Ordered.carried (ordered : Ordered budget limit s) {w : Written} (member : w ∈ s.written) :
    ∃ message header body, s.message w.send = some message ∧ Carried budget limit w message header body := by
  obtain ⟨sending, started, fragment, _⟩ := ordered.entries w member
  obtain ⟨_, fits, cut⟩ := ordered.cut w.send sending started
  have made : split sending.message.msgId sending.message.payload budget = .ok sending.message.fragments := by
    rcases cut with ⟨_, made⟩ | ⟨_, none_left⟩
    · exact made
    · rw [none_left] at fragment
      simp at fragment
  obtain ⟨positive, few, fragments⟩ := split_parts made
  rw [fragments, List.getElem?_mapIdx, Option.map_eq_some_iff] at fragment
  obtain ⟨body, at_index, written⟩ := fragment
  refine ⟨sending.message, ⟨sending.message.msgId, UInt16.ofNat w.index,
    UInt16.ofNat (bodies sending.message.payload budget).length⟩, body, message_eq started, ?_⟩
  refine ⟨positive, few, fits, ordered.numbered w.send sending started, ?_, ?_, fun now => ⟨rfl, at_index⟩⟩
  · rw [fragments, List.length_mapIdx]
  · rw [← written]
    exact FragmentHeader.parse_writeTo _ _

/-- No two sends share an id. -/
theorem Ordered.send_eq (ordered : Ordered budget limit s) {v w : Written} (in_v : v ∈ s.written) (in_w : w ∈ s.written)
    (same : UInt32.ofNat v.send = UInt32.ofNat w.send) : v.send = w.send := by
  have below : ∀ u ∈ s.written, u.send < 2 ^ 32 := by
    intro u member
    obtain ⟨_, started, _⟩ := ordered.entries u member
    exact (List.getElem?_eq_some_iff.mp started).1.trans_le ordered.few
  have numbers := congrArg UInt32.toNat same
  rwa [UInt32.toNat_ofNat_of_lt' (below v in_v), UInt32.toNat_ofNat_of_lt' (below w in_w)] at numbers

/-- The reassembly holds what arrived, of the send whose turn it is at the least. -/
structure Received (cfg : DatagramConfig) (budget : Nat) (began : Nat → Option Instant) (s : ChannelPair) : Prop where
  arrived : s.arrived ≤ s.written.length
  completed : s.completed = (s.written.take s.arrived).filterMap (closing s.message)
  limits : s.reassembler.limits = cfg.limits
  ids : ∀ x : UInt32, x ∈ s.reassembler.partials → ∃ w ∈ s.written.take s.arrived, UInt32.ofNat w.send = x
  began_of : ∀ w ∈ s.written.take s.arrived, ∃ start, began w.send = some start ∧ start ≤ s.now
  of_began : ∀ k start, began k = some start → ∃ w ∈ s.written.take s.arrived, w.send = k
  current : ∀ w message start, (s.written.take s.arrived).getLast? = some w → s.message w.send = some message →
    w.index + 1 < message.fragments.length → began w.send = some start → s.now < start + cfg.reassemblyTimeout →
    Gathered cfg.limits message.msgId message.payload budget start w.index s.reassembler

namespace Received

theorem start (now : Instant) : Received cfg budget (fun _ => none) (start cfg.limits now) where
  arrived := le_rfl
  completed := rfl
  limits := rfl
  ids _ member := by simp [ChannelPair.start, Reassembler.new] at member
  began_of := fun _ member => by cases member
  of_began _ _ started := by simp at started
  current _ _ _ last := by simp [ChannelPair.start] at last

/-- A step of the sending end. -/
theorem sent (received : Received cfg budget began s) (ordered : Ordered budget limit s)
    (arrived : s'.arrived = s.arrived) (reassembler : s'.reassembler = s.reassembler)
    (completed : s'.completed = s.completed) (now : s'.now = s.now) (written : s.written <+: s'.written)
    (message : ∀ k m, s.message k = some m → s'.message k = some m) : Received cfg budget began s' := by
  obtain ⟨more, grown⟩ := written
  have taken : s'.written.take s'.arrived = s.written.take s.arrived := by
    rw [arrived, ← grown, List.take_append_of_le_length received.arrived]
  have known : ∀ w ∈ s.written.take s.arrived, ∃ m, s.message w.send = some m := by
    intro w member
    obtain ⟨m, _, _, at_w, _⟩ := ordered.carried (List.mem_of_mem_take member)
    exact ⟨m, at_w⟩
  constructor
  case arrived =>
    rw [arrived, ← grown, List.length_append]
    exact received.arrived.trans (Nat.le_add_right _ _)
  case completed =>
    rw [taken, completed, received.completed]
    refine List.filterMap_congr fun w member => ?_
    obtain ⟨m, at_w⟩ := known w member
    rw [closing, closing, at_w, message _ m at_w]
  case limits => rw [reassembler]; exact received.limits
  case ids => rw [reassembler, taken]; exact received.ids
  case began_of => rw [taken, now]; exact received.began_of
  case of_began => rw [taken]; exact received.of_began
  case current =>
    rw [taken, reassembler, now]
    intro w m start last at_w
    obtain ⟨m', before⟩ := known w (List.mem_of_getLast? last)
    obtain rfl := Option.some.inj (at_w.symm.trans (message _ m' before))
    exact received.current w m start last before

theorem tick (received : Received cfg budget began s) :
    Received cfg budget began { s with reassembler := s.reassembler.expire s.now } where
  arrived := received.arrived
  completed := received.completed
  limits := received.limits
  ids x member := received.ids x (ExtTreeMap.mem_of_mem_filter member)
  began_of := received.began_of
  of_began := received.of_began
  current w message start last at_w more started timely := by
    obtain ⟨start', started', before⟩ := received.began_of w (List.mem_of_getLast? last)
    obtain rfl := Option.some.inj (started.symm.trans started')
    have lasting : 0 < cfg.reassemblyTimeout := Nat.pos_of_lt_add_right (before.trans_lt timely)
    exact (received.current w message start last at_w more started timely).expire timely lasting

theorem elapse (received : Received cfg budget began s) (time : Duration) :
    Received cfg budget began { s with now := s.now + time } where
  arrived := received.arrived
  completed := received.completed
  limits := received.limits
  ids := received.ids
  began_of w member := by
    obtain ⟨start, started, before⟩ := received.began_of w member
    exact ⟨start, started, before.trans (Nat.le_add_right _ _)⟩
  of_began := received.of_began
  current w message start last at_w more started timely := by
    exact received.current w message start last at_w more started (Nat.lt_of_le_of_lt (Nat.le_add_right _ _) timely)

/-- What the next fragment does: it completes the payload it is the last of,
and the fragments of another are gathered. -/
theorem answered (received : Received cfg budget began s) (ordered : Ordered budget limit s)
    (smaller : limit ≤ cfg.maxMessageLen) {w : Written} (next : s.written[s.arrived]? = some w) {message : Message}
    {header : FragmentHeader} {body : Bytes} (at_w : s.message w.send = some message)
    (carried : Carried budget limit w message header body)
    (intime : ∀ start, began w.send = some start → s.now < start + cfg.reassemblyTimeout) :
    messages (s.reassembler.answer ⟨header, body, s.now⟩) = (closing s.message w).toList ∧
      (w.index + 1 < message.fragments.length →
        Gathered cfg.limits message.msgId message.payload budget ((began w.send).getD s.now) w.index
          (s.reassembler.feed (.accept ⟨header, body, s.now⟩))) := by
  have genuine := carried.genuine s.now
  have inside := genuine.index_lt
  have fits : message.payload.length ≤ cfg.limits.maxMessageLen := carried.fits.trans smaller
  have closes : closing s.message w =
      if w.index + 1 = (bodies message.payload budget).length then some message.payload else none := by
    rw [closing, at_w, Option.bind_some, carried.length]
  rw [carried.length]
  by_cases one : (bodies message.payload budget).length = 1
  · have whole := genuine.whole carried.positive one (r := s.reassembler) (by rw [received.limits]; exact fits)
    rw [whole, closes, if_pos (by omega)]
    exact ⟨rfl, fun more => by omega⟩
  have several : 2 ≤ (bodies message.payload budget).length := by omega
  have in_w : w ∈ s.written := List.mem_of_getElem? next
  cases index : w.index with
  | zero =>
    have first : ∀ v ∈ s.written.take s.arrived, v.send ≠ w.send := by
      intro v member same
      obtain ⟨j, below, at_j⟩ := List.mem_take_iff_getElem.mp member
      have at_j : s.written[j]? = some v := by rw [← at_j]; exact List.getElem?_eq_getElem _
      have late := ordered.consecutive.begins s.arrived j w v next index at_j same
      omega
    have unbegun : began w.send = none := by
      cases before : began w.send with
      | none => rfl
      | some start =>
        obtain ⟨v, member, same⟩ := received.of_began w.send start before
        exact absurd same (first v member)
    have fresh : s.reassembler.partials[message.msgId]? = none := by
      rw [← FiniteMap.not_mem_iff]
      intro member
      obtain ⟨v, taken, same⟩ := received.ids message.msgId member
      rw [carried.numbered] at same
      exact first v taken (ordered.send_eq (List.mem_of_mem_take taken) in_w same)
    rw [index] at genuine
    obtain ⟨pending, progress⟩ := Progress.begin received.limits
      (fun x member => by
        obtain ⟨v, taken, same⟩ := received.ids x member
        exact List.mem_map.mpr ⟨v, taken, same⟩)
      fresh carried.positive carried.few fits several genuine rfl
    rw [pending, closes, if_neg (by omega), unbegun]
    refine ⟨rfl, fun _ => ⟨_, _, progress, fun c member => ?_, fun i most => ?_⟩⟩
    · exact ⟨0, le_rfl, List.mem_singleton.mp member ▸ genuine⟩
    · exact ⟨_, List.mem_cons_self, Nat.le_zero.mp most ▸ genuine⟩
  | succ i =>
    obtain ⟨j, v, arrived, at_j, same, before⟩ := ordered.consecutive.follows s.arrived w i next index
    have last : (s.written.take s.arrived).getLast? = some v := by
      have below : j < s.written.length := (List.getElem?_eq_some_iff.mp at_j).1
      rw [List.getLast?_eq_getElem?, List.length_take, arrived, Nat.min_eq_left below,
        List.getElem?_take_of_lt (by omega)]
      exact at_j
    obtain ⟨start, started, earlier⟩ := received.began_of v (List.mem_of_getLast? last)
    have timely := intime start (same ▸ started)
    have lasting : 0 < cfg.reassemblyTimeout := Nat.pos_of_lt_add_right (earlier.trans_lt timely)
    have short : v.index + 1 < message.fragments.length := by
      rw [carried.length]
      omega
    have gathered := received.current v message start last (same.symm ▸ at_w) short started timely
    rw [before] at gathered
    rw [index] at genuine
    rw [← same, started, Option.getD_some]
    rcases gathered.next carried.positive carried.few fits genuine timely lasting with
      ⟨more, pending, onward⟩ | ⟨all, complete⟩
    · rw [pending, closes, if_neg (by omega)]
      exact ⟨rfl, fun _ => onward⟩
    · rw [complete, closes, if_pos (by omega)]
      exact ⟨rfl, fun more => by omega⟩

theorem deliver (received : Received cfg budget began s) (ordered : Ordered budget limit s)
    (smaller : limit ≤ cfg.maxMessageLen) {w : Written} (next : s.written[s.arrived]? = some w)
    (intime : ∀ start, began w.send = some start → s.now < start + cfg.reassemblyTimeout) :
    Received cfg budget (notice began s .deliver s') ({ s with arrived := s.arrived + 1 }.reassemble w.fragment) := by
  obtain ⟨message, header, body, at_w, carried⟩ := ordered.carried (List.mem_of_getElem? next)
  obtain ⟨answer, gathered⟩ := received.answered ordered smaller next at_w carried intime
  have result : { s with arrived := s.arrived + 1 }.reassemble w.fragment = { s with
      arrived := s.arrived + 1
      reassembler := s.reassembler.feed (.accept ⟨header, body, s.now⟩)
      completed := s.completed ++ messages (s.reassembler.answer ⟨header, body, s.now⟩) } := by
    unfold reassemble
    rw [carried.parsed]
    rfl
  have taken : s.written.take (s.arrived + 1) = s.written.take s.arrived ++ [w] := by
    rw [List.take_add_one, next]
    rfl
  have began_w : notice began s .deliver s' w.send = some ((began w.send).getD s.now) := by
    unfold notice
    rw [next]
    dsimp only
    cases before : began w.send with
    | none => rw [if_neg (by simp), Function.update_self, Option.getD_none]
    | some start => rw [if_pos (by simp), before, Option.getD_some]
  have began_other : ∀ k, k ≠ w.send → notice began s .deliver s' k = began k := by
    intro k other
    unfold notice
    rw [next]
    dsimp only
    split
    · rfl
    · rw [Function.update_of_ne other]
  have kept : ∀ k start, began k = some start → notice began s .deliver s' k = some start := by
    intro k start before
    by_cases own : k = w.send
    · rw [own, began_w, ← own, before, Option.getD_some]
    · rw [began_other k own, before]
  rw [result]
  constructor
  case arrived => exact (List.getElem?_eq_some_iff.mp next).1
  case completed =>
    change s.completed ++ _ = (s.written.take (s.arrived + 1)).filterMap (closing s.message)
    rw [taken, List.filterMap_append, received.completed, answer]
    refine congrArg _ ?_
    rw [List.filterMap_cons]
    cases closing s.message w <;> rfl
  case limits => exact (limits_feed _ _).trans received.limits
  case ids =>
    intro x member
    obtain ⟨buffered, after⟩ := Option.isSome_iff_exists.mp (ExtTreeMap.mem_iff_isSome_getElem?.mp member)
    have own : header.msgId = x → ∃ v ∈ s.written.take (s.arrived + 1), UInt32.ofNat v.send = x := by
      intro same
      refine ⟨w, taken ▸ List.mem_append_right _ List.mem_cons_self, ?_⟩
      rw [← carried.numbered, ← same]
      exact (congrArg FragmentHeader.msgId (carried.genuine s.now).header).symm
    rcases accept_entry after with ⟨before, _⟩ | ⟨same, _⟩ | ⟨same, _⟩
    · obtain ⟨v, old, same⟩ := received.ids x (by rw [ExtTreeMap.mem_iff_isSome_getElem?, before]; rfl)
      exact ⟨v, taken ▸ List.mem_append_left _ old, same⟩
    · exact own same
    · exact own same
  case began_of =>
    intro v member
    rw [taken] at member
    rcases List.mem_append.mp member with old | now
    · obtain ⟨start, started, before⟩ := received.began_of v old
      exact ⟨start, kept v.send start started, before⟩
    · obtain rfl := List.mem_singleton.mp now
      refine ⟨_, began_w, ?_⟩
      cases before : began v.send with
      | none => exact le_rfl
      | some start =>
        obtain ⟨u, old, same⟩ := received.of_began v.send start before
        obtain ⟨start', started, earlier⟩ := received.began_of u old
        rw [same, before] at started
        exact Option.some.inj started ▸ earlier
  case of_began =>
    intro k start started
    rw [taken]
    by_cases own : k = w.send
    · exact ⟨w, List.mem_append_right _ List.mem_cons_self, own.symm⟩
    · rw [began_other k own] at started
      obtain ⟨v, old, same⟩ := received.of_began k start started
      exact ⟨v, List.mem_append_left _ old, same⟩
  case current =>
    intro v m start last at_v more started timely
    rw [taken, List.getLast?_concat] at last
    obtain rfl := Option.some.inj last
    obtain rfl := Option.some.inj (at_w.symm.trans at_v)
    rw [began_w] at started
    rw [← Option.some.inj started]
    exact gathered more

/-- A step that only writes leaves the rest of the sending end's history. -/
theorem writeNext (received : Received cfg budget began s) (ordered : Ordered budget limit s) {number : Nat}
    {sending : Sending} {outcome : Except BleError Unit} (started : s.sends[number]? = some sending)
    (written : s.writeNext peer number sending outcome = some s') : Received cfg budget began s' := by
  have finished : ∀ result, Received cfg budget began (s.finish number sending result) := by
    intro result
    refine received.sent ordered rfl rfl rfl rfl (List.prefix_refl _) fun k m before => ?_
    have same : (s.setSend number { sending with result := some result }).message = s.message :=
      message_setSend started rfl
    exact (congrFun same k).trans before
  unfold ChannelPair.writeNext at written
  split at written
  · simp at written
  · split at written
    · cases Option.some.inj written
      exact finished _
    · split at written
      · cases Option.some.inj written
        exact finished _
      · dsimp only at written
        split at written
        · cases Option.some.inj written
          refine received.sent ordered rfl rfl rfl rfl (List.prefix_append _ _) fun k m before => ?_
          have same : (s.setSend number { sending with index := sending.index + 1, result := some (.ok ()) }).message =
              s.message := message_setSend started rfl
          exact (congrFun same k).trans before
        · cases Option.some.inj written
          refine received.sent ordered rfl rfl rfl rfl (List.prefix_append _ _) fun k m before => ?_
          have same : (s.setSend number { sending with index := sending.index + 1 }).message = s.message :=
            message_setSend started rfl
          exact (congrFun same k).trans before

theorem startSend (received : Received cfg budget began s) (ordered : Ordered budget limit s) (payload : Bytes) :
    Received cfg budget began (s.startSend limit budget payload) := by
  unfold ChannelPair.startSend
  split
  · exact received
  · refine received.sent ordered rfl rfl rfl rfl (List.prefix_refl _) fun k m before => ?_
    unfold ChannelPair.message at before ⊢
    dsimp only
    obtain ⟨sending, started, _⟩ := Option.map_eq_some_iff.mp before
    rw [List.getElem?_append_left (List.getElem?_eq_some_iff.mp started).1]
    exact before

theorem step {label : ChannelStep} (received : Received cfg budget began s) (ordered : Ordered budget limit s)
    (most : limit = effectiveMaxMessageLen cfg.maxMessageLen budget)
    (ok : timely cfg.reassemblyTimeout began s label = true)
    (step : ChannelPair.step cfg peer budget s label = some s') :
    Received cfg budget (notice began s label s') s' := by
  unfold ChannelPair.step at step
  cases label with
  | send payload =>
    cases Option.some.inj step
    exact most ▸ received.startSend ordered payload
  | lock number =>
    simp only [Option.bind_eq_some_iff, Option.bind_eq_bind] at step
    obtain ⟨_, _, _, _, done⟩ := step
    cases Option.some.inj done
    exact received.sent ordered rfl rfl rfl rfl (List.prefix_refl _) fun _ _ before => before
  | write outcome =>
    simp only [Option.bind_eq_some_iff, Option.bind_eq_bind] at step
    obtain ⟨number, _, sending, started, done⟩ := step
    exact received.writeNext ordered started done
  | cancel number =>
    simp only [Option.bind_eq_some_iff, Option.bind_eq_bind] at step
    obtain ⟨sending, known, done⟩ := step
    cases Option.some.inj done
    refine received.sent ordered rfl rfl rfl rfl (List.prefix_refl _) fun k m before => ?_
    have same : (s.setSend number { sending with cancelled := true }).message = s.message :=
      message_setSend (Option.filter_eq_some_iff.mp known).1 rfl
    exact (congrFun same k).trans before
  | close =>
    cases Option.some.inj step
    exact received.sent ordered rfl rfl rfl rfl (List.prefix_refl _) fun _ _ before => before
  | deliver =>
    simp only [Option.bind_eq_some_iff, Option.bind_eq_bind] at step
    obtain ⟨next, at_next, done⟩ := step
    cases Option.some.inj done
    refine received.deliver ordered (most ▸ min_le_left _ _) at_next fun start started => ?_
    unfold timely at ok
    dsimp only at ok
    rw [at_next, Option.all_some, started, Option.all_some] at ok
    exact of_decide_eq_true ok
  | tick =>
    cases Option.some.inj step
    exact received.tick
  | elapse time =>
    cases Option.some.inj step
    exact received.elapse time

end Received

/-- The messages completed are those written in full, in the order of the
lock: a part of them while fragments are under way, and then all. -/
theorem run_end_to_end
    (run : (machine cfg peer budget).Run (fun began s label => timely cfg.reassemblyTimeout began s label = true) notice
      (fun _ => none) began s) :
    s.completed <+: s.finished ∧ (s.arrived = s.written.length → s.completed = s.finished) := by
  have both : Ordered budget (effectiveMaxMessageLen cfg.maxMessageLen budget) s ∧ Received cfg budget began s := by
    refine Machine.Run.invariant (P := fun began s =>
      Ordered budget (effectiveMaxMessageLen cfg.maxMessageLen budget) s ∧ Received cfg budget began s) ?_ ?_ run
    · rintro s ⟨now, rfl⟩
      exact ⟨.start _ now, .start now⟩
    · rintro began s label s' _ ⟨ordered, received⟩ ok taken
      refine ⟨ordered.step (fun payload own => ?_) taken, received.step ordered rfl ok taken⟩
      subst own
      exact of_decide_eq_true ok
  obtain ⟨ordered, received⟩ := both
  rw [ordered.finished, received.completed]
  refine ⟨(List.take_prefix _ _).filterMap _, fun all => ?_⟩
  rw [all, List.take_length]

/-- Three sends, of which the second is cancelled after one fragment. -/
def threeSends : List ChannelStep :=
  [.send [1, 2, 3], .send [4, 5, 6], .send [7], .lock 1, .write (.ok ()), .deliver, .cancel 1, .lock 2, .write (.ok ()),
    .elapse 3, .tick, .lock 0, .write (.ok ()), .deliver, .deliver, .write (.ok ()), .deliver]

theorem run_end_to_end_three : ∃ s : ChannelPair, s.arrived = s.written.length ∧ s.completed = s.finished ∧
    s.completed = [[7], [1, 2, 3]] := by
  obtain ⟨_, s, run, kept⟩ := Machine.Run.exists_of_follow
    (machine { service := ⟨0⟩, characteristic := ⟨1⟩, maxConcurrentReassemblies := 1 } ⟨"a"⟩ 2)
    (fun began s label => timely (.ofSecs 30) began s label = true) notice (fun _ => none)
    (fun _ s => decide (s.arrived = s.written.length) && decide (s.completed = [[7], [1, 2, 3]])) ⟨0, rfl⟩ threeSends
    (by decide +kernel)
  simp only [Bool.and_eq_true, decide_eq_true_eq] at kept
  exact ⟨s, kept.1, (run_end_to_end run).2 kept.1, kept.2⟩

end ChannelPair

end BleGatt
