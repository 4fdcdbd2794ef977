import BleGatt.Profile.Datagram.ServeChannels

namespace BleGatt
open Std

/-! The message ids the channels served to one peer give their messages. -/

section Rank
variable {κ : Type*} [DecidableEq κ]

/-- How many entries before the one at `n` equal it. -/
def rank (l : List κ) (n : Nat) : Nat := (l.take n).countP fun x => decide (l[n]? = some x)

theorem rank_append {l : List κ} {n : Nat} (inside : n < l.length) (x : κ) : rank (l ++ [x]) n = rank l n := by
  rw [rank, rank, List.take_append_of_le_length inside.le, List.getElem?_append_left inside]

theorem rank_length {l : List κ} {x : κ} : rank (l ++ [x]) l.length = l.count x := by
  rw [rank, List.take_left, List.getElem?_concat_length, List.count_eq_countP]
  refine List.countP_congr fun y _ => ?_
  rw [decide_eq_true_eq, Option.some.injEq, beq_iff_eq]
  exact eq_comm

/-- Two entries that are equal and `m - n` apart have ranks apart, by no more. -/
theorem rank_lt {l : List κ} {n m : Nat} (before : n < m) (inside : m < l.length) (same : l[n]? = l[m]?) :
    rank l n < rank l m ∧ rank l m ≤ rank l n + (m - n) := by
  have split : l.take m = l.take n ++ (l.drop n).take (m - n) := by
    rw [← List.take_add, Nat.add_sub_cancel' before.le]
  have here : (l.drop n).take (m - n) ≠ [] := by
    rw [ne_eq, List.take_eq_nil_iff, List.drop_eq_nil_iff]
    omega
  have counted : 0 < ((l.drop n).take (m - n)).countP fun x => decide (l[m]? = some x) := by
    rw [List.countP_pos_iff]
    refine ⟨((l.drop n).take (m - n)).head here, List.head_mem here, decide_eq_true ?_⟩
    rw [← List.head?_eq_some_head here, List.head?_take, if_neg (by omega), List.head?_drop, same]
  have most : ((l.drop n).take (m - n)).countP (fun x => decide (l[m]? = some x)) ≤ m - n :=
    List.countP_le_length.trans (List.length_take_le _ _)
  have ranks : rank l m = rank l n + ((l.drop n).take (m - n)).countP fun x => decide (l[m]? = some x) := by
    rw [rank, split, List.countP_append, rank, same]
  omega

end Rank

namespace Server

/-- What the message ids of a channel depend on. -/
def ident (s : Server) (generation : Nat) : Option (PeerAddress × Option UInt64 × UInt32) :=
  s.channels[generation]?.map fun channel => (channel.peer, channel.session, channel.nextMsgId)

/-- No message id is given, and none that was is touched. -/
structure SameIds (s s' : Server) : Prop where
  nextGeneration : s'.nextGeneration = s.nextGeneration
  sends : s'.sends = s.sends
  notified : s'.notified = s.notified
  idents : s'.ident = s.ident

/-- The ids are among what a step that sends nothing leaves of a channel. -/
theorem ident_eq (s : Server) (generation : Nat) :
    s.ident generation = (s.lasting generation).map fun channel => (channel.peer, channel.session, channel.nextMsgId) := by
  rw [ident, lasting, Option.map_map]
  rfl

theorem SameSends.ids {s s' : Server} (same : SameSends s s') : SameIds s s' where
  nextGeneration := same.nextGeneration
  sends := same.sends
  notified := same.notified
  idents := by
    funext g
    rw [ident_eq, ident_eq, same.lasting]

/-- The fragments a send has left all carry its message id. -/
def Carries (send : Send) : Prop := ∀ fragment ∈ send.rest, ∃ header payload,
  FragmentHeader.parse fragment = some (header, payload) ∧ header.msgId = send.msgId

/-- Everything a step does to message ids. -/
inductive Numbering (s : Server) : Server → Prop
  | same {s'} : SameIds s s' → Numbering s s'
  | opened {s' peer session} : s'.nextGeneration = s.nextGeneration + 1 → s'.sends = s.sends →
      s'.notified = s.notified →
      (∀ g, s'.ident g = if g = s.nextGeneration then some (peer, session, 0) else s.ident g) → Numbering s s'
  | numbered {s' peer session send} : s.ident send.channel = some (peer, session, send.msgId) → Carries send →
      s'.nextGeneration = s.nextGeneration → s'.sends = s.sends ++ [send] → s'.notified = s.notified →
      (∀ g, s'.ident g = if g = send.channel then some (peer, session, send.msgId + 1) else s.ident g) →
      Numbering s s'
  | continued {number} {send send' : Send} : s.sends[number]? = some send → send'.channel = send.channel →
      send'.msgId = send.msgId → send'.rest ⊆ send.rest → Numbering s (s.setSend number send')
  | notified {number} {send send' : Send} {fragment peer session msgId} : s.sends[number]? = some send →
      send'.channel = send.channel → send'.msgId = send.msgId → send'.rest ⊆ send.rest → fragment ∈ send.rest →
      s.ident send.channel = some (peer, session, msgId) →
      Numbering s ({ s with notified := s.notified ++ [(⟨number, peer, session, fragment⟩ : Notified)] }.setSend number send')

theorem carries_of_split {msgId : UInt32} {payload : Bytes} {budget : Nat} {fragments : List Bytes}
    (made : split msgId payload budget = .ok fragments) : ∀ fragment ∈ fragments, ∃ header body,
    FragmentHeader.parse fragment = some (header, body) ∧ header.msgId = msgId := by
  unfold split at made
  split at made
  · simp at made
  · dsimp only at made
    generalize (if payload.isEmpty then 1 else payload.length ⌈/⌉ budget) = total at made
    split at made
    · simp at made
    · obtain rfl := Except.ok.inj made
      intro fragment member
      obtain ⟨index, _, rfl⟩ := List.mem_mapIdx.mp member
      exact ⟨_, _, FragmentHeader.parse_writeTo _ _, rfl⟩

theorem Cut.carries {channel : ServedChannel} {send : Send} (cut : Cut channel send)
    (id : send.msgId = channel.nextMsgId) : Carries send := by
  unfold Carries
  rcases cut with unsent | ⟨payload, _, made⟩
  · rw [unsent]
    simp
  · rw [id]
    exact carries_of_split made

theorem Dealing.numbering {cfg : DatagramConfig} {s s' : Server} {label : ServeStep}
    (dealing : Dealing cfg s label s') : Numbering s s' := by
  cases dealing with
  | same same => exact .same same.ids
  | @opened _ peer session answers next sends notified channels =>
    refine @Numbering.opened _ _ peer session next sends notified fun g => ?_
    rw [ident_eq, ident_eq, channels]
    split <;> rfl
  | @sent _ _ channel send known cut id next sends notified channels =>
    refine @Numbering.numbered _ _ channel.peer channel.session send ?_ (cut.carries id) next sends notified fun g => ?_
    · rw [ident, known, id]
      rfl
    · rw [ident_eq, ident_eq, channels, id]
      split <;> rfl
  | continued started channel id rest => exact .continued started channel id rest
  | @notified _ number channel fragment send send' started same id rest member known =>
    have owner : s.ident send.channel = some (channel.peer, channel.session, channel.nextMsgId) := by
      rw [ident, known]
      rfl
    exact .notified started same id rest member owner

theorem step_numbering {cfg : DatagramConfig} {s s' : Server} {label : ServeStep}
    (step : step cfg s label = some s') : Numbering s s' := (step_dealing step).numbering

/-- The channels of the sends so far, in the order they got their ids. -/
def owners (s : Server) : List Nat := s.sends.map Send.channel

/-- Message ids count the sends of their channel. -/
structure Numbered (s : Server) : Prop where
  opened : ∀ generation, (s.ident generation).isSome → generation < s.nextGeneration
  counters : ∀ generation peer session msgId, s.ident generation = some (peer, session, msgId) →
    msgId = UInt32.ofNat (s.owners.count generation)
  sent : ∀ number send, s.sends[number]? = some send → (s.ident send.channel).isSome ∧
    send.msgId = UInt32.ofNat (rank s.owners number) ∧ Carries send
  notified : ∀ told ∈ s.notified, ∃ send msgId header payload, s.sends[told.send]? = some send ∧
    s.ident send.channel = some (told.peer, told.session, msgId) ∧
    FragmentHeader.parse told.fragment = some (header, payload) ∧ header.msgId = send.msgId

theorem owners_setSend {s : Server} {number : Nat} {send send' : Send} (started : s.sends[number]? = some send)
    (same : send'.channel = send.channel) : (s.setSend number send').owners = s.owners := by
  refine List.ext_getElem? fun n => ?_
  unfold owners setSend
  dsimp only
  rw [List.getElem?_map, List.getElem?_map, List.getElem?_set]
  by_cases here : number = n
  · subst here
    have inside : number < s.sends.length := (List.getElem?_eq_some_iff.mp started).1
    rw [if_pos rfl, if_pos inside, started]
    exact congrArg some same
  · rw [if_neg here]

/-- Going on with a send changes no message id. -/
theorem Numbered.setSend {s : Server} (numbered : Numbered s) {number : Nat} {send send' : Send}
    (started : s.sends[number]? = some send) (channel : send'.channel = send.channel) (msgId : send'.msgId = send.msgId)
    (rest : send'.rest ⊆ send.rest) : Numbered (s.setSend number send') := by
  have owners := owners_setSend started channel
  have lookup : ∀ n, (s.setSend number send').sends[n]? = if n = number then some send' else s.sends[n]? := by
    intro n
    have inside : number < s.sends.length := (List.getElem?_eq_some_iff.mp started).1
    change (s.sends.set number send')[n]? = _
    rw [List.getElem?_set]
    by_cases here : number = n
    · rw [if_pos here, if_pos (here ▸ inside), if_pos here.symm]
    · rw [if_neg here, if_neg fun eq => here eq.symm]
  constructor
  case opened => exact numbered.opened
  case counters =>
    rw [owners]
    exact numbered.counters
  case sent =>
    rw [owners]
    intro n held at_n
    rw [lookup] at at_n
    by_cases here : n = number
    · rw [if_pos here] at at_n
      cases at_n
      subst here
      obtain ⟨known, id, carries⟩ := numbered.sent n send started
      refine ⟨channel ▸ known, msgId.trans id, fun fragment member => ?_⟩
      rw [msgId]
      exact carries fragment (rest member)
    · rw [if_neg here] at at_n
      exact numbered.sent n held at_n
  case notified =>
    intro told member
    obtain ⟨earlier, id, header, payload, at_told, known, parsed, same⟩ := numbered.notified told member
    by_cases here : told.send = number
    · rw [here, started] at at_told
      cases at_told
      refine ⟨send', id, header, payload, ?_, channel ▸ known, parsed, same.trans msgId.symm⟩
      rw [lookup, if_pos here]
    · refine ⟨earlier, id, header, payload, ?_, known, parsed, same⟩
      rw [lookup, if_neg here]
      exact at_told

/-- A new channel sent nothing yet. -/
theorem Numbered.opens {s s' : Server} (numbered : Numbered s) {peer : PeerAddress} {session : Option UInt64}
    (next : s'.nextGeneration = s.nextGeneration + 1) (sends : s'.sends = s.sends) (notified : s'.notified = s.notified)
    (idents : ∀ g, s'.ident g = if g = s.nextGeneration then some (peer, session, 0) else s.ident g) :
    Numbered s' := by
  have owners : s'.owners = s.owners := congrArg (List.map Send.channel) sends
  have fresh : s.ident s.nextGeneration = none := by
    cases at_next : s.ident s.nextGeneration with
    | none => rfl
    | some _ => exact absurd (numbered.opened _ (by rw [at_next]; rfl)) (Nat.lt_irrefl _)
  have older : ∀ {generation}, (s.ident generation).isSome → s'.ident generation = s.ident generation := by
    intro generation known
    rw [idents, if_neg (Nat.ne_of_lt (numbered.opened generation known))]
  constructor
  · intro generation known
    rw [next]
    by_cases new : generation = s.nextGeneration
    · exact new ▸ Nat.lt_succ_self _
    · rw [idents, if_neg new] at known
      exact (numbered.opened generation known).trans (Nat.lt_succ_self _)
  · intro generation peer session msgId known
    rw [owners]
    by_cases new : generation = s.nextGeneration
    · rw [idents, if_pos new] at known
      cases known
      have none_sent : s.owners.count generation = 0 := by
        rw [List.count_eq_zero]
        intro sent
        obtain ⟨send, member, channel⟩ := List.mem_map.mp sent
        obtain ⟨number, at_number⟩ := List.getElem?_of_mem member
        have known := (numbered.sent number send at_number).1
        rw [channel, new, fresh] at known
        exact absurd known (by simp)
      rw [none_sent]
      rfl
    · rw [idents, if_neg new] at known
      exact numbered.counters generation peer session msgId known
  · rw [owners, sends]
    intro number send at_number
    obtain ⟨known, rest⟩ := numbered.sent number send at_number
    exact ⟨by rw [older known]; exact known, rest⟩
  · rw [sends, notified]
    intro told member
    obtain ⟨send, id, header, payload, at_told, known, rest⟩ := numbered.notified told member
    exact ⟨send, id, header, payload, at_told, by rw [older (by rw [known]; rfl), known], rest⟩

/-- A send takes the next id of its channel. -/
theorem Numbered.numbers {s s' : Server} (numbered : Numbered s) {peer : PeerAddress} {session : Option UInt64}
    {send : Send} (before : s.ident send.channel = some (peer, session, send.msgId)) (carries : Carries send)
    (next : s'.nextGeneration = s.nextGeneration) (sends : s'.sends = s.sends ++ [send])
    (notified : s'.notified = s.notified)
    (idents : ∀ g, s'.ident g = if g = send.channel then some (peer, session, send.msgId + 1) else s.ident g) :
    Numbered s' := by
  have owners : s'.owners = s.owners ++ [send.channel] := by
    rw [Server.owners, sends, List.map_append]
    rfl
  have known_before : ∀ {generation}, (s.ident generation).isSome → (s'.ident generation).isSome := by
    intro generation known
    rw [idents]
    split
    · rfl
    · exact known
  constructor
  · intro generation known
    rw [next]
    refine numbered.opened generation ?_
    by_cases own : generation = send.channel
    · rw [own, before]
      rfl
    · rwa [idents, if_neg own] at known
  · intro generation peer' session' msgId known
    rw [owners, List.count_append]
    by_cases own : generation = send.channel
    · rw [idents, if_pos own] at known
      cases known
      rw [own, numbered.counters _ _ _ _ before, List.count_singleton_self, UInt32.ofNat_add]
      rfl
    · rw [idents, if_neg own] at known
      rw [List.count_singleton, if_neg (by simpa using fun same => own same.symm)]
      exact numbered.counters generation peer' session' msgId known
  · intro number held at_number
    rw [owners]
    rw [sends] at at_number
    by_cases old : number < s.sends.length
    · rw [List.getElem?_append_left old] at at_number
      obtain ⟨known, id, rest⟩ := numbered.sent number held at_number
      have inside : number < s.owners.length := by rwa [Server.owners, List.length_map]
      exact ⟨known_before known, by rw [rank_append inside, id], rest⟩
    · have here : number = s.sends.length := by
        have bound := (List.getElem?_eq_some_iff.mp at_number).1
        rw [List.length_append, List.length_singleton] at bound
        omega
      rw [here, List.getElem?_concat_length] at at_number
      cases at_number
      have length : s.owners.length = s.sends.length := List.length_map _
      refine ⟨known_before (by rw [before]; rfl), ?_, carries⟩
      rw [here, ← length, rank_length]
      exact numbered.counters _ _ _ _ before
  · rw [notified, sends]
    intro told member
    obtain ⟨held, id, header, payload, at_told, known, rest⟩ := numbered.notified told member
    have inside := (List.getElem?_eq_some_iff.mp at_told).1
    have still : ∃ id', s'.ident held.channel = some (told.peer, told.session, id') := by
      rw [idents]
      by_cases own : held.channel = send.channel
      · rw [own, before] at known
        cases known
        exact ⟨_, if_pos own⟩
      · exact ⟨id, (if_neg own).trans known⟩
    obtain ⟨id', known'⟩ := still
    exact ⟨held, id', header, payload, by rw [List.getElem?_append_left inside, at_told], known', rest⟩

theorem Numbered.keep {s s' : Server} (numbered : Numbered s) (step : Numbering s s') : Numbered s' := by
  cases step with
  | same same =>
    have owners : s'.owners = s.owners := congrArg (List.map Send.channel) same.sends
    constructor
    · rw [same.idents, same.nextGeneration]
      exact numbered.opened
    · rw [same.idents, owners]
      exact numbered.counters
    · rw [same.idents, owners, same.sends]
      exact numbered.sent
    · rw [same.idents, same.sends, same.notified]
      exact numbered.notified
  | opened next sends notified idents => exact numbered.opens next sends notified idents
  | numbered before carries next sends notified idents =>
    exact numbered.numbers before carries next sends notified idents
  | continued started channel msgId rest => exact numbered.setSend started channel msgId rest
  | @notified number send send' fragment peer session msgId started channel id rest told known =>
    have also : Numbered { s with notified := s.notified ++ [⟨number, peer, session, fragment⟩] } := by
      refine ⟨numbered.opened, numbered.counters, numbered.sent, ?_⟩
      intro other member
      rcases List.mem_append.mp member with old | new
      · exact numbered.notified other old
      · cases List.mem_singleton.mp new
        obtain ⟨header, payload, parsed, same⟩ := (numbered.sent number send started).2.2 fragment told
        exact ⟨send, msgId, header, payload, started, known, parsed, same⟩
    exact also.setSend started channel id rest

theorem reach_numbered {cfg : DatagramConfig} {s : Server} (reach : (machine cfg).Reach s) : Numbered s := by
  induction reach with
  | start first =>
    obtain ⟨_, rfl⟩ := first
    constructor <;> simp [start, ident]
  | next _ step ih => exact ih.keep (step_numbering step)

/-- No two messages notified to one receiver, less than 2^32 sends apart,
carry the same id. -/
def MsgIdsUnique (s : Server) : Prop :=
  ∀ a ∈ s.notified, ∀ b ∈ s.notified, a.peer = b.peer → a.session = b.session →
    a.send ≤ b.send → b.send < a.send + 2 ^ 32 → ∀ headerA payloadA headerB payloadB,
      FragmentHeader.parse a.fragment = some (headerA, payloadA) →
      FragmentHeader.parse b.fragment = some (headerB, payloadB) → headerA.msgId = headerB.msgId → a.send = b.send

/-- No two messages notified to one receiver on different channels, less than
2^32 sends apart, were the same send of their channel, counted modulo 2^32. -/
def OrdinalsApart (s : Server) : Prop :=
  ∀ a ∈ s.notified, ∀ b ∈ s.notified, a.peer = b.peer → a.session = b.session →
    a.send ≤ b.send → b.send < a.send + 2 ^ 32 → s.owners[a.send]? ≠ s.owners[b.send]? →
      rank s.owners a.send % 2 ^ 32 ≠ rank s.owners b.send % 2 ^ 32

instance (s : Server) : Decidable s.OrdinalsApart :=
  inferInstanceAs (Decidable (∀ a ∈ s.notified, ∀ b ∈ s.notified, a.peer = b.peer → a.session = b.session →
    a.send ≤ b.send → b.send < a.send + 2 ^ 32 → s.owners[a.send]? ≠ s.owners[b.send]? →
      rank s.owners a.send % 2 ^ 32 ≠ rank s.owners b.send % 2 ^ 32))

theorem ofNat_eq_iff {a b : Nat} : UInt32.ofNat a = UInt32.ofNat b ↔ a % 2 ^ 32 = b % 2 ^ 32 := by
  rw [← UInt32.toNat_inj, UInt32.toNat_ofNat', UInt32.toNat_ofNat']

/-- The id a notified fragment carries counts the sends of its channel. -/
theorem Numbered.parsed {s : Server} (numbered : Numbered s) {told : Notified} (member : told ∈ s.notified) :
    told.send < s.owners.length ∧ ∃ header payload, FragmentHeader.parse told.fragment = some (header, payload) ∧
      header.msgId = UInt32.ofNat (rank s.owners told.send) := by
  obtain ⟨send, _, header, payload, at_told, _, parsed, same⟩ := numbered.notified told member
  have inside := (List.getElem?_eq_some_iff.mp at_told).1
  refine ⟨by rwa [owners, List.length_map], header, payload, parsed, ?_⟩
  rw [same, (numbered.sent told.send send at_told).2.1]

/-- The channels of one receiver keep its message ids apart exactly as long as
they do not notify the same send of two of them. -/
theorem reach_unique_iff {cfg : DatagramConfig} {s : Server} (reach : (machine cfg).Reach s) :
    s.MsgIdsUnique ↔ s.OrdinalsApart := by
  have numbered := reach_numbered reach
  constructor
  · intro unique a in_a b in_b peer session order window apart same
    obtain ⟨_, header_a, payload_a, parsed_a, id_a⟩ := numbered.parsed in_a
    obtain ⟨_, header_b, payload_b, parsed_b, id_b⟩ := numbered.parsed in_b
    have ids : header_a.msgId = header_b.msgId := by rw [id_a, id_b, ofNat_eq_iff, same]
    have one := unique a in_a b in_b peer session order window _ _ _ _ parsed_a parsed_b ids
    exact apart (by rw [one])
  · intro ordinals a in_a b in_b peer session order window header_a payload_a header_b payload_b at_a at_b ids
    obtain ⟨_, _, _, parsed_a, id_a⟩ := numbered.parsed in_a
    obtain ⟨inside, _, _, parsed_b, id_b⟩ := numbered.parsed in_b
    cases at_a.symm.trans parsed_a
    cases at_b.symm.trans parsed_b
    have same : rank s.owners a.send % 2 ^ 32 = rank s.owners b.send % 2 ^ 32 := by
      rw [← ofNat_eq_iff, ← id_a, ids, id_b]
    by_contra different
    have before : a.send < b.send := Nat.lt_of_le_of_ne order different
    by_cases channel : s.owners[a.send]? = s.owners[b.send]?
    · obtain ⟨more, less⟩ := rank_lt before inside channel
      omega
    · exact ordinals a in_a b in_b peer session order window channel same

/-- The steps of an application that serves one central, which stays
connected, and closes each channel to it before it drops it. -/
def steady (peer : PeerAddress) (session : Option UInt64) (s : Server) : ServeStep → Bool
  | .event (.connected central .peripheral connection) _ => central == peer && connection == session
  | .event (.characteristicWritten central _ _) _ => central == peer
  | .event _ _ => false
  | .drop generation => s.channels[generation]?.all ServedChannel.keepPeer
  | .disconnect _ => false
  | .dropStream => false
  | .closed => false
  | .eventsEnded => false
  | _ => true

/-- A message is sent on the channel of `a`, which is closed and dropped, and
those of `payloads` on the one opened by the next write. -/
def reopened (payloads : List Bytes) : List ServeStep :=
  let a : PeerAddress := ⟨"a"⟩
  [.event (.connected a .peripheral (some 1)) {}, .take, .send 0 [1], .notify 0 (.ok ()), .close 0, .drop 0, .release,
    .event (.connected a .peripheral (some 1)) {}, .take] ++ payloads.map (.send 1)

/-- A message id that was notified to a peer is notified to it again. -/
def reused (s : Server) : Bool :=
  s.notified.any fun a => s.notified.any fun b => a.peer == b.peer && a.session == b.session &&
    decide (a.send < b.send ∧ b.send < a.send + 2 ^ 32) &&
    (FragmentHeader.parse a.fragment).any fun parsedA => (FragmentHeader.parse b.fragment).any fun parsedB =>
      parsedA.1.msgId == parsedB.1.msgId

theorem not_unique_of_reused {s : Server} (twice : s.reused = true) : ¬ s.MsgIdsUnique := by
  intro unique
  obtain ⟨a, in_a, found⟩ := List.any_eq_true.mp twice
  obtain ⟨b, in_b, found⟩ := List.any_eq_true.mp found
  simp only [Bool.and_eq_true, beq_iff_eq, decide_eq_true_eq, Option.any_eq_true] at found
  obtain ⟨⟨⟨peer, session⟩, before, window⟩, parsed_a, at_a, parsed_b, at_b, same⟩ := found
  have one := unique a in_a b in_b peer session before.le window _ _ _ _ at_a at_b same
  exact absurd before (one ▸ Nat.lt_irrefl _)

theorem not_unique : ¬ ∀ (cfg : DatagramConfig) (peer : PeerAddress) (session : Option UInt64) (s : Server),
    (machine cfg).Run (fun _ s step => steady peer session s step = true) (fun _ _ _ _ => ()) () () s →
    s.MsgIdsUnique := by
  intro claim
  obtain ⟨_, s, run, twice⟩ := Machine.Run.exists_of_follow (machine { service := ⟨0⟩, characteristic := ⟨1⟩ })
    (fun _ s step => steady ⟨"a"⟩ (some 1) s step = true) (fun _ _ _ _ => ()) () (fun _ => reused) ⟨rfl, rfl⟩
    (reopened [[2]] ++ [.notify 1 (.ok ())]) (by decide +kernel)
  exact not_unique_of_reused twice (claim _ _ _ s run)

theorem reach_unique_iff_cancelled : ∃ s : Server, s.notified.map Notified.send = [0, 2] ∧
    (machine { service := ⟨0⟩, characteristic := ⟨1⟩ }).Reach s ∧ s.MsgIdsUnique := by
  obtain ⟨s, reach, apart⟩ := Machine.Reach.exists_of_follow (machine { service := ⟨0⟩, characteristic := ⟨1⟩ })
    (fun s => decide (s.notified.map Notified.send = [0, 2]) && decide s.OrdinalsApart) ⟨rfl, rfl⟩
    (reopened [[2], [3]] ++ [.cancel 1, .notify 2 (.ok ())]) (by decide +kernel)
  simp only [Bool.and_eq_true, decide_eq_true_eq] at apart
  exact ⟨s, apart.1, reach, (reach_unique_iff reach).mpr apart.2⟩

end Server

end BleGatt
