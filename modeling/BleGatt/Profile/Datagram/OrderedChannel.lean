import BleGatt.Profile.Datagram.RoundTrip
import BleGatt.Profile.Datagram.Serve

namespace BleGatt
open Std

/-! One direction of a channel: the sends of one end, and the reassembly of
the other. -/

/-- What a send that got a message id is to write. -/
structure Message where
  msgId : UInt32
  payload : Bytes
  fragments : List Bytes

/-- A `DatagramSender::send` from its `fetch_add` on. -/
structure Sending where
  message : Message
  /-- How many of the fragments were written. -/
  index : Nat := 0
  result : Option (Except BleError Unit) := none
  /-- Its future was dropped. -/
  cancelled : Bool := false

def Sending.over (sending : Sending) : Bool := sending.result.isSome || sending.cancelled

/-- A fragment the connection took, and which of which send it is. -/
structure Written where
  send : Nat
  index : Nat
  fragment : Bytes

/-- The senders of a channel go by the order in which they got their ids. -/
structure ChannelPair where
  nextMsgId : UInt32
  sends : List Sending
  /-- Who holds the lock on the sink. -/
  holder : Option Nat
  /-- Who got it, in order. -/
  locks : List Nat
  /-- The sink has its connection, or is active. -/
  usable : Bool
  written : List Written
  /-- How many of the fragments written have arrived. -/
  arrived : Nat
  reassembler : Reassembler
  completed : List Bytes
  now : Instant

inductive ChannelStep
  | send (payload : Bytes)
  | lock (number : Nat)
  /-- The send that holds the lock writes its next fragment. -/
  | write (outcome : Except BleError Unit)
  | cancel (number : Nat)
  /-- The channel is closed, or its link lost. -/
  | close
  /-- The next fragment reaches the reassembly. -/
  | deliver
  /-- The reassembly was idle for its `tick`. -/
  | tick
  | elapse (time : Duration)

namespace ChannelPair

def setSend (number : Nat) (sending : Sending) (s : ChannelPair) : ChannelPair :=
  { s with sends := s.sends.set number sending }

/-- `DatagramSender::send` up to its wait for the lock. -/
def startSend (maxMessageLen budget : Nat) (payload : Bytes) (s : ChannelPair) : ChannelPair :=
  if payload.length > maxMessageLen then s
  else
    let msgId := s.nextMsgId
    let sending : Sending := match split msgId payload budget with
      | .error err => { message := ⟨msgId, payload, []⟩, result := some (.error err) }
      | .ok fragments => { message := ⟨msgId, payload, fragments⟩ }
    { s with nextMsgId := msgId + 1, sends := s.sends ++ [sending] }

/-- A send that is over frees the lock. -/
def finish (number : Nat) (sending : Sending) (result : Except BleError Unit) (s : ChannelPair) : ChannelPair :=
  { s.setSend number { sending with result := some result } with holder := none }

/-- `outcome` is what the connection answers to the write. -/
def writeNext (peer : PeerAddress) (number : Nat) (sending : Sending) (outcome : Except BleError Unit)
    (s : ChannelPair) : Option ChannelPair :=
  match sending.message.fragments[sending.index]? with
  | none => none
  | some fragment =>
    if !s.usable then some (s.finish number sending (.error (.notConnected peer.addr)))
    else match outcome with
      | .error err => some (s.finish number sending (.error err))
      | .ok () =>
        let next : Sending := { sending with index := sending.index + 1 }
        let s : ChannelPair := { s with written := s.written ++ [⟨number, sending.index, fragment⟩] }
        if next.index = sending.message.fragments.length then some (s.finish number next (.ok ()))
        else some (s.setSend number next)

/-- What the reassembly hands on of an answer. -/
def messages : Accept → List Bytes
  | .complete message => [message]
  | _ => []

/-- One fragment of the stream of `spawn_reassembly`. -/
def reassemble (fragment : Bytes) (s : ChannelPair) : ChannelPair :=
  match FragmentHeader.parse fragment with
  | none => s
  | some (header, payload) =>
    let accepted := s.reassembler.accept header payload s.now
    { s with reassembler := accepted.2, completed := s.completed ++ messages accepted.1 }

def step (cfg : DatagramConfig) (peer : PeerAddress) (budget : Nat) (s : ChannelPair) : ChannelStep → Option ChannelPair
  | .send payload => some (s.startSend (effectiveMaxMessageLen cfg.maxMessageLen budget) budget payload)
  | .lock number => do
    guard (s.holder = none ∧ number ∉ s.locks)
    let _ ← s.sends[number]?.filter fun sending => !sending.over
    some { s with holder := some number, locks := s.locks ++ [number] }
  | .write outcome => do
    let number ← s.holder
    let sending ← s.sends[number]?
    s.writeNext peer number sending outcome
  | .cancel number => do
    let sending ← s.sends[number]?.filter fun sending => !sending.over
    let s := s.setSend number { sending with cancelled := true }
    some { s with holder := s.holder.filter fun holder => decide (holder ≠ number) }
  | .close => some { s with usable := false }
  | .deliver => do
    let next ← s.written[s.arrived]?
    some ({ s with arrived := s.arrived + 1 }.reassemble next.fragment)
  | .tick => some { s with reassembler := s.reassembler.expire s.now }
  | .elapse time => some { s with now := s.now + time }

def start (limits : ReassemblyLimits) (now : Instant) : ChannelPair :=
  { nextMsgId := 0
    sends := []
    holder := none
    locks := []
    usable := true
    written := []
    arrived := 0
    reassembler := .new limits
    completed := []
    now := now }

/-- Both ends have the limits of `cfg`; the connection carries fragments of
`budget` bytes. -/
def machine (cfg : DatagramConfig) (peer : PeerAddress) (budget : Nat) : Machine ChannelPair ChannelStep where
  Init s := ∃ now, s = start cfg.limits now
  step := step cfg peer budget

/-- The payload of a send that wrote all its fragments. -/
def whole (s : ChannelPair) (number : Nat) : Option Bytes :=
  s.sends[number]?.bind fun sending =>
    if sending.index = sending.message.fragments.length then some sending.message.payload else none

/-- The payloads written in full, in the order of the lock. -/
def finished (s : ChannelPair) : List Bytes := s.locks.filterMap s.whole

/-- What the sends are to write. It only grows. -/
def message (s : ChannelPair) (number : Nat) : Option Message := s.sends[number]?.map Sending.message

/-- The payload of which a fragment is the last. -/
def closing (messages : Nat → Option Message) (w : Written) : Option Bytes :=
  (messages w.send).bind fun message => if w.index + 1 = message.fragments.length then some message.payload else none

/-- The fragments follow each other: each send writes its own in order,
with none of another between. -/
structure Consecutive (written : List Written) : Prop where
  follows : ∀ (j : Nat) w i, written[j]? = some w → w.index = i + 1 →
    ∃ j' v, j = j' + 1 ∧ written[j']? = some v ∧ v.send = w.send ∧ v.index = i
  begins : ∀ (j j' : Nat) w v, written[j]? = some w → w.index = 0 → written[j']? = some v → v.send = w.send → j ≤ j'

/-- The sends take turns. -/
structure Ordered (budget : Nat) (limit : Nat) (s : ChannelPair) : Prop where
  next : s.nextMsgId = UInt32.ofNat s.sends.length
  numbered : ∀ (k : Nat) sending, s.sends[k]? = some sending → sending.message.msgId = UInt32.ofNat k
  few : s.sends.length ≤ 2 ^ 32
  cut : ∀ (k : Nat) sending, s.sends[k]? = some sending → sending.index ≤ sending.message.fragments.length ∧
    sending.message.payload.length ≤ limit ∧ (sending.message.fragments ≠ [] ∧
      split sending.message.msgId sending.message.payload budget = .ok sending.message.fragments ∨
      sending.over = true ∧ sending.message.fragments = [])
  unlocked : ∀ (k : Nat) sending, s.sends[k]? = some sending → k ∉ s.locks → sending.index = 0
  once : s.locks.Nodup
  known : ∀ k ∈ s.locks, k < s.sends.length
  holding : ∀ k, s.holder = some k → ∃ front sending, s.locks = front ++ [k] ∧ s.sends[k]? = some sending ∧
    sending.over = false ∧ sending.index < sending.message.fragments.length ∧
    ∀ i, sending.index = i + 1 → ∃ w, s.written.getLast? = some w ∧ w.send = k ∧ w.index = i
  entries : ∀ w ∈ s.written, ∃ sending, s.sends[w.send]? = some sending ∧
    sending.message.fragments[w.index]? = some w.fragment ∧ w.index < sending.index
  consecutive : Consecutive s.written
  finished : s.finished = s.written.filterMap (closing s.message)

theorem message_eq {s : ChannelPair} {number : Nat} {sending : Sending} (started : s.sends[number]? = some sending) :
    s.message number = some sending.message := by
  rw [message, started]
  rfl

theorem message_setSend {s : ChannelPair} {number : Nat} {sending sending' : Sending}
    (started : s.sends[number]? = some sending) (same : sending'.message = sending.message) :
    (s.setSend number sending').message = s.message := by
  funext k
  unfold message setSend
  dsimp only
  rw [List.getElem?_set]
  split
  · rename_i own
    subst own
    have below : number < s.sends.length := (List.getElem?_eq_some_iff.mp started).1
    rw [if_pos below, started, Option.map_some, Option.map_some, same]
  · rfl

theorem getElem?_setSend {s : ChannelPair} {number k : Nat} {sending sending' : Sending}
    (started : s.sends[number]? = some sending) :
    (s.setSend number sending').sends[k]? = if k = number then some sending' else s.sends[k]? := by
  unfold setSend
  dsimp only
  rw [List.getElem?_set]
  have below : number < s.sends.length := (List.getElem?_eq_some_iff.mp started).1
  by_cases own : k = number
  · rw [if_pos own.symm, if_pos own, if_pos below]
  · rw [if_neg (Ne.symm own), if_neg own]

/-- The payloads in full, with one send changed. -/
theorem whole_setSend {s : ChannelPair} {number : Nat} {sending sending' : Sending}
    (started : s.sends[number]? = some sending) (same : sending'.message = sending.message)
    (index : sending'.index = sending.index) : (s.setSend number sending').whole = s.whole := by
  funext k
  unfold whole
  rw [getElem?_setSend started]
  by_cases own : k = number
  · subst own
    rw [if_pos rfl, started, Option.bind_some, Option.bind_some, same, index]
  · rw [if_neg own]

/-- What a message was split into. -/
theorem split_parts {msgId : UInt32} {payload : Bytes} {budget : Nat} {fragments : List Bytes}
    (made : split msgId payload budget = .ok fragments) : 0 < budget ∧
    (bodies payload budget).length ≤ maxFragments ∧ fragments = (bodies payload budget).mapIdx fun index body =>
      (⟨msgId, UInt16.ofNat index, UInt16.ofNat (bodies payload budget).length⟩ : FragmentHeader).writeTo [] ++ body := by
  unfold split at made
  split at made
  · simp at made
  · rename_i positive
    dsimp only at made
    rw [← length_bodies] at made
    split at made
    · simp at made
    · rename_i few
      exact ⟨Nat.pos_of_ne_zero positive, Nat.le_of_not_lt few, (Except.ok.inj made).symm⟩

theorem split_ne_nil {msgId : UInt32} {payload : Bytes} {budget : Nat} {fragments : List Bytes}
    (made : split msgId payload budget = .ok fragments) : fragments ≠ [] := by
  obtain ⟨positive, _, rfl⟩ := split_parts made
  intro none_left
  have length := congrArg List.length none_left
  rw [List.length_mapIdx, List.length_nil] at length
  exact bodies_ne_nil positive (List.length_eq_zero_iff.mp length)

namespace Consecutive

/-- A first fragment of a send that wrote none, or the next of the last one's send. -/
theorem append {written : List Written} (consecutive : Consecutive written) {w : Written}
    (first : w.index = 0 → ∀ v ∈ written, v.send ≠ w.send)
    (later : ∀ i, w.index = i + 1 → ∃ v, written.getLast? = some v ∧ v.send = w.send ∧ v.index = i) :
    Consecutive (written ++ [w]) where
  follows j u i at_j index := by
    rw [List.getElem?_append] at at_j
    split at at_j
    · obtain ⟨j', v, rfl, before, same, at_i⟩ := consecutive.follows j u i at_j index
      have below : j' < written.length := (List.getElem?_eq_some_iff.mp before).1
      exact ⟨j', v, rfl, (List.getElem?_append_left below).trans before, same, at_i⟩
    · rename_i past
      have last : j - written.length = 0 := by
        have short := (List.getElem?_eq_some_iff.mp at_j).1
        rw [List.length_singleton] at short
        omega
      rw [last] at at_j
      obtain rfl : w = u := Option.some.inj at_j
      obtain ⟨v, before, same, at_i⟩ := later i index
      rw [List.getLast?_eq_getElem?] at before
      have below : written.length - 1 < written.length := (List.getElem?_eq_some_iff.mp before).1
      exact ⟨written.length - 1, v, by omega, (List.getElem?_append_left below).trans before, same, at_i⟩
  begins j j' u v at_j index at_j' same := by
    rw [List.getElem?_append] at at_j at_j'
    split at at_j
    · split at at_j'
      · exact consecutive.begins j j' u v at_j index at_j' same
      · omega
    · rename_i past
      have short := (List.getElem?_eq_some_iff.mp at_j).1
      rw [List.length_singleton] at short
      have last : j - written.length = 0 := by omega
      rw [last] at at_j
      obtain rfl : w = u := Option.some.inj at_j
      split at at_j'
      · exact absurd same (first index v (List.mem_of_getElem? at_j'))
      · omega

end Consecutive

namespace Ordered

variable {budget limit : Nat} {s s' : ChannelPair} {number : Nat} {sending sending' : Sending}

theorem start (limits : ReassemblyLimits) (now : Instant) : Ordered budget limit (start limits now) where
  next := rfl
  numbered _ _ known := by simp [ChannelPair.start] at known
  few := Nat.zero_le _
  cut _ _ known := by simp [ChannelPair.start] at known
  unlocked _ _ known := by simp [ChannelPair.start] at known
  once := List.nodup_nil
  known := fun _ member => by cases member
  holding _ holds := by simp [ChannelPair.start] at holds
  entries := fun _ member => by cases member
  consecutive := ⟨fun _ _ _ known => by simp [ChannelPair.start] at known,
    fun _ _ _ _ known => by simp [ChannelPair.start] at known⟩
  finished := rfl

/-- A step of the other end. -/
theorem of_same (ordered : Ordered budget limit s) (next : s'.nextMsgId = s.nextMsgId) (sends : s'.sends = s.sends)
    (holder : s'.holder = s.holder) (locks : s'.locks = s.locks) (written : s'.written = s.written) :
    Ordered budget limit s' := by
  have whole : s'.whole = s.whole := by
    funext k
    rw [ChannelPair.whole, ChannelPair.whole, sends]
  have message : s'.message = s.message := by
    funext k
    rw [ChannelPair.message, ChannelPair.message, sends]
  constructor
  case next => rw [next, sends]; exact ordered.next
  case numbered => rw [sends]; exact ordered.numbered
  case few => rw [sends]; exact ordered.few
  case cut => rw [sends]; exact ordered.cut
  case unlocked => rw [sends, locks]; exact ordered.unlocked
  case once => rw [locks]; exact ordered.once
  case known => rw [locks, sends]; exact ordered.known
  case holding => rw [holder, locks, sends, written]; exact ordered.holding
  case entries => rw [written, sends]; exact ordered.entries
  case consecutive => rw [written]; exact ordered.consecutive
  case finished => rw [ChannelPair.finished, locks, whole, written, message]; exact ordered.finished

/-- Whoever has the lock has something left to write. -/
theorem locked (ordered : Ordered budget limit s) (free : number ∉ s.locks)
    (started : s.sends[number]? = some sending) (waits : sending.over = false) :
    Ordered budget limit { s with holder := some number, locks := s.locks ++ [number] } := by
  have index : sending.index = 0 := ordered.unlocked number sending started free
  have some_left : sending.index < sending.message.fragments.length := by
    rcases (ordered.cut number sending started).2.2 with ⟨several, _⟩ | ⟨done, _⟩
    · rw [index]
      exact List.length_pos_iff.mpr several
    · rw [waits] at done
      exact absurd done Bool.false_ne_true
  constructor
  case next => exact ordered.next
  case numbered => exact ordered.numbered
  case few => exact ordered.few
  case cut => exact ordered.cut
  case unlocked =>
    intro k other known absent
    exact ordered.unlocked k other known fun member => absent (List.mem_append_left _ member)
  case once =>
    refine List.Nodup.append ordered.once (List.nodup_singleton _) ?_
    intro k member own
    exact free (List.mem_singleton.mp own ▸ member)
  case known =>
    intro k member
    rcases List.mem_append.mp member with before | now
    · exact ordered.known k before
    · exact List.mem_singleton.mp now ▸ (List.getElem?_eq_some_iff.mp started).1
  case holding =>
    intro k holds
    obtain rfl := Option.some.inj holds
    refine ⟨s.locks, sending, rfl, started, waits, some_left, fun i later => ?_⟩
    omega
  case entries => exact ordered.entries
  case consecutive => exact ordered.consecutive
  case finished =>
    have unwritten : s.whole number = none := by
      rw [ChannelPair.whole, started, Option.bind_some, if_neg some_left.ne]
    change (s.locks ++ [number]).filterMap s.whole = _
    rw [List.filterMap_append, List.filterMap_cons_none unwritten, List.filterMap_nil, List.append_nil]
    exact ordered.finished

/-- A send that fails or is cancelled leaves what it wrote. -/
theorem stopped (ordered : Ordered budget limit s) (started : s.sends[number]? = some sending)
    (same : sending'.message = sending.message) (index : sending'.index = sending.index) (done : sending'.over = true)
    {holder : Option Nat} (left : ∀ k, holder = some k → s.holder = some k ∧ k ≠ number) :
    Ordered budget limit { s.setSend number sending' with holder := holder } := by
  have at_k : ∀ k, (s.setSend number sending').sends[k]? = if k = number then some sending' else s.sends[k]? :=
    fun k => getElem?_setSend started
  have whole : (s.setSend number sending').whole = s.whole := whole_setSend started same index
  have message : (s.setSend number sending').message = s.message := message_setSend started same
  have length : (s.setSend number sending').sends.length = s.sends.length := List.length_set
  constructor
  case next => exact ordered.next.trans (congrArg UInt32.ofNat length.symm)
  case numbered =>
    intro k other known
    rw [at_k] at known
    split at known
    · rename_i own
      subst own
      obtain rfl := Option.some.inj known
      rw [same]
      exact ordered.numbered k sending started
    · exact ordered.numbered k other known
  case few => exact length.trans_le ordered.few
  case cut =>
    intro k other known
    rw [at_k] at known
    split at known
    · obtain rfl := Option.some.inj known
      obtain ⟨most, fits, split⟩ := ordered.cut number sending started
      rw [same, index]
      refine ⟨most, fits, ?_⟩
      rcases split with cut | ⟨_, none_left⟩
      · exact .inl cut
      · exact .inr ⟨done, none_left⟩
    · exact ordered.cut k other known
  case unlocked =>
    intro k other known absent
    rw [at_k] at known
    split at known
    · rename_i own
      subst own
      obtain rfl := Option.some.inj known
      rw [index]
      exact ordered.unlocked k sending started absent
    · exact ordered.unlocked k other known absent
  case once => exact ordered.once
  case known => exact fun k member => (ordered.known k member).trans_eq length.symm
  case holding =>
    intro k holds
    obtain ⟨before, other⟩ := left k holds
    obtain ⟨front, known, locks, at_send, rest⟩ := ordered.holding k before
    refine ⟨front, known, locks, ?_, rest⟩
    change (s.setSend number sending').sends[k]? = _
    rw [at_k, if_neg other]
    exact at_send
  case entries =>
    intro w member
    obtain ⟨known, at_send, fragment, below⟩ := ordered.entries w member
    by_cases own : w.send = number
    · refine ⟨sending', by rw [at_k, if_pos own], ?_⟩
      rw [own] at at_send
      obtain rfl := Option.some.inj (started.symm.trans at_send)
      rw [same, index]
      exact ⟨fragment, below⟩
    · exact ⟨known, by rw [at_k, if_neg own]; exact at_send, fragment, below⟩
  case consecutive => exact ordered.consecutive
  case finished =>
    change s.locks.filterMap (s.setSend number sending').whole =
      s.written.filterMap (closing (s.setSend number sending').message)
    rw [whole, message]
    exact ordered.finished

/-- The holder of the lock writes its next fragment. -/
theorem wrote (ordered : Ordered budget limit s) (holds : s.holder = some number)
    (started : s.sends[number]? = some sending) {fragment : Bytes}
    (at_index : sending.message.fragments[sending.index]? = some fragment)
    (same : sending'.message = sending.message) (index : sending'.index = sending.index + 1) (holder : Option Nat)
    (held : ∀ k, holder = some k → k = number ∧ sending'.over = false ∧
      sending'.index < sending.message.fragments.length) :
    Ordered budget limit { s.setSend number sending' with
      holder := holder
      written := s.written ++ [⟨number, sending.index, fragment⟩] } := by
  obtain ⟨front, known, locks, at_send, _, some_left, last⟩ := ordered.holding number holds
  obtain rfl := Option.some.inj (started.symm.trans at_send)
  have apart : number ∉ front := by
    have once := ordered.once
    rw [locks, List.nodup_append] at once
    intro member
    exact once.2.2 number member number List.mem_cons_self rfl
  have at_k : ∀ k, (s.setSend number sending').sends[k]? = if k = number then some sending' else s.sends[k]? :=
    fun k => getElem?_setSend started
  have message : (s.setSend number sending').message = s.message := message_setSend started same
  have length : (s.setSend number sending').sends.length = s.sends.length := List.length_set
  constructor
  case next => exact ordered.next.trans (congrArg UInt32.ofNat length.symm)
  case numbered =>
    intro k other known
    rw [at_k] at known
    split at known
    · rename_i own
      subst own
      obtain rfl := Option.some.inj known
      rw [same]
      exact ordered.numbered k sending started
    · exact ordered.numbered k other known
  case few => exact length.trans_le ordered.few
  case cut =>
    intro k other known
    rw [at_k] at known
    split at known
    · obtain rfl := Option.some.inj known
      obtain ⟨_, fits, split⟩ := ordered.cut number sending started
      rw [same, index]
      refine ⟨some_left, fits, ?_⟩
      rcases split with cut | ⟨_, none_left⟩
      · exact .inl cut
      · rw [none_left] at some_left
        exact absurd some_left (Nat.not_lt_zero _)
    · exact ordered.cut k other known
  case unlocked =>
    intro k other known absent
    rw [at_k, if_neg] at known
    · exact ordered.unlocked k other known absent
    · rintro rfl
      refine absent ?_
      change k ∈ s.locks
      rw [locks]
      exact List.mem_append_right _ List.mem_cons_self
  case once => exact ordered.once
  case known => exact fun k member => (ordered.known k member).trans_eq length.symm
  case holding =>
    intro k holds
    obtain ⟨rfl, waits, more⟩ := held k holds
    refine ⟨front, sending', locks, by rw [at_k, if_pos rfl], waits, same ▸ more, fun i later => ?_⟩
    refine ⟨⟨k, sending.index, fragment⟩, List.getLast?_concat, rfl, ?_⟩
    exact Nat.succ.inj (index.symm.trans later)
  case entries =>
    intro w member
    rcases List.mem_append.mp member with before | now
    · obtain ⟨known, at_send, at_w, below⟩ := ordered.entries w before
      by_cases own : w.send = number
      · refine ⟨sending', by rw [at_k, if_pos own], ?_⟩
        rw [own] at at_send
        obtain rfl := Option.some.inj (started.symm.trans at_send)
        rw [same, index]
        exact ⟨at_w, below.trans (Nat.lt_succ_self _)⟩
      · exact ⟨known, by rw [at_k, if_neg own]; exact at_send, at_w, below⟩
    · obtain rfl := List.mem_singleton.mp now
      refine ⟨sending', by rw [at_k, if_pos rfl], ?_⟩
      rw [same, index]
      exact ⟨at_index, Nat.lt_succ_self _⟩
  case consecutive =>
    refine ordered.consecutive.append (fun first v member own => ?_) fun i later => last i later
    obtain ⟨known, at_send, _, below⟩ := ordered.entries v member
    rw [own] at at_send
    obtain rfl := Option.some.inj (started.symm.trans at_send)
    change sending.index = 0 at first
    omega
  case finished =>
    have others : front.filterMap (s.setSend number sending').whole = front.filterMap s.whole := by
      refine List.filterMap_congr fun k member => ?_
      have other : k ≠ number := fun own => apart (own ▸ member)
      rw [ChannelPair.whole, at_k, if_neg other]
      rfl
    have before : s.whole number = none := by
      rw [ChannelPair.whole, started, Option.bind_some, if_neg some_left.ne]
    have after : (s.setSend number sending').whole number =
        closing s.message { send := number, index := sending.index, fragment := fragment } := by
      rw [ChannelPair.whole, at_k, if_pos rfl, closing, message_eq started, Option.bind_some, Option.bind_some, same,
        index]
    have finished := ordered.finished
    change s.locks.filterMap (s.setSend number sending').whole =
      (s.written ++ [({ send := number, index := sending.index, fragment := fragment } : Written)]).filterMap
        (closing (s.setSend number sending').message)
    rw [ChannelPair.finished, locks, List.filterMap_append, List.filterMap_cons_none before, List.filterMap_nil,
      List.append_nil] at finished
    rw [message, locks, List.filterMap_append, List.filterMap_append, others, finished]
    refine congrArg _ ?_
    rw [List.filterMap_cons, List.filterMap_cons, after]
    rfl

/-- Another send gets an id. -/
theorem started (ordered : Ordered budget limit s) (room : s.sends.length < 2 ^ 32)
    (own : sending.message.msgId = s.nextMsgId) (index : sending.index = 0)
    (fits : sending.message.payload.length ≤ limit)
    (cut : sending.message.fragments ≠ [] ∧
      split sending.message.msgId sending.message.payload budget = .ok sending.message.fragments ∨
      sending.over = true ∧ sending.message.fragments = []) :
    Ordered budget limit { s with nextMsgId := s.nextMsgId + 1, sends := s.sends ++ [sending] } := by
  have at_k : ∀ (k : Nat) other, (s.sends ++ [sending])[k]? = some other →
      s.sends[k]? = some other ∨ k = s.sends.length ∧ other = sending := by
    intro k other known
    rw [List.getElem?_append] at known
    split at known
    · exact .inl known
    · rename_i past
      have short := (List.getElem?_eq_some_iff.mp known).1
      rw [List.length_singleton] at short
      have last : k - s.sends.length = 0 := by omega
      rw [last] at known
      exact .inr ⟨by omega, (Option.some.inj known).symm⟩
  have before : ∀ k < s.sends.length, (s.sends ++ [sending])[k]? = s.sends[k]? := fun k below =>
    List.getElem?_append_left below
  constructor
  case next =>
    change s.nextMsgId + 1 = _
    rw [ordered.next, List.length_append, List.length_singleton, UInt32.ofNat_add]
    rfl
  case numbered =>
    intro k other known
    rcases at_k k other known with old | ⟨rfl, rfl⟩
    · exact ordered.numbered k other old
    · exact own.trans ordered.next
  case few =>
    change (s.sends ++ [sending]).length ≤ _
    rw [List.length_append, List.length_singleton]
    exact room
  case cut =>
    intro k other known
    rcases at_k k other known with old | ⟨_, rfl⟩
    · exact ordered.cut k other old
    · exact ⟨index ▸ Nat.zero_le _, fits, cut⟩
  case unlocked =>
    intro k other known absent
    rcases at_k k other known with old | ⟨_, rfl⟩
    · exact ordered.unlocked k other old absent
    · exact index
  case once => exact ordered.once
  case known =>
    intro k member
    change k < (s.sends ++ [sending]).length
    rw [List.length_append, List.length_singleton]
    exact (ordered.known k member).trans (Nat.lt_succ_self _)
  case holding =>
    intro k holds
    obtain ⟨front, known, locks, at_send, rest⟩ := ordered.holding k holds
    have below : k < s.sends.length := (List.getElem?_eq_some_iff.mp at_send).1
    exact ⟨front, known, locks, (before k below).trans at_send, rest⟩
  case entries =>
    intro w member
    obtain ⟨known, at_send, rest⟩ := ordered.entries w member
    have below : w.send < s.sends.length := (List.getElem?_eq_some_iff.mp at_send).1
    exact ⟨known, (before w.send below).trans at_send, rest⟩
  case consecutive => exact ordered.consecutive
  case finished =>
    have finished := ordered.finished
    unfold ChannelPair.finished at finished
    change s.locks.filterMap _ = s.written.filterMap _
    rw [List.filterMap_congr (g := s.whole), finished]
    · refine List.filterMap_congr fun w member => ?_
      obtain ⟨known, at_send, _⟩ := ordered.entries w member
      have below : w.send < s.sends.length := (List.getElem?_eq_some_iff.mp at_send).1
      rw [closing, closing, ChannelPair.message, ChannelPair.message, before w.send below]
    · intro k member
      rw [ChannelPair.whole, ChannelPair.whole, before k (ordered.known k member)]

theorem startSend (ordered : Ordered budget limit s) (room : s.sends.length < 2 ^ 32) (payload : Bytes) :
    Ordered budget limit (s.startSend limit budget payload) := by
  unfold ChannelPair.startSend
  split
  · exact ordered
  · rename_i fits
    have short : payload.length ≤ limit := Nat.le_of_not_lt fits
    dsimp only
    split
    · exact ordered.started room rfl rfl short (.inr ⟨rfl, rfl⟩)
    · rename_i fragments made
      refine ordered.started room rfl rfl short (.inl ⟨?_, made⟩)
      rintro rfl
      exact split_ne_nil made rfl

theorem finish (ordered : Ordered budget limit s) (started : s.sends[number]? = some sending)
    (result : Except BleError Unit) : Ordered budget limit (s.finish number sending result) := by
  refine ordered.stopped started ?_ ?_ ?_ ?_
  · rfl
  · rfl
  · rfl
  · exact fun _ held => absurd held (by simp)

theorem writeNext (ordered : Ordered budget limit s) {peer : PeerAddress} {outcome : Except BleError Unit}
    (holds : s.holder = some number) (started : s.sends[number]? = some sending)
    (written : s.writeNext peer number sending outcome = some s') : Ordered budget limit s' := by
  unfold ChannelPair.writeNext at written
  split at written
  · simp at written
  · rename_i fragment at_index
    split at written
    · cases Option.some.inj written
      exact ordered.finish started _
    · split at written
      · cases Option.some.inj written
        exact ordered.finish started _
      · obtain ⟨_, known, _, at_send, waits, some_left, _⟩ := ordered.holding number holds
        obtain rfl := Option.some.inj (started.symm.trans at_send)
        dsimp only at written
        split at written
        · cases Option.some.inj written
          refine ordered.wrote holds started at_index ?_ ?_ none ?_
          · rfl
          · rfl
          · exact fun _ held => absurd held (by simp)
        · rename_i more
          cases Option.some.inj written
          refine ordered.wrote holds started at_index ?_ ?_ s.holder ?_
          · rfl
          · rfl
          · intro k own
            exact ⟨Option.some.inj (own.symm.trans holds), waits, Nat.lt_of_le_of_ne some_left more⟩

theorem step {cfg : DatagramConfig} {peer : PeerAddress} {label : ChannelStep}
    (ordered : Ordered budget (effectiveMaxMessageLen cfg.maxMessageLen budget) s)
    (room : ∀ payload, label = .send payload → s.sends.length < 2 ^ 32)
    (step : ChannelPair.step cfg peer budget s label = some s') :
    Ordered budget (effectiveMaxMessageLen cfg.maxMessageLen budget) s' := by
  unfold ChannelPair.step at step
  cases label with
  | send payload =>
    cases Option.some.inj step
    exact ordered.startSend (room payload rfl) payload
  | lock number =>
    simp only [Option.bind_eq_some_iff, Option.bind_eq_bind] at step
    obtain ⟨_, free, sending, known, done⟩ := step
    cases Option.some.inj done
    obtain ⟨started, waits⟩ := Option.filter_eq_some_iff.mp known
    have unlocked : number ∉ s.locks := by
      by_contra member
      simp [member, guard] at free
    exact ordered.locked unlocked started (by simpa using waits)
  | write outcome =>
    simp only [Option.bind_eq_some_iff, Option.bind_eq_bind] at step
    obtain ⟨number, holds, sending, started, done⟩ := step
    exact ordered.writeNext holds started done
  | cancel number =>
    simp only [Option.bind_eq_some_iff, Option.bind_eq_bind] at step
    obtain ⟨sending, known, done⟩ := step
    cases Option.some.inj done
    refine ordered.stopped (Option.filter_eq_some_iff.mp known).1 ?_ ?_ ?_ ?_
    · rfl
    · rfl
    · simp [Sending.over]
    · intro k held
      obtain ⟨before, other⟩ := Option.filter_eq_some_iff.mp held
      exact ⟨before, of_decide_eq_true other⟩
  | close =>
    cases Option.some.inj step
    exact ordered.of_same rfl rfl rfl rfl rfl
  | deliver =>
    simp only [Option.bind_eq_some_iff, Option.bind_eq_bind] at step
    obtain ⟨next, _, done⟩ := step
    cases Option.some.inj done
    unfold reassemble
    split <;> exact ordered.of_same rfl rfl rfl rfl rfl
  | tick =>
    cases Option.some.inj step
    exact ordered.of_same rfl rfl rfl rfl rfl
  | elapse time =>
    cases Option.some.inj step
    exact ordered.of_same rfl rfl rfl rfl rfl

end Ordered

end ChannelPair

end BleGatt
