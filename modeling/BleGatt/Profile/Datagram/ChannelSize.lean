import BleGatt.Profile.Datagram.OrderedChannel
import BleGatt.Profile.Datagram.ServeChannels

namespace BleGatt
open Std

/-! The sizes of the channels `connect` and `serve` hand out. -/

/-- `DEFAULT_ATT_MTU`. -/
def defaultAttMtu : UInt16 := 23

/-- `ATT_HEADER_LEN`. -/
def attHeaderLen : Nat := 3

/-- `MAX_ATT_ATTRIBUTE_LEN`. -/
def maxAttAttributeLen : Nat := 512

/-- `GattConnection::max_write_len`. -/
def maxWriteLen (attMtu : UInt16) : Nat := min (attMtu.toNat - attHeaderLen) maxAttAttributeLen

/-- `usize::checked_sub`, or a subtraction that panics. -/
def usizeSub (a b : Nat) : Option Nat := if b ≤ a then some (a - b) else none

/-- A sum of `usize`. `none` is its panic. -/
def usizeAdd (a b : Nat) : Option Nat := if a + b < 2 ^ 64 then some (a + b) else none

/-- `as u16`, of a number it does not change. -/
def toU16 (n : Nat) : Option UInt16 := if n < 2 ^ 16 then some (UInt16.ofNat n) else none

/-- `usize::div_ceil`. `none` is its panic. -/
def divCeil (a b : Nat) : Option Nat := if b = 0 then none else some (a ⌈/⌉ b)

/-- What `connect_driver` reads of a connection once it subscribed. -/
structure GattConnection where
  session : Option UInt64
  attMtu : UInt16

/-- A `DatagramChannel` of the central role. -/
structure ConnectedChannel where
  peer : PeerAddress
  characteristic : CharacteristicUuid
  session : Option UInt64
  maxMessageLen : Nat
  fragmentBudget : Nat

def connectionBudget (connection : GattConnection) : Except BleError Nat :=
  match (usizeSub (maxWriteLen connection.attMtu) fragmentHeaderLen).filter (0 < ·) with
  | some budget => .ok budget
  | none =>
    .error (.gatt s!"negotiated MTU leaves no room for payload after the {fragmentHeaderLen}-byte fragment header")

/-- `connect_driver`: what the driver answers to the dial, and the connection
to the subscription. -/
def connectDriver (cfg : DatagramConfig) (peer : PeerAddress) (connected : Except BleError GattConnection)
    (subscribed : Except BleError Unit) : Except BleError ConnectedChannel := do
  cfg.validate
  let connection ← connected
  subscribed
  let budget ← connectionBudget connection
  .ok
    { peer := peer
      characteristic := cfg.characteristic
      session := connection.session
      maxMessageLen := effectiveMaxMessageLen cfg.maxMessageLen budget
      fragmentBudget := budget }

/-- The fragment budget of a served peer, with its subtractions. -/
def peripheralBudgetChecked (notifyMaxLen : Option Nat) : Option Nat := do
  let payload ← usizeSub defaultAttMtu.toNat attHeaderLen
  let default ← usizeSub payload fragmentHeaderLen
  some (((notifyMaxLen.bind fun len => usizeSub len fragmentHeaderLen).filter (0 < ·)).getD default)

/-- What a notification to a served peer can carry: what its driver reported,
or what the smallest ATT MTU leaves where that holds no payload. -/
def notifyLimit (notifyMaxLen : Option Nat) : Nat :=
  (notifyMaxLen.filter (fragmentHeaderLen < ·)).getD (defaultAttMtu.toNat - attHeaderLen)

def fragmentCount (payload : Bytes) (maxFragmentPayload : Nat) : Option Nat :=
  if payload.isEmpty then some 1 else divCeil payload.length maxFragmentPayload

/-- One fragment of `split`, with its capacity and its casts. -/
def fragmentChecked (msgId : UInt32) (total : Nat) (entry : Bytes × Nat) : Option Bytes := do
  let _ ← usizeAdd fragmentHeaderLen entry.1.length
  let index ← toU16 entry.2
  let total ← toU16 total
  some (({ msgId := msgId, index := index, total := total } : FragmentHeader).writeTo [] ++ entry.1)

/-- `split`, with its arithmetic. `none` is a panic, or a cast that changes
what it casts. -/
def splitChecked (msgId : UInt32) (payload : Bytes) (maxFragmentPayload : Nat) :
    Option (Except BleError (List Bytes)) :=
  if maxFragmentPayload = 0 then
    some (.error (.gatt "fragment payload budget is zero — negotiated MTU is too small to carry data"))
  else do
    let total ← fragmentCount payload maxFragmentPayload
    if total > maxFragments then
      some (.error (.gatt s!"message needs {total} fragments, exceeding the {maxFragments}-fragment limit"))
    else do
      let fragments ← (bodies payload maxFragmentPayload).zipIdx.mapM (fragmentChecked msgId total)
      some (.ok fragments)

section Split
variable {msgId : UInt32} {payload : Bytes} {budget : Nat}

theorem mapM_of_forall {α β : Type*} {f : α → Option β} {g : α → β} {xs : List α}
    (each : ∀ x ∈ xs, f x = some (g x)) : xs.mapM f = some (xs.map g) := by
  induction xs with
  | nil => rfl
  | cons x xs ih =>
    have first := each x List.mem_cons_self
    have rest := ih fun y member => each y (List.mem_cons_of_mem x member)
    rw [List.mapM_cons, first, rest]
    rfl

/-- A fragment within what a `usize` counts is made. -/
theorem fragmentChecked_eq {total : Nat} {body : Bytes} {index : Nat} (length : fragmentHeaderLen + body.length < 2 ^ 64)
    (index_lt : index < 2 ^ 16) (total_lt : total < 2 ^ 16) : fragmentChecked msgId total (body, index) =
      some ((⟨msgId, UInt16.ofNat index, UInt16.ofNat total⟩ : FragmentHeader).writeTo [] ++ body) := by
  have capacity : usizeAdd fragmentHeaderLen body.length = some (fragmentHeaderLen + body.length) := if_pos length
  have index_cast : toU16 index = some (UInt16.ofNat index) := if_pos index_lt
  have total_cast : toU16 total = some (UInt16.ofNat total) := if_pos total_lt
  rw [fragmentChecked]
  dsimp only
  rw [capacity, index_cast, total_cast]
  rfl

/-- Nothing overflows where a fragment of the largest size is one of a
`usize`, and `split` is what it is without the checks. -/
theorem splitChecked_eq (msgId : UInt32) (payload : Bytes) (small : fragmentHeaderLen + budget < 2 ^ 64) :
    splitChecked msgId payload budget = some (split msgId payload budget) := by
  unfold splitChecked split
  by_cases empty : budget = 0
  · rw [if_pos empty, if_pos empty]
  · have total : fragmentCount payload budget = some (bodies payload budget).length := by
      have ceil : divCeil payload.length budget = some (payload.length ⌈/⌉ budget) := if_neg empty
      rw [fragmentCount, ceil, length_bodies]
      split <;> rfl
    rw [if_neg empty, if_neg empty, total]
    dsimp only [Option.bind_eq_bind, Option.bind_some]
    rw [← length_bodies]
    by_cases many : (bodies payload budget).length > maxFragments
    · rw [if_pos many, if_pos many]
    · rw [if_neg many, if_neg many]
      have few : (bodies payload budget).length < 2 ^ 16 := by
        unfold maxFragments at many
        omega
      have made := @mapM_of_forall _ _ (fragmentChecked msgId (bodies payload budget).length)
        (fun entry => (⟨msgId, UInt16.ofNat entry.2, UInt16.ofNat (bodies payload budget).length⟩ :
          FragmentHeader).writeTo [] ++ entry.1) (bodies payload budget).zipIdx ?_
      · rw [made, Option.bind_some, List.mapIdx_eq_zipIdx_map]
      · intro entry member
        have body : entry.1 ∈ bodies payload budget := List.fst_mem_of_mem_zipIdx member
        have index : entry.2 < (bodies payload budget).length := by
          have below := List.snd_lt_of_mem_zipIdx member
          omega
        have length := length_le_of_mem_bodies body
        exact fragmentChecked_eq (by omega) (by omega) few

/-- A fragment is its header and no more than the budget. -/
theorem length_le_of_mem_split {fragments : List Bytes} (made : split msgId payload budget = .ok fragments)
    {fragment : Bytes} (member : fragment ∈ fragments) : fragment.length ≤ fragmentHeaderLen + budget := by
  obtain ⟨_, _, rfl⟩ := ChannelPair.split_parts made
  obtain ⟨index, inside, rfl⟩ := List.mem_mapIdx.mp member
  have length : (bodies payload budget)[index].length ≤ budget := length_le_of_mem_bodies (List.getElem_mem inside)
  rw [List.length_append, FragmentHeader.length_writeTo, List.length_nil]
  omega

end Split

/-- A channel of that budget and ceiling: every payload it admits is split,
without an overflow, into fragments that are no longer than `limit`. -/
structure Sized (budget maxMessageLen limit : Nat) : Prop where
  positive : 0 < budget
  accepts : ∀ (msgId : UInt32) (payload : Bytes), payload.length ≤ maxMessageLen → ∃ fragments,
    splitChecked msgId payload budget = some (.ok fragments) ∧ split msgId payload budget = .ok fragments ∧
      fragments.length ≤ maxFragments ∧ ∀ fragment ∈ fragments, fragment.length ≤ limit

/-- The ceiling is lowered to what the fragments can carry. -/
theorem Sized.of_budget {budget limit : Nat} (configured : Nat) (positive : 0 < budget)
    (fits : fragmentHeaderLen + budget ≤ limit) (small : limit < 2 ^ 64) :
    Sized budget (effectiveMaxMessageLen configured budget) limit where
  positive := positive
  accepts msgId payload admitted := by
    have carried : payload.length ≤ budget * maxFragments :=
      (admitted.trans (min_le_right _ _)).trans (min_le_left _ _)
    have made : split msgId payload budget = .ok _ := split_ok positive carried
    refine ⟨_, ?_, made, ?_, fun fragment member => (length_le_of_mem_split made member).trans fits⟩
    · rw [splitChecked_eq msgId payload (fits.trans_lt small), made]
    · rw [List.length_mapIdx]
      exact length_bodies_le positive carried

theorem maxWriteLen_le (attMtu : UInt16) : maxWriteLen attMtu ≤ 512 := min_le_right _ _

/-- What is left of a write after the header is what it holds without it. -/
theorem connectionBudget_ok {connection : GattConnection} {budget : Nat}
    (made : connectionBudget connection = .ok budget) :
    0 < budget ∧ fragmentHeaderLen + budget = maxWriteLen connection.attMtu := by
  unfold connectionBudget at made
  split at made
  · rename_i left found
    cases Except.ok.inj made
    obtain ⟨subtracted, positive⟩ := Option.filter_eq_some_iff.mp found
    obtain ⟨fits, ⟨⟩⟩ := Option.ite_none_right_eq_some.mp subtracted
    exact ⟨of_decide_eq_true positive, Nat.add_sub_cancel' fits⟩
  · simp at made

theorem connectDriver_sized {cfg : DatagramConfig} {peer : PeerAddress} {connected : Except BleError GattConnection}
    {subscribed : Except BleError Unit} {channel : ConnectedChannel}
    (made : connectDriver cfg peer connected subscribed = .ok channel) : ∃ connection, connected = .ok connection ∧
      fragmentHeaderLen + channel.fragmentBudget = maxWriteLen connection.attMtu ∧
      Sized channel.fragmentBudget channel.maxMessageLen (maxWriteLen connection.attMtu) := by
  unfold connectDriver at made
  cases valid : cfg.validate with
  | error err => simp [valid, bind, Except.bind] at made
  | ok =>
    cases connected with
    | error err => simp [valid, bind, Except.bind] at made
    | ok connection =>
      cases subscribed with
      | error err => simp [valid, bind, Except.bind] at made
      | ok =>
        cases budgeted : connectionBudget connection with
        | error err => simp [valid, bind, Except.bind, budgeted] at made
        | ok budget =>
          simp only [valid, bind, Except.bind, budgeted] at made
          cases Except.ok.inj made
          obtain ⟨positive, fits⟩ := connectionBudget_ok budgeted
          have small := maxWriteLen_le connection.attMtu
          exact ⟨connection, rfl, fits, .of_budget _ positive fits.le (by omega)⟩

theorem peripheralBudget_limit (notifyMaxLen : Option Nat) : 0 < peripheralBudget notifyMaxLen ∧
    fragmentHeaderLen + peripheralBudget notifyMaxLen = notifyLimit notifyMaxLen := by
  unfold peripheralBudget notifyLimit fragmentHeaderLen
  cases notifyMaxLen with
  | none => decide
  | some len =>
    rw [Option.bind_some]
    by_cases usable : 8 < len
    · have left : 0 < len - 8 := by omega
      rw [if_pos usable.le, Option.filter_some, if_pos (decide_eq_true left), Option.filter_some,
        if_pos (decide_eq_true usable), Option.getD_some, Option.getD_some]
      omega
    · have room : (if 8 ≤ len then some (len - 8) else none).filter (0 < ·) = none := by
        split
        · have nothing : ¬ 0 < len - 8 := by omega
          rw [Option.filter_some, if_neg (by simpa using nothing)]
        · rfl
      rw [room, Option.filter_some, if_neg (by simpa using usable)]
      decide

/-- The default is computed without an underflow. -/
theorem peripheralBudgetChecked_eq (notifyMaxLen : Option Nat) :
    peripheralBudgetChecked notifyMaxLen = some (peripheralBudget notifyMaxLen) := rfl

theorem notifyLimit_lt {notifyMaxLen : Option Nat} (small : ∀ len, notifyMaxLen = some len → len < 2 ^ 64) :
    notifyLimit notifyMaxLen < 2 ^ 64 := by
  unfold notifyLimit
  cases notifyMaxLen with
  | none => decide
  | some len =>
    have below := small len rfl
    rw [Option.filter_some]
    split
    · exact below
    · decide

namespace ChannelPair

/-- Nothing that is written, or is to be, is longer than `limit`. -/
structure Fits (limit : Nat) (s : ChannelPair) : Prop where
  sends : ∀ sending ∈ s.sends, ∀ fragment ∈ sending.message.fragments, fragment.length ≤ limit
  written : ∀ w ∈ s.written, w.fragment.length ≤ limit

namespace Fits

variable {budget limit number : Nat} {s s' : ChannelPair} {sending sending' : Sending}

theorem setSend (fits : Fits limit s) (started : s.sends[number]? = some sending)
    (same : sending'.message = sending.message) : Fits limit (s.setSend number sending') where
  sends := by
    intro other member
    rcases List.mem_or_eq_of_mem_set member with before | rfl
    · exact fits.sends other before
    · rw [same]
      exact fits.sends sending (List.mem_of_getElem? started)
  written := fits.written

theorem startSend (fits : Fits (fragmentHeaderLen + budget) s) (maxMessageLen : Nat) (payload : Bytes) :
    Fits (fragmentHeaderLen + budget) (s.startSend maxMessageLen budget payload) := by
  unfold ChannelPair.startSend
  split
  · exact fits
  · dsimp only
    refine ⟨fun sending member => ?_, fits.written⟩
    rcases List.mem_append.mp member with before | new
    · exact fits.sends sending before
    · rw [List.mem_singleton.mp new]
      split
      · exact fun fragment none_made => absurd none_made List.not_mem_nil
      · rename_i fragments made
        exact fun fragment member => length_le_of_mem_split made member

theorem writeNext (fits : Fits limit s) {peer : PeerAddress} {outcome : Except BleError Unit}
    (started : s.sends[number]? = some sending) (wrote : s.writeNext peer number sending outcome = some s') :
    Fits limit s' := by
  have stopped : ∀ (t : ChannelPair) (sending' : Sending) (result : Except BleError Unit), Fits limit t →
      t.sends = s.sends → sending'.message = sending.message → Fits limit (t.finish number sending' result) := by
    intro t sending' result fits same message
    have set : Fits limit (t.setSend number { sending' with result := some result }) :=
      fits.setSend (same ▸ started) message
    exact ⟨set.sends, set.written⟩
  unfold ChannelPair.writeNext at wrote
  split at wrote
  · simp at wrote
  · rename_i fragment at_index
    split at wrote
    · cases Option.some.inj wrote
      exact stopped s sending _ fits rfl rfl
    · split at wrote
      · cases Option.some.inj wrote
        exact stopped s sending _ fits rfl rfl
      · have more : Fits limit { s with written := s.written ++ [⟨number, sending.index, fragment⟩] } := by
          refine ⟨fits.sends, fun w member => ?_⟩
          rcases List.mem_append.mp member with before | new
          · exact fits.written w before
          · rw [List.mem_singleton.mp new]
            exact fits.sends sending (List.mem_of_getElem? started) fragment (List.mem_of_getElem? at_index)
        dsimp only at wrote
        split at wrote
        · cases Option.some.inj wrote
          exact stopped _ _ _ more rfl rfl
        · cases Option.some.inj wrote
          exact more.setSend started rfl

theorem step {cfg : DatagramConfig} {peer : PeerAddress} {label : ChannelStep}
    (fits : Fits (fragmentHeaderLen + budget) s) (step : ChannelPair.step cfg peer budget s label = some s') :
    Fits (fragmentHeaderLen + budget) s' := by
  unfold ChannelPair.step at step
  cases label with
  | send payload =>
    cases Option.some.inj step
    exact fits.startSend _ payload
  | lock number =>
    simp only [Option.bind_eq_some_iff, Option.bind_eq_bind] at step
    obtain ⟨_, _, sending, _, done⟩ := step
    cases Option.some.inj done
    exact ⟨fits.sends, fits.written⟩
  | write outcome =>
    simp only [Option.bind_eq_some_iff, Option.bind_eq_bind] at step
    obtain ⟨number, _, sending, started, done⟩ := step
    exact fits.writeNext started done
  | cancel number =>
    simp only [Option.bind_eq_some_iff, Option.bind_eq_bind] at step
    obtain ⟨sending, known, done⟩ := step
    cases Option.some.inj done
    have set : Fits (fragmentHeaderLen + budget) (s.setSend number { sending with cancelled := true }) :=
      fits.setSend (Option.filter_eq_some_iff.mp known).1 rfl
    exact ⟨set.sends, set.written⟩
  | close =>
    cases Option.some.inj step
    exact ⟨fits.sends, fits.written⟩
  | deliver =>
    simp only [Option.bind_eq_some_iff, Option.bind_eq_bind] at step
    obtain ⟨next, _, done⟩ := step
    cases Option.some.inj done
    unfold reassemble
    split <;> exact ⟨fits.sends, fits.written⟩
  | tick =>
    cases Option.some.inj step
    exact ⟨fits.sends, fits.written⟩
  | elapse time =>
    cases Option.some.inj step
    exact ⟨fits.sends, fits.written⟩

end Fits

theorem reach_fits {cfg : DatagramConfig} {peer : PeerAddress} {budget : Nat} {s : ChannelPair}
    (reach : (machine cfg peer budget).Reach s) : Fits (fragmentHeaderLen + budget) s := by
  refine reach.invariant (fun s first => ?_) fun s label t _ fits step => fits.step step
  obtain ⟨now, rfl⟩ := first
  exact ⟨fun sending member => absurd member List.not_mem_nil, fun w member => absurd member List.not_mem_nil⟩

end ChannelPair

namespace ServeStep

/-- What the driver answers about the notifications of a central. -/
def report : ServeStep → Option Nat
  | .event _ answers => answers.notifyMaxLen
  | _ => none

/-- `notify_max_len` is a `usize`. -/
def reportsUsize (label : ServeStep) : Bool := label.report.all fun len => decide (len < 2 ^ 64)

end ServeStep

namespace Server

/-- What the channels were sized by, in the order they were made. -/
def reports (h : List (Option Nat)) (s : Server) (label : ServeStep) (t : Server) : List (Option Nat) :=
  if t.nextGeneration = s.nextGeneration then h else h ++ [label.report]

/-- Channels are sized by what was reported when they were made, and what is
sent over them fits that. -/
structure Reported (cfg : DatagramConfig) (h : List (Option Nat)) (s : Server) : Prop where
  counted : h.length = s.nextGeneration
  usize : ∀ report ∈ h, ∀ len, report = some len → len < 2 ^ 64
  sizes : ∀ g channel, s.lasting g = some channel → ∃ report, h[g]? = some report ∧
    channel.fragmentBudget = peripheralBudget report ∧
    channel.maxMessageLen = effectiveMaxMessageLen cfg.maxMessageLen (peripheralBudget report)
  sends : ∀ send ∈ s.sends, ∃ report, h[send.channel]? = some report ∧
    ∀ fragment ∈ send.rest, fragment.length ≤ notifyLimit report
  notified : ∀ told ∈ s.notified, ∃ send report, s.sends[told.send]? = some send ∧ h[send.channel]? = some report ∧
    told.fragment.length ≤ notifyLimit report

namespace Reported

variable {cfg : DatagramConfig} {h : List (Option Nat)} {s s' : Server} {label : ServeStep}

theorem start : Reported cfg [] start where
  counted := rfl
  usize _ member := absurd member List.not_mem_nil
  sizes g channel known := by simp [lasting, Server.start] at known
  sends _ member := absurd member List.not_mem_nil
  notified _ member := absurd member List.not_mem_nil

theorem same (reported : Reported cfg h s) (same : SameSends s s') : Reported cfg h s' where
  counted := by rw [same.nextGeneration, reported.counted]
  usize := reported.usize
  sizes := by
    rw [same.lasting]
    exact reported.sizes
  sends := by
    rw [same.sends]
    exact reported.sends
  notified := by
    rw [same.notified, same.sends]
    exact reported.notified

theorem opened (reported : Reported cfg h s) {peer : PeerAddress} {session : Option UInt64} {report : Option Nat}
    (small : ∀ len, report = some len → len < 2 ^ 64) (next : s'.nextGeneration = s.nextGeneration + 1)
    (sends : s'.sends = s.sends) (notified : s'.notified = s.notified) (channels : ∀ g, s'.lasting g =
      if g = s.nextGeneration then some (newChannel cfg peer session report) else s.lasting g) :
    Reported cfg (h ++ [report]) s' := by
  have older : ∀ {g : Nat} {earlier : Option Nat}, h[g]? = some earlier → (h ++ [report])[g]? = some earlier := by
    intro g earlier known
    rw [List.getElem?_append_left (List.getElem?_eq_some_iff.mp known).1, known]
  constructor
  case counted => rw [List.length_append, List.length_singleton, reported.counted, next]
  case usize =>
    intro other member len eq
    rcases List.mem_append.mp member with before | new
    · exact reported.usize other before len eq
    · exact small len (List.mem_singleton.mp new ▸ eq)
  case sizes =>
    intro g channel known
    rw [channels] at known
    by_cases new : g = s.nextGeneration
    · rw [if_pos new] at known
      cases Option.some.inj known
      refine ⟨report, ?_, rfl, rfl⟩
      rw [new, ← reported.counted, List.getElem?_concat_length]
    · rw [if_neg new] at known
      obtain ⟨earlier, at_g, budget, ceiling⟩ := reported.sizes g channel known
      exact ⟨earlier, older at_g, budget, ceiling⟩
  case sends =>
    rw [sends]
    intro send member
    obtain ⟨earlier, at_send, fits⟩ := reported.sends send member
    exact ⟨earlier, older at_send, fits⟩
  case notified =>
    rw [notified, sends]
    intro told member
    obtain ⟨send, earlier, started, at_send, fits⟩ := reported.notified told member
    exact ⟨send, earlier, started, older at_send, fits⟩

/-- The report a channel was sized by. -/
theorem of_channel (reported : Reported cfg h s) {g : Nat} {channel : ServedChannel}
    (known : s.channels[g]? = some channel) : ∃ report, h[g]? = some report ∧
      channel.fragmentBudget = peripheralBudget report ∧
      channel.maxMessageLen = effectiveMaxMessageLen cfg.maxMessageLen (peripheralBudget report) := by
  have lasts : s.lasting g = some channel.lasting := by
    rw [lasting, known]
    rfl
  exact reported.sizes g channel.lasting lasts

theorem sent (reported : Reported cfg h s) {channel : ServedChannel} {send : Send}
    (known : s.channels[send.channel]? = some channel) (cut : Cut channel send)
    (next : s'.nextGeneration = s.nextGeneration) (sends : s'.sends = s.sends ++ [send])
    (notified : s'.notified = s.notified) (channels : ∀ g, s'.lasting g = if g = send.channel then
      some { channel.lasting with nextMsgId := channel.nextMsgId + 1 } else s.lasting g) : Reported cfg h s' := by
  obtain ⟨report, at_channel, budget, ceiling⟩ := reported.of_channel known
  have fits : ∀ fragment ∈ send.rest, fragment.length ≤ notifyLimit report := by
    intro fragment member
    rcases cut with unsent | ⟨payload, _, made⟩
    · rw [unsent] at member
      exact absurd member List.not_mem_nil
    · rw [← (peripheralBudget_limit report).2, ← budget]
      exact length_le_of_mem_split made member
  constructor
  case counted => rw [next, reported.counted]
  case usize => exact reported.usize
  case sizes =>
    intro g other at_g
    rw [channels] at at_g
    by_cases own : g = send.channel
    · rw [if_pos own] at at_g
      cases Option.some.inj at_g
      exact ⟨report, own ▸ at_channel, budget, ceiling⟩
    · rw [if_neg own] at at_g
      exact reported.sizes g other at_g
  case sends =>
    rw [sends]
    intro other member
    rcases List.mem_append.mp member with before | new
    · exact reported.sends other before
    · rw [List.mem_singleton.mp new]
      exact ⟨report, at_channel, fits⟩
  case notified =>
    rw [notified, sends]
    intro told member
    obtain ⟨other, earlier, started, at_other, within⟩ := reported.notified told member
    refine ⟨other, earlier, ?_, at_other, within⟩
    rw [List.getElem?_append_left (List.getElem?_eq_some_iff.mp started).1, started]

theorem setSend (reported : Reported cfg h s) {number : Nat} {send send' : Send}
    (started : s.sends[number]? = some send) (channel : send'.channel = send.channel) (rest : send'.rest ⊆ send.rest) :
    Reported cfg h (s.setSend number send') where
  counted := reported.counted
  usize := reported.usize
  sizes := reported.sizes
  sends := by
    intro other member
    rcases List.mem_or_eq_of_mem_set member with before | rfl
    · exact reported.sends other before
    · obtain ⟨report, at_send, fits⟩ := reported.sends send (List.mem_of_getElem? started)
      exact ⟨report, channel ▸ at_send, fun fragment member => fits fragment (rest member)⟩
  notified := by
    intro told member
    obtain ⟨other, report, at_told, at_other, fits⟩ := reported.notified told member
    have inside : number < s.sends.length := (List.getElem?_eq_some_iff.mp started).1
    have lookup : (s.setSend number send').sends[told.send]? =
        if number = told.send then some send' else s.sends[told.send]? := by
      change (s.sends.set number send')[told.send]? = _
      rw [List.getElem?_set, if_pos inside]
    by_cases here : number = told.send
    · rw [← here, started] at at_told
      cases Option.some.inj at_told
      exact ⟨send', report, by rw [lookup, if_pos here], channel ▸ at_other, fits⟩
    · exact ⟨other, report, by rw [lookup, if_neg here, at_told], at_other, fits⟩

theorem tell (reported : Reported cfg h s) {number : Nat} {send : Send} {fragment : Bytes}
    (started : s.sends[number]? = some send) (member : fragment ∈ send.rest) (peer : PeerAddress)
    (session : Option UInt64) : Reported cfg h { s with notified := s.notified ++ [⟨number, peer, session, fragment⟩] } where
  counted := reported.counted
  usize := reported.usize
  sizes := reported.sizes
  sends := reported.sends
  notified := by
    intro told there
    rcases List.mem_append.mp there with before | new
    · exact reported.notified told before
    · rw [List.mem_singleton.mp new]
      obtain ⟨report, at_send, fits⟩ := reported.sends send (List.mem_of_getElem? started)
      exact ⟨send, report, started, at_send, fits fragment member⟩

theorem step (reported : Reported cfg h s) (small : label.reportsUsize = true)
    (step : Server.step cfg s label = some s') : Reported cfg (reports h s label s') s' := by
  unfold reports
  cases step_dealing step with
  | same same =>
    rw [if_pos same.nextGeneration]
    exact reported.same same
  | @opened _ peer session answers next sends notified channels =>
    rw [if_neg (by omega)]
    refine reported.opened (fun len told => ?_) next sends notified channels
    have answer : answers.notifyMaxLen = some len := told
    simpa [ServeStep.reportsUsize, ServeStep.report, answer] using small
  | sent known cut _ next sends notified channels =>
    rw [if_pos next]
    exact reported.sent known cut next sends notified channels
  | continued started channel _ rest =>
    show Reported cfg (if s.nextGeneration = s.nextGeneration then h else h ++ [label.report]) _
    rw [if_pos rfl]
    exact reported.setSend started channel rest
  | notified started channel _ rest member _ =>
    show Reported cfg (if s.nextGeneration = s.nextGeneration then h else h ++ [label.report]) _
    rw [if_pos rfl]
    exact (reported.tell started member _ _).setSend started channel rest

end Reported

theorem run_reported {cfg : DatagramConfig} {h : List (Option Nat)} {s : Server}
    (run : (machine cfg).Run (fun _ _ label => label.reportsUsize = true) reports [] h s) : Reported cfg h s := by
  refine run.invariant (fun s first => ?_) fun h s label t _ reported small step => reported.step small step
  rw [first.2]
  exact .start

/-- What `connect` and `serve` hand out carries every message it admits, in
fragments the connection takes. -/
theorem channels_sized :
    (∀ (cfg : DatagramConfig) (peer : PeerAddress) connected subscribed (channel : ConnectedChannel),
      connectDriver cfg peer connected subscribed = .ok channel → ∃ connection, connected = .ok connection ∧
        Sized channel.fragmentBudget channel.maxMessageLen (maxWriteLen connection.attMtu) ∧
        ∀ s : ChannelPair, (ChannelPair.machine cfg peer channel.fragmentBudget).Reach s →
          ∀ w ∈ s.written, w.fragment.length ≤ maxWriteLen connection.attMtu) ∧
    (∀ notifyMaxLen, peripheralBudgetChecked notifyMaxLen = some (peripheralBudget notifyMaxLen)) ∧
    ∀ (cfg : DatagramConfig) (h : List (Option Nat)) (s : Server),
      (machine cfg).Run (fun _ _ label => label.reportsUsize = true) reports [] h s →
        (∀ (g : Nat) (channel : ServedChannel), s.channels[g]? = some channel → ∃ report, h[g]? = some report ∧
          Sized channel.fragmentBudget channel.maxMessageLen (notifyLimit report)) ∧
        ∀ told ∈ s.notified, ∃ send report, s.sends[told.send]? = some send ∧ h[send.channel]? = some report ∧
          told.fragment.length ≤ notifyLimit report := by
  refine ⟨fun cfg peer connected subscribed channel made => ?_, peripheralBudgetChecked_eq, fun cfg h s run => ?_⟩
  · obtain ⟨connection, there, budget, sized⟩ := connectDriver_sized made
    refine ⟨connection, there, sized, fun s reach w member => ?_⟩
    rw [← budget]
    exact (ChannelPair.reach_fits reach).written w member
  · have reported := run_reported run
    refine ⟨fun g channel known => ?_, reported.notified⟩
    obtain ⟨report, at_g, budget, ceiling⟩ := reported.of_channel known
    obtain ⟨positive, fits⟩ := peripheralBudget_limit report
    have small := notifyLimit_lt (reported.usize report (List.mem_of_getElem? at_g))
    refine ⟨report, at_g, ?_⟩
    rw [ceiling, budget]
    exact .of_budget _ positive fits.le small

/-- The smallest MTU of a connection, and a central its driver can notify of 185 bytes. -/
theorem channels_sized_smallest :
    (∃ channel, connectDriver { service := ⟨0⟩, characteristic := ⟨1⟩ } ⟨"a"⟩ (.ok ⟨none, defaultAttMtu⟩) (.ok ()) =
      .ok channel ∧ channel.fragmentBudget = 12 ∧ Sized channel.fragmentBudget channel.maxMessageLen 20) ∧
    ∃ (s : Server) (channel : ServedChannel), s.channels[0]? = some channel ∧ channel.fragmentBudget = 177 ∧
      Sized channel.fragmentBudget channel.maxMessageLen 185 ∧ s.notified.length = 1 ∧
        ∀ told ∈ s.notified, told.fragment.length ≤ 185 := by
  constructor
  · have budget : (connectDriver { service := ⟨0⟩, characteristic := ⟨1⟩ } ⟨"a"⟩ (.ok ⟨none, defaultAttMtu⟩)
        (.ok ())).toOption.map ConnectedChannel.fragmentBudget = some 12 := by decide +kernel
    cases made : connectDriver { service := ⟨0⟩, characteristic := ⟨1⟩ } ⟨"a"⟩ (.ok ⟨none, defaultAttMtu⟩) (.ok ()) with
    | error err =>
      rw [made] at budget
      simp [Except.toOption] at budget
    | ok channel =>
      obtain ⟨connection, there, sized, _⟩ := channels_sized.1 _ _ _ _ _ made
      cases there
      rw [made] at budget
      exact ⟨channel, rfl, Option.some.inj budget, sized⟩
  · obtain ⟨h, s, run, kept⟩ := Machine.Run.exists_of_follow (machine { service := ⟨0⟩, characteristic := ⟨1⟩ })
      (fun _ _ label => label.reportsUsize = true) reports []
      (fun h s => decide (h = [some 185]) && decide (s.sends.map Send.channel = [0]) &&
        decide (s.notified.length = 1) && s.channels[0]?.any fun channel : ServedChannel => decide (channel.fragmentBudget = 177))
      ⟨rfl, rfl⟩
      [.event (.connected ⟨"a"⟩ .peripheral none) { notifyMaxLen := some 185 }, .take, .send 0 [1, 2, 3],
        .notify 0 (.ok ())] (by decide +kernel)
    simp only [Bool.and_eq_true, decide_eq_true_eq, Option.any_eq_true] at kept
    obtain ⟨⟨⟨rfl, _⟩, one⟩, channel, known, budget⟩ := kept
    obtain ⟨sized, told⟩ := channels_sized.2.2 _ _ _ run
    obtain ⟨report, at_zero, fits⟩ := sized 0 channel known
    cases Option.some.inj at_zero
    refine ⟨s, channel, known, budget, fits, one, fun notified member => ?_⟩
    obtain ⟨send, report, _, at_channel, within⟩ := told notified member
    have only : report = some 185 := List.mem_singleton.mp (List.mem_of_getElem? at_channel)
    rw [only] at within
    exact within

end Server

end BleGatt
