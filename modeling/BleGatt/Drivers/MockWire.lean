import BleGatt.Drivers.MockClient
import BleGatt.Lib.Framing
import BleGatt.Lib.Machine
import BleGatt.Lib.TaskList

namespace BleGatt

/-! The socket under a broker connection, one way: `writer_loop` puts the frames
of an outbox on it, `reader_loop` takes them off. Bytes arrive in any pieces,
and may stop arriving after any of them. -/

/-- The two ends, and the bytes between. -/
structure Socket where
  /-- All that was queued for the writer. -/
  outbox : List Envelope := []
  /-- How many frames the writer has begun to write, and what it wrote. -/
  begun : Nat := 0
  written : List UInt8 := []
  /-- Of the frame it is at: what is still to be written. -/
  rest : List UInt8 := []
  writerEnded : Bool := false
  /-- What has arrived and was not read yet. -/
  arrived : List UInt8 := []
  /-- How many of the bytes written have arrived. -/
  taken : Nat := 0
  read : List Envelope := []
  readerEnded : Bool := false

inductive SocketInput
  | queue (env : Envelope)
  /-- `write_frame` begins with the next frame. -/
  | write
  /-- Some of its bytes are written. -/
  | flush (count : Nat)
  | writeFailed
  | arrive (count : Nat)
  /-- `read_frame` returns a frame. -/
  | read
  /-- It fails: the stream ends, or what came cannot be decoded. -/
  | readFailed

namespace Socket

variable (wire : Codec Envelope)

def step (s : Socket) : SocketInput → Option Socket
  | .queue env => some { s with outbox := s.outbox ++ [env] }
  | .write => do
    if s.writerEnded ∨ s.rest ≠ [] then none
    else
      let env ← s.outbox[s.begun]?
      match wire.writeFrame env with
      | some frame => some { s with begun := s.begun + 1, rest := frame }
      | none => some { s with writerEnded := true }
  | .flush count =>
    if s.writerEnded then none
    else some { s with written := s.written ++ s.rest.take count, rest := s.rest.drop count }
  | .writeFailed => some { s with writerEnded := true }
  | .arrive count =>
    let more := (s.written.drop s.taken).take count
    some { s with arrived := s.arrived ++ more, taken := s.taken + more.length }
  | .read => do
    if s.readerEnded then none
    else
      let (env, rest) ← wire.readFrame s.arrived
      some { s with read := s.read ++ [env], arrived := rest }
  | .readFailed => some { s with readerEnded := true }

def machine : Machine Socket SocketInput where
  Init s := s = {}
  step := step wire

/-- What the reader has and what is on its way are the frames that were begun. -/
structure Carries (s : Socket) : Prop where
  begun : s.begun ≤ s.outbox.length
  encodes : ∀ env ∈ s.outbox.take s.begun, (wire.writeFrame env).isSome = true
  onWire : s.written ++ s.rest = wire.writeFrames (s.outbox.take s.begun)
  taken : s.taken ≤ s.written.length
  arrived : wire.writeFrames s.read ++ s.arrived = s.written.take s.taken
  inOrder : s.read = s.outbox.take s.read.length ∧ s.read.length ≤ s.begun

variable {wire} {s t : Socket}

namespace Carries

theorem split (carries : Carries wire s) :
    s.outbox.take s.begun = s.read ++ (s.outbox.take s.begun).drop s.read.length := by
  have front : (s.outbox.take s.begun).take s.read.length = s.read := by
    rw [List.take_take, Nat.min_eq_left carries.inOrder.2]
    exact carries.inOrder.1.symm
  exact (List.take_append_drop s.read.length _).symm.trans (by rw [front])

theorem encodes_read (carries : Carries wire s) : ∀ env ∈ s.read, (wire.writeFrame env).isSome = true := by
  intro env member
  refine carries.encodes env ?_
  rw [carries.split]
  exact List.mem_append_left _ member

/-- What has arrived, and was not read, is cut off what follows the frames that
were read. -/
theorem cut (carries : Carries wire s) : s.arrived <+: wire.writeFrames ((s.outbox.take s.begun).drop s.read.length) := by
  have whole : wire.writeFrames (s.outbox.take s.begun) =
      wire.writeFrames s.read ++ wire.writeFrames ((s.outbox.take s.begun).drop s.read.length) :=
    (congrArg wire.writeFrames carries.split).trans (Codec.writeFrames_append carries.encodes_read _)
  have inside : s.written.take s.taken <+: wire.writeFrames (s.outbox.take s.begun) :=
    (List.take_prefix _ _).trans (carries.onWire ▸ List.prefix_append _ _)
  rw [← carries.arrived, whole] at inside
  exact (List.prefix_append_right_inj _).mp inside

theorem step (sound : wire.Sound) (carries : Carries wire s) {input : SocketInput} (stepped : Socket.step wire s input = some t) :
    Carries wire t := by
  obtain ⟨read, bound⟩ := carries.inOrder
  have begun := carries.begun
  cases input with
  | queue env =>
    cases stepped
    have same : ∀ n, n ≤ s.begun → (s.outbox ++ [env]).take n = s.outbox.take n :=
      fun n within => List.take_append_of_le_length (Nat.le_trans within begun)
    refine ⟨?_, ?_, ?_, carries.taken, carries.arrived, read.trans (same _ bound).symm, bound⟩
    · simp only [List.length_append]
      omega
    · simp only [same _ (Nat.le_refl _)]
      exact carries.encodes
    · simp only [same _ (Nat.le_refl _)]
      exact carries.onWire
  | write =>
    obtain ⟨free, stepped⟩ := Option.ite_none_left_eq_some.mp stepped
    obtain ⟨env, next, stepped⟩ := Option.bind_eq_some_iff.mp stepped
    cases wrote : wire.writeFrame env with
    | none =>
      rw [wrote] at stepped
      cases stepped
      exact ⟨begun, carries.encodes, carries.onWire, carries.taken, carries.arrived, read, bound⟩
    | some frame =>
      rw [wrote] at stepped
      cases stepped
      have more : s.outbox.take (s.begun + 1) = s.outbox.take s.begun ++ [env] := by
        rw [List.take_add_one, next]
        rfl
      have empty : s.rest = [] := by
        by_contra some_
        exact free (.inr some_)
      have onWire := carries.onWire
      rw [empty, List.append_nil] at onWire
      refine ⟨TaskList.lt_length next, ?_, ?_, carries.taken, carries.arrived, read, Nat.le_succ_of_le bound⟩
      · intro other member
        rw [more] at member
        rcases List.mem_append.mp member with old | new
        · exact carries.encodes other old
        · rw [List.mem_singleton.mp new, wrote]
          rfl
      · rw [more, Codec.writeFrames_append carries.encodes, Codec.writeFrames_singleton wrote, ← onWire]
  | flush count =>
    obtain ⟨_, ⟨⟩⟩ := Option.ite_none_left_eq_some.mp stepped
    refine ⟨begun, carries.encodes, ?_, ?_, ?_, read, bound⟩
    · rw [List.append_assoc, List.take_append_drop]
      exact carries.onWire
    · have taken := carries.taken
      simp only [List.length_append]
      omega
    · rw [List.take_append_of_le_length carries.taken]
      exact carries.arrived
  | writeFailed =>
    cases stepped
    exact ⟨begun, carries.encodes, carries.onWire, carries.taken, carries.arrived, read, bound⟩
  | arrive count =>
    cases stepped
    have taken := carries.taken
    refine ⟨begun, carries.encodes, carries.onWire, ?_, ?_, read, bound⟩
    · simp only [List.length_take, List.length_drop]
      omega
    · rw [← List.append_assoc, carries.arrived, List.take_add, List.length_take, ← List.take_eq_take_min]
  | read =>
    obtain ⟨_, stepped⟩ := Option.ite_none_left_eq_some.mp stepped
    obtain ⟨⟨env, rest⟩, found, stepped⟩ := Option.bind_eq_some_iff.mp stepped
    cases Option.some.inj stepped
    rcases Codec.readFrame_of_prefix sound carries.cut with ⟨none_, _⟩ | ⟨a, later, frame, behind, next, wrote, arrived, _, got⟩
    · rw [none_] at found
      cases found
    · cases got.symm.trans found
      have place : s.outbox[s.read.length]? = some env ∧ s.read.length < s.begun := by
        have first : ((s.outbox.take s.begun).drop s.read.length)[0]? = some env := by rw [next]; rfl
        rw [List.getElem?_drop, Nat.add_zero, List.getElem?_take] at first
        split at first
        · rename_i before
          exact ⟨first, before⟩
        · cases first
      refine ⟨begun, carries.encodes, carries.onWire, carries.taken, ?_, ?_, ?_⟩
      · rw [Codec.writeFrames_append carries.encodes_read, Codec.writeFrames_singleton wrote, List.append_assoc, ← arrived]
        exact carries.arrived
      · rw [List.length_append, List.length_singleton, List.take_add_one, place.1]
        exact congrArg (· ++ [env]) read
      · rw [List.length_append, List.length_singleton]
        exact place.2
  | readFailed =>
    cases stepped
    exact ⟨begun, carries.encodes, carries.onWire, carries.taken, carries.arrived, read, bound⟩

/-- Of the frames that have arrived in full, none is left once the reader has to
wait. -/
theorem all_read (sound : wire.Sound) (carries : Carries wire s) {k : Nat} (begun : k ≤ s.begun)
    (waits : wire.readFrame s.arrived = none) (whole : (wire.writeFrames (s.outbox.take k)).length ≤ s.taken) :
    k ≤ s.read.length := by
  by_contra more
  have room := carries.begun
  have some_ : s.read.length < ((s.outbox.take s.begun)).length := by
    rw [List.length_take]
    omega
  obtain ⟨env, behind, next⟩ : ∃ env behind, (s.outbox.take s.begun).drop s.read.length = env :: behind :=
    ⟨_, _, List.drop_eq_getElem_cons some_⟩
  have member : env ∈ s.outbox.take s.begun :=
    List.mem_of_mem_drop (next ▸ List.mem_cons_self : env ∈ (s.outbox.take s.begun).drop s.read.length)
  obtain ⟨frame, wrote⟩ := Option.isSome_iff_exists.mp (carries.encodes env member)
  rcases Codec.readFrame_of_prefix sound carries.cut with ⟨_, short⟩ | ⟨_, _, _, _, _, _, _, _, got⟩
  · have cut := short env behind frame next wrote
    have front : s.outbox.take k = s.read ++ env :: behind.take (k - s.read.length - 1) := by
      have same : s.outbox.take k = (s.outbox.take s.begun).take k := by rw [List.take_take, Nat.min_eq_left begun]
      rw [same, carries.split, next, List.take_append, List.take_of_length_le (by omega)]
      obtain ⟨j, eq⟩ : ∃ j, k - s.read.length = j + 1 := ⟨k - s.read.length - 1, by omega⟩
      rw [eq]
      rfl
    have bytes : wire.writeFrames (s.outbox.take k) =
        wire.writeFrames s.read ++ (frame ++ wire.writeFrames (behind.take (k - s.read.length - 1))) := by
      rw [front, Codec.writeFrames_append carries.encodes_read, Codec.writeFrames, wrote]
    have have_ := congrArg List.length carries.arrived
    rw [List.length_append, List.length_take, Nat.min_eq_left carries.taken] at have_
    rw [bytes, List.length_append, List.length_append] at whole
    omega
  · rw [waits] at got
    cases got

end Carries

theorem reach_carries (sound : wire.Sound) (reach : (machine wire).Reach s) : Carries wire s := by
  refine reach.invariant ?_ fun _ _ _ _ carries stepped => carries.step sound stepped
  rintro s rfl
  exact ⟨Nat.le_refl _, nofun, rfl, Nat.le_refl _, rfl, rfl, Nat.le_refl _⟩

/-- However its bytes are cut up, and wherever it breaks, a socket brings the
frames of the outbox in their order, each once and whole. -/
theorem reach_in_order (sound : wire.Sound) (reach : (machine wire).Reach s) : s.read <+: s.outbox ∧
    ∀ k, k ≤ s.begun → wire.readFrame s.arrived = none → (wire.writeFrames (s.outbox.take k)).length ≤ s.taken →
      k ≤ s.read.length := by
  have carries := reach_carries sound reach
  refine ⟨?_, fun k begun waits whole => carries.all_read sound begun waits whole⟩
  rw [carries.inOrder.1]
  exact List.take_prefix _ _

def unitText : List UInt8 :=
  "\x7b\"correlation_id\":5,\"frame\":\x7b\"Resp\":\"Unit\"\x7d\x7d".toList.map fun c => UInt8.ofNat c.toNat

/-- The one envelope of the run below, and its text. -/
def unitOnly : Codec Envelope where
  encode
    | ⟨5, .resp .unit⟩ => some unitText
    | _ => none
  decode bytes := if bytes = unitText then some ⟨5, .resp .unit⟩ else none

theorem unitOnly_sound : unitOnly.Sound := by
  have encoded : ∀ env bytes, unitOnly.encode env = some bytes → env = ⟨5, .resp .unit⟩ ∧ bytes = unitText := by
    intro env bytes is
    simp only [unitOnly] at is
    split at is
    · exact ⟨rfl, (Option.some.inj is).symm⟩
    · cases is
  refine ⟨?_, ?_⟩
  · intro env bytes is
    obtain ⟨rfl, rfl⟩ := encoded env bytes is
    simp only [unitOnly, if_true]
  · intro env bytes is
    obtain ⟨_, rfl⟩ := encoded env bytes is
    decide +kernel

theorem reach_in_order_in_pieces : ∃ s : Socket, s.read <+: s.outbox ∧ s.read.length = 1 ∧ s.arrived = [0, 0] := by
  obtain ⟨s, reach, kept⟩ := Machine.Reach.exists_of_follow (machine unitOnly)
    (fun s => decide (s.read.length = 1) && decide (s.arrived = [0, 0])) rfl
    ([.queue ⟨5, .resp .unit⟩, .queue ⟨5, .resp .unit⟩, .write, .flush 9, .arrive 3, .arrive 6, .flush 99, .arrive 99, .read,
      .write, .flush 2, .arrive 99, .writeFailed]) (by decide +kernel)
  simp only [Bool.and_eq_true, decide_eq_true_eq] at kept
  exact ⟨s, (reach_in_order unitOnly_sound reach).1, kept.1, kept.2⟩

end Socket

end BleGatt
