import BleGatt.Iroh.LinkTable

namespace BleGatt.Iroh
open Std

/-! What `learned` knows: the connections of an entry used its address, and
their hooks have not come to where they are taken out. -/

/-- `connection_drained` has not run. -/
def ConnectionPhase.undrained : ConnectionPhase → Bool
  | .over => false
  | _ => true

theorem ConnectionPhase.undrained_of_live {phase : ConnectionPhase} (live : phase.live = true) :
    phase.undrained = true := by
  cases phase <;> first | rfl | simp [ConnectionPhase.live] at live

namespace Transport

variable {s : Transport} {number : Nat} {address : PeerAddress} {entry : Learned}

/-- What a connection joins: the entry, or an empty one. -/
theorem learn_learned (s : Transport) (endpoint : EndpointId) (number : Nat) (address : PeerAddress) :
    ∃ entry : Learned, (s.learn endpoint number address).learned = s.learned.insert address
        { entry with open_ := insert number entry.open_, connections := insert number entry.connections } ∧
      entry.endpoint = endpoint ∧ (entry = { endpoint := endpoint } ∨ s.learned[address]? = some entry) := by
  unfold Transport.learn
  cases there : s.learned[address]? with
  | none => exact ⟨_, rfl, rfl, .inl rfl⟩
  | some entry =>
    dsimp only
    split
    · rename_i same
      exact ⟨entry, rfl, same, .inr rfl⟩
    · exact ⟨_, rfl, rfl, .inl rfl⟩

theorem of_connectionClosing (s : Transport) (there : (s.connectionClosing number).learned[address]? = some entry) :
    ∃ before, s.learned[address]? = some before ∧ entry = { before with open_ := before.open_.erase number } := by
  unfold connectionClosing at there
  rw [ExtTreeMap.getElem?_map] at there
  obtain ⟨before, was, rfl⟩ := Option.map_eq_some_iff.mp there
  exact ⟨before, was, rfl⟩

theorem of_forgetConnection (s : Transport) (there : (s.forgetConnection number).learned[address]? = some entry) :
    ∃ before, s.learned[address]? = some before ∧ entry = if number ∈ before.connections then
      { before with connections := before.connections.erase number, ended := insert number before.ended }
      else before := by
  unfold forgetConnection at there
  rw [ExtTreeMap.getElem?_map] at there
  obtain ⟨before, was, rfl⟩ := Option.map_eq_some_iff.mp there
  exact ⟨before, was, rfl⟩

theorem of_connectionDrained (s : Transport) (there : (s.connectionDrained number).learned[address]? = some entry) :
    ∃ before, s.learned[address]? = some before ∧
      (before.connections ≠ ∅ ∨ before.ended.erase number ≠ ∅ ∨ address ∈ s.links) ∧
        entry = { before with ended := before.ended.erase number } := by
  unfold connectionDrained at there
  rw [ExtTreeMap.getElem?_filterMap'] at there
  obtain ⟨before, was, there⟩ := Option.bind_eq_some_iff.mp there
  simp only [Option.ite_none_right_eq_some, Option.some.injEq] at there
  exact ⟨before, was, there.1, there.2.symm⟩

end Transport

/-- Connection `c` to the endpoint used the address, and is at such a point. -/
def UsedBy (connections : List IrohConnection) (endpoint : EndpointId) (address : PeerAddress)
    (points : ConnectionPhase → Bool) (c : Nat) : Prop :=
  ∃ connection, connections[c]? = some connection ∧ connection.endpoint = endpoint ∧ address ∈ connection.used ∧
    points connection.phase = true

section UsedBy

variable {connections : List IrohConnection} {endpoint : EndpointId} {address : PeerAddress}
  {points : ConnectionPhase → Bool} {c number : Nat} {connection new : IrohConnection}

theorem UsedBy.setConnection (held : UsedBy connections endpoint address points c)
    (here : connections[number]? = some connection) (same : new.endpoint = connection.endpoint)
    (used : ∀ address ∈ connection.used, address ∈ new.used) (kept : c = number → points new.phase = true) :
    UsedBy (connections.set number new) endpoint address points c := by
  obtain ⟨found, there, own, member, point⟩ := held
  by_cases at_ : c = number
  · subst at_
    cases here.symm.trans there
    exact ⟨new, TaskList.getElem?_set_self here, same.trans own, used address member, kept rfl⟩
  · exact ⟨found, by rw [TaskList.getElem?_set here, if_neg at_, there], own, member, point⟩

theorem UsedBy.point (held : UsedBy connections endpoint address points number)
    (here : connections[number]? = some connection) : points connection.phase = true := by
  obtain ⟨found, there, _, _, point⟩ := held
  cases here.symm.trans there
  exact point

/-- The connections of an entry are the ones that used its address. -/
structure Known (connections : List IrohConnection) (address : PeerAddress) (entry : Learned) : Prop where
  live : ∀ c ∈ entry.connections, UsedBy connections entry.endpoint address ConnectionPhase.live c
  ended : ∀ c ∈ entry.ended, UsedBy connections entry.endpoint address ConnectionPhase.undrained c

variable {entry : Learned}

theorem Known.setConnection (held : Known connections address entry) (here : connections[number]? = some connection)
    (same : new.endpoint = connection.endpoint) (used : ∀ address ∈ connection.used, address ∈ new.used)
    (live : number ∈ entry.connections → new.phase.live = true)
    (ended : number ∈ entry.ended → new.phase.undrained = true) :
    Known (connections.set number new) address entry := by
  constructor
  · intro c member
    exact (held.live c member).setConnection here same used fun at_ => live (at_ ▸ member)
  · intro c member
    exact (held.ended c member).setConnection here same used fun at_ => ended (at_ ▸ member)

theorem Known.start (held : Known connections address entry) : Known (connections ++ [new]) address entry := by
  constructor
  · intro c member
    obtain ⟨found, there, rest⟩ := held.live c member
    exact ⟨found, TaskList.getElem?_append_of there _, rest⟩
  · intro c member
    obtain ⟨found, there, rest⟩ := held.ended c member
    exact ⟨found, TaskList.getElem?_append_of there _, rest⟩

theorem Known.blank : Known connections address { endpoint := endpoint } := by
  constructor <;> simp

theorem Known.join (held : Known connections address entry)
    (fresh : UsedBy connections entry.endpoint address ConnectionPhase.live c) :
    Known connections address
      { entry with open_ := insert c entry.open_, connections := insert c entry.connections } := by
  refine ⟨fun other member => ?_, held.ended⟩
  obtain rfl | member := Finset.mem_insert.mp member
  · exact fresh
  · exact held.live other member

theorem Known.leave (held : Known connections address entry) (member : c ∈ entry.connections) :
    Known connections address
      { entry with connections := entry.connections.erase c, ended := insert c entry.ended } := by
  refine ⟨fun other still => held.live other (Finset.mem_of_mem_erase still), fun other gone => ?_⟩
  obtain rfl | gone := Finset.mem_insert.mp gone
  · obtain ⟨found, there, own, used, live⟩ := held.live other member
    exact ⟨found, there, own, used, ConnectionPhase.undrained_of_live live⟩
  · exact held.ended other gone

end UsedBy

/-- Every entry of `learned`. -/
def Knows (learned : PeerMap Learned) (connections : List IrohConnection) : Prop :=
  ∀ (address : PeerAddress) (entry : Learned), learned[address]? = some entry → Known connections address entry

namespace Knows

variable {learned : PeerMap Learned} {connections : List IrohConnection} {number : Nat}
  {connection new : IrohConnection} {address : PeerAddress}

theorem setConnection (held : Knows learned connections) (here : connections[number]? = some connection)
    (same : new.endpoint = connection.endpoint) (used : ∀ address ∈ connection.used, address ∈ new.used)
    (live : connection.phase.live = true → new.phase.live = true)
    (undrained : connection.phase.undrained = true → new.phase.undrained = true) :
    Knows learned (connections.set number new) := by
  intro address entry there
  have known := held address entry there
  exact known.setConnection here same used (fun member => live ((known.live number member).point here))
    fun member => undrained ((known.ended number member).point here)

theorem erase (held : Knows learned connections) (address : PeerAddress) :
    Knows (learned.erase address) connections := by
  intro at_ entry there
  rw [FiniteMap.getElem?_erase] at there
  split at there
  · simp at there
  · exact held at_ entry there

/-- `learn`. -/
theorem learn {s : Transport} (held : Knows s.learned s.connections)
    (here : s.connections[number]? = some connection) (phase : connection.phase = .established) :
    Knows (s.learn connection.endpoint number address).learned
      (s.connections.set number { connection with used := connection.used ++ [address] }) := by
  have wider : Knows s.learned (s.connections.set number { connection with used := connection.used ++ [address] }) :=
    held.setConnection here rfl (fun _ member => List.mem_append_left _ member) id id
  have fresh : UsedBy (s.connections.set number { connection with used := connection.used ++ [address] })
      connection.endpoint address ConnectionPhase.live number := by
    refine ⟨_, TaskList.getElem?_set_self here, rfl, List.mem_append_right _ List.mem_cons_self, ?_⟩
    rw [phase]
    rfl
  obtain ⟨entry, learned, same, from_⟩ := s.learn_learned connection.endpoint number address
  have known : Known (s.connections.set number { connection with used := connection.used ++ [address] })
      address entry := by
    rcases from_ with rfl | there
    · exact .blank
    · exact wider address entry there
  intro at_ found there
  rw [learned, FiniteMap.getElem?_insert] at there
  split at there
  · rename_i at_address
    subst at_address
    cases Option.some.inj there
    exact known.join (same ▸ fresh)
  · exact wider at_ found there

/-- `connection_closing`. -/
theorem closing {s : Transport} (held : Knows s.learned s.connections) (number : Nat) :
    Knows (s.connectionClosing number).learned s.connections := by
  intro address entry there
  obtain ⟨before, was, rfl⟩ := s.of_connectionClosing there
  have known := held address before was
  exact ⟨known.live, known.ended⟩

/-- `forget_connection`. -/
theorem forget {s : Transport} (held : Knows s.learned s.connections) (released : List PeerAddress)
    (here : s.connections[number]? = some connection) :
    Knows (s.forgetConnection number).learned
      (s.connections.set number { connection with phase := .releasing released }) := by
  intro address entry there
  obtain ⟨before, was, rfl⟩ := s.of_forgetConnection there
  have known := held address before was
  split
  · rename_i member
    exact (known.leave member).setConnection here rfl (fun _ member => member)
      (fun still => absurd still (Finset.notMem_erase _ _)) fun _ => rfl
  · rename_i apart
    exact known.setConnection here rfl (fun _ member => member) (fun still => absurd still apart) fun _ => rfl

/-- `connection_drained`. -/
theorem drain {s : Transport} (held : Knows s.learned s.connections)
    (here : s.connections[number]? = some connection) (phase : connection.phase = .draining) :
    Knows (s.connectionDrained number).learned (s.connections.set number { connection with phase := .over }) := by
  intro address entry there
  obtain ⟨before, was, _, rfl⟩ := s.of_connectionDrained there
  have known := held address before was
  have shrunk : Known s.connections address { before with ended := before.ended.erase number } :=
    ⟨known.live, fun c member => known.ended c (Finset.mem_of_mem_erase member)⟩
  refine shrunk.setConnection here rfl (fun _ member => member) (fun member => ?_)
    fun member => absurd member (Finset.notMem_erase _ _)
  -- a live connection is not draining
  have live := (known.live number member).point here
  rw [phase] at live
  simp [ConnectionPhase.live] at live

theorem step {s s' : Transport} {label : TransportStep} (held : Knows s.learned s.connections)
    (registered : Registered s.links s.tasks) (stepped : Transport.Stepped s label s') :
    Knows s'.learned s'.connections := by
  cases stepped with
  | stale after listed here phase => exact absurd phase (registered.not_over listed here)
  | finished =>
    dsimp only
    split
    · exact held.erase _
    · exact held
  | handshaken => exact fun address entry there => (held address entry there).start
  | learnt here phase => exact held.learn here phase
  | marked here phase =>
    exact (held.closing _).setConnection here rfl (fun _ member => member) (fun _ => rfl) fun _ => rfl
  | went phase sent closed closing here early live =>
    exact held.setConnection here rfl (fun _ member => member) (fun _ => live)
      fun _ => ConnectionPhase.undrained_of_live live
  | counted here | drained here | barrierQueued here | linkGone here | answered here =>
    exact held.setConnection here rfl (fun _ member => member) id id
  | found here | lookedUp here | barred here | closeSent here =>
    exact held.setConnection here rfl (fun _ member => member) (fun _ => rfl) fun _ => rfl
  | forgot here => exact held.forget _ here
  | released here phase =>
    refine held.setConnection here rfl (fun _ member => member) (fun live => ?_) fun _ => rfl
    rw [phase] at live
    simp [ConnectionPhase.live] at live
  | forgotten here phase => exact held.drain here phase
  | _ => exact held

theorem of_reach {s : Transport} (reach : Transport.machine.Reach s) : Knows s.learned s.connections := by
  refine Machine.Reach.invariant (P := fun s => Knows s.learned s.connections) ?_ ?_ reach
  · rintro s ⟨dialer, rfl⟩ address entry there
    simp at there
  · intro s label s' previous held step
    exact held.step (Registered.of_reach previous) (Transport.step_cases step)

end Knows

end BleGatt.Iroh
