import BleGatt.Iroh.Learned

namespace BleGatt.Iroh
open Std

/-! What stands behind a learned address: a link there, or a connection that
used it and has not drained. -/

namespace Transport

/-- A link or a dial has the address, or a connection to the endpoint that
used it has not drained. -/
def Backs (s : Transport) (address : PeerAddress) (entry : Learned) : Prop :=
  (∃ link task, s.links[address]? = some link ∧ s.tasks[link]? = some task ∧ task.address = address ∧
    task.phase ≠ .over) ∨
    ∃ c ∈ entry.connections ∪ entry.ended, ∃ connection, s.connections[c]? = some connection ∧
      connection.endpoint = entry.endpoint ∧ address ∈ connection.used ∧ connection.phase.undrained = true

structure LearnedBacked (s : Transport) : Prop where
  backed : ∀ (address : PeerAddress) (entry : Learned), s.learned[address]? = some entry → s.Backs address entry
  /-- What `close_links` closes. -/
  closes : ∀ (endpoint : EndpointId), ∀ address ∈ s.addressesOf endpoint,
    s.peers[endpoint]? = some address ∨ s.retired[address]? = some endpoint ∨
      ∃ entry, s.learned[address]? = some entry ∧ entry.endpoint = endpoint ∧ s.Backs address entry
  /-- A link that ends starts no yield for an entry's sake. -/
  yields : ∀ (address : PeerAddress), (s.learned[address]?.any fun entry => decide (entry.open_ = ∅)) = true →
    ∃ entry, s.learned[address]? = some entry ∧ s.Backs address entry

/-- A dial that ends without a link leaves no entry that only it had kept. -/
def leavesNoEntry (s : Transport) : TransportStep → Bool
  | .proceed link => s.tasks[link]?.all fun task =>
    !decide (task.phase = .removing ∧ s.links[task.address]? = some link) ||
      s.learned[task.address]?.all fun entry => decide (entry.connections ≠ ∅ ∨ entry.ended ≠ ∅)
  | _ => true

end Transport

/-- An entry that no connection keeps has a link. -/
def Linked (links : PeerMap Nat) (learned : PeerMap Learned) : Prop :=
  ∀ (address : PeerAddress) (entry : Learned), learned[address]? = some entry → entry.connections = ∅ →
    entry.ended = ∅ → links[address]?.isSome = true

namespace Linked

variable {links : PeerMap Nat} {learned : PeerMap Learned} {number : Nat} {address : PeerAddress}

theorem insertLink (held : Linked links learned) (link : Nat) : Linked (links.insert address link) learned := by
  intro at_ entry there empty over_
  rw [FiniteMap.getElem?_insert]
  split
  · rfl
  · exact held at_ entry there empty over_

theorem eraseLink (held : Linked links learned)
    (used : ∀ entry, learned[address]? = some entry → entry.connections = ∅ → entry.ended ≠ ∅) :
    Linked (links.erase address) learned := by
  intro at_ entry there empty over_
  rw [FiniteMap.getElem?_erase]
  split
  · rename_i same
    subst same
    exact absurd over_ (used entry there empty)
  · exact held at_ entry there empty over_

/-- The entry goes with the link. -/
theorem eraseEntry (held : Linked links learned) : Linked (links.erase address) (learned.erase address) := by
  intro at_ entry there empty over_
  rw [FiniteMap.getElem?_erase] at there
  split at there
  · simp at there
  · rename_i other
    rw [FiniteMap.getElem?_erase, if_neg other]
    exact held at_ entry there empty over_

theorem finish (held : Linked links learned) (address : PeerAddress) :
    Linked (links.erase address)
      (if learned[address]?.any fun entry => decide (entry.connections = ∅ ∧ entry.ended = ∅) then learned.erase address
      else learned) := by
  split
  · exact held.eraseEntry
  · rename_i used
    refine held.eraseLink fun entry there empty over_ => ?_
    rw [there, Option.any_some, decide_eq_true_eq] at used
    exact used ⟨empty, over_⟩

theorem step {s s' : Transport} {label : TransportStep} (held : Linked s.links s.learned)
    (registered : Registered s.links s.tasks) (leaves : s.leavesNoEntry label = true)
    (stepped : Transport.Stepped s label s') : Linked s'.links s'.learned := by
  cases stepped with
  | inserted => exact held.insertLink _
  | dialStarted => exact held.insertLink _
  | stale after listed here phase => exact absurd phase (registered.not_over listed here)
  | finished => exact held.finish _
  | @removed link task here phase owner =>
    refine held.eraseLink fun entry there empty over_ => ?_
    unfold Transport.leavesNoEntry at leaves
    dsimp only at leaves
    rw [here, Option.all_some, decide_eq_true ⟨phase, owner⟩, there, Option.all_some, Bool.not_true, Bool.false_or,
      decide_eq_true_eq] at leaves
    exact leaves.elim (absurd empty ·) (absurd over_ ·)
  | @learnt number connection address here phase =>
    intro at_ found there empty
    obtain ⟨entry, learned, _⟩ := s.learn_learned connection.endpoint number address
    change (s.learn connection.endpoint number address).learned[at_]? = some found at there
    rw [learned, FiniteMap.getElem?_insert] at there
    split at there
    · cases Option.some.inj there
      exact absurd empty (Finset.insert_ne_empty _ _)
    · exact held at_ found there empty
  | marked here phase =>
    intro address entry there
    obtain ⟨before, was, rfl⟩ := s.of_connectionClosing there
    exact held address before was
  | forgot here phase =>
    intro address entry there
    obtain ⟨before, was, rfl⟩ := s.of_forgetConnection there
    split
    · intro _ over_
      exact absurd over_ (Finset.insert_ne_empty _ _)
    · exact held address before was
  | forgotten here phase =>
    intro address entry there empty over_
    obtain ⟨before, was, used | used | used, rfl⟩ := s.of_connectionDrained there
    · exact absurd empty used
    · exact absurd over_ used
    · change s.links[address]?.isSome = true
      rwa [← ExtTreeMap.mem_iff_isSome_getElem?]
  | _ => exact held

/-- What keeps an entry is there. -/
theorem backs {s : Transport} (held : Linked s.links s.learned) (reach : Transport.machine.Reach s) {entry : Learned}
    (there : s.learned[address]? = some entry) : s.Backs address entry := by
  have known := Knows.of_reach reach address entry there
  obtain empty | ⟨c, member⟩ := entry.connections.eq_empty_or_nonempty
  · obtain over_ | ⟨c, member⟩ := entry.ended.eq_empty_or_nonempty
    · obtain ⟨link, listed⟩ := Option.isSome_iff_exists.mp (held address entry there empty over_)
      obtain ⟨task, here, own, _⟩ := Registered.of_reach reach address link listed
      exact .inl ⟨link, task, listed, here, own, (Registered.of_reach reach).not_over listed here⟩
    · obtain ⟨connection, found, rest⟩ := known.ended c member
      exact .inr ⟨c, Finset.mem_union_right _ member, connection, found, rest⟩
  · obtain ⟨connection, found, own, used, live⟩ := known.live c member
    exact .inr ⟨c, Finset.mem_union_left _ member, connection, found, own, used, ConnectionPhase.undrained_of_live live⟩

end Linked

namespace Transport

theorem mem_addressesOf {s : Transport} {endpoint : EndpointId} {address : PeerAddress}
    (member : address ∈ s.addressesOf endpoint) :
    s.peers[endpoint]? = some address ∨ s.retired[address]? = some endpoint ∨
      ∃ entry, s.learned[address]? = some entry ∧ entry.endpoint = endpoint := by
  unfold addressesOf at member
  dsimp only at member
  rw [List.mem_append, List.mem_append] at member
  rcases member with (retired | current) | learned
  · obtain ⟨owner, there, same⟩ := FiniteMap.mem_keys_filter.mp retired
    exact .inr (.inl (of_decide_eq_true same ▸ there))
  · exact .inl (Option.mem_toList.mp current)
  · rw [ExtTreeMap.mem_keys, ExtTreeMap.mem_iff_isSome_getElem?, ExtTreeMap.getElem?_filter'] at learned
    obtain ⟨entry, there⟩ := Option.isSome_iff_exists.mp learned
    obtain ⟨there, same⟩ := Option.filter_eq_some_iff.mp there
    exact .inr (.inr ⟨entry, there, (of_decide_eq_true same).1⟩)

section Run

variable {h : Unit} {s : Transport}

theorem run_linked (run : machine.Run (fun _ s label => s.leavesNoEntry label = true) (fun _ _ _ _ => ()) () h s) :
    Linked s.links s.learned := by
  refine Machine.Run.invariant (P := fun _ s => Linked s.links s.learned) ?_ ?_ run
  · rintro s ⟨dialer, rfl⟩ address entry there
    simp at there
  · intro _ s label s' previous held leaves step
    exact held.step (Registered.of_reach previous.reach) leaves (step_cases step)

theorem run_learnedBacked
    (run : machine.Run (fun _ s label => s.leavesNoEntry label = true) (fun _ _ _ _ => ()) () h s) :
    LearnedBacked s := by
  have held := run_linked run
  refine ⟨fun address entry there => held.backs run.reach there, ?_, ?_⟩
  · intro endpoint address member
    rcases mem_addressesOf member with current | retired | ⟨entry, there, same⟩
    · exact .inl current
    · exact .inr (.inl retired)
    · exact .inr (.inr ⟨entry, there, same, held.backs run.reach there⟩)
  · intro address closing
    cases there : s.learned[address]? with
    | none =>
      rw [there] at closing
      simp at closing
    | some entry => exact ⟨entry, rfl, held.backs run.reach there⟩

end Run

/-- A link runs, a connection uses it, and the link drops. -/
def usedAndGone (address : PeerAddress) (endpoint : EndpointId) : List TransportStep :=
  let used : List TransportStep := [.handshake endpoint, .learn 0 address, .endLink 0 .channelEnded]
  linkUp address .central 0 ++ used ++ List.replicate 4 (.proceed 0)

/-- The peer closed the connection, and it drains. -/
def drains : List TransportStep := [.close 0, .hook 0, .reason 0 true, .hook 0, .hook 0, .drain 0, .hook 0]

def dials (address : PeerAddress) : List TransportStep := [.send address [0x40] true, .proceed 1]

def dialFails : List TransportStep := [.dialed 1 false, .proceed 1, .proceed 1]

theorem run_learnedBacked_redialed : ∃ s, LearnedBacked s ∧ s.links[(⟨"AA"⟩ : PeerAddress)]? = none ∧
    (⟨"AA"⟩ : PeerAddress) ∈ s.addressesOf 7 := by
  obtain ⟨_, s, run, ended⟩ := Machine.Run.exists_of_follow machine
    (fun _ s label => s.leavesNoEntry label = true) (fun _ _ _ _ => ()) ()
    (fun _ s => decide (s.links[(⟨"AA"⟩ : PeerAddress)]? = none ∧ (⟨"AA"⟩ : PeerAddress) ∈ s.addressesOf 7))
    ⟨true, rfl⟩ (usedAndGone ⟨"AA"⟩ 7 ++ dials ⟨"AA"⟩ ++ dialFails) (by decide +kernel)
  obtain ⟨gone, member⟩ := of_decide_eq_true ended
  exact ⟨s, run_learnedBacked run, gone, member⟩

/-- The connection drains while a dial is pending, and the dial fails. -/
theorem not_learnedBacked : ¬ ∀ s : Transport, machine.Reach s → LearnedBacked s := by
  intro claim
  obtain ⟨s, reach, ended⟩ := Machine.Reach.exists_of_follow machine
    (fun s => decide (s.links[(⟨"AA"⟩ : PeerAddress)]? = none ∧
      s.learned[(⟨"AA"⟩ : PeerAddress)]? = some { endpoint := 7 }))
    ⟨true, rfl⟩ (usedAndGone ⟨"AA"⟩ 7 ++ dials ⟨"AA"⟩ ++ drains ++ dialFails) (by decide +kernel)
  obtain ⟨gone, there⟩ := of_decide_eq_true ended
  rcases (claim s reach).backed _ _ there with ⟨link, _, listed, _⟩ | ⟨c, member, _⟩
  · rw [gone] at listed
    simp at listed
  · simp at member

end Transport

end BleGatt.Iroh
