import BleGatt.Iroh.LinkTable

namespace BleGatt.Iroh
open Std

/-! The addresses no endpoint has any more, beside the current ones. -/

/-- Some endpoint's address. -/
def Current (peers : ExtTreeMap EndpointId PeerAddress) (address : PeerAddress) : Prop :=
  ∃ endpoint : EndpointId, peers[endpoint]? = some address

theorem any_toList_iff_current {peers : ExtTreeMap EndpointId PeerAddress} {address : PeerAddress} :
    (peers.toList.any fun entry => decide (entry.2 = address)) = true ↔ Current peers address := by
  rw [List.any_eq_true]
  constructor
  · rintro ⟨⟨endpoint, found⟩, member, same⟩
    obtain rfl : found = address := of_decide_eq_true same
    exact ⟨endpoint, ExtTreeMap.mem_toList_iff_getElem?_eq_some.mp member⟩
  · rintro ⟨endpoint, there⟩
    exact ⟨(endpoint, address), ExtTreeMap.mem_toList_iff_getElem?_eq_some.mpr there, decide_eq_true rfl⟩

/-- What `set_peer_address` and `forget_peer` do with the address an endpoint
had. -/
def retireOld (old : Option PeerAddress) (owner : EndpointId) (peers : ExtTreeMap EndpointId PeerAddress)
    (retired : PeerMap EndpointId) : PeerMap EndpointId :=
  match old with
  | some old => if peers.toList.any fun entry => decide (entry.2 = old) then retired else retired.insert old owner
  | none => retired

theorem retireOld_eq_none {old : Option PeerAddress} {owner : EndpointId} {peers : ExtTreeMap EndpointId PeerAddress}
    {retired : PeerMap EndpointId} {address : PeerAddress} :
    (retireOld old owner peers retired)[address]? = none ↔
      retired[address]? = none ∧ (old = some address → Current peers address) := by
  unfold retireOld
  cases old with
  | none => simp
  | some old =>
    dsimp only
    split
    · rename_i used
      refine ⟨fun absent => ⟨absent, ?_⟩, And.left⟩
      rintro ⟨rfl⟩
      exact any_toList_iff_current.mp used
    · rename_i unused
      rw [any_toList_iff_current] at unused
      rw [FiniteMap.getElem?_insert]
      split
      · rename_i same
        subst same
        simp only [reduceCtorEq, forall_const, false_iff, not_and]
        exact fun _ => unused
      · rename_i apart
        refine ⟨fun absent => ⟨absent, ?_⟩, And.left⟩
        rintro ⟨rfl⟩
        exact absurd rfl apart

/-- The addresses that were ever set are the retired ones and the current
ones, and none is both. -/
structure Tracked (ever : List PeerAddress) (peers : ExtTreeMap EndpointId PeerAddress)
    (retired : PeerMap EndpointId) : Prop where
  apart : ∀ address, Current peers address → retired[address]? = none
  known : ∀ address, address ∈ ever ↔ retired[address]? ≠ none ∨ Current peers address

namespace Tracked

variable {ever : List PeerAddress} {peers peers' : ExtTreeMap EndpointId PeerAddress} {retired : PeerMap EndpointId}
  {endpoint : EndpointId} {address : PeerAddress}

/-- An endpoint's address is replaced, or forgotten: its old one is retired
unless another endpoint has it. -/
theorem replace (new : Option PeerAddress) {taken : PeerMap EndpointId} (held : Tracked ever peers retired)
    (after : ∀ other, peers'[other]? = if other = endpoint then new else peers[other]?)
    (free : ∀ address, taken[address]? = none ↔ retired[address]? = none ∨ new = some address) :
    Tracked (new.toList ++ ever) peers' (retireOld peers[endpoint]? endpoint peers' taken) := by
  have stays : ∀ {address}, Current peers' address → new = some address ∨ Current peers address := by
    rintro address ⟨other, there⟩
    rw [after] at there
    split at there
    · exact .inl there
    · exact .inr ⟨other, there⟩
  have newest : ∀ {address}, new = some address → Current peers' address := by
    intro address is
    exact ⟨endpoint, by rw [after, if_pos rfl, is]⟩
  have goes : ∀ {address}, Current peers address → Current peers' address ∨ peers[endpoint]? = some address := by
    rintro address ⟨other, there⟩
    by_cases same : other = endpoint
    · exact .inr (same ▸ there)
    · exact .inl ⟨other, by rw [after, if_neg same, there]⟩
  refine ⟨fun address current => ?_, fun address => ?_⟩
  · refine retireOld_eq_none.mpr ⟨(free address).mpr ?_, fun _ => current⟩
    rcases stays current with is | was
    · exact .inr is
    · exact .inl (held.apart address was)
  · rw [List.mem_append, Option.mem_toList, held.known address, ne_eq, ne_eq, retireOld_eq_none]
    constructor
    · rintro (is | retiredBefore | was)
      · exact .inr (newest is)
      · by_cases current : Current peers' address
        · exact .inr current
        · refine .inl fun absent => ?_
          rcases (free address).mp absent.1 with was | is
          · exact retiredBefore was
          · exact current (newest is)
      · rcases goes was with current | old
        · exact .inr current
        · by_cases current : Current peers' address
          · exact .inr current
          · exact .inl fun absent => current (absent.2 old)
    · rintro (there | current)
      · by_cases is : new = some address
        · exact .inl is
        refine .inr ?_
        by_cases retiredBefore : retired[address]? = none
        · have old : peers[endpoint]? = some address := by
            by_contra other
            exact there ⟨(free address).mpr (.inl retiredBefore), fun old => absurd old other⟩
          exact .inr ⟨endpoint, old⟩
        · exact .inl retiredBefore
      · rcases stays current with is | was
        · exact .inl is
        · exact .inr (.inr was)

theorem set (held : Tracked ever peers retired) :
    Tracked (address :: ever) (peers.insert endpoint address)
      (retireOld peers[endpoint]? endpoint (peers.insert endpoint address) (retired.erase address)) := by
  refine held.replace (some address) (fun other => FiniteMap.getElem?_insert) fun other => ?_
  rw [FiniteMap.getElem?_erase]
  split
  · rename_i same
    simp [same]
  · rename_i apart
    simp [Ne.symm apart]

theorem forget (held : Tracked ever peers retired) :
    Tracked ever (peers.erase endpoint) (retireOld peers[endpoint]? endpoint (peers.erase endpoint) retired) :=
  held.replace none (fun _ => FiniteMap.getElem?_erase) fun _ => by simp

end Tracked

namespace Transport

/-- The addresses `set_peer_address` was called with. -/
def noteSet (ever : List PeerAddress) (_ : Transport) (label : TransportStep) (_ : Transport) : List PeerAddress :=
  match label with
  | .setPeerAddress _ address => address :: ever
  | _ => ever

def setRetired (retired : PeerMap EndpointId) (s : Transport) : Transport := { s with retired := retired }

/-- What `send` does, were no address retired. -/
def sendUnretired (address : PeerAddress) (packet : Bytes) (room : Bool) (s : Transport) : Option Transport :=
  ((s.setRetired ∅).send address packet room).map (setRetired s.retired)

/-- What the retired addresses are, and what `send` makes of them. -/
structure RetiredKept (ever : List PeerAddress) (s : Transport) : Prop where
  apart : ∀ address, ¬ (s.retired[address]? ≠ none ∧ Current s.peers address)
  known : ∀ address, address ∈ ever ↔ s.retired[address]? ≠ none ∨ Current s.peers address
  /-- `send` dials no address that was set and is nobody's any more. -/
  dials : ∀ address packet room s', s.step (.send address packet room) = some s' →
    s.tasks.length < s'.tasks.length → address ∈ ever → Current s.peers address
  /-- To send to a current address is as if none were retired. -/
  accepts : ∀ address packet room, Current s.peers address →
    s.step (.send address packet room) = s.sendUnretired address packet room

section Send

variable {s s' : Transport} {address : PeerAddress} {packet : Bytes} {room : Bool}

theorem mayDial_free (free : s.retired[address]? = none) :
    s.mayDial address packet = (s.setRetired ∅).mayDial address packet := by
  unfold mayDial setRetired
  dsimp only
  rw [free, ExtTreeMap.getElem?_empty]
  rfl

theorem dialOnSend_free (free : s.retired[address]? = none) :
    s.dialOnSend address packet = ((s.setRetired ∅).dialOnSend address packet).setRetired s.retired := by
  unfold dialOnSend
  rw [mayDial_free free]
  split <;> rfl

theorem send_free (free : s.retired[address]? = none) :
    s.send address packet room = s.sendUnretired address packet room := by
  unfold sendUnretired send
  have links : (s.setRetired ∅).links = s.links := rfl
  have tasks : (s.setRetired ∅).tasks = s.tasks := rfl
  rw [links, tasks]
  cases listed : s.links[address]? with
  | none =>
    dsimp only
    rw [Option.map_some, dialOnSend_free free]
  | some link =>
    dsimp only
    cases here : s.tasks[link]? with
    | none => rfl
    | some task =>
      simp only [Option.bind_eq_bind, Option.bind_some]
      split
      · have later : ({ s with links := s.links.erase address } : Transport).dialOnSend address packet = _ := dialOnSend_free free
        rw [Option.map_some, later]
        rfl
      · split
        · split <;> rfl
        · have waiting : (s.setRetired ∅).barriersWaiting link = s.barriersWaiting link := rfl
          rw [waiting]
          split <;> rfl

theorem dialOnSend_dials (longer : s.tasks.length < (s.dialOnSend address packet).tasks.length) :
    s.retired[address]? = none := by
  unfold dialOnSend at longer
  split at longer
  · rename_i may
    unfold mayDial at may
    simp only [Bool.and_eq_true] at may
    exact Option.isNone_iff_eq_none.mp may.1.1.1
  · exact absurd longer (Nat.lt_irrefl _)

theorem send_dials (sent : s.send address packet room = some s') (longer : s.tasks.length < s'.tasks.length) :
    s.retired[address]? = none := by
  unfold send at sent
  split at sent
  · cases Option.some.inj sent
    exact dialOnSend_dials longer
  · obtain ⟨task, _, sent⟩ := Option.bind_eq_some_iff.mp sent
    split at sent
    · cases Option.some.inj sent
      exact dialOnSend_dials (s := { s with links := s.links.erase address }) longer
    · split at sent
      · simp only [Option.ite_none_right_eq_some, Option.some.injEq] at sent
        obtain ⟨_, rfl⟩ := sent
        simp [queuePacket, setTask] at longer
      · simp only [Option.ite_none_right_eq_some, Option.some.injEq] at sent
        obtain ⟨_, rfl⟩ := sent
        simp [dropPacket] at longer

end Send

section Run

variable {s s' : Transport} {ever : List PeerAddress}

theorem addresses_step {label : TransportStep} (registered : Registered s.links s.tasks)
    (stepped : Stepped s label s') : s'.peers = s.peers ∧ s'.retired = s.retired ∨
      (∃ endpoint address, label = .setPeerAddress endpoint address) ∨ ∃ endpoint, label = .forgetPeer endpoint := by
  cases stepped with
  | peerSet endpoint address => exact .inr (.inl ⟨endpoint, address, rfl⟩)
  | peerForgotten endpoint => exact .inr (.inr ⟨endpoint, rfl⟩)
  | stale after listed here phase => exact absurd phase (registered.not_over listed here)
  | _ => exact .inl ⟨rfl, rfl⟩

theorem tracked_step {label : TransportStep} (registered : Registered s.links s.tasks)
    (held : Tracked ever s.peers s.retired) (step : s.step label = some s') :
    Tracked (noteSet ever s label s') s'.peers s'.retired := by
  obtain ⟨peers, retired⟩ | ⟨endpoint, address, rfl⟩ | ⟨endpoint, rfl⟩ := addresses_step registered (step_cases step)
  · cases label with
    | setPeerAddress endpoint address =>
      cases Option.some.inj step
      exact held.set
    | _ =>
      rw [peers, retired]
      exact held
  · cases Option.some.inj step
    exact held.set
  · cases Option.some.inj step
    exact held.forget

theorem reach_tracked (run : machine.Run (fun _ _ _ => True) noteSet [] ever s) : Tracked ever s.peers s.retired := by
  refine Machine.Run.invariant (P := fun ever s => Tracked ever s.peers s.retired) ?_ ?_ run
  · rintro s ⟨dialer, rfl⟩
    exact ⟨fun address _ => ExtTreeMap.getElem?_empty, fun address => by simp [Current]⟩
  · intro ever s label s' before held _ step
    exact tracked_step (.of_reach before.reach) held step

/-- Whatever addresses are set and forgotten, in whichever order. -/
theorem run_retiredKept (run : machine.Run (fun _ _ _ => True) noteSet [] ever s) : RetiredKept ever s := by
  have held := reach_tracked run
  refine ⟨?_, held.known, ?_, ?_⟩
  · rintro address ⟨retired, current⟩
    exact retired (held.apart address current)
  · intro address packet room s' sent longer set
    rcases (held.known address).mp set with retired | current
    · exact absurd (send_dials sent longer) retired
    · exact current
  · intro address packet room current
    exact send_free (held.apart address current)

/-- Two endpoints swap their addresses, and one is forgotten. -/
theorem run_retiredKept_swapped : ∃ ever s, RetiredKept ever s ∧
    s.retired[(⟨"AA"⟩ : PeerAddress)]? = some 8 ∧ s.peers[(7 : EndpointId)]? = some ⟨"BB"⟩ := by
  obtain ⟨ever, s, run, ended⟩ := Machine.Run.exists_of_follow machine (fun _ _ _ => True) noteSet []
    (fun _ s => decide (s.retired[(⟨"AA"⟩ : PeerAddress)]? = some 8 ∧ s.peers[(7 : EndpointId)]? = some ⟨"BB"⟩))
    ⟨true, rfl⟩
    [.setPeerAddress 7 ⟨"AA"⟩, .setPeerAddress 8 ⟨"BB"⟩, .setPeerAddress 7 ⟨"BB"⟩, .setPeerAddress 8 ⟨"AA"⟩,
      .forgetPeer 8] (by decide +kernel)
  exact ⟨ever, s, run_retiredKept run, of_decide_eq_true ended⟩

end Run

end Transport

end BleGatt.Iroh
