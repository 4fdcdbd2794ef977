import BleGatt.Drivers.BrokerParity
import BleGatt.Drivers.StreamItems

namespace BleGatt
open Std

/-! Each request is answered in kind: what a client makes of a response, it never
has to make of an unexpected one. -/

inductive ReplyKind
  | unit
  | session
  | bytes
  | stream
  | snapshot
  | channel
  deriving DecidableEq

def RadioReply.kind : RadioReply → ReplyKind
  | unit => .unit
  | session _ => .session
  | bytes _ => .bytes
  | stream _ => .stream

def ServiceReply.kind : ServiceReply → ReplyKind
  | radio reply => reply.kind
  | snapshot _ _ => .snapshot
  | channel _ => .channel

/-- What a request is answered with. -/
def ServiceRequest.kind : ServiceRequest → ReplyKind
  | registerEventsSender _ => .channel
  | radio (.connect _ _) => .session
  | radio (.read _ _) => .bytes
  | radio (.subscribe _ _) => .stream
  | scan _ _ => .snapshot
  | radio _ | updateAdvertisement _ _ | notify _ _ _ | disconnectAllFor _ => .unit

namespace ServiceSection

/-- The kind of what it may end its call with. -/
def ends : ServiceSection → Option ReplyKind
  | register _ => some .channel
  | snapshot _ _ | takeArmedFailure _ => some .snapshot
  | replaceAdvertisement _ _ | notifyAll _ _ _ | radio (.send _ _ _ _) | radio (.checkDisconnect _) => some .unit
  | radio (.takeSession _ _) | radio (.openSession _) => some .session
  | radio (.readValue _ _) => some .bytes
  | radio (.insertSubscriber _ _) => some .stream
  | radio (.reply reply) => some reply.kind
  | _ => none

/-- It ends its call, or leaves it one that does. -/
def closes : ServiceSection → Bool
  | radio (.checkDisconnect _) => false
  | section_ => section_.ends.isSome

end ServiceSection

/-- What a section of its kind may come to. -/
def ServiceTurn.Suits (section_ : ServiceSection) : ServiceTurn → Prop
  | .end_ (.error _) => True
  | .end_ (.ok reply) => section_.ends = some reply.kind
  | .go added => (∀ next ∈ added, next.ends = none ∨ next.ends = section_.ends) ∧
      (section_.closes = true → ∃ before last, added = before ++ [last] ∧ last.closes = true)

/-- A call that is to return this kind. -/
def Answering (kind : ReplyKind) : ServiceStage → Prop
  | .running first rest => (∀ section_ ∈ first :: rest, section_.ends = none ∨ section_.ends = some kind) ∧
      (kind ≠ .unit → ∃ before last, first :: rest = before ++ [last] ∧ last.closes = true)
  | .returned (.error _) => True
  | .returned (.ok reply) => reply.kind = kind

namespace ServiceRadio

variable {s : ServiceRadio}

theorem send_suits (r : LocalRadio) (address peer : PeerAddress) (characteristic : CharacteristicUuid) (value : Bytes) :
    (∃ e, (r.send address peer characteristic value).1 = .error e) ∨ (r.send address peer characteristic value).1 = .ok .unit := by
  unfold LocalRadio.send
  (repeat' split) <;> first | exact .inl ⟨_, rfl⟩ | exact .inr rfl

theorem suits_nothing {section_ : ServiceSection} (open_ : section_.closes = false) : ServiceTurn.Suits section_ (.go []) :=
  ⟨fun next member => absurd member List.not_mem_nil, fun closing => absurd closing (by simp [open_])⟩

theorem act_suits (section_ : ServiceSection) : ServiceTurn.Suits section_ (s.act section_).2 := by
  cases section_ with
  | register address => rfl
  | snapshot requester service => exact ⟨by simp [ServiceSection.ends], fun _ => ⟨[], _, rfl, rfl⟩⟩
  | takeArmedFailure peers => rfl
  | replaceAdvertisement address service =>
    simp only [act, updateAdvertisement]
    (repeat' split) <;> trivial
  | notifyAll address characteristic value =>
    simp only [act, notify]
    (repeat' split) <;> trivial
  | collectSessions address =>
    refine ⟨?_, fun closing => absurd closing (by simp [ServiceSection.closes, ServiceSection.ends])⟩
    intro next member
    simp only [List.mem_flatMap, List.mem_cons, List.not_mem_nil, or_false] at member
    obtain ⟨pair, _, rfl | rfl | rfl | rfl⟩ := member <;> exact .inl rfl
  | radio section_ =>
    cases section_ with
    | emit | putPeripheral | removePeripheral | dropSubscriptions | removeSession | logDisconnect => exact suits_nothing rfl
    | openSession link => rfl
    | reply reply => rfl
    | takeSession central peer => exact ⟨by simp [ServiceSection.ends], fun _ => ⟨[], _, rfl, rfl⟩⟩
    | findPeripheral | storeValue | requireProperty =>
      simp only [act, LocalRadio.act]
      split <;> first | trivial | exact suits_nothing rfl
    | checkNotify link | checkDisconnect link | ensureCurrent link =>
      simp only [act, LocalRadio.act]
      by_cases live : s.radio.isLive link = true
      · rw [if_pos live]
        exact suits_nothing rfl
      · rw [if_neg live]
        trivial
    | readValue peripheral characteristic =>
      simp only [act, LocalRadio.act]
      (repeat' split) <;> trivial
    | send address peer characteristic value =>
      have sent : (s.act (.radio (.send address peer characteristic value))).2 =
          .end_ ((s.radio.send address peer characteristic value).1.map .radio) := rfl
      rw [sent]
      rcases send_suits s.radio address peer characteristic value with ⟨e, is⟩ | is
      · rw [is]
        trivial
      · rw [is]
        rfl
    | collectServed address =>
      refine ⟨?_, fun closing => absurd closing (by simp [ServiceSection.closes, ServiceSection.ends])⟩
      intro next member
      obtain ⟨added, among, rfl⟩ := List.mem_map.mp member
      rcases List.mem_cons.mp among with rfl | later
      · exact .inl rfl
      · obtain ⟨peer, _, later⟩ := List.mem_flatMap.mp later
        rcases List.mem_pair.mp later with rfl | rfl <;> exact .inl rfl
    | insertSubscriber link characteristic =>
      simp only [act, LocalRadio.act]
      split
      · refine ⟨?_, fun _ => ⟨[_], _, rfl, rfl⟩⟩
        intro next member
        rcases List.mem_pair.mp member with rfl | rfl
        · exact .inl rfl
        · exact .inr rfl
      · trivial

end ServiceRadio

namespace Answering

variable {kind : ReplyKind}

theorem stage {ahead : List ServiceSection} (suits : ∀ section_ ∈ ahead, section_.ends = none ∨ section_.ends = some kind)
    (closes : kind ≠ .unit → ∃ before last, ahead = before ++ [last] ∧ last.closes = true) :
    Answering kind (mockService.stage ahead) := by
  cases ahead with
  | nil =>
    by_contra other
    have apart : kind ≠ .unit := by
      rintro rfl
      exact other rfl
    obtain ⟨before, last, eq, _⟩ := closes apart
    exact absurd eq (by simp)
  | cons first rest => exact ⟨suits, closes⟩

theorem sections_suit (request : ServiceRequest) :
    ∀ section_ ∈ request.sections, section_.ends = none ∨ section_.ends = some request.kind := by
  cases request with
  | radio request =>
    cases request with
    | notifyPeer address peer session | disconnectPeer address peer session =>
      cases session <;>
        simp [ServiceRequest.sections, RadioRequest.sections, LocalRadio.notifyPeer, LocalRadio.disconnectPeer,
          ServiceSection.ends, ServiceRequest.kind]
    | _ =>
      simp [ServiceRequest.sections, RadioRequest.sections, LocalRadio.connect, LocalRadio.advertise,
        LocalRadio.stopAdvertising, LocalRadio.read, LocalRadio.writeWithType, LocalRadio.subscribe, LocalRadio.disconnect,
        ServiceSection.ends, ServiceRequest.kind]
  | _ => simp [ServiceRequest.sections, LocalRadio.stopAdvertising, ServiceSection.ends, ServiceRequest.kind]

/-- Every request begins as one that is answered in kind. -/
theorem begun (request : ServiceRequest) : Answering request.kind (mockService.stage request.sections) := by
  refine stage (sections_suit request) ?_
  intro apart
  cases request with
  | radio request =>
    cases request with
    | connect | read | subscribe => exact ⟨[_, _], _, rfl, rfl⟩
    | _ => exact absurd rfl apart
  | registerEventsSender | scan => exact ⟨[], _, rfl, rfl⟩
  | _ => exact absurd rfl apart

/-- A turn of a call keeps it to its kind. -/
theorem turned {s : ServiceRadio} {section_ : ServiceSection} {rest : List ServiceSection}
    (answering : Answering kind (.running section_ rest)) : Answering kind (mockService.after rest (s.act section_).2) := by
  obtain ⟨suits, closes⟩ := answering
  have mine := suits section_ List.mem_cons_self
  have acted := s.act_suits section_
  cases turn : (s.act section_).2 with
  | end_ result =>
    rw [turn] at acted
    cases result with
    | error e => trivial
    | ok reply =>
      have is : section_.ends = some reply.kind := acted
      rw [is] at mine
      rcases mine with none_ | same
      · cases none_
      · exact Option.some.inj same
  | go added =>
    rw [turn] at acted
    obtain ⟨kinds, leaves⟩ := acted
    refine stage ?_ ?_
    · intro next member
      rcases List.mem_append.mp member with new | old
      · rcases kinds next new with none_ | same
        · exact .inl none_
        · exact same ▸ mine
      · exact suits next (List.mem_cons_of_mem _ old)
    · intro apart
      obtain ⟨before, last, eq, closing⟩ := closes apart
      cases before with
      | nil =>
        obtain ⟨rfl, rfl⟩ := List.cons_eq_cons.mp eq
        obtain ⟨before, last, rfl, closing⟩ := leaves closing
        exact ⟨before, last, List.append_nil _, closing⟩
      | cons first before =>
        obtain ⟨rfl, rfl⟩ := List.cons_eq_cons.mp eq
        exact ⟨added ++ before, last, (List.append_assoc _ _ _).symm, closing⟩

end Answering

namespace ServiceNetwork

variable {s : ServiceNetwork}

theorem reach_answering (reach : machine.Reach s) (m : Nat) (call : ServiceCall) (here : s.calls[m]? = some call) :
    Answering call.request.kind call.stage := by
  induction reach generalizing m call with
  | start init =>
    cases init
    simp at here
  | @next s input t _ stepped ih =>
    cases input with
    | begin_ request =>
      cases stepped
      obtain old | ⟨_, rfl⟩ := TaskList.of_append here
      · exact ih m call old
      · exact .begun request
    | proceed n =>
      obtain ⟨⟨service, calls⟩, proceeded, rfl⟩ := Option.map_eq_some_iff.mp stepped
      obtain ⟨found, section_, rest, turn, there, ahead, acted, rfl⟩ := Sectioned.proceed_cases proceeded
      obtain ⟨rfl, rfl⟩ | ⟨_, old⟩ := TaskList.of_set here
      · have before := ih m found there
        have same : s.service.act section_ = (service, turn) := Option.some.inj acted
        cases stage : found.stage with
        | running first more =>
          rw [Sectioned.Call.ahead, stage] at ahead
          cases ahead
          rw [stage] at before
          have turned := before.turned (s := s.service)
          rwa [same] at turned
        | returned result =>
          rw [Sectioned.Call.ahead, stage] at ahead
          cases ahead
      · exact ih m call old
    | dropStream stream =>
      cases stepped
      exact ih m call here

end ServiceNetwork

/-- What `RemoteClient` has an arm for, of the responses to a request. -/
def WireRequest.expects : WireRequest → WireResponse → Bool
  | scan _ _, .scanSnapshot _ _ => true
  | connect _ _, .session _ => true
  | read _ _, .bytes _ => true
  | scan _ _, _ | connect _ _, _ | read _ _, _ => false
  | _, .unit => true
  | _, _ => false

/-- What a request is answered with, if not with an error, is what is expected. -/
theorem expected_of_kind {request : WireRequest} {reply : ServiceReply} (kind : reply.kind = request.dispatched.kind)
    {response : WireResponse} (outcome : (respond (.ok reply)).outcome = .ok response) : request.expects response = true := by
  cases reply with
  | snapshot peers armedFailure =>
    cases outcome
    cases request <;> first | rfl | cases kind
  | channel number =>
    cases outcome
    cases request <;> first | rfl | cases kind
  | radio reply =>
    cases reply <;> cases outcome <;> cases request <;> first | rfl | cases kind

namespace Broker

/-- No client has to make anything of an unexpected response: a call returns what
it has an arm for, and a `subscribe` no error but the radio's or its own. -/
theorem reach_expected {s : Broker} (reach : machine.Reach s) {n k : Nat} {c : BrokerConnection} {call : ClientCall}
    {result : ClientResult} (here : s.connections[n]? = some c) (few : c.link.client.waiters.length < 2 ^ 64)
    (there : c.link.calls[k]? = some call) (stage : call.stage = .returned result) :
    (∀ request response, call.request = .call request → result = .response (.ok response) → request.expects response = true) ∧
    (∀ link characteristic e, call.request = .subscribe link characteristic → result = .stream (.error e) →
      result.own = true ∨ ∃ m, c.DispatchedAs k m ∧ s.network.result m = some (.error e)) := by
  have accounted := accounted reach
  have answering := fun m serviced at_ => ServiceNetwork.reach_answering accounted.inProcess m serviced at_
  rcases (accounted.each n c here).returned few there stage with own | ⟨p, w, m, request, owner, serviced, reply, put, member,
    asks, at_, is, returned, eq⟩
  · refine ⟨?_, fun _ _ _ _ _ => .inl own⟩
    rintro request response _ rfl
    cases own
  · have kept := answering m serviced at_
    rw [returned, is] at kept
    refine ⟨?_, ?_⟩
    · rintro asked response whole rfl
      rw [whole] at asks
      obtain ⟨rfl, rfl⟩ := asks
      have outcome : (respond reply).outcome = .ok response := (ClientResult.response.inj eq).symm
      cases reply with
      | error e => cases outcome
      | ok reply => exact expected_of_kind kept outcome
    · rintro link characteristic e whole rfl
      rw [whole] at asks
      obtain ⟨stream, rfl, rfl⟩ := asks
      refine .inr ⟨m, ⟨p, w, put.entry, member⟩, ?_⟩
      cases reply with
      | error found =>
        cases eq
        exact ServiceNetwork.result_eq_some.mpr ⟨serviced, at_, returned⟩
      | ok reply =>
        have handed : reply.kind = .stream := kept
        cases reply with
        | radio reply =>
          cases reply with
          | stream i => cases eq
          | _ => cases handed
        | snapshot | channel => cases handed

/-- The second client asked for a connection, and has a response. -/
def connected (s : Broker) : Bool :=
  (s.connections[1]?).any fun c =>
    decide (c.link.client.waiters.length = 1) && (c.link.calls[0]?).any fun call =>
      match call.request, call.stage with
      | .call (.connect _ _), .returned (ClientResult.response (.ok _)) => true
      | _, _ => false

theorem reach_expected_two_clients : ∃ (s : Broker) (c : BrokerConnection) (call : ClientCall) (central peer : PeerAddress)
    (response : WireResponse), s.connections[1]? = some c ∧ c.link.calls[0]? = some call ∧
      call.request = .call (.connect central peer) ∧ call.stage = .returned (.response (.ok response)) ∧
      (WireRequest.connect central peer).expects response = true := by
  obtain ⟨s, reach, is⟩ := Machine.Reach.exists_of_follow machine connected rfl twoClients (by decide +kernel)
  simp only [connected, Option.any_eq_true, Bool.and_eq_true, decide_eq_true_eq] at is
  obtain ⟨c, here, few, call, there, is⟩ := is
  split at is
  · rename_i central peer response whole stage
    have expected := reach_expected reach here (by omega) there stage
    exact ⟨s, c, call, central, peer, response, here, there, whole, stage, expected.1 _ _ whole rfl⟩
  · cases is

end Broker

end BleGatt
