import BleGatt.Drivers.ClientLedger

namespace BleGatt
open Std

/-! A call through the broker is the call on the in-process radio that its
request names: what it returns was returned there, after it was asked for. -/

/-- Calls stay, ask for what they asked for, and return once. -/
structure ServiceNetwork.Later (s t : ServiceNetwork) : Prop where
  length : s.calls.length ≤ t.calls.length
  request : ∀ (m : Nat) (call : ServiceCall), s.calls[m]? = some call →
    ∃ after : ServiceCall, t.calls[m]? = some after ∧ after.request = call.request
  result : ∀ m result, s.result m = some result → t.result m = some result

namespace ServiceNetwork

variable {s t u : ServiceNetwork}

theorem result_eq_some {m : Nat} {result : Except BleError ServiceReply} :
    s.result m = some result ↔ ∃ call, s.calls[m]? = some call ∧ call.stage = .returned result := by
  unfold ServiceNetwork.result
  cases here : s.calls[m]? with
  | none => simp
  | some call => cases stage : call.stage <;> simp [stage]

theorem reach_step {input : ServiceInput} (reach : machine.Reach s) (stepped : s.step input = some t) : machine.Reach t :=
  @Machine.Reach.next _ _ machine s input t reach stepped

theorem reach_begun (reach : machine.Reach s) (request : ServiceRequest) :
    machine.Reach { s with calls := mockService.start request s.calls } :=
  @Machine.Reach.next _ _ machine s (.begin_ request) _ reach rfl

namespace Later

theorem refl (s : ServiceNetwork) : Later s s where
  length := Nat.le_refl _
  request _ call here := ⟨call, here, rfl⟩
  result _ _ is := is

theorem begun (s : ServiceNetwork) (request : ServiceRequest) :
    Later s { s with calls := mockService.start request s.calls } where
  length := by simp [Sectioned.start]
  request _ call here := ⟨call, TaskList.getElem?_append_of here _, rfl⟩
  result m result is := by
    obtain ⟨call, here, stage⟩ := result_eq_some.mp is
    exact result_eq_some.mpr ⟨call, TaskList.getElem?_append_of here _, stage⟩

theorem step {input : ServiceInput} (stepped : s.step input = some t) : Later s t := by
  cases input with
  | begin_ request =>
    cases stepped
    exact begun s request
  | dropStream stream =>
    cases stepped
    exact ⟨Nat.le_refl _, fun _ call here => ⟨call, here, rfl⟩, fun _ _ is => is⟩
  | proceed n =>
    obtain ⟨⟨service, calls⟩, proceeded, rfl⟩ := Option.map_eq_some_iff.mp stepped
    obtain ⟨call, section_, rest, turn, here, ahead, _, rfl⟩ := Sectioned.proceed_cases proceeded
    refine ⟨by simp, ?_, ?_⟩
    · intro m found there
      by_cases same : m = n
      · subst same
        cases here.symm.trans there
        exact ⟨_, TaskList.getElem?_set_self here, rfl⟩
      · refine ⟨found, ?_, rfl⟩
        change (s.calls.set n _)[m]? = some found
        rw [TaskList.getElem?_set here, if_neg same, there]
    · intro m result is
      obtain ⟨found, there, stage⟩ := result_eq_some.mp is
      have other : m ≠ n := by
        rintro rfl
        cases here.symm.trans there
        rw [Sectioned.Call.ahead, stage] at ahead
        cases ahead
      refine result_eq_some.mpr ⟨found, ?_, stage⟩
      change (s.calls.set n _)[m]? = some found
      rw [TaskList.getElem?_set here, if_neg other, there]

end Later

end ServiceNetwork

namespace Broker

/-- No frame a forwarder pushes is a response. -/
theorem forwarded_push {service : ServiceRadio} {forwarder next : Forwarder} {pushed : List Envelope}
    (went : forwarded service forwarder = some (next, pushed)) : ∀ env ∈ pushed, ∃ push, env = ⟨0, .push push⟩ := by
  cases forwarder with
  | events address channel receiver =>
    obtain ⟨sent, _, went⟩ := Option.bind_eq_some_iff.mp went
    obtain ⟨after, _, went⟩ := Option.bind_eq_some_iff.mp went
    cases Option.some.inj went
    intro env member
    obtain ⟨received, _, rfl⟩ := List.mem_map.mp member
    cases received <;> exact ⟨_, rfl⟩
  | notify subscription stream passed =>
    obtain ⟨entry, _, went⟩ := Option.bind_eq_some_iff.mp went
    obtain ⟨item, _, went⟩ := Option.bind_eq_some_iff.mp went
    cases Option.some.inj went
    intro env member
    cases List.mem_singleton.mp member
    exact ⟨_, rfl⟩
  | stopped => cases went

/-- What a step does: to one connection, to the radio, or to both. -/
inductive Stepped (s : Broker) : BrokerSystemInput → Broker → Prop
  | dialled : Stepped s .dial { s with connections := s.connections ++ [{}] }
  | client {n : Nat} {c c' : BrokerConnection} {input : BrokerInput} (here : s.connections[n]? = some c)
      (own : input.own = true) (went : c.client input = some c') : Stepped s (.client n input) (s.update n c')
  | delivered {n : Nat} {c : BrokerConnection} {env : Envelope} {link : BrokerLink} (here : s.connections[n]? = some c)
      (next : c.outbox[c.delivered]? = some env) (stepped : c.link.step (.frame env) = some link) :
      Stepped s (.deliver n) (s.update n { c with link := link, delivered := c.delivered + 1 })
  | requested {n : Nat} {c : BrokerConnection} {r : UInt64} {request : WireRequest} (here : s.connections[n]? = some c)
      (reading : c.phase = .reading) (next : c.link.client.outbox[c.read]? = some ⟨r, .req request⟩) :
      Stepped s (.request n) ({ s with
          network := { s.network with calls := mockService.start request.dispatched s.network.calls } }.update n { c with
        read := c.read + 1
        phase := .dispatching r request s.network.calls.length
        owned := c.owned ++ request.owns.toList
        served := c.served ++ [(c.read, s.network.calls.length)] })
  | skipped {n : Nat} {c : BrokerConnection} (here : s.connections[n]? = some c) (reading : c.phase = .reading) :
      Stepped s (.request n) (s.update n { c with read := c.read + 1 })
  | worked {call : Nat} {network : ServiceNetwork} (stepped : s.network.step (.proceed call) = some network) :
      Stepped s (.proceed call) { s with network := network }
  | finished {n : Nat} {c : BrokerConnection} {r : UInt64} {request : WireRequest} {call : Nat}
      {result : Except BleError ServiceReply} (here : s.connections[n]? = some c)
      (dispatching : c.phase = .dispatching r request call) (returned : s.network.result call = some result) :
      Stepped s (.finish n) (s.update n { c with
        phase := .responding r (BleGatt.respond result)
        forwarders := c.forwarders ++ BrokerConnection.startForwarder request result })
  | responded {n : Nat} {c : BrokerConnection} {r : UInt64} {response : WireResponse} (here : s.connections[n]? = some c)
      (responding : c.phase = .responding r response) :
      Stepped s (.respond n)
        (s.update n { (if r = 0 then c else c.queue ⟨r, .resp response⟩) with phase := .reading })
  | forwarded {n i : Nat} {c : BrokerConnection} {forwarder next : Forwarder} {pushed : List Envelope}
      (here : s.connections[n]? = some c) (there : c.forwarders[i]? = some forwarder) (open_ : c.writerEnded = false)
      (went : Broker.forwarded s.network.service forwarder = some (next, pushed)) :
      Stepped s (.forward n i)
        (s.update n { c with forwarders := c.forwarders.set i next, outbox := c.outbox ++ pushed })
  | hungUp {n : Nat} {c : BrokerConnection} (here : s.connections[n]? = some c) (reading : c.phase = .reading) :
      Stepped s (.hangUp n) (s.update n { c with phase := .closing c.owned.dedup })
  | writerEnded {n : Nat} {c : BrokerConnection} (here : s.connections[n]? = some c) :
      Stepped s (.writerEnds n) (s.update n { c with writerEnded := true })
  | stopped {n i : Nat} {c : BrokerConnection} {forwarder : Forwarder} {network : ServiceNetwork}
      (here : s.connections[n]? = some c) (there : c.forwarders[i]? = some forwarder) (stoppable : stoppable c = true)
      (dropped : dropped s.network forwarder = some network) :
      Stepped s (.stop n i) ({ s with network := network }.update n { c with forwarders := c.forwarders.set i .stopped })
  | sweeping {n i : Nat} {c : BrokerConnection} {address : PeerAddress} {addresses : List PeerAddress}
      (here : s.connections[n]? = some c) (closing : c.phase = .closing addresses) (owned : addresses[i]? = some address) :
      Stepped s (.sweep n i) ({ s with
          network := { s.network with calls := mockService.start (.disconnectAllFor address) s.network.calls } }.update n
        { c with phase := .sweeping s.network.calls.length (addresses.eraseIdx i) })
  | swept {n call : Nat} {c : BrokerConnection} {rest : List PeerAddress} (here : s.connections[n]? = some c)
      (sweeping : c.phase = .sweeping call rest) : Stepped s (.swept n) (s.update n { c with phase := .closing rest })

theorem step_cases {s t : Broker} {input : BrokerSystemInput} (stepped : s.step input = some t) : Stepped s input t := by
  cases input with
  | dial =>
    cases stepped
    exact .dialled
  | client n input =>
    obtain ⟨c, here, stepped⟩ := Option.bind_eq_some_iff.mp stepped
    split at stepped
    · rename_i own
      obtain ⟨c', went, rfl⟩ := Option.map_eq_some_iff.mp stepped
      exact .client here own went
    · cases stepped
  | deliver n =>
    obtain ⟨c, here, stepped⟩ := Option.bind_eq_some_iff.mp stepped
    obtain ⟨env, next, stepped⟩ := Option.bind_eq_some_iff.mp stepped
    obtain ⟨link, went, stepped⟩ := Option.bind_eq_some_iff.mp stepped
    cases Option.some.inj stepped
    exact .delivered here next went
  | request n =>
    obtain ⟨c, here, stepped⟩ := Option.bind_eq_some_iff.mp stepped
    split at stepped
    · rename_i reading
      obtain ⟨⟨r, frame⟩, next, stepped⟩ := Option.bind_eq_some_iff.mp stepped
      cases frame with
      | req request =>
        cases Option.some.inj stepped
        exact .requested here reading next
      | _ =>
        cases Option.some.inj stepped
        exact .skipped here reading
    · cases stepped
  | proceed call =>
    obtain ⟨network, went, stepped⟩ := Option.bind_eq_some_iff.mp stepped
    cases Option.some.inj stepped
    exact .worked went
  | finish n =>
    obtain ⟨c, here, stepped⟩ := Option.bind_eq_some_iff.mp stepped
    split at stepped
    · rename_i dispatching
      obtain ⟨result, returned, stepped⟩ := Option.bind_eq_some_iff.mp stepped
      cases Option.some.inj stepped
      exact .finished here dispatching returned
    · cases stepped
  | respond n =>
    obtain ⟨c, here, stepped⟩ := Option.bind_eq_some_iff.mp stepped
    split at stepped
    · rename_i responding
      cases Option.some.inj stepped
      exact .responded here responding
    · cases stepped
  | forward n i =>
    obtain ⟨c, here, stepped⟩ := Option.bind_eq_some_iff.mp stepped
    obtain ⟨forwarder, there, stepped⟩ := Option.bind_eq_some_iff.mp stepped
    split at stepped
    · cases stepped
    · rename_i open_
      obtain ⟨⟨next, pushed⟩, went, stepped⟩ := Option.bind_eq_some_iff.mp stepped
      cases Option.some.inj stepped
      exact .forwarded here there (Bool.not_eq_true _ ▸ open_) went
  | hangUp n =>
    obtain ⟨c, here, stepped⟩ := Option.bind_eq_some_iff.mp stepped
    split at stepped
    · rename_i reading
      cases Option.some.inj stepped
      exact .hungUp here reading
    · cases stepped
  | writerEnds n =>
    obtain ⟨c, here, stepped⟩ := Option.bind_eq_some_iff.mp stepped
    cases Option.some.inj stepped
    exact .writerEnded here
  | stop n i =>
    obtain ⟨c, here, stepped⟩ := Option.bind_eq_some_iff.mp stepped
    obtain ⟨forwarder, there, stepped⟩ := Option.bind_eq_some_iff.mp stepped
    split at stepped
    · rename_i can
      obtain ⟨network, went, stepped⟩ := Option.bind_eq_some_iff.mp stepped
      cases Option.some.inj stepped
      exact .stopped here there can went
    · cases stepped
  | sweep n i =>
    obtain ⟨c, here, stepped⟩ := Option.bind_eq_some_iff.mp stepped
    split at stepped
    · rename_i closing
      obtain ⟨address, owned, stepped⟩ := Option.bind_eq_some_iff.mp stepped
      cases Option.some.inj stepped
      exact .sweeping here closing owned
    · cases stepped
  | swept n =>
    obtain ⟨c, here, stepped⟩ := Option.bind_eq_some_iff.mp stepped
    split at stepped
    · rename_i sweeping
      obtain ⟨_, _, stepped⟩ := Option.bind_eq_some_iff.mp stepped
      cases Option.some.inj stepped
      exact .swept here sweeping
    · cases stepped

end Broker

/-- The response due to the frames with this number: what the radio returned to
a dispatch of one of them. -/
def Dispatched (network : ServiceNetwork) (c : BrokerConnection) (r : UInt64) (response : WireResponse) : Prop :=
  ∃ (p m : Nat) (request : WireRequest) (result : Except BleError ServiceReply), (p, m) ∈ c.served ∧
    c.link.client.outbox[p]? = some ⟨r, .req request⟩ ∧ network.result m = some result ∧ response = respond result

/-- What holds of one connection, both ends and the frames between. -/
structure Orderly (network : ServiceNetwork) (c : BrokerConnection) : Prop where
  ledger : Ledger c.written c.link
  sole : Sole c.link
  waiting : Waiting c.link
  numbered : c.link.client.nextSubscription = subscriptionId c.link.client.streams.length
  answers : Answers (Dispatched network c) c.written c.link
  responses : ∀ r response, ⟨r, .resp response⟩ ∈ c.outbox → Dispatched network c r response
  bounds : ∀ p m, (p, m) ∈ c.served → p < c.read ∧ m < network.calls.length
  /-- One after another: each had returned when the next was begun. -/
  sorted : c.served.Pairwise fun a b => a.1 < b.1 ∧ a.2 < b.2 ∧ (network.result a.2).isSome = true
  named : ∀ p m, (p, m) ∈ c.served → ∃ (r : UInt64) (request : WireRequest) (call : ServiceCall),
    c.link.client.outbox[p]? = some ⟨r, .req request⟩ ∧ network.calls[m]? = some call ∧ call.request = request.dispatched
  current : ∀ r request m, c.phase = .dispatching r request m →
    ∃ p : Nat, (p, m) ∈ c.served ∧ c.link.client.outbox[p]? = some ⟨r, .req request⟩
  idle : ∀ p m, (p, m) ∈ c.served → (network.result m).isSome = true ∨ ∃ r request, c.phase = .dispatching r request m
  responding : ∀ r response, c.phase = .responding r response → Dispatched network c r response

theorem Dispatched.later {network network' : ServiceNetwork} {c c' : BrokerConnection} {r : UInt64} {response : WireResponse}
    (dispatched : Dispatched network c r response) (later : network.Later network')
    (served : ∀ entry ∈ c.served, entry ∈ c'.served)
    (kept : ∀ (p : Nat) env, c.link.client.outbox[p]? = some env → c'.link.client.outbox[p]? = some env) :
    Dispatched network' c' r response := by
  obtain ⟨p, m, request, result, member, frame, is, eq⟩ := dispatched
  exact ⟨p, m, request, result, served _ member, kept p _ frame, later.result m result is, eq⟩

namespace Orderly

variable {network network' : ServiceNetwork} {c : BrokerConnection}

theorem isSome_later (later : network.Later network') {m : Nat} (is : (network.result m).isSome = true) :
    (network'.result m).isSome = true := by
  obtain ⟨result, is⟩ := Option.isSome_iff_exists.mp is
  rw [later.result m result is]
  rfl

/-- What happens to the radio alone. -/
theorem later (orderly : Orderly network c) (later : network.Later network') : Orderly network' c where
  ledger := orderly.ledger
  sole := orderly.sole
  waiting := orderly.waiting
  numbered := orderly.numbered
  answers := orderly.answers.mono fun _ _ is => is.later later (fun _ there => there) fun _ _ there => there
  responses r response member := (orderly.responses r response member).later later (fun _ there => there) fun _ _ there => there
  bounds p m member := ⟨(orderly.bounds p m member).1, Nat.lt_of_lt_of_le (orderly.bounds p m member).2 later.length⟩
  sorted := orderly.sorted.imp fun before => ⟨before.1, before.2.1, isSome_later later before.2.2⟩
  named p m member := by
    obtain ⟨r, request, call, frame, there, is⟩ := orderly.named p m member
    obtain ⟨after, there', same⟩ := later.request m call there
    exact ⟨r, request, after, frame, there', same.trans is⟩
  current := orderly.current
  idle p m member := (orderly.idle p m member).imp (isSome_later later) id
  responding r response is := (orderly.responding r response is).later later (fun _ there => there) fun _ _ there => there

/-- A change of one connection that neither reads nor dispatches. -/
theorem of_link {c' : BrokerConnection} (orderly : Orderly network c) (ledger : Ledger c'.written c'.link)
    (sole : Sole c'.link) (waiting : Waiting c'.link)
    (numbered : c'.link.client.nextSubscription = subscriptionId c'.link.client.streams.length) (answers : Answers (Dispatched network c) c'.written c'.link)
    (kept : ∀ (p : Nat) env, c.link.client.outbox[p]? = some env → c'.link.client.outbox[p]? = some env)
    (responses : ∀ r response, ⟨r, .resp response⟩ ∈ c'.outbox → Dispatched network c r response)
    (read : c.read ≤ c'.read) (served : c'.served = c.served)
    (current : ∀ r request m, c'.phase = .dispatching r request m → c.phase = .dispatching r request m)
    (idle : ∀ r request m, c.phase = .dispatching r request m →
      (network.result m).isSome = true ∨ c'.phase = .dispatching r request m)
    (responding : ∀ r response, c'.phase = .responding r response → Dispatched network c r response) : Orderly network c' := by
  have carried : ∀ r response, Dispatched network c r response → Dispatched network c' r response :=
    fun r response is => is.later (.refl network) (fun _ there => served ▸ there) kept
  refine ⟨ledger, sole, waiting, numbered, answers.mono carried, fun r response member => carried _ _ (responses r response member),
    ?_, served ▸ orderly.sorted, ?_, ?_, ?_, fun r response is => carried _ _ (responding r response is)⟩
  · intro p m member
    rw [served] at member
    obtain ⟨before, bound⟩ := orderly.bounds p m member
    exact ⟨Nat.lt_of_lt_of_le before read, bound⟩
  · intro p m member
    rw [served] at member
    obtain ⟨r, request, call, frame, there, is⟩ := orderly.named p m member
    exact ⟨r, request, call, kept p _ frame, there, is⟩
  · intro r request m is
    obtain ⟨p, member, frame⟩ := orderly.current r request m (current r request m is)
    exact ⟨p, served ▸ member, kept p _ frame⟩
  · intro p m member
    rw [served] at member
    rcases orderly.idle p m member with over_ | ⟨r, request, is⟩
    · exact .inl over_
    · rcases idle r request m is with over_ | still
      · exact .inl over_
      · exact .inr ⟨r, request, still⟩

/-- A connection that was just made. -/
theorem dialled (network : ServiceNetwork) : Orderly network {} where
  ledger := by
    refine ⟨rfl, ?_, rfl, ?_, ?_, ?_, ?_, ?_, ?_, ?_, ?_, ?_⟩
    · exact fun w r own => by simp [RemoteClient.correlationOf] at own
    · exact fun p n w there => by simp at there
    · exact fun p there => by simp at there
    · exact fun p p' n w w' there => by simp at there
    · exact fun p p' n n' w there => by simp at there
    all_goals
      first
        | (rintro n section_ ⟨call, there, _⟩; simp at there)
        | (rintro n r w owner ⟨call, there, _⟩; simp at there)
        | (rintro n m section_ section_' r r' w ⟨call, there, _⟩; simp at there)
        | (rintro n section_ whole ⟨call, there, _⟩; simp at there)
  sole n call there := by simp at there
  waiting := (BrokerLink.reach_sound (.start rfl)).2.1
  numbered := rfl
  answers := by
    refine ⟨?_, ?_, ?_⟩
    · exact fun w response given => by simp [RemoteClient.answered] at given
    · rintro n id e ⟨call, there, _⟩
      simp at there
    · exact fun n call result there => by simp at there
  responses r response member := by simp at member
  bounds p m member := by simp at member
  sorted := .nil
  named p m member := by simp at member
  current r request m is := by cases is
  idle p m member := by simp at member
  responding r response is := by cases is

theorem client {c' : BrokerConnection} {input : BrokerInput} (orderly : Orderly network c) (own : input.own = true)
    (went : c.client input = some c') : Orderly network c' := by
  obtain ⟨stepped, eq⟩ := BrokerConnection.client_eq went
  have moved := BrokerLink.step_cases stepped
  have ledger := BrokerConnection.ledger_step orderly.ledger orderly.sole orderly.waiting orderly.numbered went
  have more : ∀ (p : Nat) entry, c.written[p]? = some entry → c'.written[p]? = some entry := by
    intro p entry there
    rw [eq]
    exact TaskList.getElem?_append_of there _
  have answers : Answers (Dispatched network c) c'.written c'.link :=
    orderly.answers.step orderly.ledger orderly.sole orderly.waiting stepped more fun _ _ is => by rw [is] at own; cases own
  have phase : c'.phase = c.phase := by rw [eq]
  refine orderly.of_link ledger (orderly.sole.step moved) (orderly.waiting.step orderly.sole moved)
    (BrokerLink.numbered_step stepped orderly.numbered) answers
    (fun p env there => BrokerLink.outbox_kept stepped there) ?_ ?_ ?_ ?_ ?_ ?_
  · rw [eq]
    exact orderly.responses
  · rw [eq]
  · rw [eq]
  · exact fun r request m is => phase ▸ is
  · exact fun r request m is => .inr (phase ▸ is)
  · rw [phase]
    exact orderly.responding

theorem delivered {env : Envelope} {link : BrokerLink} (orderly : Orderly network c)
    (next : c.outbox[c.delivered]? = some env) (stepped : c.link.step (.frame env) = some link) :
    Orderly network { c with link := link, delivered := c.delivered + 1 } := by
  have moved := BrokerLink.step_cases stepped
  have ledger : Ledger c.written link := by
    cases moved with
    | frame reading => exact orderly.ledger.quiet (.onFrame env c.link.client)
  have answers : Answers (Dispatched network c) c.written link := by
    refine orderly.answers.step orderly.ledger orderly.sole orderly.waiting stepped (fun _ _ there => there) ?_
    intro found response is frame
    cases is
    obtain ⟨r, content⟩ := env
    cases frame
    exact orderly.responses r response (List.mem_of_getElem? next)
  exact orderly.of_link ledger (orderly.sole.step moved) (orderly.waiting.step orderly.sole moved)
    (BrokerLink.numbered_step stepped orderly.numbered) answers
    (fun p env there => BrokerLink.outbox_kept stepped there) orderly.responses (Nat.le_refl _) rfl (fun _ _ _ is => is)
    (fun _ _ _ is => .inr is) orderly.responding

/-- A change of the broker's end that leaves what it is dispatching alone. -/
theorem of_phase {c' : BrokerConnection} (orderly : Orderly network c) (link : c'.link = c.link)
    (written : c'.written = c.written) (served : c'.served = c.served) (read : c.read ≤ c'.read)
    (responses : ∀ r response, ⟨r, .resp response⟩ ∈ c'.outbox → Dispatched network c r response)
    (current : ∀ r request m, c'.phase = .dispatching r request m → c.phase = .dispatching r request m)
    (idle : ∀ r request m, c.phase = .dispatching r request m →
      (network.result m).isSome = true ∨ c'.phase = .dispatching r request m)
    (responding : ∀ r response, c'.phase = .responding r response → Dispatched network c r response) : Orderly network c' := by
  refine orderly.of_link ?_ ?_ ?_ ?_ ?_ ?_ responses read served current idle responding
  · rw [link, written]
    exact orderly.ledger
  · rw [link]
    exact orderly.sole
  · rw [link]
    exact orderly.waiting
  · rw [link]
    exact orderly.numbered
  · rw [link, written]
    exact orderly.answers
  · rw [link]
    exact fun _ _ there => there

theorem requested {r : UInt64} {request : WireRequest} (orderly : Orderly network c) (reading : c.phase = .reading)
    (next : c.link.client.outbox[c.read]? = some ⟨r, .req request⟩) :
    Orderly { network with calls := mockService.start request.dispatched network.calls } { c with
      read := c.read + 1
      phase := .dispatching r request network.calls.length
      owned := c.owned ++ request.owns.toList
      served := c.served ++ [(c.read, network.calls.length)] } := by
  have later := ServiceNetwork.Later.begun network request.dispatched
  have now := orderly.later later
  have older : ∀ entry ∈ c.served, entry ∈ c.served ++ [(c.read, network.calls.length)] :=
    fun entry member => List.mem_append_left _ member
  have over_ : ∀ p m, (p, m) ∈ c.served → (network.result m).isSome = true := by
    intro p m member
    rcases orderly.idle p m member with over_ | ⟨r, request, is⟩
    · exact over_
    · rw [reading] at is
      cases is
  refine ⟨now.ledger, now.sole, now.waiting, now.numbered, ?_, ?_, ?_, ?_, ?_, ?_, ?_, ?_⟩
  · exact now.answers.mono fun r' response is => is.later (.refl _) older fun _ _ there => there
  · exact fun r' response member => (now.responses r' response member).later (.refl _) older fun _ _ there => there
  · intro p m member
    have longer : (mockService.start request.dispatched network.calls).length = network.calls.length + 1 := by
      simp [Sectioned.start]
    change p < c.read + 1 ∧ m < (mockService.start request.dispatched network.calls).length
    rcases List.mem_append.mp member with old | new
    · obtain ⟨before, bound⟩ := orderly.bounds p m old
      omega
    · cases List.mem_singleton.mp new
      omega
  · refine List.pairwise_append.mpr ⟨now.sorted, List.pairwise_singleton _ _, ?_⟩
    rintro ⟨p, m⟩ member entry new
    cases List.mem_singleton.mp new
    obtain ⟨before, bound⟩ := orderly.bounds p m member
    exact ⟨before, bound, isSome_later later (over_ p m member)⟩
  · intro p m member
    rcases List.mem_append.mp member with old | new
    · exact now.named p m old
    · cases List.mem_singleton.mp new
      exact ⟨r, request, ⟨request.dispatched, _⟩, next, List.getElem?_concat_length, rfl⟩
  · intro r' request' m is
    cases is
    exact ⟨c.read, List.mem_append_right _ (List.mem_singleton_self _), next⟩
  · intro p m member
    rcases List.mem_append.mp member with old | new
    · exact .inl (isSome_later later (over_ p m old))
    · cases List.mem_singleton.mp new
      exact .inr ⟨r, request, rfl⟩
  · intro r' response is
    cases is

theorem finished {r : UInt64} {request : WireRequest} {call : Nat} {result : Except BleError ServiceReply}
    (orderly : Orderly network c) (dispatching : c.phase = .dispatching r request call)
    (returned : network.result call = some result) :
    Orderly network { c with
      phase := .responding r (respond result)
      forwarders := c.forwarders ++ BrokerConnection.startForwarder request result } := by
  refine orderly.of_phase rfl rfl rfl (Nat.le_refl _) orderly.responses nofun ?_ ?_
  · intro r' request' m is
    cases dispatching.symm.trans is
    exact .inl (returned ▸ rfl)
  · intro r' response is
    cases is
    obtain ⟨p, member, frame⟩ := orderly.current r request call dispatching
    exact ⟨p, call, request, result, member, frame, returned, rfl⟩

theorem responded {r : UInt64} {response : WireResponse} (orderly : Orderly network c)
    (responding : c.phase = .responding r response) :
    Orderly network { (if r = 0 then c else c.queue ⟨r, .resp response⟩) with phase := .reading } := by
  have due := orderly.responding r response responding
  have idle : ∀ r' request m, c.phase = .dispatching r' request m → (network.result m).isSome = true ∨
      ServingPhase.reading = .dispatching r' request m := by
    intro r' request m is
    rw [responding] at is
    cases is
  by_cases silent : r = 0
  · rw [if_pos silent]
    exact orderly.of_phase rfl rfl rfl (Nat.le_refl _) orderly.responses nofun idle nofun
  · rw [if_neg silent, BrokerConnection.queue]
    split
    · exact orderly.of_phase rfl rfl rfl (Nat.le_refl _) orderly.responses nofun idle nofun
    · refine orderly.of_phase rfl rfl rfl (Nat.le_refl _) ?_ nofun idle nofun
      intro r' response' member
      rcases List.mem_append.mp member with old | new
      · exact orderly.responses r' response' old
      · cases List.mem_singleton.mp new
        exact due

end Orderly

/-- What holds of a broker and its connections. -/
structure Accounted (s : Broker) : Prop where
  inProcess : ServiceNetwork.machine.Reach s.network
  each : TaskList.Each (fun _ c => Orderly s.network c) s.connections
  /-- A call on the radio is one connection's. -/
  apart : ∀ (n n' : Nat) (c c' : BrokerConnection) (p p' m : Nat), s.connections[n]? = some c →
    s.connections[n']? = some c' → (p, m) ∈ c.served → (p', m) ∈ c'.served → n = n'

namespace Accounted

variable {s : Broker} {n : Nat} {c c' : BrokerConnection} {network : ServiceNetwork}

/-- One connection changes, and the radio goes on. -/
theorem update (accounted : Accounted s) (here : s.connections[n]? = some c)
    (inProcess : ServiceNetwork.machine.Reach network) (later : s.network.Later network) (new : Orderly network c')
    (served : ∀ p m, (p, m) ∈ c'.served → (p, m) ∈ c.served ∨ s.network.calls.length ≤ m) :
    Accounted ({ s with network := network }.update n c') where
  inProcess := inProcess
  each := by
    have old : TaskList.Each (fun _ c => Orderly network c) s.connections :=
      accounted.each.imp fun _ _ orderly => orderly.later later
    exact old.set new
  apart n₁ n₂ c₁ c₂ p p' m there there' member member' := by
    have fresh : ∀ (k : Nat) (found : BrokerConnection) (q : Nat), s.connections[k]? = some found → (q, m) ∈ found.served →
        m < s.network.calls.length := fun k found q at_ member => ((accounted.each k found at_).bounds q m member).2
    obtain ⟨rfl, rfl⟩ | ⟨_, old⟩ := TaskList.of_set there <;> obtain ⟨rfl, rfl⟩ | ⟨_, old'⟩ := TaskList.of_set there'
    · rfl
    · have bound := fresh n₂ c₂ p' old' member'
      rcases served p m member with mine | new
      · exact accounted.apart _ n₂ c c₂ p p' m here old' mine member'
      · omega
    · have bound := fresh n₁ c₁ p old member
      rcases served p' m member' with mine | new
      · exact accounted.apart n₁ _ c₁ c p p' m old here member mine
      · omega
    · exact accounted.apart n₁ n₂ c₁ c₂ p p' m old old' member member'

theorem update_same (accounted : Accounted s) (here : s.connections[n]? = some c) (new : Orderly s.network c')
    (served : c'.served = c.served) : Accounted (s.update n c') :=
  accounted.update here accounted.inProcess (.refl _) new fun _ _ member => .inl (served ▸ member)

theorem step {t : Broker} {input : BrokerSystemInput} (accounted : Accounted s) (stepped : Broker.Stepped s input t) :
    Accounted t := by
  cases stepped with
  | dialled =>
    refine ⟨accounted.inProcess, accounted.each.start (.dialled _), ?_⟩
    intro n n' c c' p p' m there there' member member'
    obtain old | ⟨_, rfl⟩ := TaskList.of_append there
    · obtain old' | ⟨_, rfl⟩ := TaskList.of_append there'
      · exact accounted.apart n n' c c' p p' m old old' member member'
      · simp at member'
    · simp at member
  | @client n c c' input here own went =>
    have served : c'.served = c.served := by rw [(BrokerConnection.client_eq went).2]
    exact accounted.update_same here ((accounted.each n c here).client own went) served
  | @delivered n c env link here next stepped =>
    exact accounted.update_same here ((accounted.each n c here).delivered next stepped) rfl
  | @requested n c r request here reading next =>
    refine accounted.update here (ServiceNetwork.reach_begun accounted.inProcess _) (.begun _ _)
      ((accounted.each n c here).requested reading next) ?_
    intro p m member
    rcases List.mem_append.mp member with old | new
    · exact .inl old
    · cases List.mem_singleton.mp new
      exact .inr (Nat.le_refl _)
  | @skipped n c here reading =>
    have orderly := accounted.each n c here
    exact accounted.update_same here (orderly.of_phase rfl rfl rfl (Nat.le_succ _) orderly.responses (fun _ _ _ is => is)
      (fun _ _ _ is => .inr is) orderly.responding) rfl
  | @worked call network stepped =>
    have later : s.network.Later network := .step stepped
    exact ⟨ServiceNetwork.reach_step accounted.inProcess stepped, accounted.each.imp fun _ _ orderly => orderly.later later,
      accounted.apart⟩
  | @finished n c r request call result here dispatching returned =>
    exact accounted.update_same here ((accounted.each n c here).finished dispatching returned) rfl
  | @responded n c r response here responding =>
    refine accounted.update_same here ((accounted.each n c here).responded responding) ?_
    by_cases silent : r = 0
    · rw [if_pos silent]
    · rw [if_neg silent, BrokerConnection.queue]
      split <;> rfl
  | @forwarded n i c forwarder next pushed here there open_ went =>
    have orderly := accounted.each n c here
    refine accounted.update_same here (orderly.of_phase rfl rfl rfl (Nat.le_refl _) ?_ (fun _ _ _ is => is)
      (fun _ _ _ is => .inr is) orderly.responding) rfl
    intro r response member
    rcases List.mem_append.mp member with old | new
    · exact orderly.responses r response old
    · obtain ⟨push, eq⟩ := Broker.forwarded_push went _ new
      cases eq
  | @hungUp n c here reading =>
    have orderly := accounted.each n c here
    refine accounted.update_same here (orderly.of_phase rfl rfl rfl (Nat.le_refl _) orderly.responses nofun ?_ nofun) rfl
    intro r request m is
    rw [reading] at is
    cases is
  | @writerEnded n c here =>
    have orderly := accounted.each n c here
    exact accounted.update_same here (orderly.of_phase rfl rfl rfl (Nat.le_refl _) orderly.responses (fun _ _ _ is => is)
      (fun _ _ _ is => .inr is) orderly.responding) rfl
  | @stopped n i c forwarder network here there stoppable dropped =>
    have orderly := accounted.each n c here
    have went : ServiceNetwork.machine.Reach network ∧ s.network.Later network := by
      cases forwarder with
      | events => cases dropped; exact ⟨accounted.inProcess, .refl _⟩
      | notify _ stream _ =>
        have stepped : s.network.step (.dropStream stream) = some network := dropped
        exact ⟨ServiceNetwork.reach_step accounted.inProcess stepped, .step stepped⟩
      | stopped => cases dropped
    have now : Orderly s.network { c with forwarders := c.forwarders.set i .stopped } :=
      orderly.of_phase rfl rfl rfl (Nat.le_refl _) orderly.responses (fun _ _ _ is => is) (fun _ _ _ is => .inr is)
        orderly.responding
    exact accounted.update here went.1 went.2 (now.later went.2) fun _ _ member => .inl member
  | @sweeping n i c address addresses here closing owned =>
    have orderly := accounted.each n c here
    have now : Orderly s.network { c with phase := .sweeping s.network.calls.length (addresses.eraseIdx i) } := by
      refine orderly.of_phase rfl rfl rfl (Nat.le_refl _) orderly.responses nofun ?_ nofun
      intro r request m is
      rw [closing] at is
      cases is
    exact accounted.update here (ServiceNetwork.reach_begun accounted.inProcess _) (.begun _ _) (now.later (.begun _ _))
      fun _ _ member => .inl member
  | @swept n call c rest here sweeping =>
    have orderly := accounted.each n c here
    refine accounted.update_same here (orderly.of_phase rfl rfl rfl (Nat.le_refl _) orderly.responses nofun ?_ nofun) rfl
    intro r request m is
    rw [sweeping] at is
    cases is

end Accounted

/-- Call `k` of a client was dispatched, as call `m` on the radio. -/
def BrokerConnection.DispatchedAs (c : BrokerConnection) (k m : Nat) : Prop :=
  ∃ p w : Nat, c.written[p]? = some (some (k, w)) ∧ (p, m) ∈ c.served

namespace Orderly

variable {network : ServiceNetwork} {c : BrokerConnection}

/-- Under 2^64 calls, no two frames have one number. -/
theorem frame_of_number (orderly : Orderly network c) (few : c.link.client.waiters.length < 2 ^ 64) {p p' k w : Nat}
    {request request' : WireRequest} {owner : CallOwner} (put : Put c.written c.link k p w request owner)
    (there : c.link.client.outbox[p']? = some ⟨correlation w, .req request'⟩) : p = p' ∧ request = request' := by
  have bound := (orderly.ledger.entry p k w put.entry).1
  have within := TaskList.lt_length there
  rw [← orderly.ledger.length] at within
  have same : p = p' := by
    cases entry : c.written[p'] with
    | none =>
      have entry : c.written[p']? = some none := by rw [List.getElem?_eq_getElem within, entry]
      obtain ⟨address, frame⟩ := orderly.ledger.registration p' entry
      have zero : correlation w = 0 := congrArg Envelope.correlationId (Option.some.inj (there.symm.trans frame))
      exact absurd zero (correlation_ne_zero (by omega))
    | some writer =>
      have entry : c.written[p']? = some (some (writer.1, writer.2)) := by rw [List.getElem?_eq_getElem within, entry]
      obtain ⟨bound', asked, owner', put'⟩ := orderly.ledger.entry p' writer.1 writer.2 entry
      have number : correlation w = correlation writer.2 :=
        congrArg Envelope.correlationId (Option.some.inj (there.symm.trans put'.frame))
      have waiter : w = writer.2 := correlation_inj (by omega) (by omega) number
      rw [← waiter] at entry
      exact orderly.ledger.waiterOnce p p' k writer.1 w put.entry entry
  subst same
  have frame := Option.some.inj (put.frame.symm.trans there)
  cases frame
  exact ⟨rfl, rfl⟩

/-- What a call returned, the radio returned to what the call was for. -/
theorem returned (orderly : Orderly network c) (few : c.link.client.waiters.length < 2 ^ 64) {k : Nat} {call : ClientCall}
    {result : ClientResult} (here : c.link.calls[k]? = some call) (stage : call.stage = .returned result) :
    result.own = true ∨ ∃ p w m request owner serviced reply, Put c.written c.link k p w request owner ∧ (p, m) ∈ c.served ∧
      call.request.Asks request owner ∧ network.calls[m]? = some serviced ∧ serviced.request = request.dispatched ∧
      serviced.stage = .returned reply ∧ result = owner.final (respond reply).outcome := by
  rcases orderly.answers.returned k call result here stage with own | ⟨p, w, request, owner, response, put, dispatched, eq⟩
  · exact .inl own
  · obtain ⟨p', m, request', reply, member, frame, replied, rfl⟩ := dispatched
    obtain ⟨rfl, rfl⟩ := orderly.frame_of_number few put frame
    obtain ⟨serviced, at_, returned⟩ := ServiceNetwork.result_eq_some.mp replied
    obtain ⟨r, named, found, there, at_', is⟩ := orderly.named p m member
    cases frame.symm.trans there
    cases at_.symm.trans at_'
    obtain ⟨whole, asked, asks⟩ := put.asks
    have is' : whole = call.request := by
      rw [requestOf, here] at asked
      exact (Option.some.inj asked).symm
    exact .inr ⟨p, w, m, request, owner, serviced, reply, put, member, is' ▸ asks, at_, is, returned, eq⟩

theorem served_place (orderly : Orderly network c) {p p' m m' : Nat} (there : (p, m) ∈ c.served) (there' : (p', m') ∈ c.served) :
    p = p' ↔ m = m' := by
  have all : ∀ ⦃a⦄, a ∈ c.served → ∀ ⦃b⦄, b ∈ c.served → (a.1 = b.1 ↔ a.2 = b.2) := by
    apply List.Pairwise.forall_of_forall_of_flip
    · exact fun _ _ => ⟨fun _ => rfl, fun _ => rfl⟩
    · exact orderly.sorted.imp fun before => by omega
    · exact orderly.sorted.imp fun before => by simp only [flip]; omega
  exact all there there'

/-- A call is dispatched once. -/
theorem dispatched_once (orderly : Orderly network c) {k m m' : Nat} (first : c.DispatchedAs k m)
    (second : c.DispatchedAs k m') : m = m' := by
  obtain ⟨p, w, written, member⟩ := first
  obtain ⟨p', w', written', member'⟩ := second
  have same := orderly.ledger.callOnce p p' k w w' written written'
  exact (orderly.served_place member member').mp same

end Orderly

namespace Broker

/-- What the clients of a broker see of its radio: each call that was answered
is one call on that radio, and has what that one returned. -/
structure Parity (s : Broker) : Prop where
  /-- The radio is as it would be without a broker. -/
  inProcess : ServiceNetwork.machine.Reach s.network
  returned : ∀ (n : Nat) (c : BrokerConnection) (k : Nat) (call : ClientCall) (result : ClientResult),
    s.connections[n]? = some c → c.link.client.waiters.length < 2 ^ 64 → c.link.calls[k]? = some call →
    call.stage = .returned result → result.own = true ∨
      ∃ m request owner serviced reply, c.DispatchedAs k m ∧ call.request.Asks request owner ∧
        s.network.calls[m]? = some serviced ∧ serviced.request = request.dispatched ∧ serviced.stage = .returned reply ∧
        result = owner.final (respond reply).outcome
  once : ∀ (n : Nat) (c : BrokerConnection) (k m m' : Nat), s.connections[n]? = some c → c.DispatchedAs k m →
    c.DispatchedAs k m' → m = m'
  apart : ∀ (n n' : Nat) (c c' : BrokerConnection) (k k' m : Nat), s.connections[n]? = some c →
    s.connections[n']? = some c' → c.DispatchedAs k m → c'.DispatchedAs k' m → n = n' ∧ k = k'
  /-- Nothing is dispatched but what a client wrote. -/
  written : ∀ (n : Nat) (c : BrokerConnection) (p m : Nat), s.connections[n]? = some c → (p, m) ∈ c.served →
    ∃ (r : UInt64) (request : WireRequest) (serviced : ServiceCall), c.link.client.outbox[p]? = some ⟨r, .req request⟩ ∧
      s.network.calls[m]? = some serviced ∧ serviced.request = request.dispatched
  /-- A client's requests are carried out in the order it wrote them, each once
  the one before has returned. -/
  inTurn : ∀ (n : Nat) (c : BrokerConnection), s.connections[n]? = some c →
    c.served.Pairwise fun a b => a.1 < b.1 ∧ a.2 < b.2 ∧ (s.network.result a.2).isSome = true

theorem accounted {s : Broker} (reach : machine.Reach s) : Accounted s := by
  refine reach.invariant ?_ fun s input t _ accounted stepped => accounted.step (step_cases stepped)
  rintro s rfl
  exact ⟨.start rfl, fun n c there => by simp at there, fun n n' c c' p p' m there => by simp at there⟩

/-- However clients, broker and radio take turns, and wherever a connection
breaks, a call through the broker is a call on the radio. -/
theorem reach_parity {s : Broker} (reach : machine.Reach s) : s.Parity := by
  have accounted := accounted reach
  refine ⟨accounted.inProcess, ?_, fun n c k m m' here => (accounted.each n c here).dispatched_once, ?_,
    fun n c p m here => (accounted.each n c here).named p m, fun n c here => (accounted.each n c here).sorted⟩
  · intro n c k call result here few at_ stage
    rcases (accounted.each n c here).returned few at_ stage with
      own | ⟨p, w, m, request, owner, serviced, reply, put, member, rest⟩
    · exact .inl own
    · exact .inr ⟨m, request, owner, serviced, reply, ⟨p, w, put.entry, member⟩, rest⟩
  · rintro n n' c c' k k' m here here' ⟨p, w, written, member⟩ ⟨p', w', written', member'⟩
    have same := accounted.apart n n' c c' p p' m here here' member member'
    subst same
    cases here.symm.trans here'
    have place := ((accounted.each n c here).served_place member member').mpr rfl
    subst place
    cases written.symm.trans written'
    exact ⟨rfl, rfl⟩

/-- Two clients whose frames have one number, the second answered first. -/
def twoClients : List BrokerSystemInput :=
  List.flatten [
    [.dial, .dial, .client 0 (.begin_ (.call (.advertise ⟨"p"⟩ { uuid := ⟨0⟩, characteristics := [] }))),
      .client 1 (.begin_ (.call (.connect ⟨"c"⟩ ⟨"p"⟩)))],
    [0, 1].flatMap fun n => List.replicate 3 (.client n (.proceed 0)),
    [.request 0, .proceed 0, .request 1, .finish 0],
    List.replicate 4 (.proceed 1),
    [.finish 1, .respond 1, .respond 0, .deliver 1, .client 1 (.proceed 0)]]

/-- The first call of this connection returned a session. -/
def sessionReturned (n : Nat) (s : Broker) : Bool :=
  match (s.connections[n]?).bind fun c => (c.link.calls[0]?).map Sectioned.Call.stage with
  | some (.returned (ClientResult.response (.ok (.session _)))) => true
  | _ => false

theorem reach_parity_two_clients : ∃ s : Broker, s.Parity ∧ sessionReturned 1 s = true := by
  obtain ⟨s, reach, returned⟩ := Machine.Reach.exists_of_follow machine (sessionReturned 1) rfl twoClients (by decide +kernel)
  exact ⟨s, reach_parity reach, returned⟩

end Broker

end BleGatt
