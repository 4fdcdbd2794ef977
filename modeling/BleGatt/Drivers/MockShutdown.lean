import BleGatt.Drivers.MockClient

namespace BleGatt
open Std

/-! What the end of a `RemoteClient`'s reader does to the calls and the streams:
each is ended by the sweep of one of the two maps. -/

namespace ClientSection

/-- How many turns a call has at most left. -/
def turns : ClientSection → Nat
  | takeSubscription _ _ => 7
  | insertSubscription _ _ _ => 6
  | takeCorrelation _ _ => 5
  | register _ _ _ _ => 4
  | send _ _ _ _ => 3
  | forget _ _ => 2
  | await _ _ _ => 2
  | removeSubscription _ _ => 1

/-- The waiter of its call, with the correlation id it is for. -/
def waits : ClientSection → Option (UInt64 × Nat)
  | register correlation waiter _ _ | send correlation waiter _ _ | await correlation waiter _ => some (correlation, waiter)
  | _ => none

/-- The same, once it is registered. -/
def registered : ClientSection → Option (UInt64 × Nat)
  | send correlation waiter _ _ | await correlation waiter _ => some (correlation, waiter)
  | _ => none

/-- The stream a `subscribe` is to return. -/
def stream : ClientSection → Option Nat
  | insertSubscription _ stream _ => some stream
  | takeCorrelation _ owner | register _ _ _ owner | send _ _ _ owner | forget _ owner | await _ _ owner =>
    match owner with
    | .caller => none
    | .subscription _ stream => some stream
  | _ => none

end ClientSection

/-- How many turns a call has at most left. -/
def turnsLeft (call : ClientCall) : Nat :=
  match call.ahead with
  | [] => 0
  | section_ :: _ => section_.turns

/-! What becomes of the waiters. -/

namespace RemoteClient

/-- The id a waiter is for. -/
def correlationOf (waiter : Nat) (c : RemoteClient) : Option UInt64 := (c.waiters[waiter]?).map Waiter.correlation

/-- Waiters stay, with their ids and answers; one that leaves the map has been
answered. -/
structure Later (c c' : RemoteClient) : Prop where
  waiter : ∀ w correlation, c.correlationOf w = some correlation → c'.correlationOf w = some correlation
  answer : ∀ w, (c.answered w).isSome = true → c'.answered w = c.answered w
  resolved : ∀ correlation w, c.calls[correlation]? = some w → c.correlationOf w = some correlation →
    c'.calls[correlation]? = some w ∨ (c'.answered w).isSome = true

namespace Later

variable {c c' c'' : RemoteClient} {w : Nat} {correlation : UInt64}

theorem of_eq (waiters : c'.waiters = c.waiters) (calls : c'.calls = c.calls) : Later c c' where
  waiter w correlation own := by rwa [correlationOf, waiters]
  answer w _ := by rw [answered, waiters]; rfl
  resolved correlation w at_ _ := .inl (by rwa [calls])

theorem trans (first : Later c c') (second : Later c' c'') : Later c c'' where
  waiter w correlation own := second.waiter w correlation (first.waiter w correlation own)
  answer w some_ := by
    have kept := first.answer w some_
    exact (second.answer w (kept ▸ some_)).trans kept
  resolved correlation w at_ own := by
    rcases first.resolved correlation w at_ own with still | some_
    · exact second.resolved correlation w still (first.waiter w correlation own)
    · exact .inr (by rwa [second.answer w some_])

end Later

variable {c : RemoteClient} {w v waiter : Nat} {correlation : UInt64} {answer : WaiterAnswer}

@[simp] theorem calls_settle : (c.settle w answer).calls = c.calls := rfl

theorem correlationOf_settle : (c.settle w answer).correlationOf v = c.correlationOf v := by
  rw [correlationOf, correlationOf, settle, TaskList.getElem?_modify]
  split
  · rw [Option.map_map]
    rfl
  · rfl

theorem answered_settle_of_ne (apart : v ≠ w) : (c.settle w answer).answered v = c.answered v := by
  rw [answered, answered, settle, TaskList.getElem?_modify, if_neg apart]

theorem answered_settle_of_some (some_ : (c.answered v).isSome = true) :
    (c.settle w answer).answered v = c.answered v := by
  by_cases same : v = w
  · subst same
    obtain ⟨given, found⟩ := Option.isSome_iff_exists.mp some_
    obtain ⟨entry, here, has⟩ := Option.bind_eq_some_iff.mp found
    rw [found, answered, settle, TaskList.getElem?_modify, if_pos rfl, here]
    simp [has]
  · exact answered_settle_of_ne same

/-- A waiter that is settled has an answer. -/
theorem answered_settle (own : c.correlationOf w = some correlation) : ((c.settle w answer).answered w).isSome = true := by
  obtain ⟨entry, here, _⟩ := Option.map_eq_some_iff.mp own
  rw [answered, settle, TaskList.getElem?_modify, if_pos rfl, here]
  cases given : entry.answer <;> simp [given]

theorem Later.settle (c : RemoteClient) (w : Nat) (answer : WaiterAnswer) : Later c (c.settle w answer) where
  waiter _ _ own := correlationOf_settle.trans own
  answer _ some_ := answered_settle_of_some some_
  resolved _ _ at_ _ := .inl at_

/-- A sender is taken from the map and used, or dropped. -/
theorem Later.taken (here : c.calls[correlation]? = some w) :
    Later c { c.settle w answer with calls := c.calls.erase correlation } where
  waiter v other own := correlationOf_settle.trans own
  answer v some_ := answered_settle_of_some some_
  resolved other v at_ own := by
    by_cases same : other = correlation
    · subst same
      cases here.symm.trans at_
      exact .inr (answered_settle own)
    · refine .inl ?_
      rw [FiniteMap.getElem?_erase, if_neg same, at_]

theorem Later.dropWaiter (c : RemoteClient) (correlation : UInt64) : Later c (c.dropWaiter correlation) := by
  unfold RemoteClient.dropWaiter
  split
  · rename_i here
    exact .taken here
  · exact .of_eq rfl rfl

theorem drained_later (waiters : List Nat) (answer : WaiterAnswer) (c : RemoteClient) :
    Later c (waiters.foldl (fun c waiter => c.settle waiter answer) c) := by
  induction waiters generalizing c with
  | nil => exact .of_eq rfl rfl
  | cons waiter waiters ih => exact (Later.settle c waiter answer).trans (ih _)

theorem drained_answered {waiters : List Nat} (member : w ∈ waiters) (own : c.correlationOf w = some correlation) :
    ((waiters.foldl (fun c waiter => c.settle waiter answer) c).answered w).isSome = true := by
  induction waiters generalizing c with
  | nil => cases member
  | cons waiter waiters ih =>
    rcases List.mem_cons.mp member with rfl | later
    · have some_ : ((c.settle w answer).answered w).isSome = true := answered_settle own
      rw [List.foldl_cons, (drained_later waiters answer _).answer w some_]
      exact some_
    · exact ih later (correlationOf_settle.trans own)

/-- The sweep answers whatever is in the map. -/
theorem Later.close (c : RemoteClient) : Later c c.close where
  waiter w correlation own := (drained_later _ _ c).waiter w correlation own
  answer w some_ := (drained_later _ _ c).answer w some_
  resolved correlation w at_ own := by
    have listed : (correlation, w) ∈ c.calls.toList := ExtTreeMap.mem_toList_iff_getElem?_eq_some.mpr at_
    exact .inr (drained_answered (List.mem_map_of_mem listed) own)

theorem Later.onFrame (env : Envelope) (c : RemoteClient) : Later c (c.onFrame env) := by
  unfold RemoteClient.onFrame
  split
  · split
    · rename_i here
      exact .taken here
    · exact .of_eq rfl rfl
  · exact .of_eq rfl rfl
  · unfold toSubscription
    split <;> exact .of_eq rfl rfl
  · exact .of_eq rfl rfl

theorem erased_dropWaiter : (c.dropWaiter correlation).calls[correlation]? = none := by
  unfold dropWaiter
  split
  · exact FiniteMap.getElem?_erase.trans (if_pos rfl)
  · assumption

/-- A new waiter takes the place of one that was dropped. -/
theorem Later.insert {c : RemoteClient} {correlation : UInt64} (w : Nat) (free : c.calls[correlation]? = none) :
    Later c { c with calls := c.calls.insert correlation w } where
  waiter _ _ own := own
  answer _ _ := rfl
  resolved other v at_ _ := by
    refine .inl ?_
    rw [FiniteMap.getElem?_insert, if_neg, at_]
    rintro rfl
    rw [free] at at_
    cases at_

theorem Later.newWaiter (c : RemoteClient) (next : UInt64) (entry : Waiter) :
    Later c { c with nextCorrelation := next, waiters := c.waiters ++ [entry] } where
  waiter w correlation own := by
    obtain ⟨found, here, same⟩ := Option.map_eq_some_iff.mp own
    rw [correlationOf, TaskList.getElem?_append_of here, Option.map_some, same]
  answer w some_ := by
    obtain ⟨given, answered⟩ := Option.isSome_iff_exists.mp some_
    obtain ⟨found, here, has⟩ := Option.bind_eq_some_iff.mp answered
    rw [RemoteClient.answered, RemoteClient.answered, TaskList.getElem?_append_of here, here]
  resolved correlation w at_ _ := .inl at_

/-- All that a turn can be. -/
inductive Acts (c : RemoteClient) : ClientSection → RemoteClient → ClientTurn → Prop
  | takeSubscription (link : MockGattConnection) (characteristic : CharacteristicUuid) :
      Acts c (.takeSubscription link characteristic)
        { c with nextSubscription := c.nextSubscription + 1, streams := c.streams ++ [[]] }
        (.go [.insertSubscription c.nextSubscription c.streams.length (.subscribe link characteristic c.nextSubscription)])
  | insertSubscription (id : UInt64) (stream : Nat) (request : WireRequest) :
      Acts c (.insertSubscription id stream request) { c with subscriptions := c.subscriptions.insert id stream }
        (.go [.takeCorrelation request (.subscription id stream)])
  | takeCorrelation (request : WireRequest) (owner : CallOwner) :
      Acts c (.takeCorrelation request owner)
        { c with nextCorrelation := c.nextCorrelation + 1, waiters := c.waiters ++ [{ correlation := c.nextCorrelation }] }
        (.go [.register c.nextCorrelation c.waiters.length request owner])
  | refused {correlation : UInt64} {waiter : Nat} {request : WireRequest} {owner : CallOwner} (closed : c.closed = true) :
      Acts c (.register correlation waiter request owner) c (conclude owner (.error brokerClosed))
  | registered {correlation : UInt64} {waiter : Nat} {request : WireRequest} {owner : CallOwner} (open_ : c.closed = false) :
      Acts c (.register correlation waiter request owner)
        { c.dropWaiter correlation with calls := (c.dropWaiter correlation).calls.insert correlation waiter }
        (.go [.send correlation waiter request owner])
  | unsent {correlation : UInt64} {waiter : Nat} {request : WireRequest} {owner : CallOwner} :
      Acts c (.send correlation waiter request owner) c (.go [.forget correlation owner])
  | sent {correlation : UInt64} {waiter : Nat} {request : WireRequest} {owner : CallOwner} :
      Acts c (.send correlation waiter request owner)
        { c with outbox := c.outbox ++ [⟨correlation, .req request⟩] } (.go [.await correlation waiter owner])
  | forgot (correlation : UInt64) (owner : CallOwner) :
      Acts c (.forget correlation owner) (c.dropWaiter correlation) (conclude owner (.error brokerClosed))
  | answered {correlation : UInt64} {waiter : Nat} {owner : CallOwner} (result : Except BleError WireResponse) :
      Acts c (.await correlation waiter owner) c (conclude owner result)
  | removed (id : UInt64) (error : BleError) :
      Acts c (.removeSubscription id error) { c with subscriptions := c.subscriptions.erase id } (.end_ (.stream (.error error)))

theorem act_cases {c c' : RemoteClient} {section_ : ClientSection} {turn : ClientTurn}
    (acted : c.act section_ = some (c', turn)) : Acts c section_ c' turn := by
  cases section_ with
  | takeSubscription link characteristic =>
    cases acted
    exact .takeSubscription link characteristic
  | insertSubscription id stream request =>
    cases acted
    exact .insertSubscription id stream request
  | takeCorrelation request owner =>
    cases acted
    exact .takeCorrelation request owner
  | register correlation waiter request owner =>
    simp only [RemoteClient.act] at acted
    split at acted
    · rename_i closed
      cases acted
      exact .refused closed
    · rename_i open_
      cases acted
      exact .registered (Bool.not_eq_true _ ▸ open_)
  | send correlation waiter request owner =>
    simp only [RemoteClient.act] at acted
    split at acted
    · cases acted
      exact .unsent
    · cases acted
      exact .sent
  | forget correlation owner =>
    cases acted
    exact .forgot correlation owner
  | await correlation waiter owner =>
    simp only [RemoteClient.act] at acted
    split at acted
    · cases acted
    all_goals
      cases acted
      exact .answered _
  | removeSubscription id error =>
    cases acted
    exact .removed id error

theorem Later.act {c c' : RemoteClient} {section_ : ClientSection} {turn : ClientTurn} (acts : Acts c section_ c' turn) :
    Later c c' := by
  cases acts with
  | takeCorrelation request owner => exact .newWaiter c _ _
  | @registered correlation waiter =>
    exact (Later.dropWaiter c correlation).trans (.insert waiter erased_dropWaiter)
  | forgot correlation => exact .dropWaiter c correlation
  | _ => exact .of_eq rfl rfl

/-- Where a call's result goes. -/
theorem conclude_cases (owner : CallOwner) (result : Except BleError WireResponse) :
    (∃ final, conclude owner result = .end_ final) ∨ ∃ id error, conclude owner result = .go [.removeSubscription id error] := by
  cases owner with
  | caller => exact .inl ⟨_, rfl⟩
  | subscription id stream =>
    cases result with
    | error e => exact .inr ⟨id, e, rfl⟩
    | ok response =>
      cases response with
      | unit => exact .inl ⟨_, rfl⟩
      | _ => exact .inr ⟨id, _, rfl⟩

theorem conclude_stream {owner : CallOwner} {result : Except BleError WireResponse} {stream : Nat}
    (returned : conclude owner result = .end_ (.stream (.ok stream))) :
    (∃ id, owner = .subscription id stream) ∧ ∃ response, result = .ok response := by
  cases owner with
  | caller => cases returned
  | subscription id other =>
    cases result with
    | error e => cases returned
    | ok response =>
      cases response with
      | unit =>
        cases returned
        exact ⟨⟨id, rfl⟩, _, rfl⟩
      | _ => cases returned

theorem dropWaiter_keeps (c : RemoteClient) (correlation : UInt64) :
    (c.dropWaiter correlation).closed = c.closed ∧ (c.dropWaiter correlation).reader = c.reader ∧
      (c.dropWaiter correlation).streams = c.streams ∧ (c.dropWaiter correlation).subscriptions = c.subscriptions := by
  unfold dropWaiter
  split <;> exact ⟨rfl, rfl, rfl, rfl⟩

theorem calls_dropWaiter {other : UInt64} (there : (c.dropWaiter correlation).calls[other]? = some w) :
    c.calls[other]? = some w := by
  unfold dropWaiter at there
  split at there
  · rw [FiniteMap.getElem?_erase] at there
    split at there
    · cases there
    · exact there
  · exact there

theorem calls_onFrame {env : Envelope} {other : UInt64} (there : (c.onFrame env).calls[other]? = some w) :
    c.calls[other]? = some w := by
  unfold onFrame at there
  split at there
  · split at there
    · have erased : (c.calls.erase env.correlationId)[other]? = some w := there
      rw [FiniteMap.getElem?_erase] at erased
      split at erased
      · cases erased
      · exact erased
    · exact there
  · exact there
  · unfold toSubscription at there
    split at there <;> exact there
  · exact there

/-- A response answers the waiter that its id stands for, and no other. -/
theorem answered_onFrame {env : Envelope} (apart : c.calls[env.correlationId]? ≠ some w) :
    (c.onFrame env).answered w = c.answered w := by
  unfold onFrame
  split
  · split
    · rename_i waiter here
      exact answered_settle_of_ne fun same => apart (same ▸ here)
    · rfl
  · rfl
  · unfold toSubscription
    split <;> rfl
  · rfl

theorem onFrame_keeps (env : Envelope) (c : RemoteClient) :
    (c.onFrame env).closed = c.closed ∧ (c.onFrame env).reader = c.reader ∧
      (c.onFrame env).streams.length = c.streams.length ∧ (c.onFrame env).subscriptions = c.subscriptions := by
  unfold onFrame
  split
  · split <;> exact ⟨rfl, rfl, rfl, rfl⟩
  · exact ⟨rfl, rfl, rfl, rfl⟩
  · unfold toSubscription
    split
    · exact ⟨rfl, rfl, List.length_modify _ _ _, rfl⟩
    · exact ⟨rfl, rfl, rfl, rfl⟩
  · exact ⟨rfl, rfl, rfl, rfl⟩

theorem close_keeps (c : RemoteClient) : c.close.streams = c.streams ∧ c.close.subscriptions = c.subscriptions := by
  have kept : ∀ (waiters : List Nat) (answer : WaiterAnswer) (c : RemoteClient),
      (waiters.foldl (fun c waiter => c.settle waiter answer) c).streams = c.streams ∧
        (waiters.foldl (fun c waiter => c.settle waiter answer) c).subscriptions = c.subscriptions := by
    intro waiters answer
    induction waiters with
    | nil => exact fun c => ⟨rfl, rfl⟩
    | cons waiter waiters ih => exact fun c => ih (c.settle waiter answer)
  exact kept _ _ c

/-- A driver that registers touches neither map. -/
theorem registerEventsSender_eq (address : PeerAddress) (c : RemoteClient) :
    ∃ events outbox, c.registerEventsSender address = { c with events := events, outbox := outbox } := by
  simp only [registerEventsSender]
  split <;> exact ⟨_, _, rfl⟩

end RemoteClient

/-! What one input does. -/

namespace BrokerLink

/-- What one input can do: a turn of a call, or something around the calls. -/
inductive Stepped (s : BrokerLink) : BrokerInput → BrokerLink → Prop
  | turned {n : Nat} {call : ClientCall} {section_ : ClientSection} {rest : List ClientSection} {client : RemoteClient}
      {turn : ClientTurn} (here : s.calls[n]? = some call) (ahead : call.ahead = section_ :: rest)
      (acts : RemoteClient.Acts s.client section_ client turn) :
      Stepped s (.proceed n) ⟨client, s.calls.set n ⟨call.request, remoteClient.after rest turn⟩⟩
  | begun (request : ClientRequest) : Stepped s (.begin_ request) { s with calls := remoteClient.start request s.calls }
  | cancelled {n : Nat} {call : ClientCall} (here : s.calls[n]? = some call) :
      Stepped s (.cancel n) { s with calls := s.calls.set n ⟨call.request, .returned .cancelled⟩ }
  | registered (address : PeerAddress) :
      Stepped s (.registerEventsSender address) { s with client := s.client.registerEventsSender address }
  | frame {env : Envelope} (reading : s.client.reader = .reading) :
      Stepped s (.frame env) { s with client := s.client.onFrame env }
  | readFailed (reading : s.client.reader = .reading) : Stepped s .readFailed { s with client := s.client.close }
  | clear (closing : s.client.reader = .closing) :
      Stepped s .clear { s with client := { s.client with subscriptions := ∅, reader := .ended } }
  | writeFailed : Stepped s .writeFailed { s with client := { s.client with writerEnded := true } }

theorem step_cases {s t : BrokerLink} {input : BrokerInput} (stepped : s.step input = some t) : Stepped s input t := by
  cases input with
  | registerEventsSender address =>
    cases stepped
    exact .registered address
  | begin_ request =>
    cases stepped
    exact .begun request
  | proceed n =>
    obtain ⟨⟨client, calls⟩, proceeded, rfl⟩ := Option.map_eq_some_iff.mp stepped
    obtain ⟨call, section_, rest, turn, here, ahead, acted, rfl⟩ := Sectioned.proceed_cases proceeded
    exact .turned here ahead (RemoteClient.act_cases acted)
  | cancel n =>
    simp only [step] at stepped
    split at stepped
    · rename_i call _ _ _ _ here _
      cases stepped
      exact .cancelled here
    · cases stepped
  | frame env =>
    obtain ⟨reading, ⟨⟩⟩ := Option.ite_none_right_eq_some.mp stepped
    exact .frame reading
  | readFailed =>
    obtain ⟨reading, ⟨⟩⟩ := Option.ite_none_right_eq_some.mp stepped
    exact .readFailed reading
  | clear =>
    obtain ⟨closing, ⟨⟩⟩ := Option.ite_none_right_eq_some.mp stepped
    exact .clear closing
  | writeFailed =>
    cases stepped
    exact .writeFailed

end BrokerLink

/-- A turn ends its call, or leaves it one section with fewer turns left. -/
theorem RemoteClient.Acts.left {c c' : RemoteClient} {section_ : ClientSection} {turn : ClientTurn}
    (acts : RemoteClient.Acts c section_ c' turn) :
    (∃ result, turn = .end_ result) ∨ ∃ next, turn = .go [next] ∧ next.turns < section_.turns := by
  have concluded : ∀ owner result, 2 ≤ section_.turns →
      (∃ final, RemoteClient.conclude owner result = .end_ final) ∨
        ∃ next, RemoteClient.conclude owner result = .go [next] ∧ next.turns < section_.turns := by
    intro owner result room
    rcases RemoteClient.conclude_cases owner result with ⟨final, eq⟩ | ⟨id, error, eq⟩
    · exact .inl ⟨final, eq⟩
    · exact .inr ⟨_, eq, room⟩
  cases acts with
  | refused | forgot | answered => exact concluded _ _ (by simp [ClientSection.turns])
  | removed => exact .inl ⟨_, rfl⟩
  | _ => exact .inr ⟨_, rfl, by simp [ClientSection.turns]⟩

/-- A call is about to enter a section. -/
def At (s : BrokerLink) (n : Nat) (section_ : ClientSection) : Prop :=
  ∃ call, s.calls[n]? = some call ∧ section_ ∈ call.ahead

/-- A call never has more than one section ahead. -/
def Sole (s : BrokerLink) : Prop :=
  TaskList.Each (fun _ call => ∀ section_ rest, call.ahead = section_ :: rest → rest = []) s.calls

namespace Sole

variable {s t : BrokerLink} {n : Nat} {call : ClientCall} {section_ : ClientSection} {rest : List ClientSection}
  {client : RemoteClient} {turn : ClientTurn}

theorem after_turn (acts : RemoteClient.Acts s.client section_ client turn) :
    (remoteClient.after [] turn).ahead = [] ∨
      ∃ next, turn = .go [next] ∧ next.turns < section_.turns ∧ (remoteClient.after [] turn).ahead = [next] := by
  rcases acts.left with ⟨result, rfl⟩ | ⟨next, rfl, fewer⟩
  · exact .inl rfl
  · exact .inr ⟨next, rfl, fewer, Sectioned.ahead_go [next]⟩

theorem sections_eq (request : ClientRequest) : ∃ first, request.sections = [first] := by
  cases request <;> exact ⟨_, rfl⟩

theorem step {input : BrokerInput} (sole : Sole s) (stepped : BrokerLink.Stepped s input t) : Sole t := by
  cases stepped with
  | begun request =>
    refine sole.start ?_
    obtain ⟨first, sections⟩ := sections_eq request
    intro section_ rest ahead
    have whole : request.sections = section_ :: rest := (Sectioned.ahead_stage (P := remoteClient) _).symm.trans ahead
    rw [sections] at whole
    exact (List.cons.inj whole).2.symm
  | @turned n call section_ rest client turn here ahead acts =>
    cases sole n call here section_ rest ahead
    refine sole.set ?_
    intro next more left
    rcases after_turn acts with none_ | ⟨only, _, _, one⟩
    · have empty : [] = next :: more := none_.symm.trans left
      cases empty
    · have single : [only] = next :: more := one.symm.trans left
      exact (List.cons.inj single).2.symm
  | cancelled here =>
    refine sole.set ?_
    intro next more left
    cases left
  | _ => exact sole

end Sole

namespace At

variable {s : BrokerLink} {n m : Nat} {call : ClientCall} {section_ next : ClientSection} {client : RemoteClient}
  {turn : ClientTurn}

theorem of_turned (acts : RemoteClient.Acts s.client section_ client turn)
    (at_ : At ⟨client, s.calls.set n ⟨call.request, remoteClient.after [] turn⟩⟩ m next) :
    m = n ∧ turn = .go [next] ∨ m ≠ n ∧ At s m next := by
  obtain ⟨found, there, member⟩ := at_
  obtain ⟨rfl, rfl⟩ | ⟨apart, there⟩ := TaskList.of_set there
  · rcases Sole.after_turn acts with none_ | ⟨only, rfl, _, one⟩
    · rw [Sectioned.Call.ahead, none_] at member
      cases member
    · rw [Sectioned.Call.ahead, one, List.mem_singleton] at member
      exact .inl ⟨rfl, by rw [member]⟩
  · exact .inr ⟨apart, found, there, member⟩

theorem of_begun {request : ClientRequest} (at_ : At { s with calls := remoteClient.start request s.calls } m next) :
    At s m next ∨ m = s.calls.length ∧ next ∈ request.sections := by
  obtain ⟨found, there, member⟩ := at_
  obtain old | ⟨new, _, ahead⟩ := Sectioned.of_start there
  · exact .inl ⟨found, old, member⟩
  · rw [ahead] at member
    exact .inr ⟨new, member⟩

theorem of_cancelled (at_ : At { s with calls := s.calls.set n ⟨call.request, .returned .cancelled⟩ } m next) : At s m next := by
  obtain ⟨found, there, member⟩ := at_
  obtain ⟨rfl, rfl⟩ | ⟨_, there⟩ := TaskList.of_set there
  · cases member
  · exact ⟨found, there, member⟩

end At

/-! Every call that waits is known to the map, or has its answer. -/

structure Waiting (s : BrokerLink) : Prop where
  pending : ∀ correlation w, s.client.calls[correlation]? = some w → s.client.correlationOf w = some correlation
  own : ∀ n section_ correlation w, At s n section_ → section_.waits = some (correlation, w) →
    s.client.correlationOf w = some correlation
  known : ∀ n section_ correlation w, At s n section_ → section_.registered = some (correlation, w) →
    s.client.calls[correlation]? = some w ∨ (s.client.answered w).isSome = true

theorem ClientSection.waits_of_registered {section_ : ClientSection} {entry : UInt64 × Nat}
    (registered : section_.registered = some entry) : section_.waits = some entry := by
  cases section_ <;> first | exact registered | cases registered

namespace Waiting

variable {s t : BrokerLink}

/-- What happens to the client alone. -/
theorem later {client : RemoteClient} (waiting : Waiting s) (later : RemoteClient.Later s.client client)
    (pending : ∀ correlation w, client.calls[correlation]? = some w → client.correlationOf w = some correlation) :
    Waiting { s with client := client } where
  pending := pending
  own n section_ correlation w at_ waits := later.waiter w correlation (waiting.own n section_ correlation w at_ waits)
  known n section_ correlation w at_ registered := by
    have own := waiting.own n section_ correlation w at_ (ClientSection.waits_of_registered registered)
    rcases waiting.known n section_ correlation w at_ registered with listed | some_
    · exact later.resolved correlation w listed own
    · exact .inr (by rwa [later.answer w some_])

end Waiting

namespace RemoteClient.Acts

variable {c c' : RemoteClient} {section_ next : ClientSection} {turn : ClientTurn} {correlation : UInt64} {w : Nat}

theorem pending (acts : Acts c section_ c' turn)
    (held : ∀ correlation w, c.calls[correlation]? = some w → c.correlationOf w = some correlation)
    (own : ∀ correlation w, section_.waits = some (correlation, w) → c.correlationOf w = some correlation)
    (there : c'.calls[correlation]? = some w) : c'.correlationOf w = some correlation := by
  have later := Later.act acts
  cases acts with
  | @registered entry waiter request owner open_ =>
    have at_ : ((c.dropWaiter entry).calls.insert entry waiter)[correlation]? = some w := there
    rw [FiniteMap.getElem?_insert] at at_
    split at at_
    · rename_i same
      cases Option.some.inj at_
      exact later.waiter w correlation (same ▸ own entry w rfl)
    · exact later.waiter w correlation (held correlation w (calls_dropWaiter at_))
  | forgot => exact later.waiter w correlation (held correlation w (calls_dropWaiter there))
  | _ => exact later.waiter w correlation (held correlation w there)

theorem conclude_ne {owner : CallOwner} {result : Except BleError WireResponse} (go : conclude owner result = .go [next]) :
    next.waits = none ∧ next.stream = none := by
  rcases conclude_cases owner result with ⟨final, eq⟩ | ⟨id, error, eq⟩
  · rw [eq] at go
    cases go
  · rw [eq] at go
    cases go
    exact ⟨rfl, rfl⟩

theorem next_waits (acts : Acts c section_ c' (.go [next])) (waits : next.waits = some (correlation, w)) :
    section_.waits = some (correlation, w) ∨ c'.correlationOf w = some correlation := by
  generalize eq : Sectioned.Turn.go [next] = turn at acts
  cases acts with
  | refused | forgot | answered =>
    rw [(conclude_ne eq.symm).1] at waits
    cases waits
  | takeCorrelation request owner =>
    cases eq
    cases waits
    refine .inr ?_
    simp only [correlationOf, List.getElem?_concat_length, Option.map_some]
  | registered | sent =>
    cases eq
    exact .inl waits
  | takeSubscription | insertSubscription | unsent =>
    cases eq
    cases waits
  | removed => cases eq

theorem next_registered (acts : Acts c section_ c' (.go [next])) (registered : next.registered = some (correlation, w)) :
    section_.registered = some (correlation, w) ∨ c'.calls[correlation]? = some w := by
  generalize eq : Sectioned.Turn.go [next] = turn at acts
  cases acts with
  | refused | forgot | answered =>
    have none_ := (conclude_ne eq.symm).1
    rw [ClientSection.waits_of_registered registered] at none_
    cases none_
  | registered =>
    cases eq
    cases registered
    exact .inr (FiniteMap.getElem?_insert.trans (if_pos rfl))
  | sent =>
    cases eq
    exact .inl registered
  | takeCorrelation | takeSubscription | insertSubscription | unsent =>
    cases eq
    cases registered
  | removed => cases eq

end RemoteClient.Acts

theorem Waiting.step {s t : BrokerLink} {input : BrokerInput} (waiting : Waiting s) (sole : Sole s)
    (stepped : BrokerLink.Stepped s input t) : Waiting t := by
  cases stepped with
  | begun request =>
    have fresh : ∀ section_ ∈ request.sections, section_.waits = none := by
      cases request <;> simp [ClientRequest.sections, ClientSection.waits]
    refine ⟨waiting.pending, ?_, ?_⟩
    · intro n section_ correlation w at_ waits
      rcases at_.of_begun with old | ⟨_, new⟩
      · exact waiting.own n section_ correlation w old waits
      · rw [fresh section_ new] at waits
        cases waits
    · intro n section_ correlation w at_ registered
      rcases at_.of_begun with old | ⟨_, new⟩
      · exact waiting.known n section_ correlation w old registered
      · have none_ := fresh section_ new
        rw [ClientSection.waits_of_registered registered] at none_
        cases none_
  | cancelled here =>
    exact ⟨waiting.pending, fun n section_ correlation w at_ => waiting.own n section_ correlation w at_.of_cancelled,
      fun n section_ correlation w at_ => waiting.known n section_ correlation w at_.of_cancelled⟩
  | registered address =>
    obtain ⟨events, outbox, eq⟩ := s.client.registerEventsSender_eq address
    rw [eq]
    exact waiting.later (.of_eq rfl rfl) waiting.pending
  | @frame env reading =>
    have later := RemoteClient.Later.onFrame env s.client
    refine waiting.later later ?_
    intro correlation w there
    exact later.waiter w correlation (waiting.pending correlation w (RemoteClient.calls_onFrame there))
  | readFailed reading =>
    refine waiting.later (.close s.client) ?_
    intro correlation w there
    have none_ : (∅ : ExtTreeMap UInt64 Nat compare)[correlation]? = some w := there
    simp at none_
  | clear | writeFailed => exact waiting.later (.of_eq rfl rfl) waiting.pending
  | @turned n call section_ rest client turn here ahead acts =>
    cases sole n call here section_ rest ahead
    have mine : At s n section_ := ⟨call, here, ahead ▸ List.mem_cons_self⟩
    have own := waiting.own n section_
    have later : Waiting { s with client := client } :=
      waiting.later (.act acts) fun correlation w => acts.pending waiting.pending fun correlation w => own correlation w mine
    refine ⟨later.pending, ?_, ?_⟩
    · intro m next correlation w at_ waits
      rcases at_.of_turned acts with ⟨_, rfl⟩ | ⟨_, old⟩
      · rcases acts.next_waits waits with before | now
        · exact later.own n section_ correlation w mine before
        · exact now
      · exact later.own m next correlation w old waits
    · intro m next correlation w at_ registered
      rcases at_.of_turned acts with ⟨_, rfl⟩ | ⟨_, old⟩
      · rcases acts.next_registered registered with before | now
        · exact later.known n section_ correlation w mine before
        · exact .inl now
      · exact later.known m next correlation w old registered

/-! Closed, and with no waiter from then on. -/

structure Swept (s : BrokerLink) : Prop where
  closed : s.client.closed = true ↔ s.client.reader ≠ .reading
  empty : s.client.closed = true → ∀ correlation : UInt64, s.client.calls[correlation]? = none

/-- A turn leaves the reader alone, and what it registers it does before the end. -/
theorem RemoteClient.Acts.keeps {c c' : RemoteClient} {section_ : ClientSection} {turn : ClientTurn}
    (acts : RemoteClient.Acts c section_ c' turn) : c'.closed = c.closed ∧ c'.reader = c.reader ∧
      (c.closed = true → ∀ (correlation : UInt64) (w : Nat), c'.calls[correlation]? = some w → c.calls[correlation]? = some w) := by
  cases acts with
  | @registered correlation waiter request owner open_ =>
    obtain ⟨closed, reader, _⟩ := RemoteClient.dropWaiter_keeps c correlation
    exact ⟨closed, reader, fun shut => absurd (shut.symm.trans open_) (by decide)⟩
  | forgot correlation owner =>
    obtain ⟨closed, reader, _⟩ := RemoteClient.dropWaiter_keeps c correlation
    exact ⟨closed, reader, fun _ other w there => RemoteClient.calls_dropWaiter there⟩
  | _ => exact ⟨rfl, rfl, fun _ _ _ there => there⟩

theorem Swept.step {s t : BrokerLink} {input : BrokerInput} (swept : Swept s) (stepped : BrokerLink.Stepped s input t) :
    Swept t := by
  cases stepped with
  | begun | cancelled => exact ⟨swept.closed, swept.empty⟩
  | registered address =>
    obtain ⟨events, outbox, eq⟩ := s.client.registerEventsSender_eq address
    rw [eq]
    exact ⟨swept.closed, swept.empty⟩
  | @frame env reading =>
    obtain ⟨closed, reader, _⟩ := RemoteClient.onFrame_keeps env s.client
    refine ⟨by rw [closed, reader]; exact swept.closed, ?_⟩
    intro shut
    exact absurd reading (swept.closed.mp (closed.symm.trans shut))
  | readFailed reading => exact ⟨by simp [RemoteClient.close], fun _ correlation => by simp [RemoteClient.close]⟩
  | clear closing =>
    have shut : s.client.closed = true := swept.closed.mpr (by rw [closing]; decide)
    exact ⟨⟨fun _ => by simp, fun _ => shut⟩, swept.empty⟩
  | writeFailed => exact ⟨swept.closed, swept.empty⟩
  | turned here ahead acts =>
    obtain ⟨closed, reader, calls⟩ := acts.keeps
    refine ⟨by rw [closed, reader]; exact swept.closed, ?_⟩
    intro shut correlation
    have was : s.client.closed = true := closed.symm.trans shut
    rw [Option.eq_none_iff_forall_ne_some]
    intro w there
    have listed := calls was correlation w there
    rw [swept.empty was correlation] at listed
    cases listed

/-! The streams: each is one subscription's, and none is left at the end. -/

/-- A `subscribe` has returned the stream. -/
def Returned (s : BrokerLink) (n k : Nat) : Prop :=
  ∃ call, s.calls[n]? = some call ∧ call.stage = .returned (.stream (.ok k))

def streamOf : Sectioned.Stage ClientSection ClientResult → Option Nat
  | .returned (.stream (.ok stream)) => some stream
  | _ => none

theorem streamOf_eq_some {stage : Sectioned.Stage ClientSection ClientResult} {k : Nat} (is : streamOf stage = some k) :
    stage = .returned (.stream (.ok k)) := by
  unfold streamOf at is
  split at is
  · rw [Option.some.inj is]
  · simp at is

/-- The stream is a call's: it is to return it, or has. -/
def Mentions (s : BrokerLink) (n k : Nat) : Prop :=
  (∃ section_, At s n section_ ∧ section_.stream = some k) ∨ Returned s n k

/-- The same, its waiter having been registered. -/
def Granted (s : BrokerLink) (n k : Nat) : Prop :=
  (∃ section_, At s n section_ ∧ section_.stream = some k ∧ section_.registered.isSome = true) ∨ Returned s n k

theorem Granted.mentions {s : BrokerLink} {n k : Nat} (granted : Granted s n k) : Mentions s n k := by
  rcases granted with ⟨section_, at_, stream, _⟩ | returned
  · exact .inl ⟨section_, at_, stream⟩
  · exact .inr returned

structure Streams (s : BrokerLink) : Prop where
  numbered : ∀ n k, Mentions s n k → k < s.client.streams.length
  apart : ∀ n m k, Mentions s n k → Mentions s m k → n = m
  ended : s.client.reader = .ended → ∀ n k, Granted s n k → ∀ id : UInt64, s.client.subscriptions[id]? ≠ some k

namespace RemoteClient.Acts

variable {c c' : RemoteClient} {section_ next : ClientSection} {turn : ClientTurn} {k : Nat}

/-- The stream a call comes to be about is new, or was its own. -/
theorem next_stream (acts : Acts c section_ c' (.go [next])) (stream : next.stream = some k) :
    section_.stream = some k ∨ k = c.streams.length ∧ c'.streams.length = c.streams.length + 1 := by
  generalize eq : Sectioned.Turn.go [next] = turn at acts
  cases acts with
  | refused | forgot | answered =>
    rw [(conclude_ne eq.symm).2] at stream
    cases stream
  | takeSubscription =>
    cases eq
    cases stream
    exact .inr ⟨rfl, by simp⟩
  | removed => cases eq
  | _ =>
    cases eq
    exact .inl stream

/-- Only a call whose waiter was registered returns a stream. -/
theorem returned_stream (acts : Acts c section_ c' (.end_ (.stream (.ok k)))) :
    section_.stream = some k ∧ section_.registered.isSome = true := by
  generalize eq : Sectioned.Turn.end_ (ClientResult.stream (.ok k)) = turn at acts
  cases acts with
  | refused | forgot =>
    obtain ⟨_, response, ok⟩ := conclude_stream eq.symm
    cases ok
  | answered result =>
    obtain ⟨⟨id, rfl⟩, _⟩ := conclude_stream eq.symm
    exact ⟨rfl, rfl⟩
  | _ => cases eq

/-- A call is registered before the end. -/
theorem next_granted (acts : Acts c section_ c' (.go [next])) (stream : next.stream = some k)
    (registered : next.registered.isSome = true) :
    section_.stream = some k ∧ section_.registered.isSome = true ∨ c.closed = false := by
  generalize eq : Sectioned.Turn.go [next] = turn at acts
  cases acts with
  | refused | forgot | answered =>
    rw [(conclude_ne eq.symm).2] at stream
    cases stream
  | registered open_ => exact .inr open_
  | sent =>
    cases eq
    exact .inl ⟨stream, rfl⟩
  | removed => cases eq
  | _ =>
    cases eq
    cases registered

theorem streams_le (acts : Acts c section_ c' turn) : c.streams.length ≤ c'.streams.length := by
  cases acts with
  | takeSubscription => simp
  | @registered correlation => simp [(dropWaiter_keeps c correlation).2.2.1]
  | forgot correlation => simp [(dropWaiter_keeps c correlation).2.2.1]
  | _ => exact Nat.le_refl _

/-- A subscription that is there after a turn was there, or its call puts it there. -/
theorem subscribed (acts : Acts c section_ c' turn) {id : UInt64} (there : c'.subscriptions[id]? = some k) :
    c.subscriptions[id]? = some k ∨ section_.stream = some k ∧ section_.registered = none ∧
      ∃ next, turn = .go [next] ∧ next.registered = none := by
  cases acts with
  | insertSubscription entry stream request =>
    have at_ : (c.subscriptions.insert entry stream)[id]? = some k := there
    rw [FiniteMap.getElem?_insert] at at_
    split at at_
    · cases Option.some.inj at_
      exact .inr ⟨rfl, rfl, _, rfl, rfl⟩
    · exact .inl at_
  | removed entry error =>
    have at_ : (c.subscriptions.erase entry)[id]? = some k := there
    rw [FiniteMap.getElem?_erase] at at_
    split at at_
    · cases at_
    · exact .inl at_
  | @registered correlation =>
    exact .inl (by simpa only [(dropWaiter_keeps c correlation).2.2.2] using there)
  | forgot correlation =>
    exact .inl (by simpa only [(dropWaiter_keeps c correlation).2.2.2] using there)
  | _ => exact .inl there

end RemoteClient.Acts

section Turned

variable {s : BrokerLink} {n m k : Nat} {call : ClientCall} {section_ : ClientSection} {client : RemoteClient} {turn : ClientTurn}

/-- A call that returns a stream was about to. -/
theorem Returned.of_turned (here : s.calls[n]? = some call) (ahead : call.ahead = [section_])
    (acts : RemoteClient.Acts s.client section_ client turn)
    (returned : Returned ⟨client, s.calls.set n ⟨call.request, remoteClient.after [] turn⟩⟩ m k) : Granted s m k := by
  obtain ⟨found, there, stage⟩ := returned
  obtain ⟨rfl, rfl⟩ | ⟨_, there⟩ := TaskList.of_set there
  · cases turn with
    | go first => cases first <;> cases stage
    | end_ result =>
      cases stage
      obtain ⟨stream, registered⟩ := acts.returned_stream
      exact .inl ⟨section_, ⟨call, here, ahead ▸ List.mem_cons_self⟩, stream, registered⟩
  · exact .inr ⟨found, there, stage⟩

theorem Mentions.of_turned (here : s.calls[n]? = some call) (ahead : call.ahead = [section_])
    (acts : RemoteClient.Acts s.client section_ client turn)
    (mentions : Mentions ⟨client, s.calls.set n ⟨call.request, remoteClient.after [] turn⟩⟩ m k) :
    Mentions s m k ∨ m = n ∧ k = s.client.streams.length ∧ client.streams.length = s.client.streams.length + 1 := by
  rcases mentions with ⟨next, at_, stream⟩ | returned
  · rcases at_.of_turned acts with ⟨rfl, rfl⟩ | ⟨_, old⟩
    · rcases acts.next_stream stream with own | fresh
      · exact .inl (.inl ⟨section_, ⟨call, here, ahead ▸ List.mem_cons_self⟩, own⟩)
      · exact .inr ⟨rfl, fresh⟩
    · exact .inl (.inl ⟨next, old, stream⟩)
  · exact .inl (returned.of_turned here ahead acts).mentions

theorem Granted.of_turned (here : s.calls[n]? = some call) (ahead : call.ahead = [section_])
    (acts : RemoteClient.Acts s.client section_ client turn)
    (granted : Granted ⟨client, s.calls.set n ⟨call.request, remoteClient.after [] turn⟩⟩ m k) :
    Granted s m k ∨ s.client.closed = false := by
  rcases granted with ⟨next, at_, stream, registered⟩ | returned
  · rcases at_.of_turned acts with ⟨rfl, rfl⟩ | ⟨_, old⟩
    · rcases acts.next_granted stream registered with ⟨own, before⟩ | open_
      · exact .inl (.inl ⟨section_, ⟨call, here, ahead ▸ List.mem_cons_self⟩, own, before⟩)
      · exact .inr open_
    · exact .inl (.inl ⟨next, old, stream, registered⟩)
  · exact .inl (returned.of_turned here ahead acts)

end Turned

namespace Streams

variable {s t : BrokerLink}

/-- What happens to the client alone, the reader not having ended before. -/
theorem later {client : RemoteClient} (streams : Streams s) (length : client.streams.length = s.client.streams.length)
    (ended : client.reader = .ended → ∀ n k, Granted s n k → ∀ id : UInt64, client.subscriptions[id]? ≠ some k) :
    Streams { s with client := client } where
  numbered n k mentions := length ▸ streams.numbered n k mentions
  apart := streams.apart
  ended := ended

/-- A change of the calls that gives none of them a stream. -/
theorem of_less {calls : List ClientCall} (streams : Streams s)
    (at_ : ∀ n section_, At { s with calls := calls } n section_ → At s n section_ ∨ section_.stream = none)
    (returned : ∀ n k, Returned { s with calls := calls } n k → Returned s n k) : Streams { s with calls := calls } := by
  have mentions : ∀ n k, Mentions { s with calls := calls } n k → Mentions s n k := by
    rintro n k (⟨section_, there, stream⟩ | there)
    · rcases at_ n section_ there with old | none_
      · exact .inl ⟨section_, old, stream⟩
      · rw [none_] at stream
        cases stream
    · exact .inr (returned n k there)
  refine ⟨fun n k there => streams.numbered n k (mentions n k there),
    fun n m k first second => streams.apart n m k (mentions n k first) (mentions m k second), ?_⟩
  rintro over_ n k (⟨section_, there, stream, registered⟩ | there)
  · rcases at_ n section_ there with old | none_
    · exact streams.ended over_ n k (.inl ⟨section_, old, stream, registered⟩)
    · rw [none_] at stream
      cases stream
  · exact streams.ended over_ n k (.inr (returned n k there))

theorem step {input : BrokerInput} (streams : Streams s) (sole : Sole s) (swept : Swept s)
    (stepped : BrokerLink.Stepped s input t) : Streams t := by
  cases stepped with
  | begun request =>
    have fresh : ∀ section_ ∈ request.sections, section_.stream = none := by
      cases request <;> simp [ClientRequest.sections, ClientSection.stream]
    refine streams.of_less ?_ ?_
    · intro n section_ at_
      rcases at_.of_begun with old | ⟨_, new⟩
      · exact .inl old
      · exact .inr (fresh section_ new)
    · rintro n k ⟨call, there, stage⟩
      obtain old | ⟨_, _, ahead⟩ := Sectioned.of_start there
      · exact ⟨call, old, stage⟩
      · obtain ⟨first, sections⟩ := Sole.sections_eq request
        rw [Sectioned.Call.ahead, stage] at ahead
        exact absurd (ahead.trans sections) (by simp [Sectioned.Stage.ahead])
  | @cancelled n call here =>
    refine streams.of_less (fun m section_ at_ => .inl at_.of_cancelled) ?_
    rintro m k ⟨found, there, stage⟩
    obtain ⟨rfl, rfl⟩ | ⟨_, there⟩ := TaskList.of_set there
    · cases stage
    · exact ⟨found, there, stage⟩
  | registered address =>
    obtain ⟨events, outbox, eq⟩ := s.client.registerEventsSender_eq address
    rw [eq]
    exact streams.later rfl streams.ended
  | @frame env reading =>
    obtain ⟨_, reader, length, subscriptions⟩ := RemoteClient.onFrame_keeps env s.client
    refine streams.later length ?_
    rw [reader, subscriptions]
    exact streams.ended
  | readFailed reading =>
    obtain ⟨length, _⟩ := RemoteClient.close_keeps s.client
    exact streams.later (by rw [length]) fun over_ => by cases over_
  | clear closing =>
    refine streams.later rfl ?_
    intro _ n k _ id
    simp
  | writeFailed => exact streams.later rfl streams.ended
  | @turned n call section_ rest client turn here ahead acts =>
    cases sole n call here section_ rest ahead
    have mine : At s n section_ := ⟨call, here, ahead ▸ List.mem_cons_self⟩
    refine ⟨?_, ?_, ?_⟩
    · intro m k mentions
      rcases mentions.of_turned here ahead acts with old | ⟨_, new, longer⟩
      · exact Nat.lt_of_lt_of_le (streams.numbered m k old) acts.streams_le
      · change k < client.streams.length
        omega
    · intro m m' k first second
      rcases first.of_turned here ahead acts with old | ⟨rfl, new, _⟩ <;>
        rcases second.of_turned here ahead acts with old' | ⟨rfl, new', _⟩
      · exact streams.apart m m' k old old'
      · exact absurd (streams.numbered m k old) (by omega)
      · exact absurd (streams.numbered m' k old') (by omega)
      · rfl
    · intro over_ m k granted id there
      obtain ⟨_, reader, _⟩ := acts.keeps
      have was : s.client.reader = .ended := reader.symm.trans over_
      have shut : s.client.closed = true := swept.closed.mpr (by rw [was]; decide)
      have before : Granted s m k := by
        rcases granted.of_turned here ahead acts with before | open_
        · exact before
        · rw [shut] at open_
          cases open_
      rcases acts.subscribed there with old | ⟨stream, unregistered, _⟩
      · exact streams.ended was m k before id old
      · -- The call that puts it there has not been registered, and no other has its stream.
        cases streams.apart n m k (.inl ⟨section_, mine, stream⟩) before.mentions
        rcases before with ⟨other, ⟨found, there', member⟩, _, registered⟩ | ⟨found, there', stage⟩
        · cases here.symm.trans there'
          rw [ahead, List.mem_singleton] at member
          rw [member, unregistered] at registered
          cases registered
        · cases here.symm.trans there'
          rw [Sectioned.Call.ahead, stage] at ahead
          cases ahead

end Streams

/-- What holds of a client's calls and streams. -/
structure Settled (s : BrokerLink) : Prop where
  unregistered : s.client.closed = true → s.client.calls = ∅
  closed : s.client.closed = true → ∀ input t, s.step input = some t → t.client.closed = true
  resolved : s.client.closed = true → ∀ n section_ correlation w, At s n section_ →
    section_.registered = some (correlation, w) → (s.client.answered w).isSome = true
  /-- A call that has not returned does not have to wait, and gets nearer to its return. -/
  released : s.client.closed = true → ∀ n call, s.calls[n]? = some call → call.ahead ≠ [] →
    ∃ t after, s.step (.proceed n) = some t ∧ t.calls[n]? = some after ∧ turnsLeft after < turnsLeft call
  matched : ∀ env response t, env.frame = .resp response → s.step (.frame env) = some t →
    ∀ n section_ correlation w, At s n section_ → section_.waits = some (correlation, w) →
      correlation ≠ env.correlationId → t.client.answered w = s.client.answered w
  ended : s.client.reader = .ended → ∀ n k, Returned s n k → ∀ id : UInt64, s.client.subscriptions[id]? ≠ some k

namespace BrokerLink

variable {s t : BrokerLink}

theorem reach_sound (reach : machine.Reach s) : Sole s ∧ Waiting s ∧ Swept s ∧ Streams s := by
  refine Machine.Reach.invariant (P := fun s => Sole s ∧ Waiting s ∧ Swept s ∧ Streams s) ?_ ?_ reach
  · rintro s rfl
    have nowhere : ∀ n section_, ¬At {} n section_ := by
      rintro n section_ ⟨call, there, _⟩
      simp at there
    have none_ : ∀ n k, ¬Mentions {} n k := by
      rintro n k (⟨section_, at_, _⟩ | ⟨call, there, _⟩)
      · exact nowhere n section_ at_
      · simp at there
    refine ⟨fun n call there => by simp at there, ⟨by simp, ?_, ?_⟩, ⟨by simp, by simp⟩, ⟨?_, ?_, by simp⟩⟩
    · exact fun n section_ _ _ at_ => absurd at_ (nowhere n section_)
    · exact fun n section_ _ _ at_ => absurd at_ (nowhere n section_)
    · exact fun n k mentions => absurd mentions (none_ n k)
    · exact fun n _ k mentions => absurd mentions (none_ n k)
  · rintro s input t _ ⟨sole, waiting, swept, streams⟩ stepped
    have cases_ := step_cases stepped
    exact ⟨sole.step cases_, waiting.step sole cases_, swept.step cases_, streams.step sole swept cases_⟩

theorem closed_step {input : BrokerInput} (shut : s.client.closed = true) (stepped : Stepped s input t) :
    t.client.closed = true := by
  cases stepped with
  | registered address =>
    obtain ⟨events, outbox, eq⟩ := s.client.registerEventsSender_eq address
    rw [eq]
    exact shut
  | @frame env => exact (RemoteClient.onFrame_keeps env s.client).1.trans shut
  | readFailed => rfl
  | turned here ahead acts => exact acts.keeps.1.trans shut
  | _ => exact shut

/-- A section waits for nothing but an answer. -/
theorem act_isSome {c : RemoteClient} {section_ : ClientSection}
    (answered : ∀ correlation w, section_.registered = some (correlation, w) → (c.answered w).isSome = true) :
    (c.act section_).isSome = true := by
  cases section_ with
  | await correlation waiter owner =>
    obtain ⟨answer, given⟩ := Option.isSome_iff_exists.mp (answered correlation waiter rfl)
    simp only [RemoteClient.act, given]
    cases answer with
    | dropped => rfl
    | response response => cases response <;> rfl
  | register =>
    simp only [RemoteClient.act]
    split <;> rfl
  | send =>
    simp only [RemoteClient.act]
    split <;> rfl
  | _ => rfl

/-- A turn of a call whose section does not wait. -/
theorem proceed_nearer {n : Nat} {call : ClientCall} {section_ : ClientSection} (here : s.calls[n]? = some call)
    (ahead : call.ahead = [section_]) (ready : (s.client.act section_).isSome = true) :
    ∃ t after, s.step (.proceed n) = some t ∧ t.calls[n]? = some after ∧ turnsLeft after < turnsLeft call := by
  obtain ⟨⟨client, turn⟩, acted⟩ := Option.isSome_iff_exists.mp ready
  refine ⟨⟨client, s.calls.set n ⟨call.request, remoteClient.after [] turn⟩⟩, _, ?_, TaskList.getElem?_set_self here, ?_⟩
  · have acted' : remoteClient.act s.client section_ = some (client, turn) := acted
    simp only [step, Sectioned.proceed, here, Sectioned.next_eq_some.mpr ⟨call, here, ahead⟩, acted', Option.map_some]
  · have left : turnsLeft call = section_.turns := by rw [turnsLeft, ahead]
    rw [left]
    rcases Sole.after_turn (RemoteClient.act_cases acted) with none_ | ⟨next, _, fewer, one⟩
    · rw [turnsLeft, Sectioned.Call.ahead, none_]
      cases section_ <;> simp [ClientSection.turns]
    · rw [turnsLeft, Sectioned.Call.ahead, one]
      exact fewer

/-- Every way the calls, the frames and the end of the reader can interleave
leaves no call waiting and no stream open. -/
theorem reach_settled (reach : machine.Reach s) : Settled s := by
  obtain ⟨sole, waiting, swept, streams⟩ := reach_sound reach
  have resolved : s.client.closed = true → ∀ n section_ correlation w, At s n section_ →
      section_.registered = some (correlation, w) → (s.client.answered w).isSome = true := by
    intro shut n section_ correlation w at_ registered
    rcases waiting.known n section_ correlation w at_ registered with listed | some_
    · rw [swept.empty shut correlation] at listed
      cases listed
    · exact some_
  refine ⟨?_, ?_, resolved, ?_, ?_, fun over_ n k returned => streams.ended over_ n k (.inr returned)⟩
  · intro shut
    exact ExtTreeMap.ext_getElem? fun correlation => by simp [swept.empty shut correlation]
  · intro shut input t stepped
    exact closed_step shut (step_cases stepped)
  · intro shut n call here ahead
    obtain ⟨section_, rest, eq⟩ := List.exists_cons_of_ne_nil ahead
    cases sole n call here section_ rest eq
    have at_ : At s n section_ := ⟨call, here, eq ▸ List.mem_cons_self⟩
    exact proceed_nearer here eq (act_isSome fun correlation w => resolved shut n section_ correlation w at_)
  · intro env response t frame stepped n section_ correlation w at_ waits apart
    obtain ⟨reading, ⟨⟩⟩ := Option.ite_none_right_eq_some.mp stepped
    have own := waiting.own n section_ correlation w at_ waits
    refine RemoteClient.answered_onFrame ?_
    intro listed
    have theirs := waiting.pending env.correlationId w listed
    exact apart (Option.some.inj (own.symm.trans theirs))

/-- One `subscribe` has its stream, another call its waiter, and the reader ends. -/
def endsEarly (link : MockGattConnection) : List BrokerInput :=
  let subscribes : List BrokerInput := .begin_ (.subscribe link ⟨2⟩) :: List.replicate 5 (.proceed 0)
  let answered : List BrokerInput := [.frame ⟨1, .resp .unit⟩, .proceed 0]
  let calls : List BrokerInput := .begin_ (.call (.connect ⟨"central"⟩ ⟨"peripheral"⟩)) :: List.replicate 3 (.proceed 1)
  subscribes ++ answered ++ calls ++ [.readFailed, .clear]

theorem reach_settled_ended : ∃ s, machine.Reach s ∧ s.client.reader = .ended ∧ Returned s 0 0 ∧
    (∃ call, s.calls[1]? = some call ∧ 0 < turnsLeft call) ∧ Settled s := by
  obtain ⟨s, reach, reached⟩ := Machine.Reach.exists_of_follow machine
    (fun s => decide (s.client.reader = .ended) &&
      (s.calls[0]?).any (fun call : ClientCall => decide (streamOf call.stage = some 0)) &&
      (s.calls[1]?).any fun call : ClientCall => decide (0 < turnsLeft call)) (s := {}) rfl
    (endsEarly ⟨0, ⟨"central"⟩, ⟨"peripheral"⟩⟩) (by decide +kernel)
  simp only [Bool.and_eq_true, decide_eq_true_eq, Option.any_eq_true] at reached
  obtain ⟨⟨ended, call, here, stage⟩, other, there, left⟩ := reached
  exact ⟨s, reach, ended, ⟨call, here, streamOf_eq_some stage⟩, ⟨other, there, left⟩, reach_settled reach⟩

end BrokerLink

end BleGatt
