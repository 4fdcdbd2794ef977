import BleGatt.Drivers.ClientLedger

namespace BleGatt
open Std

/-! Whose subscription is whose: an id is one call's, and what a call is to
return stays subscribed until the client's reader is over. -/

theorem subscriptionId_inj {j k : Nat} (first : j < 2 ^ 64) (second : k < 2 ^ 64)
    (same : subscriptionId j = subscriptionId k) : j = k := by
  have numbers : (UInt64.ofNat j).toNat = (UInt64.ofNat k).toNat := congrArg UInt64.toNat same
  rwa [UInt64.toNat_ofNat_of_lt' first, UInt64.toNat_ofNat_of_lt' second] at numbers

namespace ClientSection

/-- The id its call subscribes under. -/
def subscription : ClientSection → Option UInt64
  | insertSubscription id _ _ | removeSubscription id _ => some id
  | takeCorrelation _ owner | register _ _ _ owner | send _ _ _ owner | forget _ owner | await _ _ owner =>
    match owner with
    | .caller => none
    | .subscription id _ => some id
  | takeSubscription _ _ => none

end ClientSection

namespace RemoteClient

variable {c c' : RemoteClient} {section_ next : ClientSection} {turn : ClientTurn}

theorem conclude_removes {owner : CallOwner} {result : Except BleError WireResponse} (go : conclude owner result = .go [next]) :
    ∃ id stream e, owner = .subscription id stream ∧ next = .removeSubscription id e := by
  cases owner with
  | caller => cases go
  | subscription id stream =>
    cases result with
    | error e =>
      cases go
      exact ⟨id, stream, e, rfl, rfl⟩
    | ok response =>
      cases response <;> cases go <;> exact ⟨id, stream, _, rfl, rfl⟩

namespace Acts

/-- The id a call comes to be about is new, or was its own. -/
theorem next_subscription {id : UInt64} (acts : Acts c section_ c' (.go [next])) (is : next.subscription = some id) :
    section_.subscription = some id ∨ id = c.nextSubscription ∧ c'.streams.length = c.streams.length + 1 := by
  have concluded : ∀ (owner : CallOwner) result, .go [next] = conclude owner result →
      ∃ stream, owner = .subscription id stream := by
    intro owner result eq
    obtain ⟨other, stream, e, rfl, rfl⟩ := conclude_removes eq.symm
    cases is
    exact ⟨stream, rfl⟩
  generalize eq : Sectioned.Turn.go [next] = turn at acts
  cases acts with
  | refused | forgot | answered =>
    obtain ⟨stream, rfl⟩ := concluded _ _ eq
    exact .inl rfl
  | takeSubscription =>
    cases eq
    cases is
    exact .inr ⟨rfl, by simp⟩
  | removed => cases eq
  | _ =>
    cases eq
    exact .inl is

theorem grew (acts : Acts c section_ c' turn) (more : c'.streams.length = c.streams.length + 1) :
    ∃ link characteristic, section_ = .takeSubscription link characteristic ∧
      turn = .go [.insertSubscription c.nextSubscription c.streams.length (.subscribe link characteristic c.nextSubscription)] := by
  cases acts with
  | takeSubscription link characteristic => exact ⟨link, characteristic, rfl, rfl⟩
  | @registered correlation =>
    have same : (c.dropWaiter correlation).streams.length = c.streams.length + 1 := more
    rw [(dropWaiter_keeps c correlation).2.2.1] at same
    omega
  | forgot correlation =>
    rw [(dropWaiter_keeps c correlation).2.2.1] at more
    omega
  | _ => exact absurd more (Nat.ne_of_lt (Nat.lt_succ_self _))

theorem returned_await {k : Nat} (acts : Acts c section_ c' (.end_ (.stream (.ok k)))) :
    ∃ r w id, section_ = .await r w (.subscription id k) := by
  generalize eq : Sectioned.Turn.end_ (ClientResult.stream (.ok k)) = turn at acts
  cases acts with
  | refused | forgot =>
    obtain ⟨_, response, ok⟩ := conclude_stream eq.symm
    cases ok
  | answered result =>
    obtain ⟨⟨id, rfl⟩, _⟩ := conclude_stream eq.symm
    exact ⟨_, _, id, rfl⟩
  | _ => cases eq

theorem subscriptions_cases (acts : Acts c section_ c' turn) :
    (∃ id stream request, section_ = .insertSubscription id stream request ∧
      c'.subscriptions = c.subscriptions.insert id stream ∧ turn = .go [.takeCorrelation request (.subscription id stream)]) ∨
    (∃ id e, section_ = .removeSubscription id e ∧ c'.subscriptions = c.subscriptions.erase id ∧
      turn = .end_ (.stream (.error e))) ∨
    c'.subscriptions = c.subscriptions ∧ ∀ id stream request, section_ ≠ .insertSubscription id stream request := by
  cases acts with
  | insertSubscription id stream request => exact .inl ⟨id, stream, request, rfl, rfl, rfl⟩
  | removed id e => exact .inr (.inl ⟨id, e, rfl, rfl, rfl⟩)
  | @registered correlation => exact .inr (.inr ⟨(dropWaiter_keeps c correlation).2.2.2, nofun⟩)
  | forgot correlation => exact .inr (.inr ⟨(dropWaiter_keeps c correlation).2.2.2, nofun⟩)
  | _ => exact .inr (.inr ⟨rfl, nofun⟩)

end Acts

end RemoteClient

/-- Call `n` took the id, and is about it or has asked the broker under it. -/
def Took (written : List (Option (Nat × Nat))) (s : BrokerLink) (n : Nat) (id : UInt64) : Prop :=
  (∃ section_, At s n section_ ∧ section_.subscription = some id) ∨
    ∃ p w link characteristic owner, Put written s n p w (.subscribe link characteristic id) owner

structure Subscribed (written : List (Option (Nat × Nat))) (s : BrokerLink) : Prop where
  plain : ∀ n link characteristic id, requestOf s n ≠ some (.call (.subscribe link characteristic id))
  taken : ∀ n id, Took written s n id → ∃ k, k < s.client.streams.length ∧ id = subscriptionId k
  apart : s.client.streams.length < 2 ^ 64 → ∀ n m id, Took written s n id → Took written s m id → n = m
  returned : ∀ n k, Returned s n k → Took written s n (subscriptionId k)
  entries : ∀ (id : UInt64) k, s.client.subscriptions[id]? = some k → id = subscriptionId k
  kept : s.client.streams.length < 2 ^ 64 → s.client.reader = .reading → ∀ n k, Mentions s n k →
    (∃ id request, At s n (.insertSubscription id k request)) ∨ s.client.subscriptions[subscriptionId k]? = some k

namespace Subscribed

variable {written written' : List (Option (Nat × Nat))} {s t : BrokerLink} {n m k : Nat} {section_ : ClientSection}

theorem asked_of_at (at_ : At s n section_) : ∃ whole, requestOf s n = some whole := by
  obtain ⟨call, there, _⟩ := at_
  exact ⟨call.request, by rw [requestOf, there]; rfl⟩

theorem subscription_of_asks {whole : ClientRequest} {request : WireRequest} {id : UInt64}
    (asks : whole.Asks request (.subscription id k)) : id = subscriptionId k := by
  cases whole with
  | call request => cases asks.2
  | subscribe link characteristic =>
    obtain ⟨stream, _, owner⟩ := asks
    cases owner
    rfl

theorem request_of_asks {whole : ClientRequest} {request : WireRequest} {id : UInt64}
    (asks : whole.Asks request (.subscription id k)) :
    ∃ link characteristic, request = .subscribe link characteristic (subscriptionId k) := by
  cases whole with
  | call request => cases asks.2
  | subscribe link characteristic =>
    obtain ⟨stream, request, owner⟩ := asks
    cases owner
    exact ⟨link, characteristic, request⟩

/-- The stream a call is to return has the number of its id. -/
theorem named (ledger : Ledger written s) (at_ : At s n section_) (stream : section_.stream = some k) :
    section_.subscription = some (subscriptionId k) := by
  obtain ⟨whole, asked⟩ := asked_of_at at_
  have serves := ledger.serves n section_ whole at_ asked
  have of_owner : ∀ owner : CallOwner, (∃ request, whole.Asks request owner) →
      (match owner with | .caller => none | .subscription _ stream => some stream) = some k →
      (match owner with | .caller => none | .subscription id _ => some id) = some (subscriptionId k) := by
    rintro owner ⟨request, asks⟩ is
    cases owner with
    | caller => cases is
    | subscription id other =>
      cases is
      exact congrArg some (subscription_of_asks asks)
  cases section_ with
  | insertSubscription id other request =>
    cases stream
    exact congrArg some (subscription_of_asks serves)
  | takeCorrelation request owner | register _ _ request owner | send _ _ request owner => exact of_owner owner ⟨request, serves⟩ stream
  | forget _ owner => exact of_owner owner serves stream
  | await r w owner =>
    obtain ⟨p, request, put⟩ := ledger.awaits n r w owner at_
    obtain ⟨found, is, asks⟩ := put.asks
    cases Option.some.inj (asked.symm.trans is)
    exact of_owner owner ⟨request, asks⟩ stream
  | takeSubscription | removeSubscription => cases stream

theorem took_of_mentions (subscribed : Subscribed written s) (ledger : Ledger written s) (mentions : Mentions s n k) :
    Took written s n (subscriptionId k) := by
  rcases mentions with ⟨section_, at_, stream⟩ | returned
  · exact .inl ⟨section_, at_, named ledger at_ stream⟩
  · exact subscribed.returned n k returned

/-- A frame that is put in the outbox was about to be. -/
def Back (written written' : List (Option (Nat × Nat))) (s t : BrokerLink) : Prop :=
  ∀ n p w request owner, Put written' t n p w request owner →
    Put written s n p w request owner ∨ ∃ r owner, At s n (.send r w request owner)

theorem took_of_put (subscribed : Subscribed written s) (ledger : Ledger written s) (back : Back written written' s t)
    {p w : Nat} {link : MockGattConnection} {characteristic : CharacteristicUuid} {id : UInt64} {owner : CallOwner}
    (put : Put written' t n p w (.subscribe link characteristic id) owner) : Took written s n id := by
  rcases back n p w _ owner put with old | ⟨r, owner', sends⟩
  · exact .inr ⟨p, w, link, characteristic, owner, old⟩
  · obtain ⟨whole, asked⟩ := asked_of_at sends
    have asks : whole.Asks (.subscribe link characteristic id) owner' := ledger.serves n _ whole sends asked
    cases whole with
    | call request => exact absurd (asks.1 ▸ asked) (subscribed.plain n link characteristic id)
    | subscribe =>
      obtain ⟨stream, request, rfl⟩ := asks
      cases request
      exact .inl ⟨_, sends, rfl⟩

theorem took_forth (forth : Puts written written' s t) {id : UInt64}
    (at_ : ∀ section_, At s n section_ → section_.subscription = some id → Took written' t n id) (took : Took written s n id) :
    Took written' t n id := by
  rcases took with ⟨section_, there, is⟩ | ⟨p, w, link, characteristic, owner, put⟩
  · exact at_ section_ there is
  · exact .inr ⟨p, w, link, characteristic, owner, forth n p w _ owner put⟩

/-- A change in which no call goes on, and nothing is subscribed. -/
theorem calm (subscribed : Subscribed written s) (ledger : Ledger written s) (forth : Puts written written' s t)
    (back : Back written written' s t)
    (plain : ∀ n link characteristic id, requestOf t n ≠ some (.call (.subscribe link characteristic id)))
    (streams : t.client.streams.length = s.client.streams.length)
    (entries : ∀ (id : UInt64) k, t.client.subscriptions[id]? = some k → s.client.subscriptions[id]? = some k)
    (reading : t.client.reader = .reading → s.client.reader = .reading ∧ t.client.subscriptions = s.client.subscriptions)
    (at_ : ∀ n section_, At t n section_ → At s n section_ ∨ section_.subscription = none ∧ section_.stream = none)
    (returned : ∀ n k, Returned t n k → Returned s n k)
    (stays : ∀ n k id request, Mentions t n k → At s n (.insertSubscription id k request) →
      At t n (.insertSubscription id k request)) : Subscribed written' t := by
  have took : ∀ n id, Took written' t n id → Took written s n id := by
    rintro n id (⟨section_, there, is⟩ | ⟨p, w, link, characteristic, owner, put⟩)
    · rcases at_ n section_ there with old | ⟨none_, _⟩
      · exact .inl ⟨section_, old, is⟩
      · rw [none_] at is
        cases is
    · exact took_of_put subscribed ledger back put
  have mentions : ∀ n k, Mentions t n k → Mentions s n k := by
    rintro n k (⟨section_, there, is⟩ | there)
    · rcases at_ n section_ there with old | ⟨_, none_⟩
      · exact .inl ⟨section_, old, is⟩
      · rw [none_] at is
        cases is
    · exact .inr (returned n k there)
  refine ⟨plain, ?_, ?_, ?_, fun id k there => subscribed.entries id k (entries id k there), ?_⟩
  · intro n id there
    rw [streams]
    exact subscribed.taken n id (took n id there)
  · intro few n m id first second
    rw [streams] at few
    exact subscribed.apart few n m id (took n id first) (took m id second)
  · intro n k there
    obtain ⟨call, here, stage⟩ := returned n k there
    refine took_forth forth ?_ (subscribed.returned n k ⟨call, here, stage⟩)
    rintro section_ ⟨found, here', member⟩ _
    cases here.symm.trans here'
    rw [Sectioned.Call.ahead, stage] at member
    cases member
  · intro few now n k there
    rw [streams] at few
    obtain ⟨was, same⟩ := reading now
    rcases subscribed.kept few was n k (mentions n k there) with ⟨id, request, old⟩ | old
    · exact .inl ⟨id, request, stays n k id request there old⟩
    · exact .inr (same ▸ old)

section Turned

variable {call : ClientCall} {client : RemoteClient} {turn : ClientTurn}

theorem at_of_ne (apart : m ≠ n) (at_ : At s m section_) (stage : Sectioned.Stage ClientSection ClientResult) :
    At ⟨client, s.calls.set n ⟨call.request, stage⟩⟩ m section_ := by
  obtain ⟨found, there, member⟩ := at_
  refine ⟨found, ?_, member⟩
  change (s.calls.set n _)[m]? = some found
  rw [List.getElem?_set_ne (Ne.symm apart), there]

/-- What a turn takes is new, or was its call's. -/
theorem took_turned (subscribed : Subscribed written s) (ledger : Ledger written s) (here : s.calls[n]? = some call)
    (ahead : call.ahead = [section_]) (acts : RemoteClient.Acts s.client section_ client turn)
    (back : Back written written' s ⟨client, s.calls.set n ⟨call.request, remoteClient.after [] turn⟩⟩) {id : UInt64}
    (took : Took written' ⟨client, s.calls.set n ⟨call.request, remoteClient.after [] turn⟩⟩ m id) :
    Took written s m id ∨
      m = n ∧ id = s.client.nextSubscription ∧ client.streams.length = s.client.streams.length + 1 := by
  rcases took with ⟨next, there, is⟩ | ⟨p, w, link, characteristic, owner, put⟩
  · rcases there.of_turned acts with ⟨rfl, rfl⟩ | ⟨_, old⟩
    · rcases acts.next_subscription is with own | ⟨rfl, longer⟩
      · exact .inl (.inl ⟨section_, ⟨call, here, ahead ▸ List.mem_cons_self⟩, own⟩)
      · exact .inr ⟨rfl, rfl, longer⟩
    · exact .inl (.inl ⟨next, old, is⟩)
  · exact .inl (took_of_put subscribed ledger back put)

/-- The subscriptions of the other calls are left alone. -/
theorem subscriptions_apart (subscribed : Subscribed written s) (few : s.client.streams.length < 2 ^ 64)
    (mine : At s n section_) (acts : RemoteClient.Acts s.client section_ client turn) (apart : m ≠ n)
    (took : Took written s m (subscriptionId k)) :
    client.subscriptions[subscriptionId k]? = s.client.subscriptions[subscriptionId k]? := by
  have other : ∀ id, section_.subscription = some id → id ≠ subscriptionId k := by
    rintro id is rfl
    exact apart (subscribed.apart few m n _ took (.inl ⟨section_, mine, is⟩))
  rcases acts.subscriptions_cases with ⟨id, stream, request, rfl, eq, _⟩ | ⟨id, e, rfl, eq, _⟩ | ⟨eq, _⟩
  · rw [eq, FiniteMap.getElem?_insert, if_neg (Ne.symm (other id rfl))]
  · rw [eq, FiniteMap.getElem?_erase, if_neg (Ne.symm (other id rfl))]
  · rw [eq]

theorem turned (subscribed : Subscribed written s) (ledger : Ledger written s)
    (numbered : s.client.nextSubscription = subscriptionId s.client.streams.length) (here : s.calls[n]? = some call)
    (ahead : call.ahead = [section_]) (acts : RemoteClient.Acts s.client section_ client turn)
    (forth : Puts written written' s ⟨client, s.calls.set n ⟨call.request, remoteClient.after [] turn⟩⟩)
    (back : Back written written' s ⟨client, s.calls.set n ⟨call.request, remoteClient.after [] turn⟩⟩) :
    Subscribed written' ⟨client, s.calls.set n ⟨call.request, remoteClient.after [] turn⟩⟩ := by
  have mine : At s n section_ := ⟨call, here, ahead ▸ List.mem_cons_self⟩
  have longer : s.client.streams.length ≤ client.streams.length := acts.streams_le
  have sole : ∀ other, At s n other → other = section_ := by
    rintro other ⟨found, there, member⟩
    cases here.symm.trans there
    rw [ahead] at member
    exact List.mem_singleton.mp member
  refine ⟨?_, ?_, ?_, ?_, ?_, ?_⟩
  · intro m link characteristic id
    rw [Ledger.requestOf_set here]
    exact subscribed.plain m link characteristic id
  · intro m id took
    change ∃ k, k < client.streams.length ∧ id = subscriptionId k
    rcases took_turned subscribed ledger here ahead acts back took with old | ⟨_, rfl, more⟩
    · obtain ⟨k, bound, is⟩ := subscribed.taken m id old
      exact ⟨k, by omega, is⟩
    · exact ⟨s.client.streams.length, by omega, numbered⟩
  · intro few m m' id first second
    have few : client.streams.length < 2 ^ 64 := few
    -- An id that is new is no earlier call's.
    have fresh : ∀ m, Took written s m s.client.nextSubscription → client.streams.length ≠ s.client.streams.length + 1 := by
      intro m old more
      obtain ⟨k, bound, is⟩ := subscribed.taken m _ old
      rw [numbered] at is
      have same := subscriptionId_inj (by omega) (by omega) is
      omega
    rcases took_turned subscribed ledger here ahead acts back first with old | ⟨rfl, rfl, more⟩ <;>
      rcases took_turned subscribed ledger here ahead acts back second with old' | ⟨rfl, is, more'⟩
    · exact subscribed.apart (by omega) m m' id old old'
    · exact absurd more' (fresh m (is ▸ old))
    · exact absurd more (fresh m' old')
    · rfl
  · rintro m k ⟨found, there, stage⟩
    obtain ⟨rfl, rfl⟩ | ⟨apart, there⟩ := TaskList.of_set there
    · cases turn with
      | go first => cases first <;> cases stage
      | end_ result =>
        cases stage
        obtain ⟨r, w, id, rfl⟩ := acts.returned_await
        obtain ⟨p, request, put⟩ := ledger.awaits _ r w _ mine
        obtain ⟨whole, is, asks⟩ := (forth _ p w request _ put).asks
        obtain ⟨link, characteristic, rfl⟩ := request_of_asks asks
        exact .inr ⟨p, w, link, characteristic, _, forth _ p w _ _ put⟩
    · refine took_forth forth ?_ (subscribed.returned m k ⟨found, there, stage⟩)
      intro next at_ is
      exact .inl ⟨next, at_of_ne apart at_ _, is⟩
  · intro id k there
    have there : client.subscriptions[id]? = some k := there
    rcases acts.subscriptions_cases with ⟨id', stream, request, rfl, eq, _⟩ | ⟨id', e, rfl, eq, _⟩ | ⟨eq, _⟩
    · rw [eq, FiniteMap.getElem?_insert] at there
      split at there
      · rename_i same
        cases there
        have own := named ledger mine rfl
        exact same ▸ Option.some.inj own
      · exact subscribed.entries id k there
    · rw [eq, FiniteMap.getElem?_erase] at there
      split at there
      · cases there
      · exact subscribed.entries id k there
    · exact subscribed.entries id k (eq ▸ there)
  · intro few now m k mentions
    have few : client.streams.length < 2 ^ 64 := few
    have was : s.client.reader = .reading := acts.keeps.2.1.symm.trans now
    change _ ∨ client.subscriptions[subscriptionId k]? = some k
    by_cases own : m = n
    · subst own
      rcases mentions.of_turned here ahead acts with old | ⟨_, rfl, more⟩
      · have stream : section_.stream = some k := by
          rcases old with ⟨other, at_, is⟩ | ⟨found, there, stage⟩
          · exact sole other at_ ▸ is
          · cases here.symm.trans there
            rw [Sectioned.Call.ahead, stage] at ahead
            cases ahead
        rcases acts.subscriptions_cases with ⟨id, stream', request, rfl, eq, _⟩ | ⟨id, e, rfl, _⟩ | ⟨eq, apart⟩
        · cases stream
          rw [eq, FiniteMap.getElem?_insert, if_pos (Option.some.inj (named ledger mine rfl)).symm]
          exact .inr rfl
        · cases stream
        · rcases subscribed.kept (by omega) was m k old with ⟨id, request, at_⟩ | there
          · exact absurd (sole _ at_).symm (apart id k request)
          · exact .inr (eq ▸ there)
      · obtain ⟨link, characteristic, rfl, rfl⟩ := acts.grew more
        refine .inl ⟨s.client.nextSubscription, .subscribe link characteristic s.client.nextSubscription, _,
          TaskList.getElem?_set_self here, ?_⟩
        exact List.mem_singleton_self _
    · have old : Mentions s m k := by
        rcases mentions.of_turned here ahead acts with old | ⟨same, _⟩
        · exact old
        · exact absurd same own
      have took := subscribed.took_of_mentions ledger old
      rcases subscribed.kept (by omega) was m k old with ⟨id, request, at_⟩ | there
      · exact .inl ⟨id, request, at_of_ne own at_ _⟩
      · exact .inr ((subscriptions_apart subscribed (by omega) mine acts own took).trans there)

end Turned

/-- Whatever a client does, and whatever it is sent. -/
theorem step {input : BrokerInput} (subscribed : Subscribed written s) (ledger : Ledger written s) (sole : Sole s)
    (numbered : s.client.nextSubscription = subscriptionId s.client.streams.length) (stepped : s.step input = some t)
    (plain : ∀ link characteristic id, input ≠ .begin_ (.call (.subscribe link characteristic id)))
    (forth : Puts written written' s t) (back : Back written written' s t) : Subscribed written' t := by
  cases BrokerLink.step_cases stepped with
  | begun request =>
    refine subscribed.calm ledger forth back ?_ rfl (fun _ _ there => there) (fun reading => ⟨reading, rfl⟩) ?_ ?_ ?_
    · intro n link characteristic id asked
      obtain ⟨call, there, is⟩ := Option.map_eq_some_iff.mp asked
      obtain old | ⟨_, rfl, _⟩ := Sectioned.of_start there
      · exact subscribed.plain n link characteristic id (Option.map_eq_some_iff.mpr ⟨call, old, is⟩)
      · exact plain link characteristic id (by rw [is])
    · intro n section_ at_
      rcases at_.of_begun with old | ⟨_, new⟩
      · exact .inl old
      · cases request <;> cases List.mem_singleton.mp new <;> exact .inr ⟨rfl, rfl⟩
    · rintro n k ⟨call, there, stage⟩
      obtain old | ⟨_, _, ahead⟩ := Sectioned.of_start there
      · exact ⟨call, old, stage⟩
      · obtain ⟨first, sections⟩ := Sole.sections_eq request
        rw [Sectioned.Call.ahead, stage] at ahead
        cases ahead.trans sections
    · rintro n k id asked _ ⟨call, there, member⟩
      exact ⟨call, TaskList.getElem?_append_of there _, member⟩
  | @cancelled n call here =>
    refine subscribed.calm ledger forth back ?_ rfl (fun _ _ there => there) (fun reading => ⟨reading, rfl⟩)
      (fun _ _ at_ => .inl at_.of_cancelled) ?_ ?_
    · intro m link characteristic id
      rw [Ledger.requestOf_set here]
      exact subscribed.plain m link characteristic id
    · rintro m k ⟨found, there, stage⟩
      obtain ⟨rfl, rfl⟩ | ⟨_, there⟩ := TaskList.of_set there
      · cases stage
      · exact ⟨found, there, stage⟩
    · intro m k id request mentions at_
      by_cases own : m = n
      · subst own
        have over_ : (s.calls.set m ⟨call.request, .returned .cancelled⟩)[m]? = some ⟨call.request, .returned .cancelled⟩ :=
          TaskList.getElem?_set_self here
        rcases mentions with ⟨other, ⟨found, there, member⟩, _⟩ | ⟨found, there, stage⟩
        · cases over_.symm.trans there
          cases member
        · cases over_.symm.trans there
          cases stage
      · exact at_of_ne own at_ _
  | registered address =>
    obtain ⟨events, outbox, eq⟩ := s.client.registerEventsSender_eq address
    rw [eq] at forth back ⊢
    exact subscribed.calm ledger forth back subscribed.plain rfl (fun _ _ there => there) (fun reading => ⟨reading, rfl⟩)
      (fun _ _ at_ => .inl at_) (fun _ _ there => there) fun _ _ _ _ _ at_ => at_
  | @frame env reading =>
    obtain ⟨_, _, length, subscriptions⟩ := RemoteClient.onFrame_keeps env s.client
    exact subscribed.calm ledger forth back subscribed.plain length (fun _ _ there => subscriptions ▸ there)
      (fun _ => ⟨reading, subscriptions⟩) (fun _ _ at_ => .inl at_) (fun _ _ there => there) fun _ _ _ _ _ at_ => at_
  | readFailed reading =>
    obtain ⟨streams, subscriptions⟩ := RemoteClient.close_keeps s.client
    have length : s.client.close.streams.length = s.client.streams.length := by rw [streams]
    exact subscribed.calm ledger forth back subscribed.plain length (fun _ _ there => subscriptions ▸ there)
      (fun now => by cases now) (fun _ _ at_ => .inl at_) (fun _ _ there => there) fun _ _ _ _ _ at_ => at_
  | clear closing =>
    exact subscribed.calm ledger forth back subscribed.plain rfl (fun _ _ there => by simp at there)
      (fun now => by cases now) (fun _ _ at_ => .inl at_) (fun _ _ there => there) fun _ _ _ _ _ at_ => at_
  | writeFailed =>
    exact subscribed.calm ledger forth back subscribed.plain rfl (fun _ _ there => there) (fun reading => ⟨reading, rfl⟩)
      (fun _ _ at_ => .inl at_) (fun _ _ there => there) fun _ _ _ _ _ at_ => at_
  | @turned n call section_ rest client turn here ahead acts =>
    cases sole n call here section_ rest ahead
    exact subscribed.turned ledger numbered here ahead acts forth back

end Subscribed

end BleGatt
