import BleGatt.Drivers.BrokerParity
import BleGatt.Drivers.ClientStreams
import BleGatt.Drivers.StreamItems

namespace BleGatt
open Std

/-! What a subscriber is handed through the broker: the items of the stream the
radio made for it, in their order, those too that were sent before it knew. -/

/-- What a frame brings a subscription. -/
def Envelope.itemFor (id : UInt64) (env : Envelope) : Option (Except BleError Bytes) :=
  match env.frame with
  | .push (.notifyItem other item) => if other = id then some item else none
  | _ => none

/-- The items that were queued for a subscription, and those that arrived. -/
def BrokerConnection.queued (c : BrokerConnection) (id : UInt64) : List (Except BleError Bytes) :=
  c.outbox.filterMap (Envelope.itemFor id)

def BrokerConnection.arrived (c : BrokerConnection) (id : UInt64) : List (Except BleError Bytes) :=
  (c.outbox.take c.delivered).filterMap (Envelope.itemFor id)

/-- What a stream of the radio was given. -/
def ServiceNetwork.items (network : ServiceNetwork) (i : Nat) : List (Except BleError Bytes) :=
  (((network.service.radio.streams[i]?).map NotifyStream.items).getD []).map .ok

/-- The radio's answer to the frame at `p` was a stream, and its forwarder runs
from then on. -/
def Handed (network : ServiceNetwork) (c : BrokerConnection) (id : UInt64) (p i : Nat) : Prop :=
  ∃ m r link characteristic, (p, m) ∈ c.served ∧
    c.link.client.outbox[p]? = some ⟨r, .req (.subscribe link characteristic id)⟩ ∧
    network.result m = some (.ok (.radio (.stream i))) ∧ ∀ r request, c.phase ≠ .dispatching r request m

/-- Few enough that no id stands for two. -/
def BrokerConnection.fewStreams (c : BrokerConnection) : Prop := c.link.client.streams.length < 2 ^ 64

structure Fed (network : ServiceNetwork) (c : BrokerConnection) : Prop where
  subscribed : Subscribed c.written c.link
  within : c.delivered ≤ c.outbox.length
  begun : c.fewStreams → ∀ id, c.queued id ≠ [] → ∃ p i, Handed network c id p i
  ordered : c.fewStreams → ∀ id p i, Handed network c id p i → c.queued id <+: network.items i
  running : ∀ (f : Nat) id i passed, c.forwarders[f]? = some (.notify id i passed) → (∃ p, Handed network c id p i) ∧
    passed ≤ (network.items i).length ∧ (c.fewStreams → c.queued id = (network.items i).take passed)
  sole : c.fewStreams → ∀ (f f' : Nat) id i i' passed passed', c.forwarders[f]? = some (.notify id i passed) →
    c.forwarders[f']? = some (.notify id i' passed') → f = f'
  got : c.fewStreams → ∀ n k, Mentions c.link n k → c.link.client.streams[k]? = some (c.arrived (subscriptionId k))

/-- No call returns where it begins. -/
theorem ServiceRequest.sections_cons (request : ServiceRequest) : ∃ first rest, request.sections = first :: rest := by
  cases request with
  | radio request =>
    cases request with
    | notifyPeer address peer session characteristic value => cases session <;> exact ⟨_, _, rfl⟩
    | disconnectPeer address peer session => cases session <;> exact ⟨_, _, rfl⟩
    | _ => exact ⟨_, _, rfl⟩
  | _ => exact ⟨_, _, rfl⟩

namespace ServiceNetwork

variable {s t : ServiceNetwork}

theorem items_grow (grows : s.service.radio.Grows t.service.radio) (i : Nat) : s.items i <+: t.items i := by
  unfold items
  cases here : s.service.radio.streams[i]? with
  | none => exact List.nil_prefix
  | some stream =>
    obtain ⟨after, there, longer⟩ := grows i stream here
    rw [there]
    exact longer.map Except.ok

end ServiceNetwork

namespace BrokerLink

variable {s t : BrokerLink} {input : BrokerInput}

theorem streams_own (own : input.own = true) (stepped : s.step input = some t) :
    t.client.streams = s.client.streams ∨ t.client.streams = s.client.streams ++ [[]] := by
  cases step_cases stepped with
  | begun | cancelled | clear | writeFailed => exact .inl rfl
  | registered address =>
    obtain ⟨events, outbox, eq⟩ := s.client.registerEventsSender_eq address
    rw [eq]
    exact .inl rfl
  | frame => cases own
  | readFailed => exact .inl (RemoteClient.close_keeps s.client).1
  | turned here ahead acts =>
    cases acts with
    | takeSubscription => exact .inr rfl
    | @registered correlation => exact .inl (RemoteClient.dropWaiter_keeps s.client correlation).2.2.1
    | forgot correlation => exact .inl (RemoteClient.dropWaiter_keeps s.client correlation).2.2.1
    | _ => exact .inl rfl

/-- The stream a call is about is new, or it was before. -/
theorem mentions_back (sole : Sole s) (stepped : s.step input = some t) {n k : Nat} (mentions : Mentions t n k) :
    Mentions s n k ∨ k = s.client.streams.length ∧ t.client.streams.length = s.client.streams.length + 1 := by
  cases step_cases stepped with
  | begun request =>
    rcases mentions with ⟨section_, at_, stream⟩ | ⟨call, there, stage⟩
    · rcases at_.of_begun with old | ⟨_, new⟩
      · exact .inl (.inl ⟨section_, old, stream⟩)
      · cases request <;> cases List.mem_singleton.mp new <;> cases stream
    · obtain old | ⟨_, _, ahead⟩ := Sectioned.of_start there
      · exact .inl (.inr ⟨call, old, stage⟩)
      · obtain ⟨first, sections⟩ := Sole.sections_eq request
        rw [Sectioned.Call.ahead, stage] at ahead
        cases ahead.trans sections
  | cancelled here =>
    rcases mentions with ⟨section_, at_, stream⟩ | ⟨call, there, stage⟩
    · exact .inl (.inl ⟨section_, at_.of_cancelled, stream⟩)
    · obtain ⟨rfl, rfl⟩ | ⟨_, old⟩ := TaskList.of_set there
      · cases stage
      · exact .inl (.inr ⟨call, old, stage⟩)
  | @turned n' call section_ rest client turn here ahead acts =>
    cases sole n' call here section_ rest ahead
    rcases mentions.of_turned here ahead acts with old | ⟨_, new, longer⟩
    · exact .inl old
    · exact .inr ⟨new, longer⟩
  | registered | frame | readFailed | clear | writeFailed => exact .inl mentions

end BrokerLink

namespace BrokerConnection

variable {c c' : BrokerConnection} {input : BrokerInput}

/-- The frames a client puts in its outbox were those its calls were at. -/
theorem back_of_client (ledger : Ledger c.written c.link) (went : c.client input = some c') :
    Subscribed.Back c.written c'.written c.link c'.link := by
  intro n p w request owner put
  obtain ⟨stepped, eq⟩ := client_eq went
  have written : c'.written = c.written ++ added c c' input := congrArg BrokerConnection.written eq
  have entry : (c.written ++ added c c' input)[p]? = some (some (n, w)) := written ▸ put.entry
  by_cases old : p < c.written.length
  · rw [List.getElem?_append_left old] at entry
    obtain ⟨_, request', owner', before⟩ := ledger.entry p n w entry
    have frame := (BrokerLink.outbox_kept stepped before.frame).symm.trans put.frame
    cases frame
    obtain ⟨whole, asked, asks⟩ := put.asks
    obtain ⟨whole', asked', _⟩ := before.asks
    cases (BrokerLink.requestOf_kept stepped asked').symm.trans asked
    exact .inl ⟨entry, before.frame, whole, asked', asks⟩
  · rw [List.getElem?_append_right (by omega)] at entry
    have member := List.eq_of_mem_replicate (List.mem_of_getElem? entry)
    cases input with
    | proceed n' =>
      simp only [writerOf] at member
      split at member
      · rename_i r waiter asked other rest next
        cases member
        obtain ⟨call, here, ahead⟩ := Sectioned.next_eq_some.mp next
        obtain ⟨⟨client, calls⟩, proceeded, moved⟩ := Option.map_eq_some_iff.mp stepped
        obtain ⟨call', section_, rest', turn, here', ahead', acted, _⟩ := Sectioned.proceed_cases proceeded
        cases here.symm.trans here'
        cases ahead.symm.trans ahead'
        have frame : client.outbox[p]? = some ⟨correlation w, .req request⟩ := by
          have there := put.frame
          rwa [← moved] at there
        have sends : client.outbox = c.link.client.outbox ∨ client.outbox = c.link.client.outbox ++ [⟨r, .req asked⟩] := by
          have acted : c.link.client.act (.send r w asked other) = some (client, turn) := acted
          cases RemoteClient.act_cases acted with
          | unsent => exact .inl rfl
          | sent => exact .inr rfl
        rw [ledger.length] at old
        rcases sends with same | more
        · rw [same] at frame
          exact absurd (TaskList.lt_length frame) old
        · rw [more] at frame
          obtain before | ⟨_, eq⟩ := TaskList.of_append frame
          · exact absurd (TaskList.lt_length before) old
          · cases eq
            exact .inr ⟨_, other, call, here, ahead ▸ List.mem_cons_self⟩
      · cases member
    | _ => cases member

end BrokerConnection

namespace Orderly

variable {network : ServiceNetwork} {c : BrokerConnection} {p p' : Nat} {r r' : UInt64} {id : UInt64}
  {link link' : MockGattConnection} {characteristic characteristic' : CharacteristicUuid}

theorem put_of_frame (orderly : Orderly network c)
    (there : c.link.client.outbox[p]? = some ⟨r, .req (.subscribe link characteristic id)⟩) :
    ∃ n w owner, Put c.written c.link n p w (.subscribe link characteristic id) owner := by
  have within := TaskList.lt_length there
  rw [← orderly.ledger.length] at within
  cases entry : c.written[p] with
  | none =>
    have entry : c.written[p]? = some none := by rw [List.getElem?_eq_getElem within, entry]
    obtain ⟨address, frame⟩ := orderly.ledger.registration p entry
    cases there.symm.trans frame
  | some writer =>
    have entry : c.written[p]? = some (some (writer.1, writer.2)) := by rw [List.getElem?_eq_getElem within, entry]
    obtain ⟨_, request, owner, put⟩ := orderly.ledger.entry p writer.1 writer.2 entry
    cases there.symm.trans put.frame
    exact ⟨writer.1, writer.2, owner, put⟩

/-- Under one id there is one frame. -/
theorem frame_of_subscription (orderly : Orderly network c) (subscribed : Subscribed c.written c.link) (few : c.fewStreams)
    (there : c.link.client.outbox[p]? = some ⟨r, .req (.subscribe link characteristic id)⟩)
    (there' : c.link.client.outbox[p']? = some ⟨r', .req (.subscribe link' characteristic' id)⟩) : p = p' := by
  obtain ⟨n, w, owner, put⟩ := orderly.put_of_frame there
  obtain ⟨n', w', owner', put'⟩ := orderly.put_of_frame there'
  have same := subscribed.apart few n n' id (.inr ⟨p, w, _, _, _, put⟩) (.inr ⟨p', w', _, _, _, put'⟩)
  subst same
  exact orderly.ledger.callOnce p p' n w w' put.entry put'.entry

end Orderly

namespace Handed

variable {network network' : ServiceNetwork} {c c' : BrokerConnection} {id : UInt64} {p p' i i' : Nat}

theorem place (orderly : Orderly network c) (subscribed : Subscribed c.written c.link) (few : c.fewStreams)
    (handed : Handed network c id p i) (handed' : Handed network c id p' i') : p = p' ∧ i = i' := by
  obtain ⟨m, r, link, characteristic, member, frame, is, _⟩ := handed
  obtain ⟨m', r', link', characteristic', member', frame', is', _⟩ := handed'
  have same := orderly.frame_of_subscription subscribed few frame frame'
  subst same
  have call := (orderly.served_place member member').mp rfl
  subst call
  cases is.symm.trans is'
  exact ⟨rfl, rfl⟩

theorem forth (handed : Handed network c id p i) (later : network.Later network') (served : ∀ entry ∈ c.served, entry ∈ c'.served)
    (kept : ∀ (p : Nat) env, c.link.client.outbox[p]? = some env → c'.link.client.outbox[p]? = some env)
    (phase : ∀ r request m, c'.phase = .dispatching r request m → c.phase = .dispatching r request m ∨
      network'.result m = none) : Handed network' c' id p i := by
  obtain ⟨m, r, link, characteristic, member, frame, is, idle⟩ := handed
  have now := later.result m _ is
  refine ⟨m, r, link, characteristic, served _ member, kept p _ frame, now, ?_⟩
  intro r' request dispatching
  rcases phase r' request m dispatching with before | pending
  · exact idle r' request before
  · rw [pending] at now
    cases now

theorem back (orderly : Orderly network c) (handed : Handed network' c' id p i) (later : network.Later network')
    (served : ∀ entry ∈ c'.served, entry ∈ c.served ∨ network'.result entry.2 = none)
    (same : ∀ p m, (p, m) ∈ c.served → c'.link.client.outbox[p]? = c.link.client.outbox[p]?)
    (phase : ∀ r request m, c.phase = .dispatching r request m → c'.phase = .dispatching r request m) :
    Handed network c id p i := by
  obtain ⟨m, r, link, characteristic, member, frame, is, idle⟩ := handed
  rcases served _ member with old | pending
  · rcases orderly.idle p m old with over_ | ⟨r', request, dispatching⟩
    · obtain ⟨result, was⟩ := Option.isSome_iff_exists.mp over_
      have now := later.result m result was
      cases now.symm.trans is
      refine ⟨m, r, link, characteristic, old, (same p m old).symm.trans frame, was, ?_⟩
      exact fun r' request dispatching => idle r' request (phase r' request m dispatching)
    · exact absurd (phase r' request m dispatching) (idle r' request)
  · rw [pending] at is
    cases is

end Handed

namespace Fed

variable {network network' : ServiceNetwork} {c c' : BrokerConnection}

theorem take_of_prefix {α : Type} {shorter longer : List α} (is : shorter <+: longer) {n : Nat} (within : n ≤ shorter.length) :
    longer.take n = shorter.take n := by
  obtain ⟨rest, rfl⟩ := is
  exact List.take_append_of_le_length within

/-- A change that hands nothing out, and after which the client's end is as it
was. -/
theorem carry (fed : Fed network c) (orderly : Orderly network c) (later : network.Later network')
    (grows : network.service.radio.Grows network'.service.radio) (link : c'.link = c.link) (written : c'.written = c.written)
    (within : c'.delivered ≤ c'.outbox.length) (queued : ∀ id, c'.queued id = c.queued id)
    (arrived : ∀ id, c'.arrived id = c.arrived id)
    (forwarders : ∀ (f : Nat) id i passed, c'.forwarders[f]? = some (.notify id i passed) →
      c.forwarders[f]? = some (.notify id i passed))
    (older : ∀ entry ∈ c.served, entry ∈ c'.served)
    (served : ∀ entry ∈ c'.served, entry ∈ c.served ∨ network'.result entry.2 = none)
    (before : ∀ r request m, c.phase = .dispatching r request m → c'.phase = .dispatching r request m)
    (after : ∀ r request m, c'.phase = .dispatching r request m → c.phase = .dispatching r request m ∨
      network'.result m = none) : Fed network' c' := by
  have forth : ∀ {id p i}, Handed network c id p i → Handed network' c' id p i :=
    fun handed => handed.forth later older (fun p env there => link ▸ there) after
  have back : ∀ {id p i}, Handed network' c' id p i → Handed network c id p i :=
    fun handed => handed.back orderly later served (fun p m _ => by rw [link]) before
  have few : c'.fewStreams → c.fewStreams := fun few => by rwa [BrokerConnection.fewStreams, link] at few
  refine ⟨?_, within, ?_, ?_, ?_, ?_, ?_⟩
  · rw [link, written]
    exact fed.subscribed
  · intro bound id some_
    rw [queued] at some_
    obtain ⟨p, i, handed⟩ := fed.begun (few bound) id some_
    exact ⟨p, i, forth handed⟩
  · intro bound id p i handed
    rw [queued]
    exact (fed.ordered (few bound) id p i (back handed)).trans (ServiceNetwork.items_grow grows i)
  · intro f id i passed there
    obtain ⟨⟨p, handed⟩, short, all⟩ := fed.running f id i passed (forwarders f id i passed there)
    have longer := ServiceNetwork.items_grow grows i
    refine ⟨⟨p, forth handed⟩, Nat.le_trans short longer.length_le, ?_⟩
    intro bound
    rw [queued, all (few bound), take_of_prefix longer short]
  · intro bound f f' id i i' passed passed' there there'
    exact fed.sole (few bound) f f' id i i' passed passed' (forwarders f id i passed there) (forwarders f' id i' passed' there')
  · intro bound n k mentions
    rw [link] at mentions ⊢
    rw [arrived]
    exact fed.got (few bound) n k mentions

/-- What happens to the radio alone. -/
theorem later (fed : Fed network c) (orderly : Orderly network c) (later : network.Later network')
    (grows : network.service.radio.Grows network'.service.radio) : Fed network' c :=
  fed.carry orderly later grows rfl rfl fed.within (fun _ => rfl) (fun _ => rfl) (fun _ _ _ _ there => there)
    (fun _ there => there) (fun _ there => .inl there) (fun _ _ _ is => is) fun _ _ _ is => .inl is

theorem queued_append {more : List Envelope} (outbox : c'.outbox = c.outbox ++ more) (id : UInt64) :
    c'.queued id = c.queued id ++ more.filterMap (Envelope.itemFor id) := by
  rw [BrokerConnection.queued, outbox, List.filterMap_append]
  rfl

theorem arrived_append (fed : Fed network c) {more : List Envelope} (outbox : c'.outbox = c.outbox ++ more)
    (delivered : c'.delivered = c.delivered) (id : UInt64) : c'.arrived id = c.arrived id := by
  rw [BrokerConnection.arrived, outbox, delivered, List.take_append_of_le_length fed.within]
  rfl

/-- A change that is neither of the client's end nor of what is dispatched. -/
theorem aside (fed : Fed network c) (orderly : Orderly network c) {more : List Envelope} (link : c'.link = c.link)
    (written : c'.written = c.written) (outbox : c'.outbox = c.outbox ++ more) (delivered : c'.delivered = c.delivered)
    (served : c'.served = c.served) (none_ : ∀ id, more.filterMap (Envelope.itemFor id) = [])
    (forwarders : ∀ (f : Nat) id i passed, c'.forwarders[f]? = some (.notify id i passed) →
      c.forwarders[f]? = some (.notify id i passed))
    (phase : ∀ r request m, c'.phase = .dispatching r request m ↔ c.phase = .dispatching r request m) : Fed network c' := by
  refine fed.carry orderly (.refl network) (.of_eq rfl) link written ?_ ?_ (fed.arrived_append outbox delivered) forwarders
    (fun _ there => served ▸ there) (fun _ there => .inl (served ▸ there)) (fun r request m => (phase r request m).mpr)
    fun r request m is => .inl ((phase r request m).mp is)
  · have held := fed.within
    rw [outbox, delivered, List.length_append]
    omega
  · intro id
    rw [queued_append outbox, none_, List.append_nil]

/-- A connection that was just made. -/
theorem dialled (network : ServiceNetwork) : Fed network {} where
  subscribed := by
    have nowhere : ∀ n section_, ¬At {} n section_ := by
      rintro n section_ ⟨call, there, _⟩
      simp at there
    have nothing : ∀ n id, ¬Took [] {} n id := by
      rintro n id (⟨section_, at_, _⟩ | ⟨p, w, link, characteristic, owner, put⟩)
      · exact nowhere n section_ at_
      · have entry := put.entry
        simp at entry
    refine ⟨fun n link characteristic id => by simp [requestOf], fun n id took => absurd took (nothing n id),
      fun _ n _ id took => absurd took (nothing n id), ?_, fun id k there => by simp at there, ?_⟩
    · rintro n k ⟨call, there, _⟩
      simp at there
    · rintro _ _ n k (⟨section_, at_, _⟩ | ⟨call, there, _⟩)
      · exact absurd at_ (nowhere n section_)
      · simp at there
  within := Nat.le_refl _
  begun _ id some_ := absurd rfl some_
  ordered _ id p i handed := List.nil_prefix
  running f id i passed there := by simp at there
  sole _ f f' id i i' passed passed' there := by simp at there
  got _ n k mentions := by
    rcases mentions with ⟨section_, ⟨call, there, _⟩, _⟩ | ⟨call, there, _⟩ <;> simp at there

/-- What was queued under an id, a frame of some call asked for. -/
theorem took_of_queued (fed : Fed network c) (orderly : Orderly network c) (few : c.fewStreams) {id : UInt64}
    (some_ : c.queued id ≠ []) : ∃ n p w link characteristic owner,
      Put c.written c.link n p w (.subscribe link characteristic id) owner := by
  obtain ⟨p, i, m, r, link, characteristic, _, frame, _, _⟩ := fed.begun few id some_
  obtain ⟨n, w, owner, put⟩ := orderly.put_of_frame frame
  exact ⟨n, p, w, link, characteristic, owner, put⟩

theorem arrived_prefix (c : BrokerConnection) (id : UInt64) : c.arrived id <+: c.queued id :=
  (List.take_prefix _ _).filterMap _

/-- The client goes on by itself. -/
theorem client {input : BrokerInput} (fed : Fed network c) (orderly : Orderly network c) (own : input.own = true)
    (went : c.client input = some c') : Fed network c' := by
  have after := orderly.client own went
  have back := BrokerConnection.back_of_client orderly.ledger went
  obtain ⟨stepped, eq⟩ := BrokerConnection.client_eq went
  have kept : ∀ (p : Nat) env, c.link.client.outbox[p]? = some env → c'.link.client.outbox[p]? = some env :=
    fun p env there => BrokerLink.outbox_kept stepped there
  have forth : Puts c.written c'.written c.link c'.link := by
    intro n p w request owner put
    refine put.mono ?_ kept fun n whole is => BrokerLink.requestOf_kept stepped is
    intro q entry there
    rw [eq]
    exact TaskList.getElem?_append_of there _
  have plain : ∀ link characteristic id, input ≠ .begin_ (.call (.subscribe link characteristic id)) := by
    rintro link characteristic id rfl
    cases own
  have subscribed := fed.subscribed.step orderly.ledger orderly.sole orderly.numbered stepped plain forth back
  have streams := BrokerLink.streams_own own stepped
  have few : c'.fewStreams → c.fewStreams := by
    intro bound
    have bound : c'.link.client.streams.length < 2 ^ 64 := bound
    change c.link.client.streams.length < 2 ^ 64
    rcases streams with same | more
    · rwa [same] at bound
    · rw [more, List.length_append] at bound
      omega
  have served : c'.served = c.served := by rw [eq]
  have phase : c'.phase = c.phase := by rw [eq]
  have queued : ∀ id, c'.queued id = c.queued id := fun id => by rw [BrokerConnection.queued, eq]; rfl
  have arrived : ∀ id, c'.arrived id = c.arrived id := fun id => by rw [BrokerConnection.arrived, eq]; rfl
  have forwarders : c'.forwarders = c.forwarders := by rw [eq]
  have hands : ∀ {id p i}, Handed network c id p i → Handed network c' id p i :=
    fun handed => handed.forth (.refl _) (fun _ there => served ▸ there) kept fun _ _ _ is => .inl (phase ▸ is)
  have handed : ∀ {id p i}, Handed network c' id p i → Handed network c id p i := by
    intro id p i handed
    refine handed.back orderly (.refl _) (fun _ there => .inl (served ▸ there)) ?_ fun _ _ _ is => phase ▸ is
    intro p m member
    obtain ⟨r, request, _, frame, _⟩ := orderly.named p m member
    rw [frame, kept p _ frame]
  refine ⟨subscribed, ?_, ?_, ?_, ?_, ?_, ?_⟩
  · rw [eq]
    exact fed.within
  · intro bound id some_
    rw [queued] at some_
    obtain ⟨p, i, was⟩ := fed.begun (few bound) id some_
    exact ⟨p, i, hands was⟩
  · intro bound id p i now
    rw [queued]
    exact fed.ordered (few bound) id p i (handed now)
  · intro f id i passed there
    obtain ⟨⟨p, was⟩, short, all⟩ := fed.running f id i passed (forwarders ▸ there)
    exact ⟨⟨p, hands was⟩, short, fun bound => (queued id).trans (all (few bound))⟩
  · intro bound f f' id i i' passed passed' there there'
    exact fed.sole (few bound) f f' id i i' passed passed' (forwarders ▸ there) (forwarders ▸ there')
  · intro bound n k mentions
    have bound : c'.link.client.streams.length < 2 ^ 64 := bound
    rw [arrived]
    rcases BrokerLink.mentions_back orderly.sole stepped mentions with old | ⟨rfl, longer⟩
    · have was := fed.got (few bound) n k old
      rcases streams with same | more
      · rw [same, was]
      · rw [more]
        exact TaskList.getElem?_append_of was _
    · rcases streams with same | more
      · rw [same] at longer
        omega
      · rw [more, List.getElem?_concat_length]
        have none_ : c.queued (subscriptionId c.link.client.streams.length) = [] := by
          by_contra some_
          obtain ⟨m, p, w, link, characteristic, owner, put⟩ := fed.took_of_queued orderly (few bound) some_
          obtain ⟨k, before, is⟩ := fed.subscribed.taken m _ (.inr ⟨p, w, link, characteristic, owner, put⟩)
          have same := subscriptionId_inj (by omega) (by omega) is
          omega
        have empty := arrived_prefix c (subscriptionId c.link.client.streams.length)
        rw [none_, List.prefix_nil] at empty
        rw [empty]

/-- A stream is given what the frame brings its subscription. -/
theorem streams_onFrame (fed : Fed network c) (orderly : Orderly network c) (few : c.fewStreams) {env : Envelope}
    (next : c.outbox[c.delivered]? = some env) (reading : c.link.client.reader = .reading) {n k : Nat}
    (mentions : Mentions c.link n k) : (c.link.client.onFrame env).streams[k]? =
      some (c.arrived (subscriptionId k) ++ ((env.itemFor (subscriptionId k)).toList)) := by
  have was := fed.got few n k mentions
  obtain ⟨r, frame⟩ := env
  cases frame with
  | req request => simpa [RemoteClient.onFrame, Envelope.itemFor] using was
  | resp response =>
    simp only [RemoteClient.onFrame, Envelope.itemFor, Option.toList_none, List.append_nil]
    split <;> exact was
  | push push =>
    cases push with
    | event address event => simpa [RemoteClient.onFrame, Envelope.itemFor] using was
    | notifyItem id item =>
      simp only [RemoteClient.onFrame, Envelope.itemFor, RemoteClient.toSubscription]
      by_cases same : id = subscriptionId k
      · have some_ : c.queued id ≠ [] := by
          have member : item ∈ c.queued id :=
            List.mem_filterMap.mpr ⟨_, List.mem_of_getElem? next, by simp [Envelope.itemFor]⟩
          exact List.ne_nil_of_mem member
        obtain ⟨m, p, w, link, characteristic, owner, put⟩ := fed.took_of_queued orderly few some_
        have took := fed.subscribed.took_of_mentions orderly.ledger mentions
        have own := fed.subscribed.apart few m n id (.inr ⟨p, w, link, characteristic, owner, put⟩) (same ▸ took)
        subst own
        -- Its frame is in the outbox, so that it is subscribed already.
        have listed : c.link.client.subscriptions[subscriptionId k]? = some k := by
          rcases fed.subscribed.kept few reading m k mentions with ⟨id', request, at_⟩ | there
          · exact absurd put.entry (orderly.ledger.unwritten m _ at_ rfl p w)
          · exact there
        simp only [same, listed, if_true, Option.toList_some]
        rw [TaskList.getElem?_modify, if_pos rfl, was]
        rfl
      · simp only [same, if_false, Option.toList_none, List.append_nil]
        cases listed : c.link.client.subscriptions[id]? with
        | none => exact was
        | some other =>
          have apart : k ≠ other := by
            rintro rfl
            exact same (fed.subscribed.entries id k listed)
          change (c.link.client.streams.modify other (· ++ [item]))[k]? = _
          rw [TaskList.getElem?_modify, if_neg apart, was]

/-- The next frame arrives. -/
theorem delivered {env : Envelope} {link : BrokerLink} (fed : Fed network c) (orderly : Orderly network c)
    (next : c.outbox[c.delivered]? = some env) (stepped : c.link.step (.frame env) = some link) :
    Fed network { c with link := link, delivered := c.delivered + 1 } := by
  have moved := stepped
  obtain ⟨reading, ⟨⟩⟩ := Option.ite_none_right_eq_some.mp moved
  have within := TaskList.lt_length next
  have length := (RemoteClient.onFrame_keeps env c.link.client).2.2.1
  have outbox : (c.link.client.onFrame env).outbox = c.link.client.outbox := (RemoteClient.Quiet.onFrame env _).outbox
  have forth : Puts c.written c.written c.link { c.link with client := c.link.client.onFrame env } :=
    fun n p w request owner put => Ledger.put_quiet (.onFrame env _) put
  have back : Subscribed.Back c.written c.written c.link { c.link with client := c.link.client.onFrame env } :=
    fun n p w request owner put => .inl ⟨put.entry, outbox ▸ put.frame, put.asks⟩
  have subscribed := fed.subscribed.step orderly.ledger orderly.sole orderly.numbered stepped nofun forth back
  have few : (c.link.client.onFrame env).streams.length < 2 ^ 64 → c.fewStreams := fun bound => by rwa [length] at bound
  have hands : ∀ {id p i}, Handed network c id p i → Handed network { c with
      link := { c.link with client := c.link.client.onFrame env }, delivered := c.delivered + 1 } id p i :=
    fun handed => handed.forth (.refl _) (fun _ there => there) (fun _ _ there => outbox.symm ▸ there) fun _ _ _ is => .inl is
  have handed : ∀ {id p i}, Handed network { c with
      link := { c.link with client := c.link.client.onFrame env }, delivered := c.delivered + 1 } id p i →
      Handed network c id p i :=
    fun handed => handed.back orderly (.refl _) (fun _ there => .inl there) (fun _ _ _ => by rw [outbox]) fun _ _ _ is => is
  refine ⟨subscribed, within, ?_, ?_, ?_, ?_, ?_⟩
  · intro bound id some_
    obtain ⟨p, i, was⟩ := fed.begun (few bound) id some_
    exact ⟨p, i, hands was⟩
  · exact fun bound id p i now => fed.ordered (few bound) id p i (handed now)
  · intro f id i passed there
    obtain ⟨⟨p, was⟩, short, all⟩ := fed.running f id i passed there
    exact ⟨⟨p, hands was⟩, short, fun bound => all (few bound)⟩
  · exact fun bound => fed.sole (few bound)
  · intro bound n k mentions
    have given := fed.streams_onFrame orderly (few bound) next reading (n := n) mentions
    refine given.trans (congrArg some ?_)
    change _ = (c.outbox.take (c.delivered + 1)).filterMap _
    rw [List.take_add_one, next, List.filterMap_append]
    cases item : env.itemFor (subscriptionId k) <;> simp [item, BrokerConnection.arrived]

/-- A call that is still being dispatched has handed nothing out. -/
theorem queued_pending (fed : Fed network c) (orderly : Orderly network c) (few : c.fewStreams) {p m : Nat} {r : UInt64}
    {link : MockGattConnection} {characteristic : CharacteristicUuid} {id : UInt64} {request : WireRequest} {r' : UInt64}
    (member : (p, m) ∈ c.served) (frame : c.link.client.outbox[p]? = some ⟨r, .req (.subscribe link characteristic id)⟩)
    (dispatching : c.phase = .dispatching r' request m) {p' i : Nat} : ¬Handed network c id p' i := by
  rintro ⟨m', r'', link', characteristic', member', frame', _, idle⟩
  have place := orderly.frame_of_subscription fed.subscribed few frame frame'
  have call := (orderly.served_place member member').mp place
  exact idle r' request (call ▸ dispatching)

/-- The radio has returned, and a stream gets its forwarder. -/
theorem finished {r : UInt64} {request : WireRequest} {call : Nat} {result : Except BleError ServiceReply}
    (fed : Fed network c) (orderly : Orderly network c) (dispatching : c.phase = .dispatching r request call)
    (returned : network.result call = some result) : Fed network { c with
      phase := .responding r (respond result)
      forwarders := c.forwarders ++ BrokerConnection.startForwarder request result } := by
  obtain ⟨p₀, member₀, frame₀⟩ := orderly.current r request call dispatching
  have started : ∀ (f : Nat) id i passed,
      (c.forwarders ++ BrokerConnection.startForwarder request result)[f]? = some (.notify id i passed) →
      c.forwarders[f]? = some (.notify id i passed) ∨ f = c.forwarders.length ∧ passed = 0 ∧
        (∃ link characteristic, request = .subscribe link characteristic id) ∧ result = .ok (.radio (.stream i)) := by
    intro f id i passed there
    unfold BrokerConnection.startForwarder at there
    split at there
    · obtain old | ⟨_, eq⟩ := TaskList.of_append there
      · exact .inl old
      · cases eq
    · obtain old | ⟨new, eq⟩ := TaskList.of_append there
      · exact .inl old
      · cases eq
        exact .inr ⟨new, rfl, ⟨_, _, rfl⟩, rfl⟩
    · rw [List.append_nil] at there
      exact .inl there
  have hands : ∀ {id p i}, Handed network c id p i → Handed network { c with
      phase := .responding r (respond result)
      forwarders := c.forwarders ++ BrokerConnection.startForwarder request result } id p i :=
    fun handed => handed.forth (.refl _) (fun _ there => there) (fun _ _ there => there) nofun
  have handed : ∀ {id p i}, Handed network { c with
      phase := .responding r (respond result)
      forwarders := c.forwarders ++ BrokerConnection.startForwarder request result } id p i →
      Handed network c id p i ∨ p = p₀ ∧ ∃ link characteristic, request = .subscribe link characteristic id := by
    rintro id p i ⟨m, r', link, characteristic, member, frame, is, _⟩
    by_cases now : m = call
    · subst now
      have place := (orderly.served_place member member₀).mpr rfl
      subst place
      cases frame.symm.trans frame₀
      exact .inr ⟨rfl, link, characteristic, rfl⟩
    · refine .inl ⟨m, r', link, characteristic, member, frame, is, ?_⟩
      intro r'' request' other
      cases dispatching.symm.trans other
      exact now rfl
  have pending : c.fewStreams → ∀ {link characteristic id}, request = .subscribe link characteristic id →
      ∀ p i, ¬Handed network c id p i := by
    rintro few link characteristic id rfl p i
    exact fed.queued_pending orderly few member₀ frame₀ dispatching
  have empty : c.fewStreams → ∀ {link characteristic id}, request = .subscribe link characteristic id → c.queued id = [] := by
    intro few link characteristic id is
    by_contra some_
    obtain ⟨p, i, was⟩ := fed.begun few id some_
    exact pending few is p i was
  refine ⟨fed.subscribed, fed.within, ?_, ?_, ?_, ?_, fed.got⟩
  · intro few id some_
    obtain ⟨p, i, was⟩ := fed.begun few id some_
    exact ⟨p, i, hands was⟩
  · intro few id p i now
    change c.queued id <+: _
    rcases handed now with was | ⟨_, link, characteristic, is⟩
    · exact fed.ordered few id p i was
    · rw [empty few is]
      exact List.nil_prefix
  · intro f id i passed there
    rcases started f id i passed there with old | ⟨_, rfl, ⟨link, characteristic, rfl⟩, rfl⟩
    · obtain ⟨⟨p, was⟩, short, all⟩ := fed.running f id i passed old
      exact ⟨⟨p, hands was⟩, short, all⟩
    · refine ⟨⟨p₀, call, r, link, characteristic, member₀, frame₀, returned, nofun⟩, Nat.zero_le _, ?_⟩
      intro few
      exact empty few rfl
  · intro few f f' id i i' passed passed' there there'
    rcases started f id i passed there with old | ⟨rfl, _, ⟨link, characteristic, is⟩, _⟩ <;>
      rcases started f' id i' passed' there' with old' | ⟨rfl, _, ⟨link', characteristic', is'⟩, _⟩
    · exact fed.sole few f f' id i i' passed passed' old old'
    · obtain ⟨⟨p, was⟩, _⟩ := fed.running f id i passed old
      exact absurd was (pending few is' p i)
    · obtain ⟨⟨p, was⟩, _⟩ := fed.running f' id i' passed' old'
      exact absurd was (pending few is p i')
    · rfl

/-- A forwarder passes on the next item of its stream. -/
theorem forwarded {f i passed : Nat} {id : UInt64} {entry : NotifyStream} {item : Bytes} (fed : Fed network c)
    (orderly : Orderly network c) (there : c.forwarders[f]? = some (.notify id i passed))
    (stream : network.service.radio.streams[i]? = some entry) (next : entry.items[passed]? = some item) :
    Fed network { c with
      forwarders := c.forwarders.set f (.notify id i (passed + 1))
      outbox := c.outbox ++ [⟨0, .push (.notifyItem id (.ok item))⟩] } := by
  obtain ⟨⟨p, mine⟩, short, all⟩ := fed.running f id i passed there
  have items : (network.items i)[passed]? = some (.ok item) := by
    simp [ServiceNetwork.items, stream, next]
  have within := TaskList.lt_length items
  have queued : ∀ other, BrokerConnection.queued { c with
      forwarders := c.forwarders.set f (.notify id i (passed + 1))
      outbox := c.outbox ++ [⟨0, .push (.notifyItem id (.ok item))⟩] } other =
      c.queued other ++ if id = other then [.ok item] else [] := by
    intro other
    rw [queued_append (c := c) rfl]
    by_cases same : id = other <;> simp [Envelope.itemFor, same]
  have more : c.fewStreams → c.queued id ++ [.ok item] = (network.items i).take (passed + 1) := by
    intro few
    rw [List.take_add_one, items, all few]
    rfl
  refine ⟨fed.subscribed, ?_, ?_, ?_, ?_, ?_, ?_⟩
  · change c.delivered ≤ (c.outbox ++ [_]).length
    have held := fed.within
    rw [List.length_append]
    omega
  · intro few other some_
    by_cases same : id = other
    · subst same
      exact ⟨p, i, mine⟩
    · rw [queued, if_neg same, List.append_nil] at some_
      exact fed.begun few other some_
  · intro few other p' i' now
    have was : Handed network c other p' i' := now
    rw [queued]
    by_cases same : id = other
    · subst same
      obtain ⟨_, rfl⟩ := was.place orderly fed.subscribed few mine
      rw [if_pos rfl, more few]
      exact List.take_prefix _ _
    · rw [if_neg same, List.append_nil]
      exact fed.ordered few other p' i' was
  · intro f' id' i' passed' found
    obtain ⟨rfl, eq⟩ | ⟨apart, old⟩ := TaskList.of_set found
    · cases eq
      refine ⟨⟨p, mine⟩, within, ?_⟩
      intro few
      rw [queued, if_pos rfl, more few]
    · obtain ⟨was, short', all'⟩ := fed.running f' id' i' passed' old
      refine ⟨was, short', ?_⟩
      intro few
      have other : id ≠ id' := by
        rintro rfl
        exact apart (fed.sole few f' f id i' i passed' passed old there)
      rw [queued, if_neg other, List.append_nil, all' few]
  · intro few f₁ f₂ id' i₁ i₂ passed₁ passed₂ found found'
    have before : ∀ (f₁ i₁ passed₁ : Nat),
        (c.forwarders.set f (.notify id i (passed + 1)))[f₁]? = some (.notify id' i₁ passed₁) →
        ∃ i passed, c.forwarders[f₁]? = some (.notify id' i passed) := by
      intro f₁ i₁ passed₁ found
      obtain ⟨rfl, eq⟩ | ⟨_, old⟩ := TaskList.of_set found
      · cases eq
        exact ⟨i, passed, there⟩
      · exact ⟨i₁, passed₁, old⟩
    obtain ⟨_, _, old⟩ := before f₁ i₁ passed₁ found
    obtain ⟨_, _, old'⟩ := before f₂ i₂ passed₂ found'
    exact fed.sole few f₁ f₂ id' _ _ _ _ old old'
  · intro few n k mentions
    have arrived := @arrived_append network c { c with
      forwarders := c.forwarders.set f (.notify id i (passed + 1))
      outbox := c.outbox ++ [⟨0, .push (.notifyItem id (.ok item))⟩] } fed _ rfl rfl (subscriptionId k)
    exact (fed.got few n k mentions).trans (congrArg some arrived.symm)

end Fed

namespace Broker

variable {s t : Broker} {n : Nat} {c c' : BrokerConnection} {network : ServiceNetwork}

def Feeds (s : Broker) : Prop := TaskList.Each (fun _ c => Fed s.network c) s.connections

/-- A change at which a connection's client is not. -/
theorem Feeds.carry (feeds : Feeds s) (accounted : Accounted s) (later : s.network.Later network) (grows : s.network.service.radio.Grows network.service.radio)
    (new : Fed network c') : Feeds ({ s with network := network }.update n c') := by
  have old : TaskList.Each (fun _ c => Fed network c) s.connections :=
    fun m found there => (feeds m found there).later (accounted.each m found there) later grows
  exact old.set new

theorem Feeds.step {input : BrokerSystemInput} (feeds : Feeds s) (accounted : Accounted s) (stepped : Stepped s input t) :
    Feeds t := by
  cases stepped with
  | dialled => exact feeds.start (.dialled _)
  | @client n c c' input here own went =>
    exact feeds.set ((feeds n c here).client (accounted.each n c here) own went)
  | @delivered n c env link here next stepped =>
    exact feeds.set ((feeds n c here).delivered (accounted.each n c here) next stepped)
  | @requested n c r request here reading next =>
    have fed := feeds n c here
    have orderly := accounted.each n c here
    have later : s.network.Later { s.network with calls := mockService.start request.dispatched s.network.calls } := .begun _ _
    refine feeds.carry accounted later (.of_eq rfl) ?_
    have pending : ServiceNetwork.result s.network.calls.length
        { s.network with calls := mockService.start request.dispatched s.network.calls } = none := by
      have new : (mockService.start request.dispatched s.network.calls)[s.network.calls.length]? =
          some ⟨request.dispatched, mockService.stage request.dispatched.sections⟩ := List.getElem?_concat_length
      obtain ⟨first, rest, is⟩ := request.dispatched.sections_cons
      rw [ServiceNetwork.result, new, is]
      rfl
    refine fed.carry orderly later (.of_eq rfl) rfl rfl fed.within (fun _ => rfl) (fun _ => rfl) (fun _ _ _ _ there => there)
      (fun _ there => List.mem_append_left _ there) ?_ ?_ ?_
    · intro entry member
      rcases List.mem_append.mp member with old | new
      · exact .inl old
      · cases List.mem_singleton.mp new
        exact .inr pending
    · intro r' request' m is
      rw [reading] at is
      cases is
    · intro r' request' m is
      cases is
      exact .inr pending
  | @skipped n c here reading =>
    exact feeds.set ((feeds n c here).aside (accounted.each n c here) rfl rfl (List.append_nil _).symm rfl rfl (fun _ => rfl)
      (fun _ _ _ _ there => there) fun _ _ _ => .rfl)
  | @worked call network stepped =>
    intro m found there
    exact (feeds m found there).later (accounted.each m found there) (.step stepped) (ServiceNetwork.step_grows stepped)
  | @finished n c r request call result here dispatching returned =>
    exact feeds.set ((feeds n c here).finished (accounted.each n c here) dispatching returned)
  | @responded n c r response here responding =>
    have fed := feeds n c here
    have orderly := accounted.each n c here
    have phase : ∀ r' request m, ServingPhase.reading = .dispatching r' request m ↔ c.phase = .dispatching r' request m := by
      intro r' request m
      rw [responding]
      exact iff_of_false (by simp) (by simp)
    have silent : Fed s.network { c with phase := .reading } :=
      fed.aside orderly rfl rfl (List.append_nil _).symm rfl rfl (fun _ => rfl) (fun _ _ _ _ there => there) phase
    by_cases zero : r = 0
    · rw [if_pos zero]
      exact feeds.set silent
    · rw [if_neg zero, BrokerConnection.queue]
      split
      · exact feeds.set silent
      · exact feeds.set (fed.aside orderly rfl rfl rfl rfl rfl (fun _ => rfl) (fun _ _ _ _ there => there) phase)
  | @forwarded n f c forwarder next pushed here there open_ went =>
    have fed := feeds n c here
    have orderly := accounted.each n c here
    cases forwarder with
    | events address channel receiver =>
      obtain ⟨sent, _, went⟩ := Option.bind_eq_some_iff.mp went
      obtain ⟨after, _, went⟩ := Option.bind_eq_some_iff.mp went
      cases Option.some.inj went
      refine feeds.set (fed.aside orderly rfl rfl rfl rfl rfl ?_ ?_ fun _ _ _ => .rfl)
      · intro id
        refine List.filterMap_eq_nil_iff.mpr ?_
        intro env member
        obtain ⟨received, _, rfl⟩ := List.mem_map.mp member
        cases received <;> rfl
      · intro f' id i passed found
        obtain ⟨_, eq⟩ | ⟨_, old⟩ := TaskList.of_set found
        · cases eq
        · exact old
    | notify id i passed =>
      obtain ⟨entry, stream, went⟩ := Option.bind_eq_some_iff.mp went
      obtain ⟨item, next, went⟩ := Option.bind_eq_some_iff.mp went
      cases Option.some.inj went
      exact feeds.set (fed.forwarded orderly there stream next)
    | stopped => cases went
  | @hungUp n c here reading =>
    refine feeds.set ((feeds n c here).aside (accounted.each n c here) rfl rfl (List.append_nil _).symm rfl rfl (fun _ => rfl)
      (fun _ _ _ _ there => there) ?_)
    intro r request m
    rw [reading]
    exact iff_of_false (by simp) (by simp)
  | @writerEnded n c here =>
    exact feeds.set ((feeds n c here).aside (accounted.each n c here) rfl rfl (List.append_nil _).symm rfl rfl (fun _ => rfl)
      (fun _ _ _ _ there => there) fun _ _ _ => .rfl)
  | @stopped n f c forwarder network here there stoppable dropped =>
    have orderly := accounted.each n c here
    have went : s.network.Later network ∧ s.network.service.radio.Grows network.service.radio := by
      cases forwarder with
      | events => cases dropped; exact ⟨.refl _, .of_eq rfl⟩
      | notify _ stream _ =>
        have stepped : s.network.step (.dropStream stream) = some network := dropped
        exact ⟨.step stepped, ServiceNetwork.step_grows stepped⟩
      | stopped => cases dropped
    have fed : Fed s.network { c with forwarders := c.forwarders.set f .stopped } := by
      refine (feeds n c here).aside orderly rfl rfl (List.append_nil _).symm rfl rfl (fun _ => rfl) ?_ fun _ _ _ => .rfl
      intro f' id i passed found
      obtain ⟨_, eq⟩ | ⟨_, old⟩ := TaskList.of_set found
      · cases eq
      · exact old
    have now : Orderly s.network { c with forwarders := c.forwarders.set f .stopped } :=
      orderly.of_phase rfl rfl rfl (Nat.le_refl _) orderly.responses (fun _ _ _ is => is) (fun _ _ _ is => .inr is)
        orderly.responding
    exact feeds.carry accounted went.1 went.2 (fed.later now went.1 went.2)
  | @sweeping n i c address addresses here closing owned =>
    have fed := feeds n c here
    have orderly := accounted.each n c here
    have phase : ∀ r request m, ServingPhase.sweeping s.network.calls.length (addresses.eraseIdx i) = .dispatching r request m ↔
        c.phase = .dispatching r request m := by
      intro r request m
      rw [closing]
      exact iff_of_false (by simp) (by simp)
    have sweeps : Fed s.network { c with phase := .sweeping s.network.calls.length (addresses.eraseIdx i) } :=
      fed.aside orderly rfl rfl (List.append_nil _).symm rfl rfl (fun _ => rfl) (fun _ _ _ _ there => there) phase
    have now : Orderly s.network { c with phase := .sweeping s.network.calls.length (addresses.eraseIdx i) } := by
      refine orderly.of_phase rfl rfl rfl (Nat.le_refl _) orderly.responses (by simp) ?_ (by simp)
      intro r request m is
      rw [closing] at is
      cases is
    exact feeds.carry accounted (.begun _ _) (.of_eq rfl) (sweeps.later now (.begun _ _) (.of_eq rfl))
  | @swept n call c rest here sweeping =>
    refine feeds.set ((feeds n c here).aside (accounted.each n c here) rfl rfl (List.append_nil _).symm rfl rfl (fun _ => rfl)
      (fun _ _ _ _ there => there) ?_)
    intro r request m
    rw [sweeping]
    exact iff_of_false (by simp) (by simp)

/-- What the subscribers of a broker are handed. -/
structure Delivers (s : Broker) : Prop where
  /-- A `subscribe` that returned a stream made one on the radio, by the one call
  it was there, and what has come of it is what was sent on that one first, in
  order. -/
  subscribed : ∀ (n : Nat) (c : BrokerConnection) (k j : Nat) (call : ClientCall), s.connections[n]? = some c →
    c.fewStreams → c.link.client.waiters.length < 2 ^ 64 → c.link.calls[k]? = some call →
    call.stage = .returned (.stream (.ok j)) →
    ∃ m i link characteristic serviced, c.DispatchedAs k m ∧ (∀ m', c.DispatchedAs k m' → m' = m) ∧
      call.request = .subscribe link characteristic ∧
      s.network.calls[m]? = some serviced ∧ serviced.request = .radio (.subscribe link characteristic) ∧
      serviced.stage = .returned (.ok (.radio (.stream i))) ∧ i < s.network.service.radio.streams.length ∧
      c.link.client.streams[j]? = some (c.arrived (subscriptionId j)) ∧ c.arrived (subscriptionId j) <+: s.network.items i
  /-- And nothing is lost: all that the forwarder passed on comes with the frames
  that are on their way. -/
  whole : ∀ (n : Nat) (c : BrokerConnection) (f i passed j : Nat), s.connections[n]? = some c → c.fewStreams →
    c.forwarders[f]? = some (.notify (subscriptionId j) i passed) →
    c.arrived (subscriptionId j) ++ (c.outbox.drop c.delivered).filterMap (Envelope.itemFor (subscriptionId j)) =
      (s.network.items i).take passed

theorem feeds (reach : machine.Reach s) : Feeds s := by
  have both : Accounted s ∧ Feeds s := by
    refine reach.invariant (P := fun s => Accounted s ∧ Feeds s) ?_ ?_
    · rintro s rfl
      exact ⟨accounted (.start rfl), fun n c there => by simp at there⟩
    · rintro s input t _ ⟨accounted, feeds⟩ stepped
      exact ⟨accounted.step (step_cases stepped), feeds.step accounted (step_cases stepped)⟩
  exact both.2

theorem reach_delivers (reach : machine.Reach s) : s.Delivers := by
  have accounted := accounted reach
  have feeds := feeds reach
  refine ⟨?_, ?_⟩
  · intro n c k j call here few fewer at_ stage
    have orderly := accounted.each n c here
    have fed := feeds n c here
    rcases orderly.returned fewer at_ stage with own | ⟨p, w, m, request, owner, serviced, reply, put, member, asks, there, is,
      returned, eq⟩
    · cases own
    · cases whole : call.request with
      | call asked =>
        rw [whole] at asks
        obtain ⟨_, rfl⟩ := asks
        cases eq
      | subscribe link characteristic =>
        rw [whole] at asks
        obtain ⟨j', rfl, rfl⟩ := asks
        have stages := ServiceNetwork.reach_subscribes accounted.inProcess m serviced link characteristic there is
        rw [returned] at stages
        cases reply with
        | error e => cases eq
        | ok reply =>
          obtain ⟨i, rfl, bound⟩ := stages
          cases eq
          have got := fed.got few k j (.inr ⟨call, at_, stage⟩)
          have dispatched : c.DispatchedAs k m := ⟨p, w, put.entry, member⟩
          refine ⟨m, i, link, characteristic, serviced, dispatched, fun m' again => orderly.dispatched_once again dispatched,
            rfl, there, is, returned, bound, got, ?_⟩
          have result : s.network.result m = some (.ok (.radio (.stream i))) :=
            ServiceNetwork.result_eq_some.mpr ⟨serviced, there, returned⟩
          by_cases dispatching : ∃ r request, c.phase = .dispatching r request m
          · obtain ⟨r, request, dispatching⟩ := dispatching
            have none_ : c.queued (subscriptionId j) = [] := by
              by_contra some_
              obtain ⟨p', i', handed⟩ := fed.begun few _ some_
              exact fed.queued_pending orderly few member put.frame dispatching handed
            have arrived := Fed.arrived_prefix c (subscriptionId j)
            rw [none_, List.prefix_nil] at arrived
            rw [arrived]
            exact List.nil_prefix
          · have handed : Handed s.network c (subscriptionId j) p i :=
              ⟨m, _, link, characteristic, member, put.frame, result, fun r request is => dispatching ⟨r, request, is⟩⟩
            exact (Fed.arrived_prefix c _).trans (fed.ordered few _ p i handed)
  · intro n c f i passed j here few there
    obtain ⟨_, _, all⟩ := (feeds n c here).running f _ i passed there
    rw [← all few, BrokerConnection.arrived, ← List.filterMap_append, List.take_append_drop]
    rfl

def notifying : GattServiceSpec where
  uuid := ⟨0⟩
  characteristics := [{ uuid := ⟨1⟩, readable := false, writable := false, notifiable := true, initialValue := [] }]

/-- A `subscribe` whose first item arrives before its answer. -/
def notifiedFirst : List BrokerSystemInput :=
  List.flatten [
    [.dial, .dial, .client 0 (.begin_ (.call (.advertise ⟨"p"⟩ notifying)))],
    List.replicate 3 (.client 0 (.proceed 0)),
    [.request 0, .proceed 0, .finish 0, .respond 0, .client 0 (.begin_ (.call (.connect ⟨"c"⟩ ⟨"p"⟩)))],
    List.replicate 3 (.client 0 (.proceed 1)),
    [.request 0],
    List.replicate 4 (.proceed 1),
    [.finish 0, .respond 0, .client 0 (.begin_ (.subscribe ⟨0, ⟨"c"⟩, ⟨"p"⟩⟩ ⟨1⟩))],
    List.replicate 5 (.client 0 (.proceed 2)),
    [.request 0],
    List.replicate 5 (.proceed 2),
    [.finish 0, .client 1 (.begin_ (.call (.notify ⟨"p"⟩ ⟨1⟩ [7])))],
    List.replicate 3 (.client 1 (.proceed 0)),
    [.request 1, .proceed 3, .forward 0 0, .respond 0, .deliver 0, .deliver 0, .deliver 0, .deliver 0, .client 0 (.proceed 2)]]

/-- The third call of the first client returned the first stream, with an item. -/
def itemCame (s : Broker) : Bool :=
  match s.connections[0]? with
  | some c =>
    decide (c.link.client.streams.map List.length = [1]) &&
      match (c.link.calls[2]?).map Sectioned.Call.stage with
      | some (.returned (ClientResult.stream (.ok j))) => j == 0
      | _ => false
  | none => false

theorem reach_delivers_notified_first : ∃ s : Broker, s.Delivers ∧ itemCame s = true := by
  obtain ⟨s, reach, came⟩ := Machine.Reach.exists_of_follow machine itemCame rfl notifiedFirst (by decide +kernel)
  exact ⟨s, reach_delivers reach, came⟩

end Broker

end BleGatt
