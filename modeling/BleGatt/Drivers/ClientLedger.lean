import BleGatt.Drivers.MockShutdown
import BleGatt.Drivers.MockBroker

namespace BleGatt
open Std

/-! Whose frame is whose: each call puts at most one frame in its client's
outbox, under the number of its waiter, and returns what was answered to it. -/

/-- The id a stream is subscribed under. -/
def subscriptionId (stream : Nat) : UInt64 := UInt64.ofNat stream

/-- The frame a call puts in the outbox, and whom what is answered goes to. -/
def ClientRequest.Asks : ClientRequest → WireRequest → CallOwner → Prop
  | call request, asked, owner => asked = request ∧ owner = .caller
  | subscribe link characteristic, asked, owner =>
    ∃ stream, asked = .subscribe link characteristic (subscriptionId stream) ∧ owner = .subscription (subscriptionId stream) stream

namespace ClientSection

/-- Its call has put no frame in the outbox, and may still. -/
def unwritten : ClientSection → Bool
  | await _ _ _ | removeSubscription _ _ => false
  | _ => true

def Serves : ClientSection → ClientRequest → Prop
  | takeSubscription link characteristic, whole => whole = .subscribe link characteristic
  | insertSubscription id stream request, whole => whole.Asks request (.subscription id stream)
  | takeCorrelation request owner, whole | register _ _ request owner, whole | send _ _ request owner, whole =>
    whole.Asks request owner
  | forget _ owner, whole => ∃ request, whole.Asks request owner
  | _, _ => True

/-- What is left of a call that keeps to its waiter and its frame. -/
structure Follows (section_ next : ClientSection) : Prop where
  unwritten : next.unwritten = true → section_.unwritten = true
  waits : ∀ entry, next.waits = some entry → section_.waits = some entry
  serves : ∀ whole, section_.Serves whole → next.Serves whole
  awaits : ∀ correlation w owner, next = .await correlation w owner → section_ = .await correlation w owner

theorem Follows.removed {section_ : ClientSection} (id : UInt64) (error : BleError) :
    Follows section_ (.removeSubscription id error) where
  unwritten := nofun
  waits := nofun
  serves _ _ := trivial
  awaits := nofun

end ClientSection

/-- The correlation id a waiter stands for. -/
def correlation (waiter : Nat) : UInt64 := UInt64.ofNat (waiter + 1)

theorem correlation_ne_zero {w : Nat} (bound : w + 1 < 2 ^ 64) : correlation w ≠ 0 := by
  intro zero
  have numbers : (UInt64.ofNat (w + 1)).toNat = (0 : UInt64).toNat := congrArg UInt64.toNat zero
  rw [UInt64.toNat_ofNat_of_lt' bound] at numbers
  simp at numbers

theorem correlation_inj {v w : Nat} (first : v + 1 < 2 ^ 64) (second : w + 1 < 2 ^ 64) (same : correlation v = correlation w) :
    v = w := by
  have numbers : (UInt64.ofNat (v + 1)).toNat = (UInt64.ofNat (w + 1)).toNat := congrArg UInt64.toNat same
  rw [UInt64.toNat_ofNat_of_lt' first, UInt64.toNat_ofNat_of_lt' second] at numbers
  omega

namespace RemoteClient

/-- The waiters keep their ids, and nothing is put in the outbox. -/
structure Quiet (c c' : RemoteClient) : Prop where
  outbox : c'.outbox = c.outbox
  next : c'.nextCorrelation = c.nextCorrelation
  waiters : c'.waiters.length = c.waiters.length
  own : ∀ w, c'.correlationOf w = c.correlationOf w

namespace Quiet

variable {c c' c'' : RemoteClient}

theorem of_eq (outbox : c'.outbox = c.outbox) (next : c'.nextCorrelation = c.nextCorrelation)
    (waiters : c'.waiters = c.waiters) : Quiet c c' where
  outbox := outbox
  next := next
  waiters := by rw [waiters]
  own w := by rw [correlationOf, waiters]; rfl

theorem trans (first : Quiet c c') (second : Quiet c' c'') : Quiet c c'' where
  outbox := second.outbox.trans first.outbox
  next := second.next.trans first.next
  waiters := second.waiters.trans first.waiters
  own w := (second.own w).trans (first.own w)

theorem settle (c : RemoteClient) (w : Nat) (answer : WaiterAnswer) : Quiet c (c.settle w answer) where
  outbox := rfl
  next := rfl
  waiters := List.length_modify ..
  own _ := correlationOf_settle

theorem dropWaiter (c : RemoteClient) (correlation : UInt64) : Quiet c (c.dropWaiter correlation) := by
  unfold RemoteClient.dropWaiter
  split
  · exact (settle c _ .dropped).trans (.of_eq rfl rfl rfl)
  · exact .of_eq rfl rfl rfl

theorem onFrame (env : Envelope) (c : RemoteClient) : Quiet c (c.onFrame env) := by
  unfold RemoteClient.onFrame
  split
  · split
    · exact (settle c _ _).trans (.of_eq rfl rfl rfl)
    · exact .of_eq rfl rfl rfl
  · exact .of_eq rfl rfl rfl
  · unfold toSubscription
    split <;> exact .of_eq rfl rfl rfl
  · exact .of_eq rfl rfl rfl

theorem drained (waiters : List Nat) (answer : WaiterAnswer) (c : RemoteClient) :
    Quiet c (waiters.foldl (fun c waiter => c.settle waiter answer) c) := by
  induction waiters generalizing c with
  | nil => exact .of_eq rfl rfl rfl
  | cons waiter waiters ih => exact (settle c waiter answer).trans (ih (c.settle waiter answer))

theorem close (c : RemoteClient) : Quiet c c.close := (drained _ _ c).trans (.of_eq rfl rfl rfl)

end Quiet

/-- What a call puts in the outbox is all that its turn puts there. -/
theorem Acts.quiet {c c' : RemoteClient} {section_ : ClientSection} {turn : ClientTurn} (acts : Acts c section_ c' turn) :
    Quiet c c' ∧ (c.nextSubscription = subscriptionId c.streams.length → ∀ next, turn = .go [next] → section_.Follows next) ∨
      (∃ request owner, section_ = .takeCorrelation request owner) ∨
        ∃ correlation w request owner, section_ = .send correlation w request owner ∧
          c' = { c with outbox := c.outbox ++ [⟨correlation, .req request⟩] } ∧ turn = .go [.await correlation w owner] := by
  have concluded : ∀ owner result next, conclude owner result = .go [next] → section_.Follows next := by
    intro owner result next eq
    rcases conclude_cases owner result with ⟨final, is⟩ | ⟨id, error, is⟩
    · rw [is] at eq
      cases eq
    · rw [is] at eq
      cases eq
      exact .removed id error
  cases acts with
  | takeSubscription link characteristic =>
    refine .inl ⟨.of_eq rfl rfl rfl, ?_⟩
    intro numbered next eq
    cases eq
    refine ⟨fun _ => rfl, nofun, ?_, nofun⟩
    intro whole serves
    rw [numbered]
    exact serves ▸ ⟨_, rfl, rfl⟩
  | insertSubscription id stream request =>
    refine .inl ⟨.of_eq rfl rfl rfl, ?_⟩
    intro _ next eq
    cases eq
    exact ⟨fun _ => rfl, nofun, fun _ serves => serves, nofun⟩
  | takeCorrelation request owner => exact .inr (.inl ⟨request, owner, rfl⟩)
  | refused closed => exact .inl ⟨.of_eq rfl rfl rfl, fun _ => concluded _ _⟩
  | registered open_ =>
    refine .inl ⟨(Quiet.dropWaiter c _).trans (.of_eq rfl rfl rfl), ?_⟩
    intro _ next eq
    cases eq
    exact ⟨fun _ => rfl, fun _ waits => waits, fun _ serves => serves, nofun⟩
  | unsent =>
    refine .inl ⟨.of_eq rfl rfl rfl, ?_⟩
    intro _ next eq
    cases eq
    exact ⟨fun _ => rfl, nofun, fun _ serves => ⟨_, serves⟩, nofun⟩
  | sent => exact .inr (.inr ⟨_, _, _, _, rfl, rfl, rfl⟩)
  | forgot correlation owner => exact .inl ⟨.dropWaiter c correlation, fun _ => concluded _ _⟩
  | answered result => exact .inl ⟨.of_eq rfl rfl rfl, fun _ => concluded _ _⟩
  | removed id error => exact .inl ⟨.of_eq rfl rfl rfl, fun _ => nofun⟩

end RemoteClient

/-- What a call was asked for. -/
def requestOf (s : BrokerLink) (n : Nat) : Option ClientRequest := (s.calls[n]?).map Sectioned.Call.request

/-- Call `n` put its frame in the outbox, under the number of its waiter. -/
structure Put (written : List (Option (Nat × Nat))) (s : BrokerLink) (n p w : Nat) (request : WireRequest) (owner : CallOwner) :
    Prop where
  entry : written[p]? = some (some (n, w))
  frame : s.client.outbox[p]? = some ⟨correlation w, .req request⟩
  asks : ∃ whole, requestOf s n = some whole ∧ whole.Asks request owner

theorem Put.mono {written written' : List (Option (Nat × Nat))} {s t : BrokerLink} {n p w : Nat} {request : WireRequest}
    {owner : CallOwner} (put : Put written s n p w request owner)
    (more : ∀ (p : Nat) entry, written[p]? = some entry → written'[p]? = some entry)
    (kept : ∀ (p : Nat) env, s.client.outbox[p]? = some env → t.client.outbox[p]? = some env)
    (requests : ∀ n whole, requestOf s n = some whole → requestOf t n = some whole) : Put written' t n p w request owner where
  entry := more p _ put.entry
  frame := kept p _ put.frame
  asks := by
    obtain ⟨whole, is, asks⟩ := put.asks
    exact ⟨whole, requests n whole is, asks⟩

/-- What was put in the outbox is there still. -/
def Puts (written written' : List (Option (Nat × Nat))) (s t : BrokerLink) : Prop :=
  ∀ n p w request owner, Put written s n p w request owner → Put written' t n p w request owner

/-- The frames of an outbox, each with the call that put it there and its waiter. -/
structure Ledger (written : List (Option (Nat × Nat))) (s : BrokerLink) : Prop where
  length : written.length = s.client.outbox.length
  numbered : ∀ w r, s.client.correlationOf w = some r → r = correlation w
  next : s.client.nextCorrelation = correlation s.client.waiters.length
  entry : ∀ (p n w : Nat), written[p]? = some (some (n, w)) → w < s.client.waiters.length ∧
    ∃ request owner, Put written s n p w request owner
  registration : ∀ p : Nat, written[p]? = some none → ∃ address, s.client.outbox[p]? = some ⟨0, .req (.registerAddress address)⟩
  callOnce : ∀ (p p' n w w' : Nat), written[p]? = some (some (n, w)) → written[p']? = some (some (n, w')) → p = p'
  waiterOnce : ∀ (p p' n n' w : Nat), written[p]? = some (some (n, w)) → written[p']? = some (some (n', w)) → p = p'
  unwritten : ∀ n section_, At s n section_ → section_.unwritten = true → ∀ p w : Nat, written[p]? ≠ some (some (n, w))
  unused : ∀ n section_ r w, At s n section_ → section_.waits = some (r, w) → section_.unwritten = true →
    ∀ p m : Nat, written[p]? ≠ some (some (m, w))
  awaits : ∀ n r w owner, At s n (.await r w owner) → ∃ p request, Put written s n p w request owner
  serves : ∀ n section_ whole, At s n section_ → requestOf s n = some whole → section_.Serves whole
  apart : ∀ n m section_ other r r' w, At s n section_ → At s m other → section_.waits = some (r, w) →
    other.waits = some (r', w) → n = m

namespace Ledger

variable {written : List (Option (Nat × Nat))} {s : BrokerLink} {n : Nat} {call : ClientCall} {section_ : ClientSection}
  {client : RemoteClient} {turn : ClientTurn}

theorem lt_of_own {w : Nat} {r : UInt64} {c : RemoteClient} (own : c.correlationOf w = some r) : w < c.waiters.length := by
  obtain ⟨entry, here, _⟩ := Option.map_eq_some_iff.mp own
  exact TaskList.lt_length here

theorem put_quiet {p w : Nat} {request : WireRequest} {owner : CallOwner} (quiet : RemoteClient.Quiet s.client client)
    (put : Put written s n p w request owner) : Put written { s with client := client } n p w request owner :=
  put.mono (fun _ _ there => there) (fun _ _ there => quiet.outbox.symm ▸ there) fun _ _ is => is

/-- What happens to the client alone, its outbox and the ids left as they are. -/
theorem quiet (ledger : Ledger written s) (quiet : RemoteClient.Quiet s.client client) :
    Ledger written { s with client := client } where
  length := by rw [quiet.outbox]; exact ledger.length
  numbered w r own := ledger.numbered w r ((quiet.own w).symm.trans own)
  next := by rw [quiet.next, quiet.waiters]; exact ledger.next
  entry p n w there := by
    obtain ⟨bound, request, owner, put⟩ := ledger.entry p n w there
    exact ⟨quiet.waiters.symm ▸ bound, request, owner, put_quiet quiet put⟩
  registration p there := by
    rw [quiet.outbox]
    exact ledger.registration p there
  callOnce := ledger.callOnce
  waiterOnce := ledger.waiterOnce
  unwritten := ledger.unwritten
  unused := ledger.unused
  awaits n r w owner there := by
    obtain ⟨p, request, put⟩ := ledger.awaits n r w owner there
    exact ⟨p, request, put_quiet quiet put⟩
  serves := ledger.serves
  apart := ledger.apart

/-- A change of the calls in which each goes on with what it was about, or is
new. -/
theorem of_calls {calls : List ClientCall} (ledger : Ledger written s)
    (requests : ∀ n whole, requestOf s n = some whole → requestOf { s with calls := calls } n = some whole)
    (at_ : ∀ n next, At { s with calls := calls } n next →
      (∃ section_, At s n section_ ∧ section_.Follows next) ∨ next.waits = none ∧
        (∀ whole, requestOf { s with calls := calls } n = some whole → next.Serves whole) ∧
        ∀ p w : Nat, written[p]? ≠ some (some (n, w))) :
    Ledger written { s with calls := calls } where
  length := ledger.length
  numbered := ledger.numbered
  next := ledger.next
  entry p n w there := by
    obtain ⟨bound, request, owner, put⟩ := ledger.entry p n w there
    exact ⟨bound, request, owner, put.mono (fun _ _ there => there) (fun _ _ there => there) requests⟩
  registration := ledger.registration
  callOnce := ledger.callOnce
  waiterOnce := ledger.waiterOnce
  unwritten n next here unwritten := by
    rcases at_ n next here with ⟨section_, old, follows⟩ | ⟨_, _, never⟩
    · exact ledger.unwritten n section_ old (follows.unwritten unwritten)
    · exact never
  unused n next r w here waits unwritten := by
    rcases at_ n next here with ⟨section_, old, follows⟩ | ⟨none_, _, _⟩
    · exact ledger.unused n section_ r w old (follows.waits _ waits) (follows.unwritten unwritten)
    · rw [none_] at waits
      cases waits
  awaits n r w owner here := by
    rcases at_ n _ here with ⟨section_, old, follows⟩ | ⟨none_, _, _⟩
    · rw [follows.awaits r w owner rfl] at old
      obtain ⟨p, request, put⟩ := ledger.awaits n r w owner old
      exact ⟨p, request, put.mono (fun _ _ there => there) (fun _ _ there => there) requests⟩
    · cases none_
  serves n next whole here asked := by
    rcases at_ n next here with ⟨section_, old, follows⟩ | ⟨_, serves, _⟩
    · obtain ⟨call, there, member⟩ := old
      have was : requestOf s n = some call.request := by rw [requestOf, there]; rfl
      have same := (requests n call.request was).symm.trans asked
      cases Option.some.inj same
      exact follows.serves _ (ledger.serves n section_ call.request ⟨call, there, member⟩ was)
    · exact serves whole asked
  apart n m next next' r r' w here there waits waits' := by
    rcases at_ n next here with ⟨section_, old, follows⟩ | ⟨none_, _, _⟩
    · rcases at_ m next' there with ⟨section_', old', follows'⟩ | ⟨none_, _, _⟩
      · exact ledger.apart n m section_ section_' r r' w old old' (follows.waits _ waits) (follows'.waits _ waits')
      · rw [none_] at waits'
        cases waits'
    · rw [none_] at waits
      cases waits

/-- The calls of a turn ask for what they asked for before. -/
theorem requestOf_set (here : s.calls[n]? = some call) (stage : Sectioned.Stage ClientSection ClientResult) (m : Nat) :
    requestOf ⟨client, s.calls.set n ⟨call.request, stage⟩⟩ m = requestOf s m := by
  unfold requestOf
  rw [TaskList.getElem?_set here]
  by_cases same : m = n
  · rw [if_pos same, same, here]
    rfl
  · rw [if_neg same]

theorem follows_refl (section_ : ClientSection) : section_.Follows section_ :=
  ⟨fun unwritten => unwritten, fun _ waits => waits, fun _ serves => serves, fun _ _ _ is => is⟩

/-- A turn that neither takes an id nor puts a frame in the outbox. -/
theorem turned (ledger : Ledger written s) (here : s.calls[n]? = some call) (ahead : call.ahead = [section_])
    (acts : RemoteClient.Acts s.client section_ client turn) (quiet : RemoteClient.Quiet s.client client)
    (follows : ∀ next, turn = .go [next] → section_.Follows next) :
    Ledger written ⟨client, s.calls.set n ⟨call.request, remoteClient.after [] turn⟩⟩ := by
  have later : Ledger written { s with client := client } := ledger.quiet quiet
  refine later.of_calls ?_ ?_
  · intro m whole asked
    exact (requestOf_set here _ m).trans asked
  · intro m next at_
    rcases at_.of_turned acts with ⟨rfl, rfl⟩ | ⟨_, old⟩
    · exact .inl ⟨section_, ⟨call, here, ahead ▸ List.mem_cons_self⟩, follows next rfl⟩
    · exact .inl ⟨next, old, follows_refl next⟩

/-- A call takes an id, and its waiter is new. -/
theorem tookCorrelation {request : WireRequest} {owner : CallOwner} (ledger : Ledger written s) (waiting : Waiting s)
    (here : s.calls[n]? = some call) (ahead : call.ahead = [.takeCorrelation request owner])
    (acts : RemoteClient.Acts s.client (.takeCorrelation request owner) client turn) :
    Ledger written ⟨client, s.calls.set n ⟨call.request, remoteClient.after [] turn⟩⟩ := by
  have mine : At s n (.takeCorrelation request owner) := ⟨call, here, ahead ▸ List.mem_cons_self⟩
  have never := ledger.unwritten n _ mine rfl
  have at_ : ∀ m next, At ⟨client, s.calls.set n ⟨call.request, remoteClient.after [] turn⟩⟩ m next →
      m = n ∧ turn = .go [next] ∨ m ≠ n ∧ At s m next := fun m next at_ => at_.of_turned acts
  have requests : ∀ m, requestOf ⟨client, s.calls.set n ⟨call.request, remoteClient.after [] turn⟩⟩ m = requestOf s m :=
    requestOf_set here _
  -- A waiter that some other call waits on was there before.
  have older : ∀ m section_ r w, At s m section_ → section_.waits = some (r, w) → w < s.client.waiters.length :=
    fun m section_ r w there waits => lt_of_own (waiting.own m section_ r w there waits)
  have asks : ∀ whole, requestOf s n = some whole → whole.Asks request owner :=
    fun whole asked => ledger.serves n _ whole mine asked
  cases acts
  refine ⟨ledger.length, ?_, ?_, ?_, ledger.registration, ledger.callOnce, ledger.waiterOnce, ?_, ?_, ?_, ?_, ?_⟩
  · intro w r own
    obtain ⟨entry, there, rfl⟩ := Option.map_eq_some_iff.mp own
    obtain old | ⟨rfl, rfl⟩ := TaskList.of_append there
    · exact ledger.numbered w _ (by rw [RemoteClient.correlationOf, old]; rfl)
    · exact ledger.next
  · change s.client.nextCorrelation + 1 = correlation (s.client.waiters ++ [_]).length
    rw [ledger.next, correlation, correlation, List.length_append, List.length_singleton]
    exact (UInt64.ofNat_add (s.client.waiters.length + 1) 1).symm
  · intro p m w there
    obtain ⟨bound, asked, owner', put⟩ := ledger.entry p m w there
    refine ⟨?_, asked, owner', put.mono (fun _ _ there => there) (fun _ _ there => there) fun k _ is => (requests k).trans is⟩
    change w < (s.client.waiters ++ [_]).length
    rw [List.length_append]
    exact Nat.lt_add_right 1 bound
  · intro m next there unwritten
    rcases at_ m next there with ⟨rfl, eq⟩ | ⟨_, old⟩
    · exact never
    · exact ledger.unwritten m next old unwritten
  · intro m next r w there waits unwritten
    rcases at_ m next there with ⟨rfl, eq⟩ | ⟨_, old⟩
    · cases eq
      cases waits
      intro p m written
      exact absurd (ledger.entry p m _ written).1 (Nat.lt_irrefl _)
    · exact ledger.unused m next r w old waits unwritten
  · intro m r w owner there
    rcases at_ m _ there with ⟨rfl, eq⟩ | ⟨_, old⟩
    · cases eq
    · obtain ⟨p, asked, put⟩ := ledger.awaits m r w owner old
      exact ⟨p, asked, put.mono (fun _ _ there => there) (fun _ _ there => there) fun k _ is => (requests k).trans is⟩
  · intro m next whole there asked
    have was := (requests m).symm.trans asked
    rcases at_ m next there with ⟨rfl, eq⟩ | ⟨_, old⟩
    · cases eq
      exact asks whole was
    · exact ledger.serves m next whole old was
  · intro m m' next next' r r' w there there' waits waits'
    rcases at_ m next there with ⟨rfl, eq⟩ | ⟨_, old⟩ <;> rcases at_ m' next' there' with ⟨rfl, eq'⟩ | ⟨_, old'⟩
    · rfl
    · cases eq
      cases waits
      exact absurd (older m' next' r' _ old' waits') (Nat.lt_irrefl _)
    · cases eq'
      cases waits'
      exact absurd (older m next r _ old waits) (Nat.lt_irrefl _)
    · exact ledger.apart m m' next next' r r' w old old' waits waits'

/-- A call puts its frame in the outbox. -/
theorem sent {r : UInt64} {waiter : Nat} {request : WireRequest} {owner : CallOwner} (ledger : Ledger written s)
    (waiting : Waiting s) (here : s.calls[n]? = some call) (ahead : call.ahead = [.send r waiter request owner]) :
    Ledger (written ++ [some (n, waiter)])
      ⟨{ s.client with outbox := s.client.outbox ++ [⟨r, .req request⟩] },
        s.calls.set n ⟨call.request, remoteClient.after [] (.go [.await r waiter owner])⟩⟩ := by
  have mine : At s n (.send r waiter request owner) := ⟨call, here, ahead ▸ List.mem_cons_self⟩
  have never := ledger.unwritten n _ mine rfl
  have unused := ledger.unused n _ r waiter mine rfl rfl
  have own := waiting.own n _ r waiter mine rfl
  have id : r = correlation waiter := ledger.numbered waiter r own
  have acts : RemoteClient.Acts s.client (.send r waiter request owner) _ _ := .sent
  have at_ := fun m next (at_ : At ⟨_, s.calls.set n ⟨call.request, remoteClient.after [] (.go [.await r waiter owner])⟩⟩ m next) =>
    at_.of_turned acts
  have requests : ∀ m, requestOf ⟨{ s.client with outbox := s.client.outbox ++ [⟨r, .req request⟩] },
      s.calls.set n ⟨call.request, remoteClient.after [] (.go [.await r waiter owner])⟩⟩ m = requestOf s m :=
    requestOf_set here _
  have was : requestOf s n = some call.request := by rw [requestOf, here]; rfl
  have asks := ledger.serves n _ call.request mine was
  have place : written.length = s.client.outbox.length := ledger.length
  have put : Put (written ++ [some (n, waiter)]) ⟨{ s.client with outbox := s.client.outbox ++ [⟨r, .req request⟩] },
      s.calls.set n ⟨call.request, remoteClient.after [] (.go [.await r waiter owner])⟩⟩ n written.length waiter request
      owner := by
    refine ⟨List.getElem?_concat_length, ?_, call.request, (requests n).trans was, asks⟩
    change (s.client.outbox ++ [_])[written.length]? = _
    rw [place, List.getElem?_concat_length, id]
  have older : ∀ {m p w asked owner'}, Put written s m p w asked owner' → Put (written ++ [some (n, waiter)])
      ⟨{ s.client with outbox := s.client.outbox ++ [⟨r, .req request⟩] },
        s.calls.set n ⟨call.request, remoteClient.after [] (.go [.await r waiter owner])⟩⟩ m p w asked owner' :=
    fun old => old.mono (fun _ _ there => TaskList.getElem?_append_of there _)
      (fun _ _ there => TaskList.getElem?_append_of there _) fun k _ is => (requests k).trans is
  refine ⟨?_, ledger.numbered, ledger.next, ?_, ?_, ?_, ?_, ?_, ?_, ?_, ?_, ?_⟩
  · simp only [List.length_append, List.length_singleton, place]
  · intro p m w there
    obtain old | ⟨rfl, eq⟩ := TaskList.of_append there
    · obtain ⟨bound, asked, owner', before⟩ := ledger.entry p m w old
      exact ⟨bound, asked, owner', older before⟩
    · cases eq
      exact ⟨lt_of_own own, request, owner, put⟩
  · intro p there
    obtain old | ⟨rfl, eq⟩ := TaskList.of_append there
    · obtain ⟨address, frame⟩ := ledger.registration p old
      exact ⟨address, TaskList.getElem?_append_of frame _⟩
    · cases eq
  · intro p p' m w w' there there'
    obtain old | ⟨rfl, eq⟩ := TaskList.of_append there <;> obtain old' | ⟨rfl, eq'⟩ := TaskList.of_append there'
    · exact ledger.callOnce p p' m w w' old old'
    · cases eq'
      exact absurd old (never p w)
    · cases eq
      exact absurd old' (never p' w')
    · rfl
  · intro p p' m m' w there there'
    obtain old | ⟨rfl, eq⟩ := TaskList.of_append there <;> obtain old' | ⟨rfl, eq'⟩ := TaskList.of_append there'
    · exact ledger.waiterOnce p p' m m' w old old'
    · cases eq'
      exact absurd old (unused p m)
    · cases eq
      exact absurd old' (unused p' m')
    · rfl
  · intro m next there unwritten p w written_
    rcases at_ m next there with ⟨rfl, eq⟩ | ⟨apart, old⟩
    · cases eq
      cases unwritten
    · obtain before | ⟨_, eq⟩ := TaskList.of_append written_
      · exact ledger.unwritten m next old unwritten p w before
      · cases eq
        exact apart rfl
  · intro m next r' w there waits unwritten p m' written_
    rcases at_ m next there with ⟨rfl, eq⟩ | ⟨apart, old⟩
    · cases eq
      cases unwritten
    · obtain before | ⟨_, eq⟩ := TaskList.of_append written_
      · exact ledger.unused m next r' w old waits unwritten p m' before
      · cases eq
        exact apart (ledger.apart m n next _ r' r _ old mine waits rfl)
  · intro m r' w owner' there
    rcases at_ m _ there with ⟨rfl, eq⟩ | ⟨apart, old⟩
    · cases eq
      exact ⟨written.length, request, put⟩
    · obtain ⟨p, asked, before⟩ := ledger.awaits m r' w owner' old
      exact ⟨p, asked, older before⟩
  · intro m next whole there asked
    rcases at_ m next there with ⟨rfl, eq⟩ | ⟨apart, old⟩
    · cases eq
      trivial
    · exact ledger.serves m next whole old ((requests m).symm.trans asked)
  · intro m m' next next' r' r'' w there there' waits waits'
    rcases at_ m next there with ⟨rfl, eq⟩ | ⟨apart, old⟩ <;> rcases at_ m' next' there' with ⟨rfl, eq'⟩ | ⟨apart', old'⟩
    · rfl
    · cases eq
      cases waits
      exact ledger.apart _ m' _ next' r r'' waiter mine old' rfl waits'
    · cases eq'
      cases waits'
      exact ledger.apart m _ next _ r' r waiter old mine waits rfl
    · exact ledger.apart m m' next next' r' r'' w old old' waits waits'

theorem registered (ledger : Ledger written s) (address : PeerAddress) :
    Ledger (written ++ List.replicate ((s.client.registerEventsSender address).outbox.length - s.client.outbox.length) none)
      { s with client := s.client.registerEventsSender address } := by
  unfold RemoteClient.registerEventsSender
  by_cases ended : s.client.writerEnded = true
  · simp only [ended, if_true, Nat.sub_self, List.replicate_zero, List.append_nil]
    exact ledger.quiet (.of_eq rfl rfl rfl)
  · simp only [ended, Bool.false_eq_true, if_false, List.length_append, List.length_singleton, Nat.add_sub_cancel_left,
      List.replicate_one]
    have old : ∀ (p n w : Nat), (written ++ [none])[p]? = some (some (n, w)) → written[p]? = some (some (n, w)) := by
      intro p n w there
      obtain old | ⟨_, eq⟩ := TaskList.of_append there
      · exact old
      · cases eq
    refine ⟨?_, ledger.numbered, ledger.next, ?_, ?_, ?_, ?_, ?_, ?_, ?_, ledger.serves, ledger.apart⟩
    · simp only [List.length_append, List.length_singleton, ledger.length]
    · intro p n w there
      obtain ⟨bound, request, owner, put⟩ := ledger.entry p n w (old p n w there)
      exact ⟨bound, request, owner, put.mono (fun _ _ there => TaskList.getElem?_append_of there _)
        (fun _ _ there => TaskList.getElem?_append_of there _) fun _ _ is => is⟩
    · intro p there
      obtain before | ⟨rfl, _⟩ := TaskList.of_append there
      · obtain ⟨address, frame⟩ := ledger.registration p before
        exact ⟨address, TaskList.getElem?_append_of frame _⟩
      · refine ⟨address, ?_⟩
        change (s.client.outbox ++ [_])[written.length]? = _
        rw [ledger.length, List.getElem?_concat_length]
    · exact fun p p' n w w' there there' => ledger.callOnce p p' n w w' (old p n w there) (old p' n w' there')
    · exact fun p p' n n' w there there' => ledger.waiterOnce p p' n n' w (old p n w there) (old p' n' w there')
    · exact fun n section_ there unwritten p w written_ =>
        ledger.unwritten n section_ there unwritten p w (old p n w written_)
    · exact fun n section_ r w there waits unwritten p m written_ =>
        ledger.unused n section_ r w there waits unwritten p m (old p m w written_)
    · intro n r w owner there
      obtain ⟨p, request, put⟩ := ledger.awaits n r w owner there
      exact ⟨p, request, put.mono (fun _ _ there => TaskList.getElem?_append_of there _)
        (fun _ _ there => TaskList.getElem?_append_of there _) fun _ _ is => is⟩

/-- A new call, that has put nothing in the outbox. -/
theorem begun (ledger : Ledger written s) (request : ClientRequest) :
    Ledger written { s with calls := remoteClient.start request s.calls } := by
  have requests : ∀ n whole, requestOf s n = some whole →
      requestOf { s with calls := remoteClient.start request s.calls } n = some whole := by
    intro n whole asked
    obtain ⟨call, there, is⟩ := Option.map_eq_some_iff.mp asked
    exact Option.map_eq_some_iff.mpr ⟨call, TaskList.getElem?_append_of there _, is⟩
  refine ledger.of_calls requests ?_
  intro n next there
  rcases there.of_begun with old | ⟨rfl, new⟩
  · exact .inl ⟨next, old, follows_refl next⟩
  · refine .inr ⟨?_, ?_, ?_⟩
    · cases request <;> cases List.mem_singleton.mp new <;> rfl
    · intro whole asked
      have is : requestOf { s with calls := remoteClient.start request s.calls } s.calls.length = some request := by
        simp only [requestOf, Sectioned.start, List.getElem?_concat_length, Option.map_some]
      cases Option.some.inj (is.symm.trans asked)
      cases request with
      | call => cases List.mem_singleton.mp new; exact ⟨rfl, rfl⟩
      | subscribe => cases List.mem_singleton.mp new; rfl
    · intro p w written_
      obtain ⟨_, _, _, put⟩ := ledger.entry p s.calls.length w written_
      obtain ⟨whole, asked, _⟩ := put.asks
      obtain ⟨call, there, _⟩ := Option.map_eq_some_iff.mp asked
      exact absurd (TaskList.lt_length there) (Nat.lt_irrefl _)

theorem cancelled (ledger : Ledger written s) (here : s.calls[n]? = some call) :
    Ledger written { s with calls := s.calls.set n ⟨call.request, .returned .cancelled⟩ } := by
  refine ledger.of_calls ?_ ?_
  · intro m whole asked
    exact (requestOf_set here _ m).trans asked
  · exact fun m next there => .inl ⟨next, there.of_cancelled, follows_refl next⟩

end Ledger

namespace BrokerConnection

variable {c c' : BrokerConnection} {input : BrokerInput}

/-- The entries an input of the client adds to its ledger. -/
def added (c c' : BrokerConnection) (input : BrokerInput) : List (Option (Nat × Nat)) :=
  List.replicate (c'.link.client.outbox.length - c.link.client.outbox.length) (c.writerOf input)

theorem client_eq (went : c.client input = some c') :
    c.link.step input = some c'.link ∧ c' = { c with link := c'.link, written := c.written ++ added c c' input } := by
  obtain ⟨link, stepped, eq⟩ := Option.bind_eq_some_iff.mp went
  cases Option.some.inj eq
  exact ⟨stepped, rfl⟩

/-- The ledger of a client is right, whatever it does. -/
theorem ledger_step (ledger : Ledger c.written c.link) (sole : Sole c.link) (waiting : Waiting c.link)
    (numbered : c.link.client.nextSubscription = subscriptionId c.link.client.streams.length)
    (went : c.client input = some c') : Ledger c'.written c'.link := by
  obtain ⟨stepped, eq⟩ := client_eq went
  have written : c'.written = c.written ++ added c c' input := congrArg BrokerConnection.written eq
  rw [written, added]
  generalize c'.link = link at stepped
  have quietly : ∀ client : RemoteClient, RemoteClient.Quiet c.link.client client →
      link = { c.link with client := client } →
      Ledger (c.written ++ List.replicate (link.client.outbox.length - c.link.client.outbox.length) (c.writerOf input)) link := by
    rintro client quiet rfl
    simp only [quiet.outbox, Nat.sub_self, List.replicate_zero, List.append_nil]
    exact ledger.quiet quiet
  cases BrokerLink.step_cases stepped with
  | begun request =>
    simp only [Nat.sub_self, List.replicate_zero, List.append_nil]
    exact ledger.begun request
  | cancelled here =>
    simp only [Nat.sub_self, List.replicate_zero, List.append_nil]
    exact ledger.cancelled here
  | registered address => exact ledger.registered address
  | @frame env reading => exact quietly _ (.onFrame env c.link.client) rfl
  | readFailed reading => exact quietly _ (.close c.link.client) rfl
  | clear closing =>
    exact quietly { c.link.client with subscriptions := ∅, reader := .ended } (.of_eq rfl rfl rfl) rfl
  | writeFailed => exact quietly { c.link.client with writerEnded := true } (.of_eq rfl rfl rfl) rfl
  | @turned n call section_ rest client turn here ahead acts =>
    cases sole n call here section_ rest ahead
    rcases acts.quiet with ⟨quiet, follows⟩ | ⟨request, owner, rfl⟩ | ⟨r, w, request, owner, rfl, rfl, rfl⟩
    · simp only [quiet.outbox, Nat.sub_self, List.replicate_zero, List.append_nil]
      exact ledger.turned here ahead acts quiet (follows numbered)
    · have took := ledger.tookCorrelation waiting here ahead acts
      cases acts
      simp only [Nat.sub_self, List.replicate_zero, List.append_nil]
      exact took
    · have put := ledger.sent waiting here ahead
      have writer : c.writerOf (.proceed n) = some (n, w) := by
        simp only [writerOf, Sectioned.next_eq_some.mpr ⟨call, here, ahead⟩]
      simp only [writer, List.length_append, List.length_singleton, Nat.add_sub_cancel_left, List.replicate_one]
      exact put

end BrokerConnection

/-- What is in the outbox stays where it is. -/
theorem BrokerLink.outbox_kept {s t : BrokerLink} {input : BrokerInput} (stepped : s.step input = some t) {p : Nat}
    {env : Envelope} (there : s.client.outbox[p]? = some env) : t.client.outbox[p]? = some env := by
  cases BrokerLink.step_cases stepped with
  | begun | cancelled | clear | writeFailed => exact there
  | registered address =>
    change (s.client.registerEventsSender address).outbox[p]? = some env
    by_cases ended : s.client.writerEnded = true
    · simpa only [RemoteClient.registerEventsSender, ended, if_true] using there
    · simp only [RemoteClient.registerEventsSender, ended, Bool.false_eq_true, if_false]
      exact TaskList.getElem?_append_of there _
  | @frame env' reading => rwa [(RemoteClient.Quiet.onFrame env' s.client).outbox]
  | readFailed reading => rwa [(RemoteClient.Quiet.close s.client).outbox]
  | turned here ahead acts =>
    rcases acts.quiet with ⟨quiet, _⟩ | ⟨request, owner, rfl⟩ | ⟨r, w, request, owner, rfl, rfl, rfl⟩
    · rwa [quiet.outbox]
    · cases acts
      exact there
    · exact TaskList.getElem?_append_of there _

theorem RemoteClient.nextSubscription_drained (waiters : List Nat) (answer : WaiterAnswer) (c : RemoteClient) :
    (waiters.foldl (fun c waiter => c.settle waiter answer) c).nextSubscription = c.nextSubscription := by
  induction waiters generalizing c with
  | nil => rfl
  | cons waiter waiters ih => exact ih (c.settle waiter answer)

theorem RemoteClient.nextSubscription_dropWaiter (c : RemoteClient) (correlation : UInt64) :
    (c.dropWaiter correlation).nextSubscription = c.nextSubscription := by
  unfold RemoteClient.dropWaiter
  split <;> rfl

theorem RemoteClient.nextSubscription_onFrame (env : Envelope) (c : RemoteClient) :
    (c.onFrame env).nextSubscription = c.nextSubscription := by
  unfold RemoteClient.onFrame
  split
  · split <;> rfl
  · rfl
  · unfold RemoteClient.toSubscription
    split <;> rfl
  · rfl

/-- The id of the next stream is its number. -/
theorem BrokerLink.numbered_step {s t : BrokerLink} {input : BrokerInput} (stepped : s.step input = some t)
    (numbered : s.client.nextSubscription = subscriptionId s.client.streams.length) :
    t.client.nextSubscription = subscriptionId t.client.streams.length := by
  cases BrokerLink.step_cases stepped with
  | begun | cancelled | clear | writeFailed => exact numbered
  | registered address =>
    obtain ⟨events, outbox, eq⟩ := s.client.registerEventsSender_eq address
    rw [eq]
    exact numbered
  | @frame env reading =>
    change (s.client.onFrame env).nextSubscription = subscriptionId (s.client.onFrame env).streams.length
    rw [RemoteClient.nextSubscription_onFrame, (RemoteClient.onFrame_keeps env s.client).2.2.1]
    exact numbered
  | readFailed reading =>
    have kept : s.client.close.nextSubscription = s.client.nextSubscription := RemoteClient.nextSubscription_drained _ _ _
    change s.client.close.nextSubscription = subscriptionId s.client.close.streams.length
    rw [kept, (RemoteClient.close_keeps s.client).1]
    exact numbered
  | turned here ahead acts =>
    cases acts with
    | takeSubscription =>
      change s.client.nextSubscription + 1 = subscriptionId (s.client.streams ++ [[]]).length
      rw [numbered, subscriptionId, subscriptionId, List.length_append]
      exact (UInt64.ofNat_add s.client.streams.length 1).symm
    | @registered correlation =>
      change (s.client.dropWaiter correlation).nextSubscription = subscriptionId (s.client.dropWaiter correlation).streams.length
      rw [RemoteClient.nextSubscription_dropWaiter, (RemoteClient.dropWaiter_keeps _ _).2.2.1]
      exact numbered
    | forgot correlation =>
      rw [RemoteClient.nextSubscription_dropWaiter, (RemoteClient.dropWaiter_keeps _ _).2.2.1]
      exact numbered
    | _ => exact numbered

/-- A call goes on asking for what it was begun for. -/
theorem BrokerLink.requestOf_kept {s t : BrokerLink} {input : BrokerInput} (stepped : s.step input = some t) {n : Nat}
    {whole : ClientRequest} (is : requestOf s n = some whole) : requestOf t n = some whole := by
  cases BrokerLink.step_cases stepped with
  | begun request =>
    obtain ⟨call, there, is⟩ := Option.map_eq_some_iff.mp is
    exact Option.map_eq_some_iff.mpr ⟨call, TaskList.getElem?_append_of there _, is⟩
  | cancelled here => exact (Ledger.requestOf_set here _ n).trans is
  | turned here ahead acts => exact (Ledger.requestOf_set here _ n).trans is
  | registered | frame | readFailed | clear | writeFailed => exact is

/-! What a call returns: an error of the client itself, or what was answered to
its frame. -/

def RemoteClient.notResponded : BleError := .transport "broker connection closed before responding"

/-- A result no broker was asked for. -/
def ClientResult.own : ClientResult → Bool
  | cancelled => true
  | response (.error e) | stream (.error e) => decide (e = RemoteClient.brokerClosed ∨ e = RemoteClient.notResponded)
  | _ => false

/-- What `call` makes of a response. -/
def WireResponse.outcome : WireResponse → Except BleError WireResponse
  | err e => .error e
  | response => .ok response

namespace CallOwner

/-- The result a call returns in the end. -/
def final : CallOwner → Except BleError WireResponse → ClientResult
  | caller, result => .response result
  | subscription _ stream, .ok .unit => .stream (.ok stream)
  | subscription _ _, .ok _ => .stream (.error (.transport "unexpected response to Subscribe"))
  | subscription _ _, .error e => .stream (.error e)

theorem final_own (owner : CallOwner) {e : BleError} (own : e = RemoteClient.brokerClosed ∨ e = RemoteClient.notResponded) :
    (owner.final (.error e)).own = true := by
  cases owner <;> exact decide_eq_true own

end CallOwner

/-- A turn has settled what its call returns. -/
def Settles (turn : ClientTurn) (result : ClientResult) : Prop :=
  turn = .end_ result ∨ ∃ id e, turn = .go [.removeSubscription id e] ∧ result = .stream (.error e)

theorem settles_conclude {owner : CallOwner} {outcome : Except BleError WireResponse} {result : ClientResult}
    (settles : Settles (RemoteClient.conclude owner outcome) result) : result = owner.final outcome := by
  cases owner with
  | caller =>
    rcases settles with eq | ⟨id, e, eq, rfl⟩
    · cases eq
      rfl
    · cases eq
  | subscription id stream =>
    cases outcome with
    | error e =>
      rcases settles with eq | ⟨id, e, eq, rfl⟩
      · cases eq
      · cases eq
        rfl
    | ok response =>
      cases response <;> rcases settles with eq | ⟨id, e, eq, rfl⟩ <;> cases eq <;> rfl

/-- What a call finds at its waiter. -/
def WaiterAnswer.outcome : WaiterAnswer → Except BleError WireResponse
  | .response given => given.outcome
  | .dropped => .error RemoteClient.notResponded

/-- `result` is what the broker answered to the frame of call `n`, if it is not
the client's own. -/
def Relayed (answer : UInt64 → WireResponse → Prop) (written : List (Option (Nat × Nat))) (s : BrokerLink) (n : Nat)
    (result : ClientResult) : Prop :=
  result.own = true ∨ ∃ p w request owner response, Put written s n p w request owner ∧ answer (correlation w) response ∧
    result = owner.final response.outcome

structure Answers (answer : UInt64 → WireResponse → Prop) (written : List (Option (Nat × Nat))) (s : BrokerLink) : Prop where
  given : ∀ w response, s.client.answered w = some (.response response) →
    response = .err RemoteClient.brokerClosed ∨ answer (correlation w) response
  removing : ∀ n id e, At s n (.removeSubscription id e) → Relayed answer written s n (.stream (.error e))
  returned : ∀ n call result, s.calls[n]? = some call → call.stage = .returned result → Relayed answer written s n result

namespace RemoteClient

theorem answered_settle_cases {c : RemoteClient} {v w : Nat} {answer found : WaiterAnswer}
    (given : (c.settle w answer).answered v = some found) : c.answered v = some found ∨ v = w ∧ found = answer := by
  by_cases same : v = w
  · subst same
    cases before : c.answered v with
    | some old =>
      have kept : (c.settle v answer).answered v = c.answered v :=
        answered_settle_of_some (Option.isSome_iff_exists.mpr ⟨old, before⟩)
      rw [kept, before] at given
      exact .inl given
    | none =>
      rw [answered, settle, TaskList.getElem?_modify, if_pos rfl] at given
      obtain ⟨entry, here, has⟩ := Option.bind_eq_some_iff.mp given
      obtain ⟨old, there, rfl⟩ := Option.map_eq_some_iff.mp here
      have unanswered : old.answer = none := by rw [answered, there] at before; exact before
      simp only [unanswered, Option.none_or, Option.some.injEq] at has
      exact .inr ⟨rfl, has.symm⟩
  · rw [answered_settle_of_ne same] at given
    exact .inl given

theorem answered_drained {waiters : List Nat} {answer found : WaiterAnswer} {v : Nat} {c : RemoteClient}
    (given : (waiters.foldl (fun c waiter => c.settle waiter answer) c).answered v = some found) :
    c.answered v = some found ∨ found = answer := by
  induction waiters generalizing c with
  | nil => exact .inl given
  | cons waiter waiters ih =>
    rcases ih given with before | same
    · rcases answered_settle_cases before with old | ⟨_, same⟩
      · exact .inl old
      · exact .inr same
    · exact .inr same

theorem answered_dropWaiter {c : RemoteClient} {v : Nat} {id : UInt64} {response : WireResponse}
    (given : (c.dropWaiter id).answered v = some (.response response)) : c.answered v = some (.response response) := by
  unfold dropWaiter at given
  split at given
  · rcases answered_settle_cases given with old | ⟨_, eq⟩
    · exact old
    · cases eq
  · exact given

/-- A turn answers no waiter. -/
theorem answered_act {c c' : RemoteClient} {section_ : ClientSection} {turn : ClientTurn} {v : Nat} {response : WireResponse}
    (acts : Acts c section_ c' turn) (given : c'.answered v = some (.response response)) :
    c.answered v = some (.response response) := by
  cases acts with
  | takeCorrelation request owner =>
    obtain ⟨entry, here, has⟩ := Option.bind_eq_some_iff.mp given
    obtain old | ⟨_, rfl⟩ := TaskList.of_append here
    · rw [answered, old]
      exact has
    · cases has
  | registered | forgot => exact answered_dropWaiter given
  | _ => exact given

theorem await_outcome {c c' : RemoteClient} {r : UInt64} {w : Nat} {owner : CallOwner} {turn : ClientTurn}
    (acted : c.act (.await r w owner) = some (c', turn)) :
    ∃ answer, c.answered w = some answer ∧ turn = conclude owner answer.outcome := by
  simp only [act] at acted
  split at acted
  · cases acted
  · rename_i e given
    cases acted
    exact ⟨_, given, rfl⟩
  · rename_i response unlike given
    cases acted
    refine ⟨_, given, ?_⟩
    cases response with
    | err e => exact absurd rfl (unlike e)
    | _ => rfl
  · rename_i given
    cases acted
    exact ⟨_, given, rfl⟩

end RemoteClient

namespace Answers

variable {answer answer' : UInt64 → WireResponse → Prop} {written written' : List (Option (Nat × Nat))} {s : BrokerLink}
  {n : Nat} {call : ClientCall} {section_ : ClientSection} {client : RemoteClient} {turn : ClientTurn}

theorem relayed_mono {t : BrokerLink} {result : ClientResult} (told : Relayed answer written s n result)
    (puts : ∀ p w request owner, Put written s n p w request owner → Put written' t n p w request owner)
    (answers : ∀ r response, answer r response → answer' r response) : Relayed answer' written' t n result := by
  rcases told with own | ⟨p, w, request, owner, response, put, is, eq⟩
  · exact .inl own
  · exact .inr ⟨p, w, request, owner, response, puts p w request owner put, answers _ _ is, eq⟩

/-- What a turn settles is the client's own, or was answered to the frame of
its call. -/
theorem settled (answers : Answers answer written s) (ledger : Ledger written s) (here : s.calls[n]? = some call)
    (ahead : call.ahead = [section_]) (acted : s.client.act section_ = some (client, turn)) {result : ClientResult}
    (settles : Settles turn result) : Relayed answer written s n result := by
  have mine : At s n section_ := ⟨call, here, ahead ▸ List.mem_cons_self⟩
  have refused : ∀ owner : CallOwner, turn = RemoteClient.conclude owner (.error RemoteClient.brokerClosed) →
      Relayed answer written s n result := by
    rintro owner rfl
    rw [settles_conclude settles]
    exact .inl (owner.final_own (.inl rfl))
  cases section_ with
  | await r w owner =>
    obtain ⟨given, at_, rfl⟩ := RemoteClient.await_outcome acted
    obtain ⟨p, request, put⟩ := ledger.awaits n r w owner mine
    rw [settles_conclude settles]
    cases given with
    | dropped => exact .inl (owner.final_own (.inr rfl))
    | response response =>
      rcases answers.given w response at_ with rfl | answered
      · exact .inl (owner.final_own (.inl rfl))
      · exact .inr ⟨p, w, request, owner, response, put, answered, rfl⟩
  | removeSubscription id e =>
    cases acted
    rcases settles with eq | ⟨_, _, eq, _⟩
    · cases eq
      exact answers.removing n id e mine
    · cases eq
  | register r w request owner =>
    cases RemoteClient.act_cases acted with
    | refused closed => exact refused owner rfl
    | registered open_ => rcases settles with eq | ⟨_, _, eq, _⟩ <;> cases eq
  | forget r owner =>
    cases acted
    exact refused owner rfl
  | send r w request owner =>
    cases RemoteClient.act_cases acted <;> rcases settles with eq | ⟨_, _, eq, _⟩ <;> cases eq
  | takeSubscription | insertSubscription | takeCorrelation =>
    cases acted
    rcases settles with eq | ⟨_, _, eq, _⟩ <;> cases eq

theorem turned (answers : Answers answer written s) (ledger : Ledger written s) (here : s.calls[n]? = some call)
    (ahead : call.ahead = [section_]) (acted : s.client.act section_ = some (client, turn))
    (puts : Puts written written' s ⟨client, s.calls.set n ⟨call.request, remoteClient.after [] turn⟩⟩) :
    Answers answer written' ⟨client, s.calls.set n ⟨call.request, remoteClient.after [] turn⟩⟩ := by
  have acts := RemoteClient.act_cases acted
  have settled : ∀ result, Settles turn result → Relayed answer written s n result :=
    fun _ settles => answers.settled ledger here ahead acted settles
  refine ⟨?_, ?_, ?_⟩
  · intro w response given
    exact answers.given w response (RemoteClient.answered_act acts given)
  · intro m id e there
    rcases there.of_turned acts with ⟨rfl, eq⟩ | ⟨_, old⟩
    · exact relayed_mono (settled _ (.inr ⟨id, e, eq, rfl⟩)) (puts _) fun _ _ is => is
    · exact relayed_mono (answers.removing m id e old) (puts _) fun _ _ is => is
  · intro m found result there stage
    obtain ⟨rfl, rfl⟩ | ⟨_, old⟩ := TaskList.of_set there
    · refine relayed_mono (settled result (.inl ?_)) (puts _) fun _ _ is => is
      rcases acts.left with ⟨final, rfl⟩ | ⟨next, rfl, _⟩
      · cases stage
        rfl
      · cases stage
    · exact relayed_mono (answers.returned m found result old stage) (puts _) fun _ _ is => is

/-- What happens to the client alone. -/
theorem alone (answers : Answers answer written s)
    (given : ∀ w response, client.answered w = some (.response response) →
      response = .err RemoteClient.brokerClosed ∨ answer (correlation w) response)
    (puts : Puts written written' s { s with client := client }) :
    Answers answer written' { s with client := client } where
  given := given
  removing n id e there := relayed_mono (answers.removing n id e there) (puts _) fun _ _ is => is
  returned n call result there stage := relayed_mono (answers.returned n call result there stage) (puts _) fun _ _ is => is

theorem step {t : BrokerLink} {input : BrokerInput} (answers : Answers answer written s) (ledger : Ledger written s)
    (sole : Sole s) (waiting : Waiting s) (stepped : s.step input = some t)
    (more : ∀ (p : Nat) entry, written[p]? = some entry → written'[p]? = some entry)
    (answered : ∀ env response, input = .frame env → env.frame = .resp response → answer env.correlationId response) :
    Answers answer written' t := by
  have puts : Puts written written' s t := fun n p w request owner put =>
    put.mono more (fun _ _ there => BrokerLink.outbox_kept stepped there) fun _ _ is => BrokerLink.requestOf_kept stepped is
  cases input with
  | proceed n =>
    obtain ⟨⟨client, calls⟩, proceeded, rfl⟩ := Option.map_eq_some_iff.mp stepped
    obtain ⟨call, section_, rest, turn, here, ahead, acted, rfl⟩ := Sectioned.proceed_cases proceeded
    cases sole n call here section_ rest ahead
    exact answers.turned ledger here ahead acted puts
  | registerEventsSender address =>
    cases stepped
    refine answers.alone ?_ puts
    obtain ⟨events, outbox, eq⟩ := s.client.registerEventsSender_eq address
    rw [eq]
    exact answers.given
  | begin_ request =>
    cases stepped
    refine ⟨answers.given, ?_, ?_⟩
    · intro n id e there
      rcases there.of_begun with old | ⟨_, new⟩
      · exact relayed_mono (answers.removing n id e old) (puts _) fun _ _ is => is
      · cases request <;> cases List.mem_singleton.mp new
    · intro n call result there stage
      obtain old | ⟨_, _, ahead⟩ := Sectioned.of_start there
      · exact relayed_mono (answers.returned n call result old stage) (puts _) fun _ _ is => is
      · obtain ⟨first, sections⟩ := Sole.sections_eq request
        rw [Sectioned.Call.ahead, stage] at ahead
        cases ahead.trans sections
  | cancel n =>
    cases BrokerLink.step_cases stepped with
    | cancelled here =>
      refine ⟨answers.given, ?_, ?_⟩
      · exact fun m id e there => relayed_mono (answers.removing m id e there.of_cancelled) (puts _) fun _ _ is => is
      · intro m found result there stage
        obtain ⟨rfl, rfl⟩ | ⟨_, old⟩ := TaskList.of_set there
        · cases stage
          exact .inl rfl
        · exact relayed_mono (answers.returned m found result old stage) (puts _) fun _ _ is => is
  | frame env =>
    obtain ⟨_, ⟨⟩⟩ := Option.ite_none_right_eq_some.mp stepped
    refine answers.alone ?_ puts
    intro w response given
    unfold RemoteClient.onFrame at given
    split at given
    · rename_i sent is
      split at given
      · rename_i waiter listed
        rcases RemoteClient.answered_settle_cases given with old | ⟨rfl, eq⟩
        · exact answers.given w response old
        · cases eq
          have own := waiting.pending env.correlationId w listed
          have id := ledger.numbered w env.correlationId own
          exact .inr (id ▸ answered env response rfl is)
      · exact answers.given w response given
    · exact answers.given w response given
    · unfold RemoteClient.toSubscription at given
      split at given <;> exact answers.given w response given
    · exact answers.given w response given
  | readFailed =>
    obtain ⟨_, ⟨⟩⟩ := Option.ite_none_right_eq_some.mp stepped
    refine answers.alone ?_ puts
    intro w response given
    rcases RemoteClient.answered_drained given with old | eq
    · exact answers.given w response old
    · cases eq
      exact .inl rfl
  | clear =>
    obtain ⟨_, ⟨⟩⟩ := Option.ite_none_right_eq_some.mp stepped
    exact answers.alone answers.given puts
  | writeFailed =>
    cases stepped
    exact answers.alone answers.given puts

/-- More may have been answered since. -/
theorem mono (answers : Answers answer written s) (more : ∀ r response, answer r response → answer' r response) :
    Answers answer' written s where
  given w response given := (answers.given w response given).imp id (more _ _)
  removing n id e there := relayed_mono (answers.removing n id e there) (fun _ _ _ _ put => put) more
  returned n call result there stage := relayed_mono (answers.returned n call result there stage) (fun _ _ _ _ put => put) more

end Answers

end BleGatt
