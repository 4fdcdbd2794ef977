import BleGatt.Drivers.NotifyQueue

namespace BleGatt
open Std

/-! What becomes of a queued notification: one answer, its own, and at most
one send, on its own server. -/

namespace ServerBridge

/-- The answer is what the send's own callback said, and false if there was no
send. -/
def Reported (item : PendingNotify) : Prop :=
  ∀ success ∈ item.answers, item.heard = some success ∨ success = false ∧ item.sentOn = []

/-- A step of a running call, stop or start, or the callback of a send of
the current server. -/
def own (generation : Nat) : ServerStep → Bool
  | .take _ | .load _ | .send _ _ | .refuse _ | .proceed => true
  | .onNotificationSent server _ => decide (server = generation)
  | _ => false

/-- Nothing that was begun has anything left to do. -/
def Quiet (s : ServerBridge) : Prop := ∀ label, own s.serverGeneration label = true → s.step label = none

structure NotifiesOnce (s : ServerBridge) : Prop where
  once : ∀ item ∈ s.notifications, item.answers.length ≤ 1
  answered : s.Quiet → ∀ item ∈ s.notifications, item.answers.length = 1
  own : ∀ item ∈ s.notifications, Reported item
  /-- The platform never has two sends to complete, whatever their servers. -/
  single : s.outstanding.length ≤ 1
  confined : ∀ item ∈ s.notifications, item.sentOn = [] ∨ item.sentOn = [item.server]

/-- The pending notifications are failed only while none is in flight. -/
def failsIdle (s : ServerBridge) : ServerStep → Bool
  | .proceed =>
    match s.lifecycle with
    | .stopping _ => s.notifyInFlight.isNone
    | _ => true
  | _ => true

/-- What a step does. -/
inductive Stepped (s : ServerBridge) : ServerStep → ServerBridge → Prop
  | same (label : ServerStep) : Stepped s label s
  | queued {address : PeerAddress} {characteristic : CharacteristicUuid} {value : Bytes} {requestId session : UInt64}
      {server : Nat} (admitted : s.admits address characteristic session = some server) :
      Stepped s (.notifyCharacteristicTo address characteristic value requestId session)
        ({ s with
          notifications := s.notifications ++
            [{ device := address, characteristicUuid := characteristic, value := value, requestId := requestId,
               server := server }]
          notifyQueue := s.notifyQueue ++ [s.notifications.length] } : ServerBridge).pumpNotifications
  | taken {pump next : Nat} {rest : List Nat} (here : s.pumps[pump]? = some .ready) (free : s.notifyInFlight = none)
      (queue : s.notifyQueue = next :: rest) :
      Stepped s (.take pump) { s.setPump pump (.took next) with notifyInFlight := some next, notifyQueue := rest }
  | idled {pump : Nat} (here : s.pumps[pump]? = some .ready)
      (nothing : s.notifyInFlight.isSome = true ∨ s.notifyQueue = []) : Stepped s (.take pump) (s.setPump pump .over)
  | loaded {pump number : Nat} (here : s.pumps[pump]? = some (.took number)) :
      Stepped s (.load pump) (s.setPump pump (.loaded number s.gattServer))
  | initiated {pump number server : Nat} (here : s.pumps[pump]? = some (.loaded number (some server))) :
      Stepped s (.send pump true)
        { s.setPump pump .over with
          notifications := s.notifications.modify number fun item => { item with sentOn := item.sentOn ++ [server] }
          outstanding := s.outstanding ++ [(server, number)] }
  | notInitiated {pump number : Nat} {server : Option Nat} {initiated : Bool}
      (here : s.pumps[pump]? = some (.loaded number server)) :
      Stepped s (.send pump initiated) (s.setPump pump (.refused number))
  | refused {pump number : Nat} (here : s.pumps[pump]? = some (.refused number)) :
      Stepped s (.refuse pump) (s.refuse pump number)
  | completed {server number : Nat} {success : Bool} (oldest : (server, number) ∈ s.outstanding) :
      Stepped s (.onNotificationSent server success) (s.onNotificationSent server number success)
  /-- Subscriptions and sessions; a subscription comes on the current server
  only. -/
  | peers {label : ServerStep} (subscribed : List (CharacteristicUuid × PeerAddress)) (sessions : PeerMap UInt64)
      (nextSession : UInt64)
      (kept : s.gattServer = some s.serverGeneration ∨ subscribed ⊆ s.subscribedDevices) :
      Stepped s label { s with
        subscribedDevices := subscribed, serverSessions := sessions, nextServerSession := nextSession }
  | stopping {label : ServerStep} (next : Option (List CharacteristicUuid))
      (started : s.lifecycle = .steady ∨ (∃ characteristics, s.lifecycle = .opening characteristics) ∨
        s.lifecycle = .adding []) : Stepped s label (s.beginStop next)
  | failing {next : Option (List CharacteristicUuid)} (here : s.lifecycle = .stopping next) :
      Stepped s .proceed { s.failPendingNotifications with lifecycle := .failed next }
  | closing {next : Option (List CharacteristicUuid)} (here : s.lifecycle = .failed next) :
      Stepped s .proceed { s with gattServer := none, lifecycle := .closed next }
  | cleared {next : Option (List CharacteristicUuid)} (lifecycle : Lifecycle) (here : s.lifecycle = .closed next)
      (follows : lifecycle = .steady ∨ ∃ characteristics, lifecycle = .opening characteristics) :
      Stepped s .proceed { s with serverCharacteristics := [], lifecycle := lifecycle }
  | renewed {characteristics : List CharacteristicUuid} (here : s.lifecycle = .opening characteristics) :
      Stepped s .proceed
        { s with serverGeneration := s.serverGeneration + 1, lifecycle := .renewed characteristics }
  | opened {characteristics : List CharacteristicUuid} (here : s.lifecycle = .renewed characteristics) :
      Stepped s .proceed { s with gattServer := some s.serverGeneration, lifecycle := .adding characteristics }
  | added {characteristics : List CharacteristicUuid} (served : List CharacteristicUuid) (lifecycle : Lifecycle)
      (here : s.lifecycle = .adding characteristics)
      (follows : lifecycle = .steady ∨ ∃ characteristics, lifecycle = .adding characteristics) :
      Stepped s .proceed { s with serverCharacteristics := served, lifecycle := lifecycle }

theorem current_cases {s s' : ServerBridge} {server : Nat} {act : ServerBridge → ServerBridge}
    (step : s.current server act = some s') :
    s' = s ∨ s.gattServer = some s.serverGeneration ∧ s' = act s := by
  unfold current at step
  simp only [Option.ite_none_right_eq_some, Option.some.injEq] at step
  obtain ⟨opened, rfl⟩ := step
  split
  · rename_i same
    exact .inr ⟨same ▸ opened, rfl⟩
  · exact .inl rfl

theorem mintSession_eq (device : PeerAddress) (s : ServerBridge) : ∃ sessions next,
    s.mintSession device = { s with serverSessions := sessions, nextServerSession := next } := by
  unfold mintSession
  split
  · exact ⟨s.serverSessions, s.nextServerSession, rfl⟩
  · exact ⟨_, _, rfl⟩

theorem step_cases {s s' : ServerBridge} {label : ServerStep} (step : s.step label = some s') : Stepped s label s' := by
  unfold ServerBridge.step at step
  cases label with
  | notifyCharacteristicTo address characteristic value requestId session =>
    cases Option.some.inj step
    unfold notifyCharacteristicTo
    cases admitted : s.admits address characteristic session with
    | none => exact .same _
    | some server => exact .queued admitted
  | take pump =>
    simp only [Option.ite_none_right_eq_some, Option.some.injEq] at step
    obtain ⟨here, rfl⟩ := step
    unfold ServerBridge.take
    split
    · rename_i busy
      exact .idled here (.inl (by rw [busy]; rfl))
    · rename_i empty
      exact .idled here (.inr empty)
    · rename_i free queue
      exact .taken here free queue
  | load pump =>
    dsimp only at step
    split at step
    · rename_i here
      cases Option.some.inj step
      exact .loaded here
    · simp at step
  | send pump initiated =>
    dsimp only at step
    split at step
    · rename_i number server here
      cases Option.some.inj step
      unfold ServerBridge.send
      dsimp only
      split
      · split
        · rename_i sends
          obtain ⟨rfl, _⟩ := Bool.and_eq_true_iff.mp sends
          exact .initiated here
        · exact .notInitiated here
      · exact .notInitiated here
    · simp at step
  | refuse pump =>
    dsimp only at step
    split at step
    · rename_i here
      cases Option.some.inj step
      exact .refused here
    · simp at step
  | onNotificationSent server success =>
    obtain ⟨⟨sender, number⟩, oldest, moved⟩ := Option.bind_eq_some_iff.mp step
    cases Option.some.inj moved
    obtain rfl : sender = server := by simpa using List.find?_some oldest
    exact .completed (List.mem_of_find?_eq_some oldest)
  | onDescriptorWriteRequest server device characteristic enable =>
    rcases current_cases step with rfl | ⟨opened, rfl⟩
    · exact .same _
    · unfold onDescriptorWriteRequest
      split
      · split
        · exact .same _
        · obtain ⟨sessions, next, minted⟩ := mintSession_eq device
            { s with subscribedDevices := s.subscribedDevices ++ [(characteristic, device)] }
          rw [minted]
          exact .peers _ _ _ (.inl opened)
      · exact .peers _ _ _ (.inl opened)
  | onCharacteristicWriteRequest server device =>
    rcases current_cases step with rfl | ⟨opened, rfl⟩
    · exact .same _
    · obtain ⟨sessions, next, minted⟩ := mintSession_eq device s
      rw [minted]
      exact .peers _ _ _ (.inl opened)
  | onDisconnected server device =>
    rcases current_cases step with rfl | ⟨opened, rfl⟩
    · exact .same _
    · exact .peers _ _ _ (.inl opened)
  | disconnectServerPeer address session =>
    cases Option.some.inj step
    unfold disconnectServerPeer
    split
    · split
      · exact .peers _ _ _ (.inr List.filter_sublist.subset)
      · exact .peers _ _ _ (.inr (List.Subset.refl _))
    · exact .same _
  | stopAdvertising =>
    simp only [Option.ite_none_right_eq_some, Option.some.injEq] at step
    obtain ⟨steady, rfl⟩ := step
    exact .stopping none (.inl steady)
  | startAdvertising characteristics =>
    simp only [Option.ite_none_right_eq_some, Option.some.injEq] at step
    obtain ⟨steady, rfl⟩ := step
    exact .stopping (some characteristics) (.inl steady)
  | proceed =>
    dsimp only at step
    unfold ServerBridge.proceed at step
    split at step
    · simp at step
    · cases Option.some.inj step
      exact .failing ‹_›
    · cases Option.some.inj step
      exact .closing ‹_›
    · cases Option.some.inj step
      exact .cleared _ ‹_› (.inl rfl)
    · cases Option.some.inj step
      exact .cleared _ ‹_› (.inr ⟨_, rfl⟩)
    · cases Option.some.inj step
      exact .renewed ‹_›
    · cases Option.some.inj step
      exact .opened ‹_›
    · cases Option.some.inj step
      exact .added s.serverCharacteristics _ ‹_› (.inl rfl)
    · cases Option.some.inj step
      exact .added _ _ ‹_› (.inr ⟨_, rfl⟩)
  | failAdvertise =>
    dsimp only at step
    unfold ServerBridge.failAdvertise at step
    split at step
    · cases Option.some.inj step
      exact .stopping none (.inr (.inl ⟨_, ‹_›⟩))
    · cases Option.some.inj step
      exact .stopping none (.inr (.inr ‹_›))
    · simp at step

/-- An item after so many times `onNotifySent(..., false)`. -/
def failed (times : Nat) (item : PendingNotify) : PendingNotify :=
  { item with answers := item.answers ++ List.replicate times false }

theorem foldl_answer (abandoned : List Nat) (s : ServerBridge) : ∃ notifications,
    abandoned.foldl (fun s number => s.answer number false) s = { s with notifications := notifications } ∧
      ∀ n : Nat, notifications[n]? = s.notifications[n]?.map (failed (abandoned.count n)) := by
  induction abandoned generalizing s with
  | nil =>
    refine ⟨s.notifications, rfl, fun n => ?_⟩
    cases s.notifications[n]? <;> simp [failed]
  | cons number abandoned ih =>
    obtain ⟨notifications, folded, found⟩ := ih (s.answer number false)
    refine ⟨notifications, folded, fun n => ?_⟩
    rw [found, answer, TaskList.getElem?_modify]
    by_cases same : n = number
    · subst same
      rw [if_pos rfl, List.count_cons_self, Option.map_map]
      refine congrArg (Option.map · _) (funext fun item => ?_)
      simp [failed, List.replicate_succ]
    · rw [if_neg same, List.count_cons_of_ne (Ne.symm same)]

/-- Everything pending is answered false, and nothing else. -/
theorem failPendingNotifications_eq (s : ServerBridge) : ∃ notifications,
    s.failPendingNotifications = { s with
      notifications := notifications, notifyQueue := [], notifyInFlight := none, serverSessions := ∅,
      subscribedDevices := [] } ∧
      ∀ n : Nat, notifications[n]? =
        s.notifications[n]?.map (failed ((s.notifyQueue ++ s.notifyInFlight.toList).count n)) := by
  obtain ⟨notifications, folded, found⟩ := foldl_answer (s.notifyQueue ++ s.notifyInFlight.toList)
    { s with notifyQueue := [], notifyInFlight := none, serverSessions := ∅, subscribedDevices := [] }
  exact ⟨notifications, folded, found⟩

/-- No server, or one whose notifications are failed. -/
def Drained (s : ServerBridge) : Prop := s.gattServer = none ∨ ∃ next, s.lifecycle = .failed next

/-- The server is open, or it is being stopped. -/
structure Phased (s : ServerBridge) : Prop where
  opened : ∀ server, s.gattServer = some server →
    (s.lifecycle = .steady ∨ ∃ characteristics, s.lifecycle = .adding characteristics) ∧ server = s.serverGeneration ∨
      (∃ next, s.lifecycle = .stopping next ∨ s.lifecycle = .failed next) ∧ server < s.serverGeneration
  unsubscribed : s.Drained → s.subscribedDevices = []

namespace Phased

variable {s : ServerBridge}

/-- No server, whatever the bridge does next. -/
theorem closed (phased : Phased s) (drained : s.Drained) (lifecycle : Lifecycle) (generation : Nat)
    (served : List CharacteristicUuid) :
    Phased { s with
      gattServer := none, lifecycle := lifecycle, serverGeneration := generation, serverCharacteristics := served } where
  opened server open_ := by simp at open_
  unsubscribed _ := phased.unsubscribed drained

theorem gone (phased : Phased s) (idle : ∀ next, s.lifecycle ≠ .steady ∧ s.lifecycle ≠ .stopping next ∧
    s.lifecycle ≠ .failed next) (unopened : ∀ characteristics, s.lifecycle ≠ .adding characteristics) :
    s.gattServer = none := by
  cases open_ : s.gattServer with
  | none => rfl
  | some server =>
    rcases phased.opened server open_ with ⟨steady | ⟨_, adding⟩, _⟩ | ⟨⟨next, stopping | failed⟩, _⟩
    · exact absurd steady (idle none).1
    · exact absurd adding (unopened _)
    · exact absurd stopping (idle next).2.1
    · exact absurd failed (idle next).2.2

/-- Subscriptions come on the current server only. -/
theorem undrained (phased : Phased s) (current : s.gattServer = some s.serverGeneration) : ¬s.Drained := by
  rintro (none_ | ⟨next, failed⟩)
  · simp [none_] at current
  · rcases phased.opened _ current with ⟨steady | ⟨_, adding⟩, _⟩ | ⟨_, passed⟩
    · simp [failed] at steady
    · simp [failed] at adding
    · exact absurd passed (Nat.lt_irrefl _)

theorem stepped (phased : Phased s) {s' : ServerBridge} {label : ServerStep} (stepped : Stepped s label s') :
    Phased s' := by
  have rest : ∀ after : ServerBridge, after.gattServer = s.gattServer → after.serverGeneration = s.serverGeneration →
      after.lifecycle = s.lifecycle → after.subscribedDevices = s.subscribedDevices → Phased after := by
    rintro after server generation lifecycle subscribed
    refine ⟨?_, ?_⟩
    · rw [server, generation, lifecycle]
      exact phased.opened
    · rw [Drained, server, lifecycle, subscribed]
      exact phased.unsubscribed
  cases stepped with
  | same => exact phased
  | queued | taken | idled | loaded | initiated | notInitiated | refused => exact rest _ rfl rfl rfl rfl
  | completed =>
    unfold onNotificationSent
    dsimp only
    split
    · split <;> exact rest _ rfl rfl rfl rfl
    · exact rest _ rfl rfl rfl rfl
  | peers subscribed sessions next kept =>
    refine ⟨phased.opened, fun drained => ?_⟩
    rcases kept with current | within
    · exact absurd drained (phased.undrained current)
    · have none_ := phased.unsubscribed drained
      rw [none_] at within
      exact List.subset_nil.mp within
  | stopping next started =>
    refine ⟨?_, ?_⟩
    · intro server open_
      refine .inr ⟨⟨next, .inl rfl⟩, ?_⟩
      rcases phased.opened server open_ with ⟨_, rfl⟩ | ⟨_, passed⟩
      · exact Nat.lt_succ_self _
      · exact Nat.lt_succ_of_lt passed
    · rintro (none_ | ⟨_, failed⟩)
      · exact phased.unsubscribed (.inl none_)
      · cases failed
  | @failing next here =>
    obtain ⟨notifications, failed, _⟩ := s.failPendingNotifications_eq
    rw [failed]
    refine ⟨?_, fun _ => rfl⟩
    intro server open_
    rcases phased.opened server open_ with ⟨steady | ⟨_, adding⟩, _⟩ | ⟨_, passed⟩
    · simp [here] at steady
    · simp [here] at adding
    · exact .inr ⟨⟨next, .inr rfl⟩, passed⟩
  | closing here => exact phased.closed (.inr ⟨_, here⟩) _ _ _
  | cleared lifecycle here follows =>
    have none_ := phased.gone (fun next => by simp [here]) (by simp [here])
    have after := phased.closed (.inl none_) lifecycle s.serverGeneration []
    rw [← none_] at after
    exact after
  | @renewed characteristics here =>
    have none_ := phased.gone (fun next => by simp [here]) (by simp [here])
    have after := phased.closed (.inl none_) (.renewed characteristics) (s.serverGeneration + 1) s.serverCharacteristics
    rw [← none_] at after
    exact after
  | @opened characteristics here =>
    have none_ := phased.gone (fun next => by simp [here]) (by simp [here])
    refine ⟨?_, fun _ => phased.unsubscribed (.inl none_)⟩
    intro server open_
    exact .inl ⟨.inr ⟨characteristics, rfl⟩, (Option.some.inj open_).symm⟩
  | added served lifecycle here follows =>
    refine ⟨?_, ?_⟩
    · intro server open_
      rcases phased.opened server open_ with ⟨_, same⟩ | ⟨⟨next, stopping | failed⟩, _⟩
      · exact .inl ⟨follows, same⟩
      · simp [here] at stopping
      · simp [here] at failed
    · rintro (none_ | ⟨_, failed⟩)
      · exact phased.unsubscribed (.inl none_)
      · rcases follows with rfl | ⟨_, rfl⟩ <;> cases failed

end Phased

/-- What is neither answered nor given up. -/
def pending (s : ServerBridge) : List Nat := s.notifyQueue ++ s.notifyInFlight.toList

/-- A call of `pumpNotifications` has it in its hands. -/
def Held (s : ServerBridge) (n : Nat) : Prop :=
  ∃ (number : Nat) (pump : NotifyPump), s.pumps[number]? = some pump ∧ pump.holds = some n

/-- Two calls that both have one in their hands are one. -/
def Alone (pumps : List NotifyPump) : Prop :=
  ∀ (left right : Nat) (pump there : NotifyPump), pumps[left]? = some pump → pumps[right]? = some there →
    pump.holds.isSome = true → there.holds.isSome = true → left = right

structure Entry (s : ServerBridge) (n : Nat) (item : PendingNotify) : Prop where
  once : s.pending.count n + item.answers.length = 1
  own : Reported item
  waiting : n ∈ s.pending → s.gattServer = some item.server
  unsent : n ∈ s.notifyQueue ∨ s.Held n → item.sentOn = []
  confined : item.sentOn = [] ∧ item.heard = none ∨ item.sentOn = [item.server]

/-- A send that is to complete is the one in flight. -/
structure Flying (s : ServerBridge) (server n : Nat) : Prop where
  sent : ∃ item, s.notifications[n]? = some item ∧ item.server = server ∧ item.sentOn = [server] ∧ item.heard = none
  current : s.gattServer = some server ∧ s.notifyInFlight = some n

structure Tended (s : ServerBridge) : Prop where
  known : ∀ n ∈ s.pending, n < s.notifications.length
  entry : ∀ n item, s.notifications[n]? = some item → s.Entry n item
  empty : s.Drained → s.pending = []
  taken : ∀ n, s.Held n → s.notifyInFlight = some n
  alone : Alone s.pumps
  read : ∀ (number n : Nat) (server : Option Nat), s.pumps[number]? = some (.loaded n server) → server = s.gattServer
  flying : ∀ server n, (server, n) ∈ s.outstanding → s.Flying server n
  single : s.outstanding.length ≤ 1
  traced : ∀ n, s.notifyInFlight = some n → s.Held n ∨
    (∃ server, (server, n) ∈ s.outstanding ∧ s.gattServer = some server) ∨ ∃ next, s.lifecycle = .stopping next
  woken : s.notifyQueue ≠ [] → s.notifyInFlight.isSome = true ∨ ∃ number : Nat, s.pumps[number]? = some .ready

section Pumps

variable {s : ServerBridge} {number n : Nat} {old new : NotifyPump}

theorem of_setPump {found : NotifyPump} (there : (s.setPump number new).pumps[n]? = some found) :
    n = number ∧ found = new ∨ n ≠ number ∧ s.pumps[n]? = some found := TaskList.of_set there

theorem held_setPump (here : s.pumps[number]? = some old) (same : new.holds = old.holds) :
    (s.setPump number new).Held n ↔ s.Held n := by
  constructor
  · rintro ⟨other, pump, there, holds⟩
    rcases of_setPump there with ⟨rfl, rfl⟩ | ⟨_, elsewhere⟩
    · exact ⟨other, old, here, same ▸ holds⟩
    · exact ⟨other, pump, elsewhere, holds⟩
  · rintro ⟨other, pump, there, holds⟩
    by_cases at_ : other = number
    · subst at_
      cases here.symm.trans there
      exact ⟨other, new, TaskList.getElem?_set_self here, same.trans holds⟩
    · exact ⟨other, pump, (TaskList.getElem?_set here).trans ((if_neg at_).trans there), holds⟩

theorem held_pumpNotifications : s.pumpNotifications.Held n ↔ s.Held n := by
  constructor
  · rintro ⟨other, pump, there, holds⟩
    rcases TaskList.of_append there with here | ⟨_, rfl⟩
    · exact ⟨other, pump, here, holds⟩
    · cases holds
  · rintro ⟨other, pump, there, holds⟩
    exact ⟨other, pump, TaskList.getElem?_append_of there _, holds⟩

end Pumps

namespace Quiet

variable {s : ServerBridge}

theorem pump_over (quiet : s.Quiet) {number : Nat} {pump : NotifyPump} (there : s.pumps[number]? = some pump) :
    pump = .over := by
  cases pump with
  | ready => simpa [ServerBridge.step, there] using quiet (.take number) rfl
  | took => simpa [ServerBridge.step, there] using quiet (.load number) rfl
  | loaded => simpa [ServerBridge.step, there] using quiet (.send number true) rfl
  | refused => simpa [ServerBridge.step, there] using quiet (.refuse number) rfl
  | _ => rfl

theorem steady (quiet : s.Quiet) : s.lifecycle = .steady := by
  have still : s.proceed = none := quiet .proceed rfl
  unfold proceed at still
  split at still
  · assumption
  all_goals cases still

theorem completed (quiet : s.Quiet) {server n : Nat} (sent : (server, n) ∈ s.outstanding) :
    server ≠ s.serverGeneration := by
  intro current
  have still := quiet (.onNotificationSent server true) (decide_eq_true current)
  cases found : s.outstanding.find? fun sent => decide (sent.1 = server) with
  | none => simpa using List.find?_eq_none.mp found (server, n) sent
  | some oldest => simp [ServerBridge.step, found] at still

end Quiet

section Entries

variable {s s' : ServerBridge}

theorem Reported.only {item : PendingNotify} {success : Bool} (answers : item.answers = [success])
    (own : item.heard = some success ∨ success = false ∧ item.sentOn = []) : Reported item := by
  intro told there
  rw [answers, List.mem_singleton] at there
  subst there
  exact own

/-- An entry that is not the one in flight, once that one is answered. -/
theorem Entry.others {n number : Nat} {item : PendingNotify} (entry : s.Entry n item) (other : n ≠ number)
    (inFlight : s.notifyInFlight = some number) (server : s'.gattServer = s.gattServer)
    (queue : s'.notifyQueue = s.notifyQueue)
    (free : s'.notifyInFlight = none) (holds : s'.Held n → s.Held n) : s'.Entry n item := by
  have pending : s'.pending.count n = s.pending.count n := by
    unfold ServerBridge.pending
    rw [queue, free, inFlight, List.count_append, List.count_append, Option.toList_none, Option.toList_some,
      List.count_nil, List.count_eq_zero_of_not_mem (by simp [other] : n ∉ [number])]
  refine ⟨?_, entry.own, ?_, ?_, entry.confined⟩
  · rw [pending]
    exact entry.once
  · rw [← List.count_pos_iff, pending, List.count_pos_iff, server]
    exact entry.waiting
  · rw [queue]
    rintro (waits | has)
    · exact entry.unsent (.inl waits)
    · exact entry.unsent (.inr (holds has))

end Entries

namespace Tended

variable {s s' : ServerBridge}

/-- A step that leaves the notifications and the servers as they are. -/
theorem rest (held : Tended s) (notifications : s'.notifications = s.notifications)
    (queue : s'.notifyQueue = s.notifyQueue) (inFlight : s'.notifyInFlight = s.notifyInFlight)
    (server : s'.gattServer = s.gattServer) (outstanding : s'.outstanding = s.outstanding) (drained : s'.Drained ↔ s.Drained)
    (stopping : ∀ next, s.lifecycle = .stopping next → s'.lifecycle = .stopping next)
    (holds : ∀ n, s'.Held n ↔ s.Held n)
    (alone : Alone s'.pumps)
    (read : ∀ (number n : Nat) (server : Option Nat), s'.pumps[number]? = some (.loaded n server) →
      server = s.gattServer)
    (woken : s.notifyQueue ≠ [] → s.notifyInFlight.isSome = true ∨ ∃ number : Nat, s'.pumps[number]? = some .ready) :
    Tended s' := by
  have pending : s'.pending = s.pending := by
    unfold ServerBridge.pending
    rw [queue, inFlight]
  refine ⟨?_, ?_, ?_, ?_, alone, ?_, ?_, ?_, ?_, ?_⟩
  · rw [pending, notifications]
    exact held.known
  · intro n item there
    rw [notifications] at there
    have entry := held.entry n item there
    refine ⟨?_, entry.own, ?_, ?_, entry.confined⟩
    · rw [pending]
      exact entry.once
    · rw [pending, server]
      exact entry.waiting
    · rw [queue, holds]
      exact entry.unsent
  · rw [drained, pending]
    exact held.empty
  · intro n
    rw [holds, inFlight]
    exact held.taken n
  · rw [server]
    exact read
  · intro sender n
    rw [outstanding]
    intro sent
    obtain ⟨item, current⟩ := held.flying sender n sent
    refine ⟨?_, ?_⟩
    · rw [notifications]
      exact item
    · rw [server, inFlight]
      exact current
  · rw [outstanding]
    exact held.single
  · intro n
    rw [inFlight, outstanding, server, holds]
    intro there
    rcases held.traced n there with has | sent | ⟨next, ending⟩
    · exact .inl has
    · exact .inr (.inl sent)
    · exact .inr (.inr ⟨next, stopping next ending⟩)
  · rw [queue, inFlight]
    exact woken

/-- The same notification, or none, is in the hands of a call. -/
theorem moves (held : Tended s) {number : Nat} {old new : NotifyPump} (here : s.pumps[number]? = some old)
    (same : new.holds = old.holds) (read : ∀ n server, new = .loaded n server → server = s.gattServer)
    (woken : s.notifyQueue ≠ [] → s.notifyInFlight.isSome = true) : Tended (s.setPump number new) := by
  refine held.rest rfl rfl rfl rfl rfl Iff.rfl (fun next => id) (fun n => held_setPump here same) ?_ ?_
    (fun waiting => .inl (woken waiting))
  · intro left right pump there atLeft atRight leftHolds rightHolds
    have before : ∀ (at_ : Nat) (pump : NotifyPump), (s.setPump number new).pumps[at_]? = some pump → pump.holds.isSome = true →
        ∃ pump : NotifyPump, s.pumps[at_]? = some pump ∧ pump.holds.isSome = true := by
      intro at_ pump there holds
      rcases of_setPump there with ⟨rfl, rfl⟩ | ⟨_, elsewhere⟩
      · exact ⟨old, here, same ▸ holds⟩
      · exact ⟨pump, elsewhere, holds⟩
    obtain ⟨first, firstHere, firstHolds⟩ := before left pump atLeft leftHolds
    obtain ⟨second, secondHere, secondHolds⟩ := before right there atRight rightHolds
    exact held.alone left right first second firstHere secondHere firstHolds secondHolds
  · intro other n server there
    rcases of_setPump there with ⟨_, loaded⟩ | ⟨_, elsewhere⟩
    · exact read n server loaded.symm
    · exact held.read other n server elsewhere

theorem alone_append {pumps : List NotifyPump} (alone : Alone pumps) : Alone (pumps ++ [.ready]) := by
  intro left right pump there atLeft atRight leftHolds rightHolds
  rcases TaskList.of_append atLeft with leftHere | ⟨_, rfl⟩
  · rcases TaskList.of_append atRight with rightHere | ⟨_, rfl⟩
    · exact alone left right pump there leftHere rightHere leftHolds rightHolds
    · cases rightHolds
  · cases leftHolds

theorem of_append_ready {number n : Nat} {server : Option Nat}
    (there : s.pumpNotifications.pumps[number]? = some (.loaded n server)) :
    s.pumps[number]? = some (.loaded n server) := by
  rcases TaskList.of_append there with here | ⟨_, loaded⟩
  · exact here
  · cases loaded

theorem ready_last : s.pumpNotifications.pumps[s.pumps.length]? = some .ready := List.getElem?_concat_length

theorem queued (held : Tended s) (phased : Phased s) {address : PeerAddress} {characteristic : CharacteristicUuid}
    {session : UInt64} {server : Nat} (admitted : s.admits address characteristic session = some server)
    (item : PendingNotify) (own : item.server = server) (unsent : item.sentOn = []) (unheard : item.heard = none)
    (unanswered : item.answers = []) :
    Tended ({ s with
      notifications := s.notifications ++ [item]
      notifyQueue := s.notifyQueue ++ [s.notifications.length] } : ServerBridge).pumpNotifications := by
  unfold admits at admitted
  simp only [Option.ite_none_right_eq_some, Bool.and_eq_true, decide_eq_true_eq] at admitted
  obtain ⟨⟨_, subscribed⟩, open_⟩ := admitted
  have undrained : ¬s.Drained := by
    intro drained
    rw [phased.unsubscribed drained] at subscribed
    simp at subscribed
  have pending : ∀ n, (({ s with
      notifications := s.notifications ++ [item]
      notifyQueue := s.notifyQueue ++ [s.notifications.length] } : ServerBridge).pumpNotifications).pending.count n =
      s.pending.count n + [s.notifications.length].count n := by
    intro n
    simp only [ServerBridge.pending, pumpNotifications, List.count_append]
    omega
  refine ⟨?_, ?_, fun drained => absurd drained undrained, ?_, alone_append held.alone, ?_, ?_, held.single, ?_, ?_⟩
  · intro n waiting
    have counted := List.count_pos_iff.mpr waiting
    rw [pending] at counted
    change n < (s.notifications ++ [item]).length
    rw [List.length_append, List.length_singleton]
    by_cases same : n = s.notifications.length
    · omega
    · rw [List.count_eq_zero_of_not_mem (by simp [same] : n ∉ [s.notifications.length]), Nat.add_zero] at counted
      exact Nat.lt_succ_of_lt (held.known n (List.count_pos_iff.mp counted))
  · intro n found there
    rcases TaskList.of_append there with here | ⟨rfl, rfl⟩
    · have entry := held.entry n found here
      have other : n ≠ s.notifications.length := (TaskList.lt_length here).ne
      have same : [s.notifications.length].count n = 0 := List.count_eq_zero_of_not_mem (by simp [other])
      have within : n ∈ (({ s with
          notifications := s.notifications ++ [item]
          notifyQueue := s.notifyQueue ++ [s.notifications.length] } : ServerBridge).pumpNotifications).pending →
          n ∈ s.pending := by
        intro waiting
        have counted := List.count_pos_iff.mpr waiting
        rw [pending, same, Nat.add_zero] at counted
        exact List.count_pos_iff.mp counted
      refine ⟨?_, entry.own, fun waiting => entry.waiting (within waiting), ?_, entry.confined⟩
      · rw [pending, same, Nat.add_zero]
        exact entry.once
      · rintro (waits | has)
        · rcases List.mem_append.mp waits with before | last
          · exact entry.unsent (.inl before)
          · exact absurd (List.mem_singleton.mp last) other
        · exact entry.unsent (.inr (held_pumpNotifications.mp has))
    · have fresh : s.pending.count s.notifications.length = 0 :=
        List.count_eq_zero_of_not_mem fun waiting => absurd (held.known _ waiting) (Nat.lt_irrefl _)
      refine ⟨?_, ?_, fun _ => own.symm ▸ open_, fun _ => unsent, .inl ⟨unsent, unheard⟩⟩
      · rw [pending, fresh, unanswered]
        simp
      · rw [Reported, unanswered]
        simp
  · intro n has
    exact held.taken n (held_pumpNotifications.mp has)
  · intro number n from_ there
    exact held.read number n from_ (of_append_ready there)
  · intro sender n sent
    obtain ⟨⟨found, here, facts⟩, current⟩ := held.flying sender n sent
    exact ⟨⟨found, TaskList.getElem?_append_of here _, facts⟩, current⟩
  · intro n there
    rcases held.traced n there with has | sent | ending
    · exact .inl (held_pumpNotifications.mpr has)
    · exact .inr (.inl sent)
    · exact .inr (.inr ending)
  · exact fun _ => .inr ⟨_, ready_last⟩

theorem not_held (held : Tended s) (free : s.notifyInFlight = none) (n : Nat) : ¬s.Held n := by
  intro has
  have inFlight := held.taken n has
  simp [free] at inFlight

/-- The one in flight is neither queued nor answered. -/
theorem in_flight (held : Tended s) {number : Nat} (inFlight : s.notifyInFlight = some number) :
    ∃ item, s.notifications[number]? = some item ∧ s.Entry number item ∧ s.gattServer = some item.server ∧
      item.answers = [] ∧ number ∉ s.notifyQueue ∧ ¬s.Drained := by
  have waiting : number ∈ s.pending := by simp [ServerBridge.pending, inFlight]
  obtain ⟨item, there⟩ : ∃ item, s.notifications[number]? = some item :=
    ⟨_, List.getElem?_eq_getElem (held.known number waiting)⟩
  have entry := held.entry number item there
  have once := entry.once
  simp only [ServerBridge.pending, inFlight, Option.toList_some, List.count_append, List.count_singleton_self] at once
  refine ⟨item, there, entry, entry.waiting waiting, ?_, ?_, ?_⟩
  · exact List.length_eq_zero_iff.mp (by omega)
  · exact fun queued => absurd (List.count_pos_iff.mpr queued) (by omega)
  · intro drained
    rw [held.empty drained] at waiting
    simp at waiting

/-- Without one in flight, the platform has nothing to complete. -/
theorem landed (held : Tended s) (free : s.notifyInFlight = none) : s.outstanding = [] := by
  refine List.eq_nil_iff_forall_not_mem.mpr ?_
  rintro ⟨server, n⟩ sent
  have inFlight := (held.flying server n sent).current.2
  simp [free] at inFlight

theorem taking (held : Tended s) {pump next : Nat} {queued : List Nat} (here : s.pumps[pump]? = some .ready)
    (free : s.notifyInFlight = none) (queue : s.notifyQueue = next :: queued) :
    Tended { s.setPump pump (.took next) with notifyInFlight := some next, notifyQueue := queued } := by
  have pending : ∀ n, (queued ++ [next]).count n = s.pending.count n := by
    intro n
    simp only [ServerBridge.pending, queue, free, Option.toList_none, List.append_nil, List.count_append,
      List.count_cons, List.count_nil]
    omega
  have within : ∀ n, n ∈ queued ++ [next] ↔ n ∈ s.pending := by
    intro n
    rw [← List.count_pos_iff, pending, List.count_pos_iff]
  have holder : ∀ {number n : Nat} {found : NotifyPump}, (s.setPump pump (.took next)).pumps[number]? = some found →
      found.holds = some n → number = pump ∧ n = next := by
    intro number n found there holds
    rcases of_setPump there with ⟨same, rfl⟩ | ⟨_, elsewhere⟩
    · exact ⟨same, (Option.some.inj holds).symm⟩
    · exact absurd ⟨number, found, elsewhere, holds⟩ (held.not_held free n)
  refine ⟨?_, ?_, ?_, ?_, ?_, ?_, ?_, held.single, ?_, fun _ => .inl rfl⟩
  · intro n waiting
    exact held.known n ((within n).mp waiting)
  · intro n item there
    have entry := held.entry n item there
    have first : next ∈ s.notifyQueue := by rw [queue]; exact List.mem_cons_self
    refine ⟨(congrArg (· + _) (pending n)).trans entry.once, entry.own,
      fun waiting => entry.waiting ((within n).mp waiting), ?_, entry.confined⟩
    rintro (waits | ⟨number, found, at_, holds⟩)
    · exact entry.unsent (.inl (by rw [queue]; exact List.mem_cons_of_mem _ waits))
    · obtain ⟨_, rfl⟩ := holder at_ holds
      exact entry.unsent (.inl first)
  · intro drained
    have nothing : s.pending = [] := held.empty drained
    simp [ServerBridge.pending, queue] at nothing
  · rintro n ⟨number, found, at_, holds⟩
    obtain ⟨_, rfl⟩ := holder at_ holds
    rfl
  · intro left right found there atLeft atRight leftHolds rightHolds
    obtain ⟨n, leftHas⟩ := Option.isSome_iff_exists.mp leftHolds
    obtain ⟨m, rightHas⟩ := Option.isSome_iff_exists.mp rightHolds
    exact (holder atLeft leftHas).1.trans (holder atRight rightHas).1.symm
  · intro number n server at_
    rcases of_setPump at_ with ⟨_, loaded⟩ | ⟨_, elsewhere⟩
    · cases loaded
    · exact held.read number n server elsewhere
  · intro server n sent
    have sent : (server, n) ∈ s.outstanding := sent
    simp [held.landed free] at sent
  · intro n there
    cases there
    exact .inl ⟨pump, _, TaskList.getElem?_set_self here, rfl⟩

theorem initiated (held : Tended s) {pump number server : Nat}
    (here : s.pumps[pump]? = some (.loaded number (some server))) :
    Tended { s.setPump pump .over with
      notifications := s.notifications.modify number fun item => { item with sentOn := item.sentOn ++ [server] }
      outstanding := s.outstanding ++ [(server, number)] } := by
  have holds : s.Held number := ⟨pump, _, here, rfl⟩
  have inFlight := held.taken number holds
  have open_ := (held.read pump number _ here).symm
  obtain ⟨item, there, entry, at_own, unanswered, unqueued, undrained⟩ := held.in_flight inFlight
  have unsent : item.sentOn = [] := entry.unsent (.inr holds)
  have unheard : item.heard = none := by
    rcases entry.confined with ⟨_, unheard⟩ | sentOn
    · exact unheard
    · simp [unsent] at sentOn
  have own : item.server = server := Option.some.inj (at_own.symm.trans open_)
  have nothing : s.outstanding = [] := by
    refine List.eq_nil_iff_forall_not_mem.mpr ?_
    rintro ⟨sender, n⟩ sent
    obtain ⟨⟨found, at_, _, sentOn, _⟩, _, also⟩ := held.flying sender n sent
    cases inFlight.symm.trans also
    cases there.symm.trans at_
    simp [unsent] at sentOn
  have none_held : ∀ n, ¬(s.setPump pump .over).Held n := by
    rintro n ⟨other, found, at_, has⟩
    rcases of_setPump at_ with ⟨_, rfl⟩ | ⟨elsewhere, before⟩
    · cases has
    · exact elsewhere (held.alone other pump found _ before here (by rw [has]; rfl) rfl)
  refine ⟨?_, ?_, held.empty, ?_, ?_, ?_, ?_, ?_, ?_, fun _ => .inl (Option.isSome_iff_exists.mpr ⟨_, inFlight⟩)⟩
  · intro n waits
    rw [List.length_modify]
    exact held.known n waits
  · intro n found at_
    rcases TaskList.of_modify at_ with ⟨before, was, rfl, rfl⟩ | ⟨other, was⟩
    · cases there.symm.trans was
      refine ⟨entry.once, ?_, entry.waiting, ?_, .inr ?_⟩
      · rw [Reported, unanswered]
        simp
      · rintro (waits | has)
        · exact absurd waits unqueued
        · exact absurd has (none_held n)
      · rw [unsent, own]
        rfl
    · have entry := held.entry n found was
      refine ⟨entry.once, entry.own, entry.waiting, ?_, entry.confined⟩
      rintro (waits | has)
      · exact entry.unsent (.inl waits)
      · exact absurd has (none_held n)
  · exact fun n has => absurd has (none_held n)
  · intro left right found there atLeft _ leftHolds _
    obtain ⟨n, has⟩ := Option.isSome_iff_exists.mp leftHolds
    exact absurd ⟨left, found, atLeft, has⟩ (none_held n)
  · intro other n from_ at_
    exact absurd ⟨other, _, at_, rfl⟩ (none_held n)
  · intro sender n sent
    rw [nothing] at sent
    cases List.mem_singleton.mp sent
    refine ⟨⟨({ item with sentOn := item.sentOn ++ [server] } : PendingNotify), ?_, own, ?_, unheard⟩, open_, inFlight⟩
    · rw [TaskList.getElem?_modify, if_pos rfl, there]
      rfl
    · change item.sentOn ++ [server] = [server]
      rw [unsent, List.nil_append]
  · rw [nothing]
    exact Nat.le_refl 1
  · intro n flying
    cases inFlight.symm.trans flying
    exact .inr (.inl ⟨server, List.mem_append_right _ (List.mem_singleton_self _), open_⟩)

theorem refused (held : Tended s) {pump number : Nat} (here : s.pumps[pump]? = some (.refused number)) :
    Tended (s.refuse pump number) := by
  have holds : s.Held number := ⟨pump, _, here, rfl⟩
  have inFlight := held.taken number holds
  obtain ⟨item, there, entry, _, unanswered, unqueued, undrained⟩ := held.in_flight inFlight
  have unsent : item.sentOn = [] := entry.unsent (.inr holds)
  have none_held : ∀ n, ¬(s.refuse pump number).Held n := by
    rintro n ⟨other, found, at_, has⟩
    rcases of_setPump at_ with ⟨_, rfl⟩ | ⟨elsewhere, before⟩
    · cases has
    · exact elsewhere (held.alone other pump found _ before here (by rw [has]; rfl) rfl)
  have pending : (s.refuse pump number).pending = s.notifyQueue := List.append_nil _
  refine ⟨?_, ?_, fun drained => absurd drained undrained, fun n has => absurd has (none_held n), ?_, ?_, ?_,
    held.single, ?_, fun _ => .inr ⟨pump, TaskList.getElem?_set_self here⟩⟩
  · intro n waits
    rw [pending] at waits
    change n < (s.notifications.modify _ _).length
    rw [List.length_modify]
    exact held.known n (List.mem_append_left _ waits)
  · intro n found at_
    rcases TaskList.of_modify at_ with ⟨before, was, rfl, rfl⟩ | ⟨other, was⟩
    · cases there.symm.trans was
      refine ⟨?_, ?_, ?_, fun _ => unsent, entry.confined⟩
      · rw [pending, List.count_eq_zero_of_not_mem unqueued, unanswered]
        rfl
      · exact Reported.only (congrArg (· ++ [false]) unanswered) (.inr ⟨rfl, unsent⟩)
      · rw [pending]
        exact fun waits => absurd waits unqueued
    · exact Entry.others (held.entry n found was) other inFlight rfl rfl rfl fun has => absurd has (none_held n)
  · intro left right found there atLeft _ leftHolds _
    obtain ⟨n, has⟩ := Option.isSome_iff_exists.mp leftHolds
    exact absurd ⟨left, found, atLeft, has⟩ (none_held n)
  · intro other n from_ at_
    exact absurd ⟨other, _, at_, rfl⟩ (none_held n)
  · intro sender n sent
    obtain ⟨⟨found, at_, facts, sentOn, silent⟩, _, also⟩ := held.flying sender n sent
    cases inFlight.symm.trans also
    cases there.symm.trans at_
    simp [unsent] at sentOn
  · intro n flying
    cases flying

theorem completed (held : Tended s) (phased : Phased s) {server number : Nat} {success : Bool}
    (oldest : (server, number) ∈ s.outstanding) : Tended (s.onNotificationSent server number success) := by
  obtain ⟨⟨item, there, own, sentOn, unheard⟩, open_, inFlight⟩ := held.flying server number oldest
  obtain ⟨_, again, entry, _, unanswered, unqueued, undrained⟩ := held.in_flight inFlight
  cases there.symm.trans again
  have last : s.outstanding.erase (server, number) = [] := by
    have single := held.single
    rw [(List.perm_cons_erase oldest).length_eq, List.length_cons] at single
    exact List.length_eq_zero_iff.mp (by omega)
  have none_held : ∀ n, ¬s.Held n := by
    intro n has
    cases inFlight.symm.trans (held.taken n has)
    simp [entry.unsent (.inr has)] at sentOn
  by_cases generation : s.serverGeneration = server
  · have after : s.onNotificationSent server number success = { s with
        outstanding := []
        notifications := s.notifications.modify number fun item =>
          { item with heard := some success, answers := item.answers ++ [success] }
        notifyInFlight := none
        pumps := s.pumps ++ [.ready] } := by
      unfold onNotificationSent
      simp only [generation, inFlight, if_true, answer, pumpNotifications, List.modify_modify_eq, last]
      rfl
    rw [after]
    refine ⟨?_, ?_, fun drained => absurd drained undrained, ?_, alone_append held.alone, ?_, by simp, Nat.zero_le 1, ?_,
      fun _ => .inr ⟨_, ready_last⟩⟩
    · intro n waits
      rw [List.length_modify]
      exact held.known n (List.mem_append_left _ ((List.append_nil s.notifyQueue) ▸ waits))
    · intro n found at_
      rcases TaskList.of_modify at_ with ⟨before, was, rfl, rfl⟩ | ⟨other, was⟩
      · cases there.symm.trans was
        refine ⟨?_, Reported.only (congrArg (· ++ [success]) unanswered) (.inl rfl), ?_, ?_, .inr (own ▸ sentOn)⟩
        · change (s.notifyQueue ++ []).count n + (item.answers ++ [success]).length = 1
          rw [List.append_nil, List.count_eq_zero_of_not_mem unqueued, unanswered]
          rfl
        · intro waits
          exact absurd ((List.append_nil s.notifyQueue) ▸ waits) unqueued
        · rintro (waits | has)
          · exact absurd waits unqueued
          · exact absurd (held_pumpNotifications.mp has) (none_held n)
      · exact Entry.others (held.entry n found was) other inFlight rfl rfl rfl held_pumpNotifications.mp
    · intro n has
      exact absurd (held_pumpNotifications.mp has) (none_held n)
    · intro other n from_ at_
      exact absurd ⟨other, _, of_append_ready at_, rfl⟩ (none_held n)
    · intro n flying
      cases flying
  · -- it is ignored, and the notification stays in flight
    have after : s.onNotificationSent server number success = { s with
        outstanding := []
        notifications := s.notifications.modify number fun item => { item with heard := some success } } := by
      unfold onNotificationSent
      simp only [generation, if_false, last]
    rw [after]
    refine ⟨?_, ?_, held.empty, held.taken, held.alone, held.read, by simp, Nat.zero_le 1, ?_, held.woken⟩
    · intro n waits
      rw [List.length_modify]
      exact held.known n waits
    · intro n found at_
      rcases TaskList.of_modify at_ with ⟨before, was, rfl, rfl⟩ | ⟨other, was⟩
      · cases there.symm.trans was
        refine ⟨entry.once, ?_, entry.waiting, ?_, .inr (own ▸ sentOn)⟩
        · rw [Reported, unanswered]
          simp
        · rintro (waits | has)
          · exact absurd waits unqueued
          · exact absurd has (none_held n)
      · have entry := held.entry n found was
        exact ⟨entry.once, entry.own, entry.waiting, entry.unsent, entry.confined⟩
    · intro n _
      rcases phased.opened server open_ with ⟨_, same⟩ | ⟨⟨next, stopping | failed⟩, _⟩
      · exact absurd same.symm generation
      · exact .inr (.inr ⟨next, stopping⟩)
      · exact absurd (.inr ⟨next, failed⟩) undrained

theorem stopping (held : Tended s) (next : Option (List CharacteristicUuid)) : Tended (s.beginStop next) := by
  have gone : (s.beginStop next).Drained → s.gattServer = none := by
    rintro (none_ | ⟨_, failed⟩)
    · exact none_
    · cases failed
  refine ⟨held.known, ?_, fun drained => held.empty (.inl (gone drained)), held.taken, held.alone, held.read, ?_,
    held.single, fun n _ => .inr (.inr ⟨next, rfl⟩), held.woken⟩
  · intro n item there
    have entry := held.entry n item there
    exact ⟨entry.once, entry.own, entry.waiting, entry.unsent, entry.confined⟩
  · intro server n sent
    have flying := held.flying server n sent
    exact ⟨flying.sent, flying.current⟩

theorem failing (held : Tended s) {next : Option (List CharacteristicUuid)} (free : s.notifyInFlight = none) :
    Tended { s.failPendingNotifications with lifecycle := .failed next } := by
  have none_held := held.not_held free
  obtain ⟨notifications, after, found⟩ := s.failPendingNotifications_eq
  rw [after]
  refine ⟨by simp [ServerBridge.pending], ?_, fun _ => rfl, fun n has => absurd has (none_held n), held.alone,
    held.read, ?_, held.single, fun n flying => absurd flying (by simp), fun queued => absurd rfl queued⟩
  · intro n item there
    rw [found] at there
    obtain ⟨before, was, rfl⟩ := Option.map_eq_some_iff.mp there
    have entry := held.entry n before was
    refine ⟨?_, ?_, by simp [ServerBridge.pending], ?_, entry.confined⟩
    · have once := entry.once
      simp only [ServerBridge.pending] at once
      simp only [ServerBridge.pending, ServerBridge.failed, Option.toList_none, List.append_nil, List.count_nil,
        List.length_append, List.length_replicate]
      omega
    · intro success told
      rcases List.mem_append.mp told with earlier | abandoned
      · exact entry.own success earlier
      · -- only what was never sent is pending
        obtain ⟨counted, rfl⟩ := List.mem_replicate.mp abandoned
        rw [free, Option.toList_none, List.append_nil] at counted
        exact .inr ⟨rfl, entry.unsent (.inl (List.count_pos_iff.mp (Nat.pos_of_ne_zero counted)))⟩
    · rintro (queued | has)
      · simp at queued
      · exact absurd has (none_held n)
  · intro server n sent
    have sent : (server, n) ∈ s.outstanding := sent
    simp [held.landed free] at sent

/-- The bridge with no server and nothing pending goes on to the next. -/
theorem drained (held : Tended s) (empty : s.Drained) {after : ServerBridge}
    (notifications : after.notifications = s.notifications) (queue : after.notifyQueue = s.notifyQueue)
    (inFlight : after.notifyInFlight = s.notifyInFlight) (pumps : after.pumps = s.pumps)
    (outstanding : after.outstanding = s.outstanding) : Tended after := by
  have nothing := held.empty empty
  obtain ⟨unqueued, free⟩ := List.append_eq_nil_iff.mp nothing
  have free : s.notifyInFlight = none := Option.toList_eq_nil_iff.mp free
  have none_held : ∀ n, ¬after.Held n := by
    rintro n ⟨number, pump, there, holds⟩
    rw [pumps] at there
    exact held.not_held free n ⟨number, pump, there, holds⟩
  have pending : after.pending = [] := by
    unfold ServerBridge.pending
    rw [queue, inFlight]
    exact nothing
  refine ⟨by simp [pending], ?_, fun _ => pending, fun n has => absurd has (none_held n), ?_, ?_, ?_, ?_, ?_, ?_⟩
  · intro n item there
    rw [notifications] at there
    have entry := held.entry n item there
    refine ⟨?_, entry.own, by simp [pending], ?_, entry.confined⟩
    · rw [pending, ← nothing]
      exact entry.once
    · rintro (waits | has)
      · rw [queue, unqueued] at waits
        simp at waits
      · exact absurd has (none_held n)
  · rw [pumps]
    exact held.alone
  · intro number n server there
    exact absurd ⟨number, _, there, rfl⟩ (none_held n)
  · intro server n sent
    rw [outstanding, held.landed free] at sent
    simp at sent
  · rw [outstanding]
    exact held.single
  · intro n flying
    rw [inFlight, free] at flying
    cases flying
  · intro waits
    rw [queue, unqueued] at waits
    exact absurd rfl waits

theorem step (held : Tended s) (phased : Phased s) {label : ServerStep} (ok : s.failsIdle label = true)
    (stepped : Stepped s label s') : Tended s' := by
  cases stepped with
  | same => exact held
  | queued admitted => exact held.queued phased admitted _ rfl rfl rfl rfl
  | taken here free queue => exact held.taking here free queue
  | @idled pump here nothing =>
    refine held.moves here rfl (fun _ _ loaded => by cases loaded) fun waiting => ?_
    rcases nothing with busy | empty
    · exact busy
    · exact absurd empty waiting
  | @loaded pump number here =>
    refine held.moves here rfl (fun n server loaded => by cases loaded; rfl) fun _ => ?_
    exact Option.isSome_iff_exists.mpr ⟨number, held.taken number ⟨pump, _, here, rfl⟩⟩
  | initiated here => exact held.initiated here
  | @notInitiated pump number server _ here =>
    refine held.moves here rfl (fun _ _ loaded => by cases loaded) fun _ => ?_
    exact Option.isSome_iff_exists.mpr ⟨number, held.taken number ⟨pump, _, here, rfl⟩⟩
  | refused here => exact held.refused here
  | completed oldest => exact held.completed phased oldest
  | peers =>
    exact held.rest rfl rfl rfl rfl rfl Iff.rfl (fun _ => id) (fun _ => Iff.rfl) held.alone held.read held.woken
  | stopping next _ => exact held.stopping next
  | failing here =>
    unfold failsIdle at ok
    simp only [here] at ok
    exact held.failing (Option.isNone_iff_eq_none.mp ok)
  | closing here => exact held.drained (.inr ⟨_, here⟩) rfl rfl rfl rfl rfl
  | cleared _ here _ =>
    have none_ := phased.gone (fun next => by simp [here]) (by simp [here])
    exact held.drained (.inl none_) rfl rfl rfl rfl rfl
  | renewed here =>
    have none_ := phased.gone (fun next => by simp [here]) (by simp [here])
    exact held.drained (.inl none_) rfl rfl rfl rfl rfl
  | opened here =>
    have none_ := phased.gone (fun next => by simp [here]) (by simp [here])
    exact held.drained (.inl none_) rfl rfl rfl rfl rfl
  | added served lifecycle here follows =>
    have unfailed : ∀ next, lifecycle ≠ .failed next := by
      rcases follows with rfl | ⟨_, rfl⟩ <;> simp
    refine held.rest rfl rfl rfl rfl rfl ?_ ?_ (fun _ => Iff.rfl) held.alone held.read held.woken
    · refine or_congr Iff.rfl ⟨?_, ?_⟩
      · rintro ⟨next, failed⟩
        exact absurd failed (unfailed next)
      · rintro ⟨next, failed⟩
        simp [here] at failed
    · intro next ending
      simp [here] at ending

theorem run {h : Unit} (run : machine.Run (fun _ s label => s.failsIdle label = true) (fun _ _ _ _ => ()) () h s) :
    Phased s ∧ Tended s := by
  refine run.invariant (P := fun _ s => Phased s ∧ Tended s) ?_ ?_
  · rintro s rfl
    refine ⟨⟨by simp, fun _ => rfl⟩, ⟨by simp [ServerBridge.pending], by simp, fun _ => rfl, ?_, ?_, by simp, by simp,
      Nat.zero_le 1, by simp, fun waits => absurd rfl waits⟩⟩
    · rintro n ⟨_, _, there, _⟩
      simp at there
    · intro _ _ _ _ there
      simp at there
  · rintro _ s label s' _ ⟨phased, held⟩ ok step
    exact ⟨phased.stepped (step_cases step), held.step phased ok (step_cases step)⟩

theorem notifiesOnce (held : Tended s) (phased : Phased s) : NotifiesOnce s := by
  have entry : ∀ item ∈ s.notifications, ∃ n, s.Entry n item := by
    intro item there
    obtain ⟨n, here⟩ := List.mem_iff_getElem?.mp there
    exact ⟨n, held.entry n item here⟩
  constructor
  · intro item there
    obtain ⟨n, entry⟩ := entry item there
    exact (Nat.le_add_left _ _).trans_eq entry.once
  · intro quiet item there
    obtain ⟨n, entry⟩ := entry item there
    have free : s.notifyInFlight = none := by
      by_contra some_
      obtain ⟨m, inFlight⟩ := Option.ne_none_iff_exists'.mp some_
      rcases held.traced m inFlight with ⟨_, _, at_, holds⟩ | ⟨server, sent, open_⟩ | ⟨_, ending⟩
      · cases quiet.pump_over at_
        cases holds
      · rcases phased.opened server open_ with ⟨_, current⟩ | ⟨⟨_, stopping | failed⟩, _⟩
        · exact quiet.completed sent current
        · simp [quiet.steady] at stopping
        · simp [quiet.steady] at failed
      · simp [quiet.steady] at ending
    have unqueued : s.notifyQueue = [] := by
      by_contra waits
      rcases held.woken waits with busy | ⟨_, ready⟩
      · simp [free] at busy
      · cases quiet.pump_over ready
    have once := entry.once
    rw [ServerBridge.pending, free, unqueued] at once
    simpa using once
  · intro item there
    obtain ⟨n, entry⟩ := entry item there
    exact entry.own
  · exact held.single
  · intro item there
    obtain ⟨n, entry⟩ := entry item there
    exact entry.confined.imp And.left id

end Tended

/-- In every run in which no stop fails the notifications while one is in flight. -/
theorem run_notifiesOnce {h : Unit} {s : ServerBridge}
    (run : machine.Run (fun _ s label => s.failsIdle label = true) (fun _ _ _ _ => ()) () h s) : NotifiesOnce s := by
  obtain ⟨phased, held⟩ := Tended.run run
  exact held.notifiesOnce phased

def servedCharacteristic : CharacteristicUuid := ⟨⟨2⟩⟩

/-- A server is started, a central subscribes, and one notification for it
is queued and taken. -/
def startAndTake : List ServerStep :=
  let device : PeerAddress := ⟨"AA"⟩
  [.startAdvertising [servedCharacteristic]] ++ List.replicate 7 .proceed ++
    [.onDescriptorWriteRequest 2 device servedCharacteristic true,
     .notifyCharacteristicTo device servedCharacteristic [1] 7 1, .take 0]

/-- The send completes; another notification is queued and failed. -/
def completes : List ServerStep :=
  [.load 0, .send 0 true, .onNotificationSent 2 true, .take 1,
    .notifyCharacteristicTo ⟨"AA"⟩ servedCharacteristic [2] 8 1, .stopAdvertising, .proceed]

/-- The server is replaced before the call reads `gattServer`. -/
def replaced : List ServerStep :=
  [.startAdvertising [servedCharacteristic]] ++ List.replicate 7 .proceed ++ [.load 0, .send 0 true]

theorem run_notifiesOnce_completes : ∃ s, NotifiesOnce s ∧
    s.notifications.map PendingNotify.answers = [[true], [false]] ∧ s.notifications.map PendingNotify.sentOn = [[2], []] := by
  obtain ⟨_, s, run, ended⟩ := Machine.Run.exists_of_follow machine (fun _ s label => s.failsIdle label = true)
    (fun _ _ _ _ => ()) ()
    (fun _ s => decide (s.notifications.map PendingNotify.answers = [[true], [false]]) &&
      decide (s.notifications.map PendingNotify.sentOn = [[2], []]))
    rfl (startAndTake ++ completes) (by decide +kernel)
  rw [Bool.and_eq_true, decide_eq_true_eq, decide_eq_true_eq] at ended
  exact ⟨s, run_notifiesOnce run, ended.1, ended.2⟩

/-- It is answered false with the server it was queued for, and is sent on
the next one. -/
theorem not_notifiesOnce : ¬ ∀ s : ServerBridge, machine.Reach s → NotifiesOnce s := by
  intro claim
  obtain ⟨s, reach, sent⟩ := Machine.Reach.exists_of_follow machine
    (fun s => s.notifications.any fun item => decide (item.answers = [false]) && decide (item.server = 2) &&
      decide (item.sentOn = [4])) rfl (startAndTake ++ replaced) (by decide +kernel)
  obtain ⟨item, there, wrong⟩ := List.any_eq_true.mp sent
  simp only [Bool.and_eq_true, decide_eq_true_eq] at wrong
  obtain ⟨⟨_, own⟩, elsewhere⟩ := wrong
  rcases (claim s reach).confined item there with nowhere | itsOwn
  · simp [nowhere] at elsewhere
  · simp [own, elsewhere] at itsOwn

end ServerBridge

end BleGatt
