import BleGatt.Drivers.MockService

namespace BleGatt
open Std

/-! The streams of a radio, and the calls that hand them out: items are only
ever added, and a `subscribe` returns a stream that is there, or an error. -/

namespace LocalRadio

/-- Every stream is there still, with the items it had and more. -/
def Grows (r r' : LocalRadio) : Prop :=
  ∀ (i : Nat) (stream : NotifyStream), r.streams[i]? = some stream →
    ∃ after, r'.streams[i]? = some after ∧ stream.items <+: after.items

variable {r r' r'' : LocalRadio}

namespace Grows

theorem of_eq (same : r'.streams = r.streams) : Grows r r' := by
  intro i stream there
  exact ⟨stream, same ▸ there, List.prefix_rfl⟩

theorem trans (first : Grows r r') (second : Grows r' r'') : Grows r r'' := by
  intro i stream there
  obtain ⟨between, there', longer⟩ := first i stream there
  obtain ⟨after, there'', longest⟩ := second i between there'
  exact ⟨after, there'', longer.trans longest⟩

theorem length (grows : Grows r r') : r.streams.length ≤ r'.streams.length := by
  by_contra shorter
  have bound : r'.streams.length < r.streams.length := by omega
  obtain ⟨after, there, _⟩ := grows r'.streams.length _ (List.getElem?_eq_getElem bound)
  exact absurd (TaskList.lt_length there) (Nat.lt_irrefl _)

theorem modify (i : Nat) {f : NotifyStream → NotifyStream} (longer : ∀ stream, stream.items <+: (f stream).items) :
    Grows r { r with streams := r.streams.modify i f } := by
  intro j stream there
  have now : (r.streams.modify i f)[j]? = if j = i then r.streams[j]?.map f else r.streams[j]? := TaskList.getElem?_modify f
  by_cases same : j = i
  · refine ⟨f stream, ?_, longer stream⟩
    rw [now, if_pos same, there]
    rfl
  · exact ⟨stream, by rw [now, if_neg same, there], List.prefix_rfl⟩

end Grows

theorem push_grows (stream : Nat) (value : Bytes) : Grows r (r.push stream value).2 := by
  unfold push
  split
  · exact .modify stream fun stream => List.prefix_append stream.items [value]
  · exact .of_eq rfl

theorem send_grows (address peer : PeerAddress) (characteristic : CharacteristicUuid) (value : Bytes) :
    Grows r (r.send address peer characteristic value).2 := by
  unfold send
  split
  · exact .of_eq rfl
  · split
    · exact .of_eq rfl
    · split
      · exact .of_eq rfl
      · rename_i stream _
        have grows : Grows r (r.push stream value).2 := push_grows stream value
        split <;> rename_i after pushed <;> rw [pushed] at grows <;> exact grows

theorem insertSubscriber_grows (link : MockGattConnection) (characteristic : CharacteristicUuid) :
    Grows r (r.insertSubscriber link characteristic).2 := by
  unfold insertSubscriber
  split
  · split
    · exact .of_eq rfl
    · split
      · exact .of_eq rfl
      · intro i stream there
        exact ⟨stream, TaskList.getElem?_append_of there _, List.prefix_rfl⟩
  · exact .of_eq rfl

theorem act_grows (section_ : RadioSection) : Grows r (r.act section_).1 := by
  cases section_ with
  | send address peer characteristic value => exact send_grows address peer characteristic value
  | insertSubscriber link characteristic =>
    have grows : Grows r (r.insertSubscriber link characteristic).2 := insertSubscriber_grows link characteristic
    simp only [act]
    split <;> rename_i after inserted <;> rw [inserted] at grows <;> exact grows
  | emit address event =>
    simp only [act, emit]
    split <;> exact .of_eq rfl
  | findPeripheral | requireProperty | readValue | storeValue =>
    simp only [act]
    (repeat' split) <;> exact .of_eq rfl
  | _ => exact .of_eq rfl

/-- The section in which a `subscribe` makes its stream, or returns it. -/
def Hands (r : LocalRadio) (section_ : ServiceSection) : Prop :=
  (∃ link characteristic, section_ = .radio (.insertSubscriber link characteristic)) ∨
    ∃ i, section_ = .radio (.reply (.stream i)) ∧ i < r.streams.length

end LocalRadio

namespace ServiceRadio

variable {s : ServiceRadio}

theorem notifyEach_grows (value : Bytes) (streams : List Nat) (r : LocalRadio) : r.Grows (notifyEach value streams r).2 := by
  have each : ∀ (done : Bool) (r : LocalRadio), r.Grows
      (streams.foldl (fun done stream => ((done.2.push stream value).1 || done.1, (done.2.push stream value).2)) (done, r)).2 := by
    induction streams with
    | nil => exact fun _ _ => .of_eq rfl
    | cons stream streams ih => exact fun _ r => (r.push_grows stream value).trans (ih _ _)
  exact each false r

theorem notify_grows (address : PeerAddress) (characteristic : CharacteristicUuid) (value : Bytes) (r : LocalRadio) :
    r.Grows (notify address characteristic value r).2 := by
  unfold notify
  split
  · exact .of_eq rfl
  · split
    · exact .of_eq rfl
    · rename_i peers _
      have grows := notifyEach_grows value peers.values r
      split <;> rename_i after done <;> rw [done] at grows <;> exact grows

theorem act_grows (section_ : ServiceSection) : s.radio.Grows (s.act section_).1.radio := by
  cases section_ with
  | radio section_ => exact s.radio.act_grows section_
  | notifyAll address characteristic value => exact notify_grows address characteristic value s.radio
  | replaceAdvertisement address service =>
    simp only [act, updateAdvertisement]
    (repeat' split) <;> exact .of_eq rfl
  | _ => exact .of_eq rfl

/-- Its call goes on from it, or ends in an error. -/
def refuses : ServiceSection → Bool
  | .radio (.ensureCurrent _) | .radio (.requireProperty _ _ _) | .radio (.emit _ _) => true
  | _ => false

theorem act_refuses {section_ : ServiceSection} (refuses : refuses section_ = true) :
    (s.act section_).2 = .go [] ∨ ∃ e, (s.act section_).2 = .end_ (.error e) := by
  cases section_ with
  | radio section_ =>
    cases section_ with
    | ensureCurrent link =>
      by_cases live : s.radio.isLive link = true
      · exact .inl (by simp [act, LocalRadio.act, live, RadioSection.lift])
      · exact .inr ⟨.notConnected link.peripheral.addr, by simp [act, LocalRadio.act, live, RadioSection.lift, Except.map]⟩
    | requireProperty peripheral characteristic property =>
      simp only [act, LocalRadio.act]
      split
      · exact .inl rfl
      · rename_i e _
        exact .inr ⟨e, rfl⟩
    | emit address event => exact .inl rfl
    | _ => cases refuses
  | _ => cases refuses

/-- A stream that is made is handed out, and no other. -/
theorem act_hands {section_ : ServiceSection} (hands : s.radio.Hands section_) :
    (∃ e, (s.act section_).2 = .end_ (.error e)) ∨
      (∃ i, (s.act section_).2 = .end_ (.ok (.radio (.stream i))) ∧ i < s.radio.streams.length) ∨
      ∃ first last, (s.act section_).2 = .go [first, last] ∧ refuses first = true ∧ (s.act section_).1.radio.Hands last := by
  rcases hands with ⟨link, characteristic, rfl⟩ | ⟨i, rfl, bound⟩
  · simp only [act, LocalRadio.act, LocalRadio.insertSubscriber]
    by_cases live : s.radio.isLive link = true
    · simp only [live, if_true]
      cases s.radio.peripherals[link.peripheral]? with
      | none => exact .inl ⟨_, rfl⟩
      | some state =>
        cases there : state.subscribers[characteristic]? with
        | none => exact .inl ⟨.gatt "unknown characteristic", by simp only [there]; rfl⟩
        | some peers =>
          simp only [there]
          refine .inr (.inr ⟨_, _, rfl, rfl, .inr ⟨_, rfl, ?_⟩⟩)
          change s.radio.streams.length < (s.radio.streams ++ [_]).length
          rw [List.length_append]
          exact Nat.lt_succ_self _
    · exact .inl ⟨.notConnected link.peripheral.addr, by simp [live, RadioSection.lift, Except.map]⟩
  · exact .inr (.inl ⟨i, rfl, bound⟩)

end ServiceRadio

abbrev ServiceStage := Sectioned.Stage ServiceSection (Except BleError ServiceReply)

/-- What a `subscribe` is at: its checks, the making of its stream, its return. -/
def Subscribes (r : LocalRadio) : ServiceStage → Prop
  | .running first rest => ∃ checks last, first :: rest = checks ++ [last] ∧
      (∀ section_ ∈ checks, ServiceRadio.refuses section_ = true) ∧ r.Hands last
  | .returned (.error _) => True
  | .returned (.ok reply) => ∃ i, reply = .radio (.stream i) ∧ i < r.streams.length

namespace Subscribes

variable {r r' : LocalRadio} {s : ServiceRadio}

theorem stage {checks : List ServiceSection} {last : ServiceSection}
    (refuse : ∀ section_ ∈ checks, ServiceRadio.refuses section_ = true) (hands : r.Hands last) :
    Subscribes r (mockService.stage (checks ++ [last])) := by
  cases checks with
  | nil => exact ⟨[], last, rfl, nofun, hands⟩
  | cons first rest => exact ⟨first :: rest, last, rfl, refuse, hands⟩

theorem later {stage : ServiceStage} (subscribes : Subscribes r stage) (grows : r.Grows r') : Subscribes r' stage := by
  cases stage with
  | running first rest =>
    obtain ⟨checks, last, eq, refuse, hands⟩ := subscribes
    refine ⟨checks, last, eq, refuse, ?_⟩
    rcases hands with made | ⟨i, is, bound⟩
    · exact .inl made
    · exact .inr ⟨i, is, Nat.lt_of_lt_of_le bound grows.length⟩
  | returned result =>
    cases result with
    | error e => trivial
    | ok reply =>
      obtain ⟨i, is, bound⟩ := subscribes
      exact ⟨i, is, Nat.lt_of_lt_of_le bound grows.length⟩

theorem begun (link : MockGattConnection) (characteristic : CharacteristicUuid) :
    Subscribes r (mockService.stage (ServiceRequest.radio (.subscribe link characteristic)).sections) := by
  have refuse : ∀ section_ ∈ [ServiceSection.radio (.ensureCurrent link),
      .radio (.requireProperty link.peripheral characteristic .notifiable)], ServiceRadio.refuses section_ = true := by
    intro section_ member
    rcases List.mem_pair.mp member with rfl | rfl <;> rfl
  exact stage refuse (.inl ⟨link, characteristic, rfl⟩)

/-- A turn of a `subscribe`. -/
theorem turned {section_ : ServiceSection} {rest : List ServiceSection}
    (subscribes : Subscribes s.radio (.running section_ rest)) :
    Subscribes (s.act section_).1.radio (mockService.after rest (s.act section_).2) := by
  have grows := s.act_grows section_
  obtain ⟨checks, last, eq, refuse, hands⟩ := subscribes
  cases checks with
  | nil =>
    obtain ⟨rfl, rfl⟩ := List.cons_eq_cons.mp eq
    rcases ServiceRadio.act_hands hands with ⟨e, turn⟩ | ⟨i, turn, bound⟩ | ⟨first, last, turn, refuses, hands⟩
    · rw [turn]
      trivial
    · rw [turn]
      exact ⟨i, rfl, Nat.lt_of_lt_of_le bound grows.length⟩
    · rw [turn]
      exact ⟨[first], last, rfl, fun _ member => List.mem_singleton.mp member ▸ refuses, hands⟩
  | cons first more =>
    obtain ⟨rfl, rfl⟩ := List.cons_eq_cons.mp eq
    rcases ServiceRadio.act_refuses (s := s) (refuse section_ List.mem_cons_self) with turn | ⟨e, turn⟩
    · rw [turn]
      have kept : Subscribes s.radio (mockService.stage (more ++ [last])) :=
        .stage (fun section_ member => refuse section_ (List.mem_cons_of_mem _ member)) hands
      exact kept.later grows
    · rw [turn]
      trivial

end Subscribes

namespace ServiceNetwork

variable {s t : ServiceNetwork}

theorem step_grows {input : ServiceInput} (stepped : s.step input = some t) : s.service.radio.Grows t.service.radio := by
  cases input with
  | begin_ request =>
    cases stepped
    exact .of_eq rfl
  | proceed call =>
    obtain ⟨⟨service, calls⟩, proceeded, rfl⟩ := Option.map_eq_some_iff.mp stepped
    obtain ⟨_, section_, _, turn, _, _, acted, _⟩ := Sectioned.proceed_cases proceeded
    have same : s.service.act section_ = (service, turn) := Option.some.inj acted
    have grows := s.service.act_grows section_
    rwa [same] at grows
  | dropStream stream =>
    cases stepped
    exact .modify stream fun _ => List.prefix_rfl

/-- Whatever the calls on a radio do between each other's sections, each of its
`subscribe`s is at its checks or hands out a stream of its own making. -/
theorem reach_subscribes (reach : machine.Reach s) : ∀ (m : Nat) (call : ServiceCall) (link : MockGattConnection)
    (characteristic : CharacteristicUuid), s.calls[m]? = some call → call.request = .radio (.subscribe link characteristic) →
    Subscribes s.service.radio call.stage := by
  induction reach with
  | start init =>
    cases init
    exact fun m call link characteristic there => by simp at there
  | @next s input t _ stepped ih =>
    intro m call link characteristic there is
    have grows := step_grows stepped
    cases input with
    | begin_ request =>
      cases stepped
      obtain old | ⟨rfl, rfl⟩ := TaskList.of_append there
      · exact ih m call link characteristic old is
      · cases is
        exact .begun link characteristic
    | proceed n =>
      obtain ⟨⟨service, calls⟩, proceeded, rfl⟩ := Option.map_eq_some_iff.mp stepped
      obtain ⟨found, section_, rest, turn, here, ahead, acted, rfl⟩ := Sectioned.proceed_cases proceeded
      obtain ⟨rfl, rfl⟩ | ⟨_, old⟩ := TaskList.of_set there
      · have before := ih m found link characteristic here is
        have same : s.service.act section_ = (service, turn) := Option.some.inj acted
        cases stage : found.stage with
        | running first more =>
          rw [Sectioned.Call.ahead, stage] at ahead
          cases ahead
          rw [stage] at before
          have turned := before.turned
          rwa [same] at turned
        | returned result =>
          rw [Sectioned.Call.ahead, stage] at ahead
          cases ahead
      · exact (ih m call link characteristic old is).later grows
    | dropStream stream =>
      cases stepped
      exact (ih m call link characteristic there is).later grows

end ServiceNetwork

end BleGatt
