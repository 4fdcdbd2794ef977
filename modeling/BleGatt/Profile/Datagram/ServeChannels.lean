import BleGatt.Profile.Datagram.Serve

namespace BleGatt
open Std

/-! What the steps of `serve` leave of its channels, and what the sends do. -/

/-- The channel without its flags and its queue. -/
def ServedChannel.lasting (channel : ServedChannel) : ServedChannel :=
  { peer := channel.peer
    session := channel.session
    nextMsgId := channel.nextMsgId
    maxMessageLen := channel.maxMessageLen
    fragmentBudget := channel.fragmentBudget }

namespace Server

def lasting (s : Server) (generation : Nat) : Option ServedChannel := s.channels[generation]?.map ServedChannel.lasting

/-- No channel is made, and nothing is sent. -/
structure SameSends (s s' : Server) : Prop where
  nextGeneration : s'.nextGeneration = s.nextGeneration
  sends : s'.sends = s.sends
  notified : s'.notified = s.notified
  lasting : s'.lasting = s.lasting

namespace SameSends

variable {s s' s'' : Server}

theorem refl (s : Server) : SameSends s s := ⟨rfl, rfl, rfl, rfl⟩

theorem trans (first : SameSends s s') (second : SameSends s' s'') : SameSends s s'' :=
  ⟨second.nextGeneration.trans first.nextGeneration, second.sends.trans first.sends,
    second.notified.trans first.notified, second.lasting.trans first.lasting⟩

theorem foldl {β : Type*} {f : Server → β → Server} (each : ∀ s b, SameSends s (f s b)) (bs : List β) (s : Server) :
    SameSends s (bs.foldl f s) := by
  induction bs generalizing s with
  | nil => exact refl s
  | cons b bs ih => exact (each s b).trans (ih _)

theorem setChannel (f : ServedChannel → ServedChannel) (same : ∀ channel, (f channel).lasting = channel.lasting)
    (generation : Nat) (s : Server) : SameSends s (s.setChannel generation f) := by
  refine ⟨rfl, rfl, rfl, ?_⟩
  funext g
  unfold Server.lasting Server.setChannel
  dsimp only
  rw [FiniteMap.getElem?_modify]
  split
  · rw [Option.map_map]
    exact congrArg (Option.map · _) (funext same)
  · rfl

theorem endIf (condition : Bool) (s : Server) : SameSends s (s.endIf condition) := by
  unfold Server.endIf
  split <;> exact ⟨rfl, rfl, rfl, rfl⟩

theorem call (driverCall : DriverCall) (s : Server) : SameSends s (s.call driverCall) := ⟨rfl, rfl, rfl, rfl⟩

theorem vacate (peer : PeerAddress) (served : ServedPeer) (s : Server) : SameSends s (s.vacate peer served) := by
  have erased : SameSends s { s with inbound := s.inbound.erase peer } := ⟨rfl, rfl, rfl, rfl⟩
  exact erased.trans (setChannel .deactivate (fun _ => rfl) _ _)

theorem releasePeer (s : Server) (released : Released) : SameSends s (s.releasePeer released) := by
  unfold Server.releasePeer
  split
  · exact refl s
  · split
    · exact refl s
    · split
      · exact vacate _ _ s
      · exact (vacate _ _ s).trans (call _ _)

theorem dropChannel (s : Server) (generation : Nat) : SameSends s (s.dropChannel generation) := by
  unfold Server.dropChannel
  split
  · exact refl s
  · have dropped := setChannel (fun channel => { channel with dropped := true }) (fun _ => rfl) generation s
    exact dropped.trans ⟨rfl, rfl, rfl, rfl⟩

end SameSends

/-- What a send starts with: no fragments where it could not be split. -/
def Cut (channel : ServedChannel) (send : Send) : Prop :=
  send.rest = [] ∨ ∃ payload, channel.refuse payload = none ∧
    split channel.nextMsgId payload channel.fragmentBudget = .ok send.rest

/-- Everything a step does to the channels and their sends. -/
inductive Dealing (cfg : DatagramConfig) (s : Server) : ServeStep → Server → Prop
  | same {label s'} : SameSends s s' → Dealing cfg s label s'
  | opened {s' peer session} {answers : Answers} : s'.nextGeneration = s.nextGeneration + 1 → s'.sends = s.sends →
      s'.notified = s.notified → (∀ g, s'.lasting g =
        if g = s.nextGeneration then some (newChannel cfg peer session answers.notifyMaxLen) else s.lasting g) →
      Dealing cfg s (.event (.connected peer .peripheral session) answers) s'
  | sent {label s' channel} {send : Send} : s.channels[send.channel]? = some channel → Cut channel send →
      send.msgId = channel.nextMsgId → s'.nextGeneration = s.nextGeneration → s'.sends = s.sends ++ [send] →
      s'.notified = s.notified → (∀ g, s'.lasting g = if g = send.channel then
        some { channel.lasting with nextMsgId := channel.nextMsgId + 1 } else s.lasting g) → Dealing cfg s label s'
  | continued {label number} {send send' : Send} : s.sends[number]? = some send → send'.channel = send.channel →
      send'.msgId = send.msgId → send'.rest ⊆ send.rest → Dealing cfg s label (s.setSend number send')
  | notified {label number channel fragment} {send send' : Send} : s.sends[number]? = some send →
      send'.channel = send.channel → send'.msgId = send.msgId → send'.rest ⊆ send.rest → fragment ∈ send.rest →
      s.channels[send.channel]? = some channel → Dealing cfg s label
        ({ s with notified := s.notified ++ [(⟨number, channel.peer, channel.session, fragment⟩ : Notified)] }.setSend
          number send')

section Dealing
variable {cfg : DatagramConfig} {s s' : Server} {label : ServeStep}

theorem onConnected_dealing (peer : PeerAddress) (session : Option UInt64) (answers : Answers) (s : Server) :
    Dealing cfg s (.event (.connected peer .peripheral session) answers)
      (s.onConnected cfg peer session answers.notifyMaxLen) := by
  have drained : SameSends s (s.releases.foldl releasePeer { s with releases := [] }) := by
    have emptied : SameSends s { s with releases := [] } := ⟨rfl, rfl, rfl, rfl⟩
    exact emptied.trans (.foldl .releasePeer _ _)
  unfold onConnected
  generalize s.releases.foldl releasePeer { s with releases := [] } = t at drained
  dsimp only
  have opened : ∀ s' : Server, SameSends { t with
      nextGeneration := t.nextGeneration + 1
      channels := t.channels.insert t.nextGeneration (newChannel cfg peer session answers.notifyMaxLen) } s' →
      Dealing cfg s (.event (.connected peer .peripheral session) answers) s' := by
    intro s' after
    refine .opened ?_ ?_ ?_ ?_
    · rw [after.nextGeneration, ← drained.nextGeneration]
    · exact after.sends.trans drained.sends
    · exact after.notified.trans drained.notified
    · intro g
      rw [after.lasting, ← drained.lasting, ← drained.nextGeneration]
      unfold lasting
      dsimp only
      rw [FiniteMap.getElem?_insert]
      split <;> rfl
  split
  · exact .same drained
  · split
    · exact .same drained
    · split
      · exact .same (drained.trans (.call _ _))
      · split
        · refine opened _ (SameSends.trans ?_ (.endIf _ _))
          refine SameSends.trans ?_ (.dropChannel _ _)
          exact ⟨rfl, rfl, rfl, rfl⟩
        · split
          · refine opened _ (SameSends.trans ?_ (.dropChannel _ _))
            exact ⟨rfl, rfl, rfl, rfl⟩
          · exact opened _ ⟨rfl, rfl, rfl, rfl⟩

theorem onEvent_dealing (event : GattEvent) (answers : Answers) (s : Server) :
    Dealing cfg s (.event event answers) (s.onEvent cfg event answers) := by
  have written : ∀ peer characteristic value, SameSends s (s.onWritten cfg peer characteristic value answers.queued) := by
    intro peer characteristic value
    unfold onWritten
    split
    · exact .refl s
    · split
      · exact .refl s
      · refine .setChannel _ (fun channel => ?_) _ _
        split
        · rfl
        · split <;> rfl
  have lost : ∀ peer session, SameSends s (s.onDisconnected peer session) := by
    intro peer session
    unfold onDisconnected
    split
    · exact .refl s
    · refine SameSends.trans ?_ (.endIf _ _)
      split
      · exact .refl s
      · exact .vacate _ _ s
  have lagged : SameSends s s.onLagged := by
    refine SameSends.trans (.foldl (fun s entry => ?_) _ s) (.endIf _ _)
    exact ((SameSends.setChannel .raiseOverflow (fun _ => rfl) _ s).trans (.vacate _ _ _)).trans (.call _ _)
  have radio_lost : SameSends s s.onRadioLost := by
    have emptied : SameSends s { s with inbound := ∅ } := ⟨rfl, rfl, rfl, rfl⟩
    refine (emptied.trans (.foldl (fun s entry => ?_) _ _)).trans (.endIf _ _)
    exact .setChannel .deactivate (fun _ => rfl) _ _
  have radio_back : SameSends s (s.onRadioBack cfg answers.servedService) := by
    unfold onRadioBack
    split
    · exact .refl s
    · split
      · exact .refl s
      · exact ⟨rfl, rfl, rfl, rfl⟩
  unfold onEvent
  split
  · exact onConnected_dealing _ _ answers s
  · exact .same (written _ _ _)
  · exact .same (lost _ _)
  · exact .same lagged
  · exact .same radio_back
  · exact .same radio_lost
  · exact .same radio_lost
  · exact .same (.refl s)
  · exact .same (.refl s)

theorem startSend_dealing {generation : Nat} {channel : ServedChannel}
    (known : s.channels[generation]? = some channel) (payload : Bytes) :
    Dealing cfg s label (s.startSend generation payload channel) := by
  unfold startSend
  split
  · exact .same (.refl s)
  · rename_i admitted
    have counted : ∀ g, (s.setChannel generation fun channel' =>
        { channel' with nextMsgId := channel.nextMsgId + 1 }).lasting g =
        if g = generation then some { channel.lasting with nextMsgId := channel.nextMsgId + 1 } else s.lasting g := by
      intro g
      unfold lasting setChannel
      dsimp only
      rw [FiniteMap.getElem?_modify]
      by_cases same : g = generation
      · rw [if_pos same, if_pos same, same, known]
        rfl
      · rw [if_neg same, if_neg same]
    dsimp only
    split
    · rename_i err _
      have unsent : Cut channel ⟨generation, channel.nextMsgId, [], false, some (.error err), false⟩ := .inl rfl
      exact .sent known unsent rfl rfl rfl rfl counted
    · rename_i fragments made
      have cut : Cut channel ⟨generation, channel.nextMsgId, fragments, false, none, false⟩ :=
        .inr ⟨payload, admitted, made⟩
      exact .sent known cut rfl rfl rfl rfl counted

theorem notifyNext_dealing {number : Nat} {send : Send} {channel : ServedChannel} {outcome : Except BleError Unit}
    (started : s.sends[number]? = some send) (known : s.channels[send.channel]? = some channel)
    (notified : s.notifyNext number send channel outcome = some s') : Dealing cfg s label s' := by
  unfold notifyNext at notified
  split at notified
  · simp at notified
  · rename_i fragment rest left
    split at notified
    · cases Option.some.inj notified
      exact .continued started rfl rfl (List.Subset.refl _)
    · split at notified
      · cases Option.some.inj notified
        exact .continued started rfl rfl (List.Subset.refl _)
      · cases Option.some.inj notified
        exact .notified started rfl rfl (left ▸ List.subset_cons_self _ _) (left ▸ List.mem_cons_self) known

theorem step_dealing (step : step cfg s label = some s') : Dealing cfg s label s' := by
  cases step_cases step with
  | closed _ _ =>
    have closed : SameSends s { s with acceptClosed := true } := ⟨rfl, rfl, rfl, rfl⟩
    exact .same (closed.trans (.endIf _ _))
  | @release _ released rest _ released_first =>
    have taken : SameSends s { s with releases := rest } := ⟨rfl, rfl, rfl, rfl⟩
    subst released_first
    exact .same ((taken.trans (.releasePeer _ _)).trans (.endIf _ _))
  | event event answers => exact onEvent_dealing event answers s
  | eventsEnded => exact .same ⟨rfl, rfl, rfl, rfl⟩
  | @take generation rest _ =>
    have taken : SameSends s { s with accepts := rest } := ⟨rfl, rfl, rfl, rfl⟩
    exact .same (taken.trans (.setChannel (fun channel => { channel with taken := true }) (fun _ => rfl) _ _))
  | dropStream =>
    have dropped : SameSends s { s with streamDropped := true, accepts := [] } := ⟨rfl, rfl, rfl, rfl⟩
    exact .same (dropped.trans (.foldl .dropChannel _ _))
  | close generation =>
    exact .same (.setChannel (fun channel => { channel with keepPeer := true }) (fun _ => rfl) _ _)
  | disconnect _ => exact .same ((SameSends.setChannel .deactivate (fun _ => rfl) _ _).trans (.call _ _))
  | drop generation => exact .same (.dropChannel _ _)
  | send payload known => exact startSend_dealing known payload
  | notify outcome started known notified => exact notifyNext_dealing started known notified
  | cancel started => exact .continued started rfl rfl (List.Subset.refl _)

end Dealing

end Server

end BleGatt
