import BleGatt.Profile.Datagram.Serve

namespace BleGatt
open Std

/-! The slot of `serve`: who holds it, and which channels may still send. -/

/-- A `Connected` of a central. -/
def ServeStep.arrives : ServeStep → Bool
  | .event (.connected _ .peripheral _) _ => true
  | _ => false

namespace Server

/-- The queued releases were taken. -/
def drained (s : Server) : Server := s.releases.foldl releasePeer { s with releases := [] }

/-- A peer took the slot. -/
def opened (cfg : DatagramConfig) (peer : PeerAddress) (session : Option UInt64) (notifyMaxLen : Option Nat)
    (s : Server) : Server :=
  { s with
    nextGeneration := s.nextGeneration + 1
    channels := s.channels.insert s.nextGeneration (newChannel cfg peer session notifyMaxLen)
    accepts := s.accepts ++ [s.nextGeneration]
    inbound := s.inbound.insert peer { driverSession := session, generation := s.nextGeneration } }

/-- The slot is held by another, or the accept queue has no room. -/
def Refused (cfg : DatagramConfig) (peer : PeerAddress) (s : Server) : Prop :=
  peer ∉ s.inbound ∧ s.acceptClosed = false ∧
    (s.inbound.isEmpty = false ∨ s.streamDropped = false ∧ cfg.acceptQueueDepth ≤ s.accepts.length)

/-- No peer takes the slot, and the channel of one that leaves it sends no more. -/
structure Eases (s s' : Server) : Prop where
  generations : s.nextGeneration ≤ s'.nextGeneration
  accepts : s'.accepts ⊆ s.accepts
  inbound : ∀ (peer : PeerAddress) (served : ServedPeer), s'.inbound[peer]? = some served → s.inbound[peer]? = some served
  channels : ∀ g < s.nextGeneration, ∀ channel, s.channels[g]? = some channel → ∃ channel', s'.channels[g]? = some channel' ∧
    channel'.peer = channel.peer ∧ channel'.session = channel.session ∧ (channel'.active = true → channel.active = true ∧
      ∀ (peer : PeerAddress) (served : ServedPeer), s.inbound[peer]? = some served → served.generation = g →
        s'.inbound[peer]? = some served)

namespace Eases

variable {s s' s'' : Server}

/-- Only what the slot does not depend on differs. -/
theorem of_same (generations : s'.nextGeneration = s.nextGeneration) (accepts : s'.accepts ⊆ s.accepts)
    (inbound : s'.inbound = s.inbound) (channels : s'.channels = s.channels) : Eases s s' where
  generations := generations.ge
  accepts := accepts
  inbound _ _ at_peer := inbound ▸ at_peer
  channels g _ channel known := by
    refine ⟨channel, channels ▸ known, rfl, rfl, fun active => ⟨active, fun _ _ at_peer _ => ?_⟩⟩
    rw [inbound]
    exact at_peer

theorem refl (s : Server) : Eases s s := of_same rfl (List.Subset.refl _) rfl rfl

theorem trans (first : Eases s s') (second : Eases s' s'') : Eases s s'' where
  generations := first.generations.trans second.generations
  accepts := List.Subset.trans second.accepts first.accepts
  inbound peer served at_peer := first.inbound peer served (second.inbound peer served at_peer)
  channels g below channel known := by
    obtain ⟨channel', known', peer', session', active'⟩ := first.channels g below channel known
    obtain ⟨channel'', known'', peer'', session'', active''⟩ :=
      second.channels g (below.trans_le first.generations) channel' known'
    refine ⟨channel'', known'', peer''.trans peer', session''.trans session', fun active => ?_⟩
    obtain ⟨still, kept'⟩ := active'' active
    obtain ⟨before, kept⟩ := active' still
    refine ⟨before, fun peer served at_peer same => ?_⟩
    exact kept' peer served (kept peer served at_peer same) same

theorem foldl {β : Type*} {f : Server → β → Server} (bs : List β)
    (each : ∀ t, Eases s t → ∀ b ∈ bs, Eases t (f t b)) {t : Server} (before : Eases s t) :
    Eases s (bs.foldl f t) := by
  induction bs generalizing t with
  | nil => exact before
  | cons b bs ih =>
    have first := each t before b List.mem_cons_self
    exact ih (fun u after c member => each u after c (List.mem_cons_of_mem b member)) (before.trans first)

theorem setChannel {f : ServedChannel → ServedChannel} (falls : ∀ channel, (f channel).peer = channel.peer ∧
    (f channel).session = channel.session ∧ ((f channel).active = true → channel.active = true)) (generation : Nat)
    (s : Server) : Eases s (s.setChannel generation f) where
  generations := le_rfl
  accepts := List.Subset.refl _
  inbound _ _ at_peer := at_peer
  channels g _ channel known := by
    have found : (s.setChannel generation f).channels[g]? =
        if g = generation then some (f channel) else some channel := by
      unfold Server.setChannel
      dsimp only
      rw [FiniteMap.getElem?_modify, known, Option.map_some]
    by_cases same : g = generation
    · rw [if_pos same] at found
      obtain ⟨peer, session, active⟩ := falls channel
      exact ⟨f channel, found, peer, session, fun still => ⟨active still, fun _ _ at_peer _ => at_peer⟩⟩
    · rw [if_neg same] at found
      exact ⟨channel, found, rfl, rfl, fun still => ⟨still, fun _ _ at_peer _ => at_peer⟩⟩

theorem endIf (condition : Bool) (s : Server) : Eases s (s.endIf condition) := by
  unfold Server.endIf
  split
  · exact of_same rfl (List.Subset.refl _) rfl rfl
  · exact refl s

theorem call (driverCall : DriverCall) (s : Server) : Eases s (s.call driverCall) :=
  of_same rfl (List.Subset.refl _) rfl rfl

theorem vacate {peer : PeerAddress} {served : ServedPeer}
    (holder : ∀ served', s.inbound[peer]? = some served' → served' = served) : Eases s (s.vacate peer served) where
  generations := le_rfl
  accepts := List.Subset.refl _
  inbound q served' at_q := by
    unfold Server.vacate Server.setChannel at at_q
    dsimp only at at_q
    rw [FiniteMap.getElem?_erase] at at_q
    split at at_q
    · simp at at_q
    · exact at_q
  channels g _ channel known := by
    have found : (s.vacate peer served).channels[g]? =
        if g = served.generation then some channel.deactivate else some channel := by
      unfold Server.vacate Server.setChannel
      dsimp only
      rw [FiniteMap.getElem?_modify, known, Option.map_some]
    by_cases same : g = served.generation
    · rw [if_pos same] at found
      exact ⟨channel.deactivate, found, rfl, rfl, fun still => absurd still Bool.false_ne_true⟩
    · rw [if_neg same] at found
      refine ⟨channel, found, rfl, rfl, fun still => ⟨still, fun q served' at_q owner => ?_⟩⟩
      unfold Server.vacate Server.setChannel
      dsimp only
      rw [FiniteMap.getElem?_erase, if_neg ?_]
      · exact at_q
      · rintro rfl
        exact same (owner ▸ holder served' at_q ▸ rfl)

theorem releasePeer (s : Server) (released : Released) : Eases s (s.releasePeer released) := by
  unfold Server.releasePeer
  split
  · exact refl s
  · rename_i served at_peer
    have vacated : Eases s (s.vacate released.peer served) :=
      vacate fun served' at_peer' => Option.some.inj (at_peer'.symm.trans at_peer)
    split
    · exact refl s
    · split
      · exact vacated
      · exact vacated.trans (call _ _)

theorem dropChannel (s : Server) (generation : Nat) : Eases s (s.dropChannel generation) := by
  unfold Server.dropChannel
  split
  · exact refl s
  · have dropped := setChannel (f := fun channel => { channel with dropped := true })
      (fun _ => ⟨rfl, rfl, id⟩) generation s
    exact dropped.trans (of_same rfl (List.Subset.refl _) rfl rfl)

theorem drained (s : Server) : Eases s s.drained := by
  have emptied : Eases s { s with releases := [] } := of_same rfl (List.Subset.refl _) rfl rfl
  exact foldl _ (fun t _ released _ => releasePeer t released) emptied

theorem wasted (s : Server) (channel : ServedChannel) : Eases s { s with
    nextGeneration := s.nextGeneration + 1
    channels := s.channels.insert s.nextGeneration channel } where
  generations := Nat.le_succ _
  accepts := List.Subset.refl _
  inbound _ _ at_peer := at_peer
  channels g below channel' known := by
    refine ⟨channel', ?_, rfl, rfl, fun still => ⟨still, fun _ _ at_peer _ => at_peer⟩⟩
    dsimp only
    rw [FiniteMap.getElem?_insert, if_neg below.ne]
    exact known

theorem onDisconnected (peer : PeerAddress) (lostSession : Option UInt64) (s : Server) :
    Eases s (s.onDisconnected peer lostSession) := by
  unfold Server.onDisconnected
  split
  · exact refl s
  · refine Eases.trans ?_ (endIf _ _)
    split
    · exact refl s
    · rename_i served at_peer
      exact vacate fun served' at_peer' => Option.some.inj (at_peer'.symm.trans at_peer)

theorem onWritten (cfg : DatagramConfig) (peer : PeerAddress) (characteristic : CharacteristicUuid) (value : Bytes)
    (queued : Bool) (s : Server) : Eases s (s.onWritten cfg peer characteristic value queued) := by
  unfold Server.onWritten
  split
  · exact refl s
  · split
    · exact refl s
    · refine setChannel (fun channel => ?_) _ _
      split
      · exact ⟨rfl, rfl, id⟩
      · split <;> exact ⟨rfl, rfl, id⟩

theorem onLagged (s : Server) : Eases s s.onLagged := by
  refine (foldl _ (fun t before entry member => ?_) (refl s)).trans (endIf _ _)
  have raised : Eases t (t.setChannel entry.2.generation .raiseOverflow) :=
    setChannel (f := .raiseOverflow) (fun _ => ⟨rfl, rfl, id⟩) _ t
  refine (raised.trans (vacate fun served at_peer => ?_)).trans (call _ _)
  -- the entries are those `s` had, whatever became of the slot since
  have first := before.inbound entry.1 served at_peer
  exact Option.some.inj (first.symm.trans (ExtTreeMap.mem_toList_iff_getElem?_eq_some.mp member))

end Eases

/-- Each channel of `entries` sends no more. -/
theorem foldl_deactivate (entries : List (PeerAddress × ServedPeer)) (t : Server) :
    ∃ channels, entries.foldl (fun s entry => s.setChannel entry.2.generation .deactivate) t = { t with channels } ∧
      ∀ g channel, t.channels[g]? = some channel → ∃ channel', channels[g]? = some channel' ∧
        channel'.peer = channel.peer ∧ channel'.session = channel.session ∧ (channel'.active = true →
          channel.active = true ∧ ∀ entry ∈ entries, entry.2.generation ≠ g) := by
  induction entries generalizing t with
  | nil =>
    exact ⟨t.channels, rfl, fun _ channel known => ⟨channel, known, rfl, rfl, fun still => ⟨still, by simp⟩⟩⟩
  | cons head entries ih =>
    obtain ⟨channels, folded, rest⟩ := ih (t.setChannel head.2.generation .deactivate)
    refine ⟨channels, folded, fun g channel known => ?_⟩
    have found : (t.setChannel head.2.generation .deactivate).channels[g]? =
        if g = head.2.generation then some channel.deactivate else some channel := by
      unfold setChannel
      dsimp only
      rw [FiniteMap.getElem?_modify, known, Option.map_some]
    by_cases same : g = head.2.generation
    · rw [if_pos same] at found
      obtain ⟨channel', known', peer, session, active⟩ := rest g _ found
      exact ⟨channel', known', peer, session, fun still => absurd (active still).1 Bool.false_ne_true⟩
    · rw [if_neg same] at found
      obtain ⟨channel', known', peer, session, active⟩ := rest g _ found
      refine ⟨channel', known', peer, session, fun still => ⟨(active still).1, fun entry member => ?_⟩⟩
      rcases List.mem_cons.mp member with rfl | later
      · exact Ne.symm same
      · exact (active still).2 entry later

theorem Eases.onRadioLost (s : Server) : Eases s s.onRadioLost := by
  refine Eases.trans ?_ (.endIf _ _)
  obtain ⟨channels, folded, each⟩ := foldl_deactivate s.inbound.toList { s with inbound := ∅ }
  rw [folded]
  refine ⟨le_rfl, List.Subset.refl _, fun peer served at_peer => ?_, fun g _ channel known => ?_⟩
  · simp at at_peer
  · obtain ⟨channel', known', peer, session, active⟩ := each g channel known
    refine ⟨channel', known', peer, session, fun still => ⟨(active still).1, fun q served at_q same => ?_⟩⟩
    have entry := ExtTreeMap.mem_toList_iff_getElem?_eq_some.mpr at_q
    exact absurd same ((active still).2 _ entry)

/-- Everything `Connected` of a central does, once the releases are taken. -/
inductive Arrival (cfg : DatagramConfig) (peer : PeerAddress) (session : Option UInt64) (s : Server) : Server → Prop
  /-- It repeats that of the peer served. -/
  | served : peer ∈ s.inbound → Arrival cfg peer session s s
  | ignored : peer ∉ s.inbound → s.acceptClosed = true → Arrival cfg peer session s s
  | refused {s'} : Refused cfg peer s → Eases s s' → s'.inbound = s.inbound → s'.acceptClosed = false →
      s'.calls = s.calls ++ [.disconnectPeer peer session] → Arrival cfg peer session s s'
  | closed {s'} : s.inbound.isEmpty = true → s.acceptClosed = false → s.streamDropped = true → Eases s s' →
      s'.inbound = s.inbound → s'.acceptClosed = true → Arrival cfg peer session s s'
  | accepted {notifyMaxLen} : s.inbound.isEmpty = true → s.acceptClosed = false → s.streamDropped = false →
      s.accepts.length < cfg.acceptQueueDepth → Arrival cfg peer session s (s.opened cfg peer session notifyMaxLen)

theorem dropChannel_rest (s : Server) (generation : Nat) : (s.dropChannel generation).inbound = s.inbound ∧
    (s.dropChannel generation).acceptClosed = s.acceptClosed ∧ (s.dropChannel generation).calls = s.calls := by
  unfold dropChannel
  split <;> exact ⟨rfl, rfl, rfl⟩

theorem endIf_rest (condition : Bool) (s : Server) : (s.endIf condition).inbound = s.inbound ∧
    (s.endIf condition).acceptClosed = s.acceptClosed := by
  unfold endIf
  split <;> exact ⟨rfl, rfl⟩

theorem onConnected_arrival (cfg : DatagramConfig) (peer : PeerAddress) (session : Option UInt64)
    (notifyMaxLen : Option Nat) (s : Server) :
    Arrival cfg peer session s.drained (s.onConnected cfg peer session notifyMaxLen) := by
  unfold onConnected drained
  generalize s.releases.foldl releasePeer { s with releases := [] } = t
  dsimp only
  by_cases holder : peer ∈ t.inbound
  · rw [if_pos holder]
    exact .served holder
  rw [if_neg holder]
  by_cases shut : t.acceptClosed = true
  · rw [if_pos shut]
    exact .ignored holder shut
  rw [if_neg shut]
  rw [Bool.not_eq_true] at shut
  by_cases taken : (!t.inbound.isEmpty) = true
  · rw [if_pos taken]
    exact .refused ⟨holder, shut, .inl (by simpa using taken)⟩ (.call _ _) rfl shut rfl
  rw [if_neg taken]
  have free : t.inbound.isEmpty = true := by simpa using taken
  by_cases gone : t.streamDropped = true
  · rw [if_pos gone]
    obtain ⟨inbound, acceptClosed, _⟩ := dropChannel_rest { t with
      nextGeneration := t.nextGeneration + 1
      channels := t.channels.insert t.nextGeneration (newChannel cfg peer session notifyMaxLen)
      acceptClosed := true } t.nextGeneration
    refine .closed free shut gone ?_ ((endIf_rest _ _).1.trans inbound) ((endIf_rest _ _).2.trans acceptClosed)
    refine ((Eases.wasted t (newChannel cfg peer session notifyMaxLen)).trans ?_).trans (.endIf _ _)
    refine Eases.trans ?_ (.dropChannel _ _)
    exact .of_same rfl (List.Subset.refl _) rfl rfl
  rw [if_neg gone]
  rw [Bool.not_eq_true] at gone
  by_cases full : t.accepts.length ≥ cfg.acceptQueueDepth
  · rw [if_pos full]
    obtain ⟨inbound, acceptClosed, calls⟩ := dropChannel_rest ({ t with
      nextGeneration := t.nextGeneration + 1
      channels := t.channels.insert t.nextGeneration (newChannel cfg peer session notifyMaxLen) }.call
        (.disconnectPeer peer session)) t.nextGeneration
    refine .refused ⟨holder, shut, .inr ⟨gone, full⟩⟩ ?_ inbound (acceptClosed.trans shut) calls
    exact ((Eases.wasted t _).trans (.call _ _)).trans (.dropChannel _ _)
  · rw [if_neg full]
    exact .accepted free shut gone (Nat.lt_of_not_ge full)

theorem Eases.startSend (generation : Nat) (payload : Bytes) (channel : ServedChannel) (s : Server) :
    Eases s (s.startSend generation payload channel) := by
  unfold Server.startSend
  split
  · exact refl s
  · have counted := setChannel (f := fun channel' => { channel' with nextMsgId := channel.nextMsgId + 1 })
      (fun _ => ⟨rfl, rfl, id⟩) generation s
    exact counted.trans (of_same rfl (List.Subset.refl _) rfl rfl)

theorem Eases.notifyNext {s s' : Server} {number : Nat} {send : Send} {channel : ServedChannel}
    {outcome : Except BleError Unit} (notified : s.notifyNext number send channel outcome = some s') : Eases s s' := by
  unfold Server.notifyNext at notified
  split at notified
  · simp at notified
  · split at notified
    · cases Option.some.inj notified
      exact of_same rfl (List.Subset.refl _) rfl rfl
    · split at notified
      · cases Option.some.inj notified
        exact of_same rfl (List.Subset.refl _) rfl rfl
      · cases Option.some.inj notified
        exact of_same rfl (List.Subset.refl _) rfl rfl

theorem onEvent_eases {cfg : DatagramConfig} {event : GattEvent} {answers : Answers}
    (other : (ServeStep.event event answers).arrives = false) (s : Server) : Eases s (s.onEvent cfg event answers) := by
  unfold onEvent
  split
  · simp [ServeStep.arrives] at other
  · exact .onWritten _ _ _ _ _ s
  · exact .onDisconnected _ _ s
  · exact .onLagged s
  · unfold onRadioBack
    split
    · exact .refl s
    · split
      · exact .refl s
      · exact .call _ s
  · exact .onRadioLost s
  · exact .onRadioLost s
  · exact .refl s
  · exact .refl s

theorem step_event {cfg : DatagramConfig} {s s' : Server} {event : GattEvent} {answers : Answers}
    (step : step cfg s (.event event answers) = some s') : s' = s.onEvent cfg event answers := by
  cases step_cases step
  rfl

theorem step_eases {cfg : DatagramConfig} {s s' : Server} {label : ServeStep} (other : label.arrives = false)
    (step : step cfg s label = some s') : Eases s s' := by
  cases step_cases step with
  | closed _ _ =>
    have closed : Eases s { s with acceptClosed := true } := .of_same rfl (List.Subset.refl _) rfl rfl
    exact closed.trans (.endIf _ _)
  | @release _ released rest _ released_first =>
    have taken : Eases s { s with releases := rest } := .of_same rfl (List.Subset.refl _) rfl rfl
    subst released_first
    exact (taken.trans (.releasePeer _ _)).trans (.endIf _ _)
  | event event answers => exact onEvent_eases other s
  | eventsEnded => exact .of_same rfl (List.Subset.refl _) rfl rfl
  | @take generation rest queued =>
    have fewer : rest ⊆ s.accepts := queued ▸ List.subset_cons_self _ _
    have first : Eases s { s with accepts := rest } := .of_same rfl fewer rfl rfl
    exact first.trans (.setChannel (f := fun channel => { channel with taken := true }) (fun _ => ⟨rfl, rfl, id⟩) _ _)
  | dropStream =>
    have dropped : Eases s { s with streamDropped := true, accepts := [] } :=
      .of_same rfl (List.nil_subset _) rfl rfl
    exact .foldl _ (fun t _ generation _ => .dropChannel t generation) dropped
  | close generation =>
    exact .setChannel (f := fun channel => { channel with keepPeer := true }) (fun _ => ⟨rfl, rfl, id⟩) _ _
  | @disconnect generation channel _ =>
    have cleared : Eases s (s.setChannel generation .deactivate) :=
      .setChannel (f := .deactivate) (fun _ => ⟨rfl, rfl, fun still => absurd still Bool.false_ne_true⟩) _ _
    exact cleared.trans (.call _ _)
  | drop generation => exact .dropChannel s generation
  | send payload _ => exact .startSend _ payload _ s
  | notify _ _ _ notified => exact .notifyNext notified
  | cancel _ => exact .of_same rfl (List.Subset.refl _) rfl rfl

/-- Every channel the task ever handed out. -/
def handOut (handed : List Nat) (_ : Server) (_ : ServeStep) (s : Server) : List Nat := handed ++ s.accepts

/-- One peer is in the slot, with the one channel that may send. -/
structure Slotted (handed : List Nat) (s : Server) : Prop where
  queued : s.accepts ⊆ handed
  single : ∀ p q : PeerAddress, p ∈ s.inbound → q ∈ s.inbound → p = q
  known : ∀ (peer : PeerAddress) (served : ServedPeer), s.inbound[peer]? = some served →
    served.generation < s.nextGeneration ∧
      ∃ channel, s.channels[served.generation]? = some channel ∧ channel.peer = peer ∧
        channel.session = served.driverSession
  active : ∀ g ∈ handed, g < s.nextGeneration ∧ ∃ channel, s.channels[g]? = some channel ∧
    (channel.active = true → s.inbound[channel.peer]? = some { driverSession := channel.session, generation := g })

namespace Slotted

variable {cfg : DatagramConfig} {handed : List Nat} {s s' : Server}

theorem start : Slotted [] start where
  queued := List.Subset.refl _
  single p _ at_p _ := by simp [Server.start] at at_p
  known p served at_p := by simp [Server.start] at at_p
  active := by simp

theorem mono (slotted : Slotted handed s) : Slotted (handed ++ s.accepts) s where
  queued := List.subset_append_right _ _
  single := slotted.single
  known := slotted.known
  active g member := by
    refine slotted.active g ?_
    rcases List.mem_append.mp member with before | now
    · exact before
    · exact slotted.queued now

theorem eases (slotted : Slotted handed s) (eased : Eases s s') : Slotted handed s' where
  queued := List.Subset.trans eased.accepts slotted.queued
  single p q at_p at_q := by
    rw [ExtTreeMap.mem_iff_isSome_getElem?, Option.isSome_iff_exists] at at_p at_q
    obtain ⟨served_p, at_p⟩ := at_p
    obtain ⟨served_q, at_q⟩ := at_q
    have before_p := eased.inbound p served_p at_p
    have before_q := eased.inbound q served_q at_q
    refine slotted.single p q ?_ ?_
    · rw [ExtTreeMap.mem_iff_isSome_getElem?, before_p]
      rfl
    · rw [ExtTreeMap.mem_iff_isSome_getElem?, before_q]
      rfl
  known peer served at_peer := by
    obtain ⟨below, channel, known, same_peer, session⟩ := slotted.known peer served (eased.inbound peer served at_peer)
    obtain ⟨channel', known', peer', session', _⟩ := eased.channels _ below channel known
    exact ⟨below.trans_le eased.generations, channel', known', peer'.trans same_peer, session'.trans session⟩
  active g member := by
    obtain ⟨below, channel, known, active⟩ := slotted.active g member
    obtain ⟨channel', known', peer', session', still⟩ := eased.channels g below channel known
    refine ⟨below.trans_le eased.generations, channel', known', fun now => ?_⟩
    rw [peer', session']
    exact (still now).2 _ _ (active (still now).1) rfl

theorem opened (slotted : Slotted handed s) (free : s.inbound.isEmpty = true) (peer : PeerAddress)
    (session : Option UInt64) (notifyMaxLen : Option Nat) :
    Slotted (handed ++ [s.nextGeneration]) (s.opened cfg peer session notifyMaxLen) := by
  have empty : ∀ q : PeerAddress, s.inbound[q]? = none := fun q => by
    rw [ExtTreeMap.isEmpty_iff.mp free]
    rfl
  have entry : ∀ (q : PeerAddress) served, (s.opened cfg peer session notifyMaxLen).inbound[q]? = some served →
      q = peer ∧ served = { driverSession := session, generation := s.nextGeneration } := by
    intro q served at_q
    unfold Server.opened at at_q
    dsimp only at at_q
    rw [FiniteMap.getElem?_insert, empty] at at_q
    split at at_q
    · rename_i same
      exact ⟨same, (Option.some.inj at_q).symm⟩
    · simp at at_q
  have fresh : (s.opened cfg peer session notifyMaxLen).channels[s.nextGeneration]? =
      some (newChannel cfg peer session notifyMaxLen) := by
    unfold Server.opened
    dsimp only
    rw [FiniteMap.getElem?_insert, if_pos rfl]
  refine ⟨fun g member => ?_, fun p q at_p at_q => ?_, fun q served at_q => ?_, fun g member => ?_⟩
  · rcases List.mem_append.mp member with before | now
    · exact List.mem_append_left _ (slotted.queued before)
    · exact List.mem_append_right _ now
  · rw [ExtTreeMap.mem_iff_isSome_getElem?, Option.isSome_iff_exists] at at_p at_q
    obtain ⟨served_p, at_p⟩ := at_p
    obtain ⟨served_q, at_q⟩ := at_q
    exact (entry p served_p at_p).1.trans (entry q served_q at_q).1.symm
  · obtain ⟨rfl, rfl⟩ := entry q served at_q
    exact ⟨Nat.lt_succ_self _, _, fresh, rfl, rfl⟩
  · rcases List.mem_append.mp member with before | now
    · obtain ⟨below, channel, known, active⟩ := slotted.active g before
      refine ⟨below.trans (Nat.lt_succ_self _), channel, ?_, fun still => ?_⟩
      · unfold Server.opened
        dsimp only
        rw [FiniteMap.getElem?_insert, if_neg below.ne]
        exact known
      · have gone := active still
        rw [empty] at gone
        exact absurd gone (by simp)
    · obtain rfl := List.mem_singleton.mp now
      refine ⟨Nat.lt_succ_self _, _, fresh, fun _ => ?_⟩
      unfold Server.opened newChannel
      dsimp only
      rw [FiniteMap.getElem?_insert, if_pos rfl]

theorem arrival (slotted : Slotted handed s) {peer : PeerAddress} {session : Option UInt64}
    (arrived : Arrival cfg peer session s s') : Slotted (handed ++ s'.accepts) s' := by
  cases arrived with
  | served _ => exact slotted.mono
  | ignored _ _ => exact slotted.mono
  | refused _ eased _ _ _ => exact (slotted.eases eased).mono
  | closed _ _ _ eased _ _ => exact (slotted.eases eased).mono
  | accepted free _ _ _ =>
    have next : Slotted _ (s.opened cfg peer session ‹_›) := slotted.opened free peer session _
    refine ⟨List.subset_append_right _ _, next.single, next.known, fun g member => next.active g ?_⟩
    rcases List.mem_append.mp member with before | now
    · exact List.mem_append_left _ before
    · exact next.queued now

theorem step (slotted : Slotted handed s) {label : ServeStep} (step : Server.step cfg s label = some s') :
    Slotted (handed ++ s'.accepts) s' := by
  cases arrives : label.arrives with
  | false => exact (slotted.eases (step_eases arrives step)).mono
  | true =>
    unfold ServeStep.arrives at arrives
    split at arrives
    · rename_i peer session answers
      obtain rfl := step_event step
      exact (slotted.eases (.drained s)).arrival (onConnected_arrival cfg peer session answers.notifyMaxLen s)
    · simp at arrives

theorem run (run : (machine cfg).Run (fun _ _ _ => True) handOut [] handed s) : Slotted handed s := by
  refine Machine.Run.invariant (P := Slotted) ?_ ?_ run
  · rintro s ⟨_, rfl⟩
    exact start
  · intro handed s label s' _ slotted _ taken
    exact slotted.step taken

end Slotted

theorem size_le_one {s : Server} (single : ∀ p q : PeerAddress, p ∈ s.inbound → q ∈ s.inbound → p = q) :
    s.inbound.size ≤ 1 := by
  rw [← ExtTreeMap.length_keys]
  cases keys : s.inbound.keys with
  | nil => exact Nat.zero_le 1
  | cons p rest =>
    have head : p ∈ s.inbound := ExtTreeMap.mem_keys.mp (keys ▸ List.mem_cons_self)
    have distinct : (p :: rest).Nodup := keys ▸ ExtTreeMap.nodup_keys
    have same : p :: rest ⊆ [p] := by
      intro q member
      have at_q : q ∈ s.inbound := ExtTreeMap.mem_keys.mp (keys ▸ member)
      exact List.mem_singleton.mpr (single q p at_q head)
    exact (List.Nodup.subperm distinct same).length_le

/-- A release of any other channel than that of the peer served does nothing. -/
theorem releasePeer_superseded {s : Server} (single : ∀ p q : PeerAddress, p ∈ s.inbound → q ∈ s.inbound → p = q)
    {peer : PeerAddress} {served : ServedPeer} (at_peer : s.inbound[peer]? = some served) {released : Released}
    (older : released.generation < served.generation) : s.releasePeer released = s := by
  unfold releasePeer
  split
  · rfl
  · rename_i served' at_released
    have same : released.peer = peer := by
      refine single _ _ ?_ ?_
      · rw [ExtTreeMap.mem_iff_isSome_getElem?, at_released]
        rfl
      · rw [ExtTreeMap.mem_iff_isSome_getElem?, at_peer]
        rfl
    rw [same, at_peer] at at_released
    obtain rfl := Option.some.inj at_released
    rw [if_pos older.ne']

theorem Arrival.of_refused {cfg : DatagramConfig} {peer : PeerAddress} {session : Option UInt64} {s s' : Server}
    (arrived : Arrival cfg peer session s s') (refused : Refused cfg peer s) :
    s'.inbound = s.inbound ∧ s'.calls = s.calls ++ [.disconnectPeer peer session] := by
  obtain ⟨absent, shut, full⟩ := refused
  cases arrived with
  | served holder => exact absurd holder absent
  | ignored _ closed =>
    rw [shut] at closed
    exact absurd closed Bool.false_ne_true
  | refused _ _ inbound _ calls => exact ⟨inbound, calls⟩
  | closed free _ gone _ _ _ =>
    rw [free, gone] at full
    simp at full
  | accepted free _ gone room =>
    rw [free] at full
    rcases full with taken | ⟨_, full⟩
    · simp at taken
    · omega

/-- Who is left without the slot was refused, or `serve` shuts down. -/
theorem Arrival.refused_of_not_mem {cfg : DatagramConfig} {peer : PeerAddress} {session : Option UInt64} {s s' : Server}
    (arrived : Arrival cfg peer session s s') (absent : peer ∉ s'.inbound) :
    s'.acceptClosed = true ∨ Refused cfg peer s := by
  cases arrived with
  | served holder => exact absurd holder absent
  | ignored _ closed => exact .inl closed
  | refused refused _ _ _ _ => exact .inr refused
  | closed _ _ _ _ _ closed => exact .inl closed
  | accepted _ _ _ _ =>
    refine absurd ?_ absent
    rw [ExtTreeMap.mem_iff_isSome_getElem?]
    unfold Server.opened
    dsimp only
    rw [FiniteMap.getElem?_insert, if_pos rfl]
    rfl

/-- What `serve` promises of its slot. -/
structure SingleSlot (cfg : DatagramConfig) (handed : List Nat) (s : Server) : Prop where
  single : s.inbound.size ≤ 1
  active : ∀ g ∈ handed, ∀ channel, s.channels[g]? = some channel → channel.active = true →
    s.inbound[channel.peer]? = some { driverSession := channel.session, generation := g }
  /-- Also once any releases before it were taken. -/
  superseded : ∀ (taken queue : List Released) (peer : PeerAddress) (served : ServedPeer) (released : Released),
    (taken.foldl releasePeer { s with releases := queue }).inbound[peer]? = some served →
    released.generation < served.generation →
    (taken.foldl releasePeer { s with releases := queue }).releasePeer released =
      taken.foldl releasePeer { s with releases := queue }
  refused : ∀ peer session notifyMaxLen, Refused cfg peer s.drained →
    peer ∉ (s.onConnected cfg peer session notifyMaxLen).inbound ∧
      (s.onConnected cfg peer session notifyMaxLen).inbound = s.drained.inbound ∧
      (s.onConnected cfg peer session notifyMaxLen).calls = s.drained.calls ++ [.disconnectPeer peer session]
  unserved : ∀ peer session notifyMaxLen, peer ∉ (s.onConnected cfg peer session notifyMaxLen).inbound →
    (s.onConnected cfg peer session notifyMaxLen).acceptClosed = true ∨ Refused cfg peer s.drained

theorem run_single_slot {cfg : DatagramConfig} {handed : List Nat} {s : Server}
    (run : (machine cfg).Run (fun _ _ _ => True) handOut [] handed s) : SingleSlot cfg handed s := by
  have slotted := Slotted.run run
  refine ⟨size_le_one slotted.single, ?_, ?_, ?_, ?_⟩
  · intro g member channel known active
    obtain ⟨_, channel', known', still⟩ := slotted.active g member
    obtain rfl := Option.some.inj (known.symm.trans known')
    exact still active
  · intro taken queue peer served released at_peer older
    have emptied : Eases s { s with releases := queue } := .of_same rfl (List.Subset.refl _) rfl rfl
    have eased : Eases s (taken.foldl releasePeer { s with releases := queue }) :=
      .foldl _ (fun t _ released _ => .releasePeer t released) emptied
    exact releasePeer_superseded (slotted.eases eased).single at_peer older
  · intro peer session notifyMaxLen refused
    obtain ⟨inbound, calls⟩ := (onConnected_arrival cfg peer session notifyMaxLen s).of_refused refused
    exact ⟨inbound ▸ refused.1, inbound, calls⟩
  · intro peer session notifyMaxLen absent
    exact (onConnected_arrival cfg peer session notifyMaxLen s).refused_of_not_mem absent

/-- Two centrals come, the second is refused; the first leaves and comes
again, and the release of its first channel is late. -/
def succession : List ServeStep :=
  let a : PeerAddress := ⟨"a"⟩
  [.event (.connected a .peripheral (some 1)) {}, .take, .event (.connected ⟨"b"⟩ .peripheral (some 2)) {},
    .event (.disconnected a .peripheral (some 1)) {}, .event (.connected a .peripheral (some 3)) {}, .take, .drop 0]

theorem run_single_slot_succession : ∃ handed s, SingleSlot { service := ⟨0⟩, characteristic := ⟨1⟩ } handed s ∧
    handed.contains 1 = true ∧ s.releases.map Released.generation = [0] ∧
    s.calls = [.disconnectPeer ⟨"b"⟩ (some 2)] := by
  obtain ⟨handed, s, run, kept⟩ := Machine.Run.exists_of_follow (machine { service := ⟨0⟩, characteristic := ⟨1⟩ })
    (fun _ _ _ => True) handOut [] (fun handed s => handed.contains 1 &&
      decide (s.releases.map Released.generation = [0]) && decide (s.calls = [.disconnectPeer ⟨"b"⟩ (some 2)]))
    ⟨rfl, rfl⟩ succession (by decide +kernel)
  simp only [Bool.and_eq_true, decide_eq_true_eq] at kept
  obtain ⟨⟨second, late⟩, calls⟩ := kept
  exact ⟨handed, s, run_single_slot run, second, late, calls⟩

end Server

end BleGatt
