import Bitchat.AnnouncedPeers
import Bitchat.NodeActivity

/-!
# Who is known, and by what name

Seen from a node, another one is a name or nothing. It gets the name where it comes into the
peer list, and keeps it until something removes it from the list, whatever name it announces
meanwhile.
-/

namespace Bitchat

open Effect StringHelper MessageService PacketSerializer

/-- What a step says about a peer. -/
inductive PeerNews where
  | introduced (nickname : Bytes)
  | dismissed
  | nothing
  deriving DecidableEq

/-- Of two introductions the first one counts. -/
def PeerNews.apply : PeerNews → Option Bytes → Option Bytes
  | .introduced nickname, known => known.or (some nickname)
  | .dismissed, _ => none
  | .nothing, known => known

theorem PeerNews.apply_eq_some_iff (news : PeerNews) (known : Option Bytes) (nickname : Bytes) :
    news.apply known = some nickname ↔ news ≠ .dismissed ∧
      (known = some nickname ∨ known = none ∧ news = .introduced nickname) := by
  cases news with
  | introduced name => cases known <;> simp [apply]
  | dismissed => simp [apply]
  | nothing => simp [apply]

def knownAs (node : Node) (peerID : Bytes) : Option Bytes :=
  (node.data.getPeerInfo peerID).map BitchatPeer.nickname

theorem knownAs_addPeer (node : Node) (peer : BitchatPeer) (peerID : Bytes) :
    knownAs { node with data := node.data.addPeer peer } peerID =
      if peer.peerID = peerID then some peer.nickname else knownAs node peerID := by
  rw [knownAs, BitchatData.getPeerInfo_addPeer]
  split
  · rfl
  · rfl

theorem knownAs_removePeer (node : Node) (removed peerID : Bytes) :
    knownAs { node with data := node.data.removePeer removed } peerID =
      if removed = peerID then none else knownAs node peerID := by
  split_ifs with heq
  · rw [heq, knownAs, BitchatData.getPeerInfo_eq]
    exact congrArg _ (KeyedList.find_remove_self peerID node.data.peers)
  · rw [knownAs, BitchatData.getPeerInfo_removePeer _ heq, knownAs]

/-- What a packet says about its sender, once it is dispatched. A hello is answered before its
sender becomes a peer, which fails at a node that does not know its own ID. An ack that is too
short for its flag dismisses the sender if the flag happens to hold `true`. -/
def packetNews (node : Node) (packet : BitchatPacket) : PeerNews :=
  if packet.type = pktTypeAnnounce then .introduced (parseAnnouncePayload packet.payload)
  else if packet.type = pktTypeVersionHello then
    match parseVersionHelloPayload packet.payload, stringToVector node.data.peerID with
    | .ok hello, .ok _ =>
        if ProtocolHelper.negotiateVersion hello.supportedVersions
            ProtocolHelper.getSupportedVersions > 0 then .introduced hello.clientVersion
        else .nothing
    | _, _ => .nothing
  else if packet.type = pktTypeLeave then .dismissed
  else if packet.type = pktTypeVersionAck then
    if packet.payload = [] then .nothing
    else
      match parseVersionAckPayload packet.payload with
      | .ok ack => if flagOf node ack.rejected then .dismissed else .nothing
      | .error _ => .nothing
  else .nothing

def news (peerID : Bytes) (node : Node) : NodeAction → PeerNews
  | .receive packet _ =>
      if Passes node packet ∧ toHex packet.senderID = peerID then packetNews node packet
      else .nothing
  | .call (.peerDisconnected peripheralID) =>
      match node.data.peers.find? fun peer => peer.peripheralID = peripheralID with
      | some peer => if peer.peerID = peerID then .dismissed else .nothing
      | none => .nothing
  | .cleanupStalePeers time =>
      match node.data.getPeerInfo peerID with
      | some peer => if peer.isStale peerTimeoutSeconds time then .dismissed else .nothing
      | none => .nothing
  | _ => .nothing

def KeepsName (peerID : Bytes) (node node' : Node) : Prop :=
  knownAs node' peerID = knownAs node peerID

variable {node : Node} {packet : BitchatPacket} {peerID : Bytes}

instance : Std.Refl (KeepsName peerID) := ⟨fun _ => rfl⟩

instance : IsTrans Node (KeepsName peerID) := ⟨fun _ _ _ h k => k.trans h⟩

theorem noiseSteps_keepsName (peerID : Bytes) : NoiseSteps (KeepsName peerID) where
  clock _ := rfl
  message _ _ _ := rfl
  history _ _ _ := rfl
  sent _ _ _ := rfl
  noise _ _ := rfl

theorem sendSteps_keepsName (peerID : Bytes) : SendSteps (KeepsName peerID) where
  clock _ := rfl
  event _ _ _ := rfl
  channel _ _ := rfl
  history _ _ _ := rfl
  encrypted _ _ _ _ _ := rfl

theorem handlerSteps_keepsName {sender : Bytes} (h : sender ≠ peerID) :
    HandlerSteps sender (KeepsName peerID) where
  clock _ := rfl
  unassigned _ := rfl
  event _ _ _ := rfl
  ack _ _ _ := rfl
  storePeer node peer hpeer := (knownAs_addPeer node peer peerID).trans (if_neg (hpeer ▸ h))
  removePeer node := (knownAs_removePeer node sender peerID).trans (if_neg h)
  history _ _ _ := rfl
  sent _ _ _ := rfl
  noise _ _ := rfl

theorem keepsName_marked (peerID : Bytes) (node : Node) (packet : BitchatPacket) :
    KeepsName peerID node (marked node packet) := by
  rw [KeepsName, marked, BitchatData.markMessageProcessed_eq]
  rfl

theorem keepsName_sendVersionAck (ack : VersionAck) (recipient : Bytes) :
    Respects (KeepsName peerID) (sendVersionAck ack recipient) :=
  respects_sendVersionAck (noiseSteps_keepsName peerID).clock
    (fun _ _ _ => rfl) ack recipient

theorem knownAs_acceptVersion (node : Node) (ack : VersionAck) (sender nickname : Bytes) :
    knownAs (exec (do
        sendVersionAck ack (toHex sender)
        let node ← get
        if (node.data.getPeerInfo (toHex sender)).isSome then pure ()
        else
          let time ← currentTime
          modifyData fun data => data.addPeer (BitchatPeer.make (toHex sender) nickname time) :
        ServiceM Unit) node) (toHex sender) =
      match stringToVector node.data.peerID with
      | .ok _ => (knownAs node (toHex sender)).or (some nickname)
      | .error _ => knownAs node (toHex sender) := by
  have hkeeps : KeepsName (toHex sender) node _ := keepsName_sendVersionAck ack (toHex sender) node
  rw [exec] at hkeeps ⊢
  cases hown : stringToVector node.data.peerID with
  | error e =>
      have hunknowing : ¬ KnowsItself node := by
        rintro ⟨ownID, hok⟩
        cases hown.symm.trans hok
      obtain ⟨e', hout⟩ := outcome_sendVersionAck_error hunknowing ack (toHex sender)
      rw [hout] at hkeeps
      rw [outcome_bind_error hout]
      exact hkeeps
  | ok ownID =>
      obtain ⟨u, node', hout, -⟩ := succeeds_sendVersionAck ack sender node ⟨ownID, hown⟩
      rw [hout] at hkeeps
      rw [outcome_bind_ok hout, outcome_bind_ok (outcome_get node'), ← hkeeps]
      cases hpeer : node'.data.getPeerInfo (toHex sender) with
      | some peer =>
          have hknown : knownAs node' (toHex sender) = some peer.nickname := by
            rw [knownAs, hpeer]
            rfl
          rw [hknown]
          exact hknown
      | none =>
          have hunknown : knownAs node' (toHex sender) = none := by
            rw [knownAs, hpeer]
            rfl
          rw [hunknown, if_neg (by simp), outcome_bind_ok (outcome_currentTime node')]
          exact (knownAs_addPeer _ (BitchatPeer.make (toHex sender) nickname _) _).trans (if_pos rfl)

theorem knownAs_processVersionHelloPacket (htype : packet.type = pktTypeVersionHello) :
    knownAs ((processVersionHelloPacket packet).exec node) (toHex packet.senderID) =
      (packetNews node packet).apply (knownAs node (toHex packet.senderID)) := by
  obtain ⟨hello, hparse⟩ := parseVersionHelloPayload_ok packet.payload
  rw [packetNews, if_neg (by rw [htype]; decide), if_pos htype, hparse,
    processVersionHelloPacket_eq]
  by_cases hempty : packet.payload = []
  · rw [hempty] at hparse ⊢
    cases hparse
    cases stringToVector node.data.peerID <;> rfl
  · rw [exec_handleVersionHello hempty hparse, exec, answerVersionHello]
    by_cases hagreed : ProtocolHelper.negotiateVersion hello.supportedVersions
        ProtocolHelper.getSupportedVersions > 0
    · rw [if_pos hagreed]
      refine (knownAs_acceptVersion node _ packet.senderID hello.clientVersion).trans ?_
      cases stringToVector node.data.peerID with
      | ok ownID =>
          dsimp only
          rw [if_pos hagreed, PeerNews.apply]
      | error e => rfl
    · rw [if_neg hagreed]
      refine (keepsName_sendVersionAck _ _ node).trans ?_
      cases stringToVector node.data.peerID with
      | ok ownID =>
          dsimp only
          rw [if_neg hagreed, PeerNews.apply]
      | error e => rfl

theorem knownAs_processVersionAckPacket (htype : packet.type = pktTypeVersionAck) :
    knownAs ((processVersionAckPacket packet).exec node) (toHex packet.senderID) =
      (packetNews node packet).apply (knownAs node (toHex packet.senderID)) := by
  rw [packetNews, if_neg (by rw [htype]; decide), if_neg (by rw [htype]; decide),
    if_neg (by rw [htype]; decide), if_pos htype, processVersionAckPacket_eq]
  split_ifs with hempty
  · rw [hempty]
    rfl
  · obtain ⟨ack, hparse⟩ := parseVersionAckPayloadInto_ok {} packet.payload
    obtain ⟨reads, hexec⟩ := exec_handleVersionAck hempty hparse node (toHex packet.senderID)
    rw [hexec, exec, outcome_answerVersionAck, parseVersionAckPayload, hparse]
    dsimp only
    cases flagOf node ack.rejected with
    | false => rfl
    | true => exact (knownAs_removePeer node _ _).trans (if_pos rfl)

theorem keepsName_processChannelAnnouncePacket :
    Respects (KeepsName peerID) (processChannelAnnouncePacket packet) := by
  refine (respects_ofParser _).bind fun _ => Respects.bind ?_ fun _ => respects_assigned _ _
  refine respects_updatePeerChannel_of (fun _ => rfl) fun node peer channel hpeer _ => ?_
  refine (knownAs_addPeer node { peer with channel := channel } peerID).trans ?_
  split_ifs with hid
  · have hsender := BitchatData.peerID_of_getPeerInfo hpeer
    rw [knownAs, ← hid, hsender, hpeer]
    rfl
  · rfl

theorem knownAs_processAnnouncePacket (peripheralID : Bytes) :
    knownAs ((processAnnouncePacket packet peripheralID).exec node) (toHex packet.senderID) =
      (knownAs node (toHex packet.senderID)).or (some packet.payload) := by
  obtain ⟨time, clockReads, trace, hexec⟩ :=
    exists_exec_processAnnouncePacket node packet peripheralID
  have hid := peerID_announcedPeer node.data (toHex packet.senderID) packet.payload peripheralID
    time
  rw [hexec]
  refine (knownAs_addPeer node (announcedPeer _ _ _ _ time) _).trans ?_
  rw [if_pos hid, knownAs]
  cases node.data.getPeerInfo (toHex packet.senderID) with
  | none => rfl
  | some peer => rfl

theorem knownAs_processLeavePacket :
    knownAs ((processLeavePacket packet).exec node) (toHex packet.senderID) = none := by
  rw [exec, processLeavePacket, outcome_bind_ok (outcome_get node)]
  cases hpeer : node.data.getPeerInfo (toHex packet.senderID) with
  | none =>
      change knownAs node _ = none
      rw [knownAs, hpeer]
      rfl
  | some peer =>
      dsimp only
      rw [outcome_bind_ok (outcome_modifyData _ _), outcome_notify]
      exact (knownAs_removePeer node _ _).trans (if_pos rfl)

theorem knownAs_dispatch (node : Node) (packet : BitchatPacket) (peripheralID : Bytes) :
    knownAs ((dispatch packet peripheralID).exec node) (toHex packet.senderID) =
      (packetNews node packet).apply (knownAs node (toHex packet.senderID)) := by
  by_cases hannounce : packet.type = pktTypeAnnounce
  · rw [dispatch_announce hannounce, packetNews, if_pos hannounce]
    exact knownAs_processAnnouncePacket peripheralID
  by_cases hhello : packet.type = pktTypeVersionHello
  · rw [dispatch_versionHello hhello]
    exact knownAs_processVersionHelloPacket hhello
  by_cases hleave : packet.type = pktTypeLeave
  · rw [dispatch_leave hleave, packetNews, if_neg hannounce, if_neg hhello, if_pos hleave]
    exact knownAs_processLeavePacket
  by_cases hack : packet.type = pktTypeVersionAck
  · rw [dispatch_versionAck hack]
    exact knownAs_processVersionAckPacket hack
  rw [packetNews, if_neg hannounce, if_neg hhello, if_neg hleave, if_neg hack]
  have hnoise := noiseSteps_keepsName (toHex packet.senderID)
  apply dispatch_induction (P := fun m => KeepsName (toHex packet.senderID) node (m.exec node))
  · exact fun htype => (hhello htype).elim
  · exact fun htype => (hack htype).elim
  · exact fun _ => respects_processMessagePacket hnoise.toMessageSteps packet node
  · exact fun _ => keepsName_processChannelAnnouncePacket node
  · exact fun htype => (hannounce htype).elim
  · exact fun htype => (hleave htype).elim
  · exact fun _ => respects_processNoiseHandshakeInitPacket hnoise node
  · exact fun _ => respects_processNoiseHandshakeRespPacket hnoise node
  · exact fun _ => respects_processNoiseEncryptedPacket hnoise node
  · exact fun _ => respects_processNoiseIdentityAnnouncePacket hnoise node
  · rfl

theorem packetNews_marked (node : Node) (packet : BitchatPacket) :
    packetNews (marked node packet) packet = packetNews node packet := by
  rw [packetNews, packetNews, peerID_marked]
  rfl

theorem keepsDistinct_next (action : NodeAction) (h : (peerIDs node).Nodup) :
    (peerIDs (nodeActivity.next node action)).Nodup := by
  have hsend : LocalSteps KeepsWatched :=
    { clock := fun _ => ⟨rfl, id⟩
      event := fun _ _ _ => ⟨rfl, id⟩
      channel := fun _ _ => ⟨rfl, id⟩
      history := fun _ _ _ => ⟨rfl, id⟩
      encrypted := fun _ _ _ _ _ => ⟨rfl, id⟩
      removePeer := fun _ _ => ⟨rfl, fun hdistinct => KeyedList.nodup_filter hdistinct _⟩ }
  have hkeeps : KeepsWatched node (nodeActivity.next node action) := by
    cases action with
    | receive packet peripheralID =>
        exact NetworkService.respects_receive (fun _ _ _ => ⟨rfl, id⟩)
          (respects_processPacket (handlerSteps_keepsWatched _)
            (fun node => keepsWatched_marked node packet) peripheralID) node
    | call localCall => exact hsend.perform localCall node
    | cleanupStalePeers time => exact ⟨rfl, fun hdistinct => KeyedList.nodup_filter hdistinct _⟩
    | _ => exact hsend.performAction (fun _ _ => ⟨rfl, id⟩) (fun _ _ => ⟨rfl, id⟩) rfl node
  exact hkeeps.2 h

theorem knownAs_next (action : NodeAction) (hdistinct : (peerIDs node).Nodup) (peerID : Bytes) :
    knownAs (nodeActivity.next node action) peerID =
      (news peerID node action).apply (knownAs node peerID) := by
  have hquiet : ∀ {action : NodeAction}, action.keepsPeers = true →
      KeepsName peerID node (action.perform.exec node) := fun haction =>
    (sendSteps_keepsName peerID).performAction (fun _ _ => rfl) (fun _ _ => rfl) haction node
  cases action with
  | receive packet peripheralID =>
      have hrelay : KeepsName peerID ((processPacket packet peripheralID).exec node)
          (nodeActivity.next node (.receive packet peripheralID)) :=
        NetworkService.rel_receive (fun _ _ _ => rfl) packet peripheralID node
      rw [hrelay, news]
      split_ifs with hpass
      · obtain ⟨hpass, rfl⟩ := hpass
        rw [exec, outcome_processPacket_of_passes hpass, ← exec, knownAs_dispatch,
          keepsName_marked _ node packet, packetNews_marked]
      · by_cases hsender : toHex packet.senderID = peerID
        · rw [exec, outcome_processPacket_of_not_passes fun h => hpass ⟨h, hsender⟩]
          rfl
        · exact respects_processPacket (handlerSteps_keepsName hsender)
            (fun node => keepsName_marked peerID node packet) peripheralID node
  | call localCall =>
      cases localCall with
      | peerDisconnected peripheralID =>
          change knownAs ((peerDisconnected peripheralID).exec node) peerID = _
          rw [news, exec]
          cases hpeer : node.data.peers.find? fun peer => peer.peripheralID = peripheralID with
          | none =>
              rw [outcome_peerDisconnected_none hpeer]
              rfl
          | some peer =>
              rw [outcome_peerDisconnected_some hpeer]
              refine (knownAs_removePeer node peer.peerID peerID).trans ?_
              dsimp only
              split_ifs
              · rfl
              · rfl
      | _ => exact hquiet rfl
  | cleanupStalePeers time =>
      change ((node.data.cleanupStalePeers time).getPeerInfo peerID).map _ = _
      rw [news, knownAs, BitchatData.getPeerInfo_eq, BitchatData.cleanupStalePeers,
        KeyedList.find_filter hdistinct, ← BitchatData.getPeerInfo_eq]
      cases node.data.getPeerInfo peerID with
      | none => rfl
      | some peer => cases hstale : peer.isStale peerTimeoutSeconds time <;> simp [hstale, PeerNews.apply]
  | _ => exact hquiet rfl

/-- Behind a run a peer is known by a name exactly if it was so in the beginning, or was
introduced by that name while it was not known, and has not been dismissed since. -/
theorem known_run (hdistinct : (peerIDs node).Nodup) (actions : List NodeAction)
    (peerID nickname : Bytes) :
    knownAs (nodeActivity.run node actions) peerID = some nickname ↔
      knownAs node peerID = some nickname ∧
          nodeActivity.AllSteps (fun node action => news peerID node action ≠ .dismissed)
            node actions ∨
        nodeActivity.SinceStep (fun node action => knownAs node peerID = none ∧
            news peerID node action = .introduced nickname)
          (fun node action => news peerID node action ≠ .dismissed) node actions := by
  have hstep : ∀ node action, nodeActivity.Enabled node action → (peerIDs node).Nodup →
      (knownAs (nodeActivity.next node action) peerID = some nickname ↔
        news peerID node action ≠ .dismissed ∧ (knownAs node peerID = some nickname ∨
          knownAs node peerID = none ∧ news peerID node action = .introduced nickname)) := by
    intro node action _ h
    rw [knownAs_next action h]
    exact PeerNews.apply_eq_some_iff _ _ _
  exact TransitionSystem.run_iff_sinceStep (P := fun node => knownAs node peerID = some nickname)
    hstep (fun _ action _ h => keepsDistinct_next action h) (execution_nodeActivity node actions)
    hdistinct

/-- A peer that said hello before it announced itself goes by the version of its client. -/
theorem known_run_firstHello :
    knownAs (nodeActivity.run listener [.receive firstHello [], .receive laterAnnounce []])
      (toHex [1, 2, 3, 4, 5, 6, 7, 8]) = some ProtocolHelper.clientVersion := by
  have hdistinct : (peerIDs listener).Nodup := List.nodup_nil
  refine (known_run hdistinct _ _ _).mpr (.inr ⟨[], .receive firstHello [],
    [.receive laterAnnounce []], rfl, ⟨rfl, by decide +kernel⟩, ?_⟩)
  exact ⟨by decide +kernel, by decide +kernel, trivial⟩

end Bitchat
