import Bitchat.HandlerFaults
import Bitchat.TransitionSystem

/-!
# Notifications about peers

`peerJoinedCallback` and `peerLeftCallback` should be called where a peer enters the peer
list and where it leaves it. The handlers of ANNOUNCE and LEAVE and the disconnection of a
peripheral do so. Three other steps change the list without a call: an agreed VERSION_HELLO
of an unknown sender, a rejecting VERSION_ACK of a known one, and the cleanup of stale peers.
-/

namespace Bitchat.MessageService

open Effect StringHelper PacketSerializer

def peerIDs (node : Node) : List Bytes := node.data.peers.map BitchatPeer.peerID

def IsJoinOf (peerID : Bytes) : Event → Bool
  | .peerJoined joined _ => joined = peerID
  | _ => false

def IsLeaveOf (peerID : Bytes) : Event → Bool
  | .peerLeft left _ => left = peerID
  | _ => false

/-- How often a peer was reported to have joined, and to have left. -/
def reports (peerID : Bytes) (events : List Event) : ℕ × ℕ :=
  (events.countP (IsJoinOf peerID), events.countP (IsLeaveOf peerID))

/-- The reports that a change of the list calls for. -/
def changes (peerID : Bytes) (before after : List Bytes) : ℕ × ℕ :=
  (if peerID ∉ before ∧ peerID ∈ after then 1 else 0,
    if peerID ∈ before ∧ peerID ∉ after then 1 else 0)

/-- Every peer that entered or left the list was reported once, and no other. -/
def PeersReported (node node' : Node) : Prop :=
  ∀ peerID, reports peerID node'.trace =
    reports peerID node.trace + changes peerID (peerIDs node) (peerIDs node')

structure PeersQuiet (node node' : Node) : Prop where
  peers : ∀ peerID, peerID ∈ peerIDs node' ↔ peerID ∈ peerIDs node
  reports : ∀ peerID, reports peerID node'.trace = reports peerID node.trace

instance : Std.Refl PeersQuiet := ⟨fun _ => ⟨fun _ => Iff.rfl, fun _ => rfl⟩⟩

instance : IsTrans Node PeersQuiet :=
  ⟨fun _ _ _ h k => ⟨fun peerID => (k.peers peerID).trans (h.peers peerID),
    fun peerID => (k.reports peerID).trans (h.reports peerID)⟩⟩

theorem reports_append (peerID : Bytes) (events events' : List Event) :
    reports peerID (events ++ events') = reports peerID events + reports peerID events' := by
  rw [reports, List.countP_append, List.countP_append]
  rfl

theorem reports_concat {event : Event} (hjoin : ∀ peerID, IsJoinOf peerID event = false)
    (hleave : ∀ peerID, IsLeaveOf peerID event = false) (peerID : Bytes) (events : List Event) :
    reports peerID (events ++ [event]) = reports peerID events := by
  have hnone : reports peerID [event] = 0 := by
    rw [reports, List.countP_singleton, List.countP_singleton, hjoin, hleave]
    rfl
  rw [reports_append, hnone, add_zero]

theorem changes_eq_zero_iff {peerID : Bytes} {before after : List Bytes} :
    changes peerID before after = 0 ↔ (peerID ∈ after ↔ peerID ∈ before) := by
  by_cases hbefore : peerID ∈ before <;> by_cases hafter : peerID ∈ after <;>
    simp [changes, hbefore, hafter]

theorem changes_congr {peerID : Bytes} {before before' after after' : List Bytes}
    (hbefore : peerID ∈ before' ↔ peerID ∈ before) (hafter : peerID ∈ after' ↔ peerID ∈ after) :
    changes peerID before' after' = changes peerID before after := by
  simp only [changes, hbefore, hafter]

theorem peersReported_iff_of_silent {node node' : Node}
    (h : ∀ peerID, reports peerID node'.trace = reports peerID node.trace) :
    PeersReported node node' ↔ ∀ peerID, peerID ∈ peerIDs node' ↔ peerID ∈ peerIDs node := by
  refine forall_congr' fun peerID => ?_
  rw [h, left_eq_add, changes_eq_zero_iff]

theorem PeersQuiet.reported {node node' : Node} (h : PeersQuiet node node') :
    PeersReported node node' := (peersReported_iff_of_silent h.reports).mpr h.peers

theorem PeersQuiet.reported_iff {node node' node'' : Node} (h : PeersQuiet node node') :
    PeersReported node' node'' ↔ PeersReported node node'' := by
  refine forall_congr' fun peerID => ?_
  rw [h.reports, changes_congr (h.peers peerID) Iff.rfl]

theorem PeersReported.trans_quiet {node node' node'' : Node} (h : PeersReported node node')
    (hquiet : PeersQuiet node' node'') : PeersReported node node'' := by
  intro peerID
  rw [hquiet.reports, h, changes_congr Iff.rfl (hquiet.peers peerID)]

theorem PeersQuiet.of_eq {node node' : Node} (hpeers : node'.data.peers = node.data.peers)
    (htrace : node'.trace = node.trace) : PeersQuiet node node' := by
  refine ⟨fun peerID => ?_, fun peerID => by rw [htrace]⟩
  rw [peerIDs, hpeers, peerIDs]

theorem peersQuiet_of_event (node : Node) {event : Event}
    (hjoin : ∀ peerID, IsJoinOf peerID event = false)
    (hleave : ∀ peerID, IsLeaveOf peerID event = false) :
    PeersQuiet node { node with trace := node.trace ++ [event] } :=
  ⟨fun _ => Iff.rfl, fun peerID => reports_concat hjoin hleave peerID node.trace⟩

theorem peersQuiet_notification (node : Node) (registered : Bool) {event : Event}
    (hjoin : ∀ peerID, IsJoinOf peerID event = false)
    (hleave : ∀ peerID, IsLeaveOf peerID event = false) :
    PeersQuiet node { node with trace := node.trace ++ notification registered event } := by
  rw [notification]
  split
  · exact peersQuiet_of_event node hjoin hleave
  · exact .of_eq rfl (List.append_nil _)

theorem noiseSteps_peersQuiet : NoiseSteps PeersQuiet where
  clock node := .of_eq rfl rfl
  message node event hevent := by
    cases event with
    | peerJoined peerID nickname => cases hevent
    | peerLeft peerID nickname => cases hevent
    | _ => exact peersQuiet_of_event node (fun _ => rfl) fun _ => rfl
  history node _ _ := .of_eq rfl rfl
  sent node packet _ := peersQuiet_of_event node (fun _ => rfl) fun _ => rfl
  noise node _ := .of_eq rfl rfl

theorem peersQuiet_marked (node : Node) (packet : BitchatPacket) :
    PeersQuiet node (marked node packet) := by
  have hpeers : peerIDs (marked node packet) = peerIDs node := by
    rw [peerIDs, marked, BitchatData.markMessageProcessed_eq]
    rfl
  refine ⟨fun peerID => by rw [hpeers], fun peerID => ?_⟩
  exact reports_concat (fun _ => rfl) (fun _ => rfl) peerID node.trace

theorem peersQuiet_sendVersionAck (ack : VersionAck) (recipient : Bytes) :
    Respects PeersQuiet (sendVersionAck ack recipient) :=
  respects_sendVersionAck noiseSteps_peersQuiet.clock
    (fun node _ _ => peersQuiet_of_event node (fun _ => rfl) fun _ => rfl) ack recipient

theorem mem_peerIDs_iff {node : Node} {peerID : Bytes} :
    peerID ∈ peerIDs node ↔ (node.data.getPeerInfo peerID).isSome = true := by
  rw [BitchatData.getPeerInfo_eq, KeyedList.isSome_find_iff]
  rfl

theorem mem_map_peerID_storePeer {peers : List BitchatPeer} {peer : BitchatPeer} {peerID : Bytes} :
    peerID ∈ (BitchatData.storePeer peer peers).map BitchatPeer.peerID ↔
      peerID = peer.peerID ∨ peerID ∈ peers.map BitchatPeer.peerID := by
  rw [BitchatData.map_peerID_storePeer]
  split_ifs with hknown
  · exact (or_iff_right_of_imp fun h => h ▸ hknown).symm
  · rw [List.mem_append, List.mem_singleton, or_comm]

theorem mem_map_peerID_removePeer {data : BitchatData} {removed peerID : Bytes} :
    peerID ∈ (data.removePeer removed).peers.map BitchatPeer.peerID ↔
      peerID ≠ removed ∧ peerID ∈ data.peers.map BitchatPeer.peerID := by
  simp only [BitchatData.removePeer, List.mem_map, List.mem_filter, decide_eq_true_eq]
  constructor
  · rintro ⟨peer, ⟨hpeer, hne⟩, rfl⟩
    exact ⟨hne, peer, hpeer, rfl⟩
  · rintro ⟨hne, peer, hpeer, rfl⟩
    exact ⟨peer, ⟨hpeer, hne⟩, rfl⟩

theorem peers_removePeer_iff {node : Node} {removed : Bytes} :
    (node.data.removePeer removed).peers = node.data.peers ↔ removed ∉ peerIDs node := by
  rw [BitchatData.removePeer, List.filter_eq_self]
  simp [peerIDs, List.mem_map]

theorem peersQuiet_storePeer {node : Node} {peer : BitchatPeer}
    (h : peer.peerID ∈ peerIDs node) :
    PeersQuiet node { node with data := node.data.addPeer peer } := by
  refine ⟨fun peerID => mem_map_peerID_storePeer.trans ?_, fun _ => rfl⟩
  exact or_iff_right_of_imp fun hid => hid ▸ h

theorem peersReported_storePeer {node : Node} {peer : BitchatPeer} (nickname : Bytes)
    (h : peer.peerID ∉ peerIDs node) :
    PeersReported node { node with
      data := node.data.addPeer peer
      trace := node.trace ++ [.peerJoined peer.peerID nickname] } := by
  intro peerID
  change reports peerID (node.trace ++ [.peerJoined peer.peerID nickname]) =
    reports peerID node.trace + changes peerID (peerIDs node)
      ((BitchatData.storePeer peer node.data.peers).map BitchatPeer.peerID)
  rw [reports_append, add_right_inj]
  by_cases hid : peerID = peer.peerID
  · subst hid
    have hafter : peer.peerID ∈ (BitchatData.storePeer peer node.data.peers).map
        BitchatPeer.peerID := mem_map_peerID_storePeer.mpr (.inl rfl)
    simp [reports, changes, IsJoinOf, IsLeaveOf, h, hafter]
  · have hsame : changes peerID (peerIDs node)
        ((BitchatData.storePeer peer node.data.peers).map BitchatPeer.peerID) = 0 :=
      changes_eq_zero_iff.mpr (mem_map_peerID_storePeer.trans (or_iff_right hid))
    rw [hsame]
    simp [reports, IsJoinOf, IsLeaveOf, Ne.symm hid]

theorem peersReported_removePeer {node : Node} {removed : Bytes} (nickname : Bytes)
    (h : removed ∈ peerIDs node) :
    PeersReported node { node with
      data := node.data.removePeer removed
      trace := node.trace ++ [.peerLeft removed nickname] } := by
  intro peerID
  change reports peerID (node.trace ++ [.peerLeft removed nickname]) =
    reports peerID node.trace + changes peerID (peerIDs node)
      ((node.data.removePeer removed).peers.map BitchatPeer.peerID)
  rw [reports_append, add_right_inj]
  by_cases hid : peerID = removed
  · subst hid
    have hafter : peerID ∉ (node.data.removePeer peerID).peers.map BitchatPeer.peerID :=
      fun hmem => (mem_map_peerID_removePeer.mp hmem).1 rfl
    simp [reports, changes, IsJoinOf, IsLeaveOf, h, hafter]
  · have hsame : changes peerID (peerIDs node)
        ((node.data.removePeer removed).peers.map BitchatPeer.peerID) = 0 :=
      changes_eq_zero_iff.mpr (mem_map_peerID_removePeer.trans (and_iff_right hid))
    rw [hsame]
    simp [reports, IsJoinOf, IsLeaveOf, Ne.symm hid]

theorem peersReported_of_removed_iff {node node' : Node} {removed : Bytes}
    (hpeers : node'.data.peers = (node.data.removePeer removed).peers)
    (hsilent : ∀ peerID, reports peerID node'.trace = reports peerID node.trace) :
    PeersReported node node' ↔ removed ∉ peerIDs node := by
  rw [peersReported_iff_of_silent hsilent, peerIDs, hpeers]
  constructor
  · exact fun h hmem => (mem_map_peerID_removePeer.mp ((h removed).mpr hmem)).1 rfl
  · exact fun h peerID => mem_map_peerID_removePeer.trans
      (and_iff_right_of_imp fun hmem hid => h (hid ▸ hmem))

section Packet

variable {node : Node} {packet : BitchatPacket}

theorem peersReported_processAnnouncePacket (hjoined : node.callbacks.peerJoined = true)
    (peripheralID : Bytes) :
    PeersReported node ((processAnnouncePacket packet peripheralID).exec node) := by
  rw [exec, processAnnouncePacket, outcome_bind_ok (outcome_get node),
    outcome_bind_ok (outcome_currentTime node)]
  cases hpeer : node.data.getPeerInfo (toHex packet.senderID) with
  | some existingPeer =>
      have hid := BitchatData.peerID_of_getPeerInfo hpeer
      have hknown : existingPeer.peerID ∈ peerIDs node := by
        rw [mem_peerIDs_iff, hid, hpeer]
        rfl
      have hread : PeersQuiet node { node with clockReads := node.clockReads + 1 } := .of_eq rfl rfl
      refine hread.reported_iff.mp (peersQuiet_storePeer ?_).reported
      split
      · exact hknown
      · exact hknown
  | none =>
      have hunknown : toHex packet.senderID ∉ peerIDs node := by
        rw [mem_peerIDs_iff, hpeer]
        exact Bool.false_ne_true
      have hread : PeersQuiet node { node with clockReads := node.clockReads + 2 } := .of_eq rfl rfl
      dsimp only
      rw [outcome_bind_ok (outcome_currentTime _), outcome_bind_ok (outcome_modifyData _ _),
        outcome_notify, notification, if_pos hjoined]
      exact hread.reported_iff.mp (peersReported_storePeer _ hunknown)

theorem peersReported_processLeavePacket (hleft : node.callbacks.peerLeft = true) :
    PeersReported node ((processLeavePacket packet).exec node) := by
  rw [exec, processLeavePacket, outcome_bind_ok (outcome_get node)]
  cases hpeer : node.data.getPeerInfo (toHex packet.senderID) with
  | none => exact (refl_of PeersQuiet node).reported
  | some peerInfo =>
      have hknown : toHex packet.senderID ∈ peerIDs node := by
        rw [mem_peerIDs_iff, hpeer]
        rfl
      dsimp only
      rw [outcome_bind_ok (outcome_modifyData _ _), outcome_notify, notification, if_pos hleft]
      exact peersReported_removePeer _ hknown

theorem peersQuiet_updatePeerChannel (peerID : Bytes) (announce : ChannelAnnounce) :
    Respects PeersQuiet (updatePeerChannel peerID announce) := by
  refine respects_updatePeerChannel_of (fun _ => .of_eq rfl rfl)
    fun node peerInfo channel hpeer _ => ?_
  have hknown : peerInfo.peerID ∈ peerIDs node := by
    rw [mem_peerIDs_iff, BitchatData.peerID_of_getPeerInfo hpeer, hpeer]
    rfl
  exact peersQuiet_storePeer hknown

theorem peersQuiet_processChannelAnnouncePacket :
    Respects PeersQuiet (processChannelAnnouncePacket packet) :=
  (respects_ofParser _).bind fun _ => (peersQuiet_updatePeerChannel _ _).bind fun _ =>
    respects_assigned _ _

variable (node packet)

/-- The sender's versions are accepted, and it becomes a peer without a report. -/
def AddedSilently : Prop :=
  packet.type = pktTypeVersionHello ∧ toHex packet.senderID ∉ peerIDs node ∧ KnowsItself node ∧
    ∃ hello, parseVersionHelloPayload packet.payload = .ok hello ∧
      ProtocolHelper.negotiateVersion hello.supportedVersions
        ProtocolHelper.getSupportedVersions > 0

/-- The sender rejects, and it is no peer any more. In an ack that is too short for the flag it
rejects if the variable happens to hold `true`. -/
def RemovedSilently : Prop :=
  packet.type = pktTypeVersionAck ∧ toHex packet.senderID ∈ peerIDs node ∧ packet.payload ≠ [] ∧
    ∃ ack, parseVersionAckPayload packet.payload = .ok ack ∧ flagOf node ack.rejected = true

variable {node packet}

theorem outcome_sendVersionAck_error (h : ¬ KnowsItself node) (ack : VersionAck)
    (recipient : Bytes) :
    ∃ message, (sendVersionAck ack recipient).outcome node =
      (.error (.invalidArgument message), { node with clockReads := node.clockReads + 1 }) := by
  cases hown : stringToVector node.data.peerID with
  | ok ownID => exact (h ⟨ownID, hown⟩).elim
  | error e =>
      obtain rfl := stringToVector_error hown
      refine ⟨ascii "stoi", ?_⟩
      rw [sendVersionAck, outcome_bind_error (outcome_ownPacket_error hown _ _)]

/-- An accepted sender comes into the list, if it was not there and the ack could be made. -/
theorem peersReported_acceptVersion_iff (ack : VersionAck) (sender nickname : Bytes) :
    PeersReported node (exec (do
        sendVersionAck ack (toHex sender)
        let node ← get
        if (node.data.getPeerInfo (toHex sender)).isSome then pure ()
        else
          let time ← currentTime
          modifyData fun data => data.addPeer (BitchatPeer.make (toHex sender) nickname time) :
        ServiceM Unit) node) ↔
      ¬ (toHex sender ∉ peerIDs node ∧ KnowsItself node) := by
  have hack := peersQuiet_sendVersionAck ack (toHex sender) node
  rw [exec] at hack ⊢
  by_cases hknows : KnowsItself node
  · obtain ⟨u, node', hout, -⟩ := succeeds_sendVersionAck ack sender node hknows
    rw [hout] at hack
    rw [outcome_bind_ok hout, outcome_bind_ok (outcome_get node')]
    by_cases hknown : toHex sender ∈ peerIDs node
    · have hfound := mem_peerIDs_iff.mp ((hack.peers _).mpr hknown)
      rw [if_pos hfound]
      exact iff_of_true hack.reported fun h => h.1 hknown
    · have hmissing := fun hfound => hknown ((hack.peers _).mp (mem_peerIDs_iff.mpr hfound))
      rw [if_neg hmissing, outcome_bind_ok (outcome_currentTime _)]
      refine iff_of_false (fun hreported => ?_) fun h => h ⟨hknown, hknows⟩
      have hsame := (peersReported_iff_of_silent (by exact hack.reports)).mp hreported
      exact hknown ((hsame _).mp (mem_map_peerID_storePeer.mpr (.inl rfl)))
  · obtain ⟨e, hout⟩ := outcome_sendVersionAck_error hknows ack (toHex sender)
    rw [hout] at hack
    rw [outcome_bind_error hout]
    exact iff_of_true hack.reported fun h => hknows h.2

theorem peersReported_processVersionHelloPacket_iff (htype : packet.type = pktTypeVersionHello) :
    PeersReported node ((processVersionHelloPacket packet).exec node) ↔
      ¬ AddedSilently node packet := by
  obtain ⟨hello, hparse⟩ := parseVersionHelloPayload_ok packet.payload
  have hadded : AddedSilently node packet ↔
      ProtocolHelper.negotiateVersion hello.supportedVersions
        ProtocolHelper.getSupportedVersions > 0 ∧
          toHex packet.senderID ∉ peerIDs node ∧ KnowsItself node := by
    constructor
    · rintro ⟨-, hunknown, hknows, hello', hparse', hagreed⟩
      obtain rfl := Except.ok.inj (hparse.symm.trans hparse')
      exact ⟨hagreed, hunknown, hknows⟩
    · rintro ⟨hagreed, hunknown, hknows⟩
      exact ⟨htype, hunknown, hknows, hello, hparse, hagreed⟩
  rw [hadded, processVersionHelloPacket_eq]
  by_cases hempty : packet.payload = []
  · rw [hempty] at hparse ⊢
    cases hparse
    exact iff_of_true (refl_of PeersQuiet node).reported fun h => absurd h.1 (by decide)
  · rw [exec_handleVersionHello hempty hparse, exec, answerVersionHello]
    by_cases hagreed : ProtocolHelper.negotiateVersion hello.supportedVersions
        ProtocolHelper.getSupportedVersions > 0
    · rw [if_pos hagreed, and_iff_right hagreed]
      exact peersReported_acceptVersion_iff _ packet.senderID hello.clientVersion
    · rw [if_neg hagreed]
      exact iff_of_true (peersQuiet_sendVersionAck _ _ node).reported fun h => hagreed h.1

theorem peersReported_processVersionAckPacket_iff (htype : packet.type = pktTypeVersionAck) :
    PeersReported node ((processVersionAckPacket packet).exec node) ↔
      ¬ RemovedSilently node packet := by
  rw [processVersionAckPacket_eq]
  by_cases hempty : packet.payload = []
  · rw [hempty]
    exact iff_of_true (refl_of PeersQuiet node).reported fun h => h.2.2.1 hempty
  · obtain ⟨ack, hparse⟩ := parseVersionAckPayloadInto_ok {} packet.payload
    obtain ⟨reads, hexec⟩ := exec_handleVersionAck hempty hparse node (toHex packet.senderID)
    have hremoved : RemovedSilently node packet ↔
        flagOf node ack.rejected = true ∧ toHex packet.senderID ∈ peerIDs node := by
      constructor
      · rintro ⟨-, hknown, -, ack', hparse', hrejected⟩
        obtain rfl := Except.ok.inj (hparse.symm.trans hparse')
        exact ⟨hrejected, hknown⟩
      · rintro ⟨hrejected, hknown⟩
        exact ⟨htype, hknown, hempty, ack, hparse, hrejected⟩
    rw [hremoved, hexec, exec, outcome_answerVersionAck]
    cases flagOf node ack.rejected with
    | false => exact iff_of_true (PeersQuiet.of_eq rfl rfl).reported fun h => by cases h.1
    | true =>
        rw [if_pos rfl, and_iff_right rfl]
        exact peersReported_of_removed_iff rfl
          (peersQuiet_notification node _ (fun _ => rfl) fun _ => rfl).reports

end Packet

inductive PeerAction where
  | receive (packet : BitchatPacket) (peripheralID : Bytes)
  | disconnected (peripheralID : Bytes)
  | cleanup (time : ℤ)

def peerActivity : TransitionSystem Node PeerAction where
  Enabled _ _ := True
  next node
    | .receive packet peripheralID => (processPacket packet peripheralID).exec node
    | .disconnected peripheralID => (peerDisconnected peripheralID).exec node
    | .cleanup time => { node with data := node.data.cleanupStalePeers time }

/-- The steps that change the list behind the listener's back. -/
def ChangesSilently (node : Node) : PeerAction → Prop
  | .receive packet _ =>
      Passes node packet ∧ (AddedSilently node packet ∨ RemovedSilently node packet)
  | .disconnected _ => False
  | .cleanup time => ∃ peer ∈ node.data.peers, peer.isStale peerTimeoutSeconds time = true

structure PeersWatched (node : Node) : Prop where
  joined : node.callbacks.peerJoined = true
  left : node.callbacks.peerLeft = true
  distinct : (peerIDs node).Nodup

def KeepsWatched (node node' : Node) : Prop :=
  node'.callbacks = node.callbacks ∧ ((peerIDs node).Nodup → (peerIDs node').Nodup)

instance : Std.Refl KeepsWatched := ⟨fun _ => ⟨rfl, id⟩⟩

instance : IsTrans Node KeepsWatched := ⟨fun _ _ _ h k => ⟨k.1.trans h.1, fun hd => k.2 (h.2 hd)⟩⟩

theorem KeepsWatched.watched {node node' : Node} (h : KeepsWatched node node')
    (hnode : PeersWatched node) : PeersWatched node' :=
  ⟨h.1 ▸ hnode.joined, h.1 ▸ hnode.left, h.2 hnode.distinct⟩

theorem handlerSteps_keepsWatched (peerID : Bytes) : HandlerSteps peerID KeepsWatched where
  clock _ := ⟨rfl, id⟩
  unassigned _ := ⟨rfl, id⟩
  event _ _ _ := ⟨rfl, id⟩
  ack _ _ _ := ⟨rfl, id⟩
  storePeer node peer _ := by
    refine ⟨rfl, fun hdistinct => ?_⟩
    change ((BitchatData.storePeer peer node.data.peers).map BitchatPeer.peerID).Nodup
    rw [BitchatData.storePeer_eq]
    exact KeyedList.nodup_store hdistinct
  removePeer _ := ⟨rfl, fun hdistinct => KeyedList.nodup_filter hdistinct _⟩
  history _ _ _ := ⟨rfl, id⟩
  sent _ _ _ := ⟨rfl, id⟩
  noise _ _ := ⟨rfl, id⟩

theorem keepsWatched_marked (node : Node) (packet : BitchatPacket) :
    KeepsWatched node (marked node packet) := by
  rw [marked, BitchatData.markMessageProcessed_eq]
  exact ⟨rfl, id⟩

theorem outcome_peerDisconnected_some {node : Node} {peripheralID : Bytes} {peer : BitchatPeer}
    (h : node.data.peers.find? (fun peer => peer.peripheralID = peripheralID) = some peer) :
    (peerDisconnected peripheralID).outcome node = (.ok ⟨⟩, { node with
      data := node.data.removePeer peer.peerID
      trace := node.trace ++
        notification node.callbacks.peerLeft (.peerLeft peer.peerID peer.nickname) ++
          notification node.callbacks.peerDisconnected (.peerDisconnected peripheralID) }) := by
  rw [peerDisconnected, outcome_bind_ok (outcome_get node), h]
  dsimp only
  rw [outcome_bind_ok (outcome_modifyData _ _), outcome_bind_ok (outcome_notify _ _ _),
    outcome_notify]

theorem outcome_peerDisconnected_none {node : Node} {peripheralID : Bytes}
    (h : node.data.peers.find? (fun peer => peer.peripheralID = peripheralID) = none) :
    (peerDisconnected peripheralID).outcome node = (.ok ⟨⟩, { node with
      trace := node.trace ++
        notification node.callbacks.peerDisconnected (.peerDisconnected peripheralID) }) := by
  rw [peerDisconnected, outcome_bind_ok (outcome_get node), h]
  exact outcome_notify _ _ _

theorem peersReported_peerDisconnected {node : Node} (hleft : node.callbacks.peerLeft = true)
    (peripheralID : Bytes) :
    PeersReported node ((peerDisconnected peripheralID).exec node) := by
  rw [exec]
  cases hpeer : node.data.peers.find? fun peer => peer.peripheralID = peripheralID with
  | none =>
      rw [outcome_peerDisconnected_none hpeer]
      exact (peersQuiet_notification node _ (fun _ => rfl) fun _ => rfl).reported
  | some peer =>
      have hknown : peer.peerID ∈ peerIDs node :=
        List.mem_map_of_mem (List.mem_of_find?_eq_some hpeer)
      rw [outcome_peerDisconnected_some hpeer, hleft]
      exact (peersReported_removePeer peer.nickname hknown).trans_quiet
        (peersQuiet_notification _ _ (fun _ => rfl) fun _ => rfl)

theorem peersReported_cleanup_iff {node : Node} (hdistinct : (peerIDs node).Nodup) (time : ℤ) :
    PeersReported node { node with data := node.data.cleanupStalePeers time } ↔
      ¬ ∃ peer ∈ node.data.peers, peer.isStale peerTimeoutSeconds time = true := by
  refine (peersReported_iff_of_silent (by exact fun _ => rfl)).trans ?_
  constructor
  · rintro hsame ⟨peer, hpeer, hstale⟩
    obtain ⟨kept, hkept, hid⟩ := List.mem_map.mp
      ((hsame peer.peerID).mpr (List.mem_map_of_mem hpeer))
    obtain ⟨hmem, hfresh⟩ := List.mem_filter.mp hkept
    obtain rfl := List.inj_on_of_nodup_map hdistinct hmem hpeer hid
    rw [hstale] at hfresh
    cases hfresh
  · intro hfresh peerID
    have hall : (node.data.cleanupStalePeers time).peers = node.data.peers :=
      List.filter_eq_self.mpr fun peer hpeer => by
        rw [Bool.not_eq_true', ← Bool.not_eq_true]
        exact fun hstale => hfresh ⟨peer, hpeer, hstale⟩
    rw [peerIDs, hall, peerIDs]

theorem peersReported_dispatch_iff {node : Node} (hnode : PeersWatched node)
    (packet : BitchatPacket) (peripheralID : Bytes) :
    PeersReported node ((dispatch packet peripheralID).exec node) ↔
      ¬ (AddedSilently node packet ∨ RemovedSilently node packet) := by
  by_cases hhello : packet.type = pktTypeVersionHello
  · have hack : ¬ RemovedSilently node packet := fun h => absurd (hhello.symm.trans h.1) (by decide)
    rw [dispatch_versionHello hhello, peersReported_processVersionHelloPacket_iff hhello,
      or_iff_left hack]
  by_cases hack : packet.type = pktTypeVersionAck
  · rw [dispatch_versionAck hack, peersReported_processVersionAckPacket_iff hack,
      or_iff_right fun h => hhello h.1]
  have hnoise := noiseSteps_peersQuiet
  refine iff_of_true ?_ fun h => h.elim (fun h => hhello h.1) fun h => hack h.1
  apply dispatch_induction (P := fun m => PeersReported node (m.exec node))
  · exact fun htype => (hhello htype).elim
  · exact fun htype => (hack htype).elim
  · exact fun _ => (respects_processMessagePacket hnoise.toMessageSteps packet node).reported
  · exact fun _ => (peersQuiet_processChannelAnnouncePacket node).reported
  · exact fun _ => peersReported_processAnnouncePacket hnode.joined peripheralID
  · exact fun _ => peersReported_processLeavePacket hnode.left
  · exact fun _ => (respects_processNoiseHandshakeInitPacket hnoise node).reported
  · exact fun _ => (respects_processNoiseHandshakeRespPacket hnoise node).reported
  · exact fun _ => (respects_processNoiseEncryptedPacket hnoise node).reported
  · exact fun _ => (respects_processNoiseIdentityAnnouncePacket hnoise node).reported
  · exact (refl_of PeersQuiet node).reported

theorem addedSilently_marked {node : Node} {packet : BitchatPacket} :
    AddedSilently (marked node packet) packet ↔ AddedSilently node packet := by
  rw [AddedSilently, AddedSilently, (peersQuiet_marked node packet).peers, knowsItself_marked]

theorem removedSilently_marked {node : Node} {packet : BitchatPacket} :
    RemovedSilently (marked node packet) packet ↔ RemovedSilently node packet := by
  rw [RemovedSilently, RemovedSilently, (peersQuiet_marked node packet).peers]
  rfl

theorem peersReported_next_iff {node : Node} (hnode : PeersWatched node) (action : PeerAction) :
    PeersReported node (peerActivity.next node action) ↔ ¬ ChangesSilently node action := by
  cases action with
  | receive packet peripheralID =>
      change PeersReported node ((processPacket packet peripheralID).exec node) ↔
        ¬ (Passes node packet ∧ _)
      rw [exec]
      by_cases hpass : Passes node packet
      · have hmarked : PeersWatched (marked node packet) :=
          (keepsWatched_marked node packet).watched hnode
        rw [outcome_processPacket_of_passes hpass, and_iff_right hpass,
          ← (peersQuiet_marked node packet).reported_iff, ← addedSilently_marked,
          ← removedSilently_marked]
        exact peersReported_dispatch_iff hmarked packet peripheralID
      · rw [outcome_processPacket_of_not_passes hpass]
        exact iff_of_true (refl_of PeersQuiet node).reported fun h => hpass h.1
  | disconnected peripheralID =>
      exact iff_of_true (peersReported_peerDisconnected hnode.left peripheralID) not_false
  | cleanup time => exact peersReported_cleanup_iff hnode.distinct time

theorem keepsWatched_next (node : Node) (action : PeerAction) :
    KeepsWatched node (peerActivity.next node action) := by
  cases action with
  | receive packet peripheralID =>
      exact respects_processPacket (handlerSteps_keepsWatched _)
        (fun node => keepsWatched_marked node packet) peripheralID node
  | disconnected peripheralID =>
      change KeepsWatched node ((peerDisconnected peripheralID).exec node)
      rw [exec]
      cases hpeer : node.data.peers.find? fun peer => peer.peripheralID = peripheralID with
      | none =>
          rw [outcome_peerDisconnected_none hpeer]
          exact ⟨rfl, id⟩
      | some peer =>
          rw [outcome_peerDisconnected_some hpeer]
          exact ⟨rfl, fun hdistinct => KeyedList.nodup_filter hdistinct _⟩
  | cleanup time => exact ⟨rfl, fun hdistinct => KeyedList.nodup_filter hdistinct _⟩

/-- In a run, every change of the list is reported as long as no step changes it silently. -/
theorem peers_reported_iff {node : Node} (hjoined : node.callbacks.peerJoined = true)
    (hleft : node.callbacks.peerLeft = true) (hdistinct : (peerIDs node).Nodup)
    (actions : List PeerAction) :
    peerActivity.AllSteps (fun node action => PeersReported node (peerActivity.next node action))
        node actions ↔
      peerActivity.AllSteps (fun node action => ¬ ChangesSilently node action) node actions := by
  have hstart : PeersWatched node := ⟨hjoined, hleft, hdistinct⟩
  have hexec : peerActivity.Execution node actions :=
    TransitionSystem.execution_of_enabled (fun _ _ => trivial) node actions
  exact TransitionSystem.allSteps_iff_allSteps
    (fun node action _ (h : PeersWatched node) => peersReported_next_iff h action)
    (fun node action _ h => (keepsWatched_next node action).watched h) hexec hstart

def firstHello : BitchatPacket :=
  { BitchatPacket.make pktTypeVersionHello (makeVersionHelloPayload [1] 1
      ProtocolHelper.clientVersion ProtocolHelper.platform []) 1 with
    senderID := [1, 2, 3, 4, 5, 6, 7, 8] }

theorem hello_not_reported :
    ¬ peerActivity.AllSteps
      (fun node action => PeersReported node (peerActivity.next node action)) listener
      [.receive firstHello []] := by
  intro h
  have hwatched : PeersWatched listener := ⟨rfl, rfl, List.nodup_nil⟩
  have hpasses : Passes listener firstHello := ⟨by decide +kernel, by decide⟩
  have hadded : AddedSilently listener firstHello :=
    ⟨rfl, by decide, ⟨[8, 7, 6, 5, 4, 3, 2, 1], stringToVector_toHex _⟩,
      _, rfl, by decide +kernel⟩
  exact (peersReported_next_iff hwatched _).mp h.1 ⟨hpasses, .inl hadded⟩

theorem announce_reported :
    peerActivity.AllSteps
      (fun node action => PeersReported node (peerActivity.next node action)) listener
      [.receive { firstHello with type := pktTypeAnnounce } [], .disconnected []] := by
  refine (peers_reported_iff rfl rfl ?_ _).mpr ⟨fun h => ?_, not_false, trivial⟩
  · exact List.nodup_nil
  · exact h.2.elim (fun h => absurd h.1 (by decide)) fun h => absurd h.1 (by decide)

end Bitchat.MessageService
