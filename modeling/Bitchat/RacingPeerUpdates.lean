import Bitchat.Interleaving
import Bitchat.ParserBounds
import Bitchat.PeerUpdate
import Bitchat.ServiceOutcomes

/-!
# Concurrent handlers of the peer list

The handlers of announces, channel announces and leaves read the record of the sender, edit
the copy and write it back, and each access takes the lock for itself.
-/

namespace Bitchat

namespace MessageService

open Effect Thread KeyedList StringHelper PacketSerializer

section Handling

variable (packet : BitchatPacket) (peripheralID : Bytes)

def announceFound (existingPeer : Option BitchatPeer) : ServiceM Unit := do
  let nickname := parseAnnouncePayload packet.payload
  let peerID := toHex packet.senderID
  let time ← currentTime
  match existingPeer with
  | some existingPeer =>
      let updatedPeer := existingPeer.updateLastSeen time
      let updatedPeer := if !peripheralID.isEmpty then
          { updatedPeer with peripheralID := peripheralID }
        else updatedPeer
      modifyData fun data => data.updatePeer updatedPeer
  | none =>
      let peer := BitchatPeer.make peerID nickname time
      let time ← currentTime
      let peer := peer.updateLastSeen time
      modifyData fun data => data.addPeer { peer with peripheralID, hasAnnounced := true }
      notify Callbacks.peerJoined (.peerJoined peerID nickname)

def updateFoundChannel (announce : ChannelAnnounce) (peerInfo : Option BitchatPeer) :
    ServiceM Unit :=
  match peerInfo with
  | none => pure ()
  | some peerInfo => do
      let joining ← valueOf announce.joining
      modifyData fun data =>
        data.updatePeer { peerInfo with channel := if joining then announce.channel else [] }

/-- `processChannelAnnouncePacket`, which parses the payload before its look-up. -/
def channelAnnounceFound (peerInfo : Option BitchatPeer) : ServiceM Unit := do
  let announce ← ofParser (parseChannelAnnouncePayload packet.payload)
  updateFoundChannel announce peerInfo
  assigned (ascii "joining") announce.joining

theorem exec_channelAnnounceFound (node : Node) :
    (channelAnnounceFound packet (node.data.getPeerInfo (toHex packet.senderID))).exec node =
      (processChannelAnnouncePacket packet).exec node := by
  rw [exec, exec, channelAnnounceFound, processChannelAnnouncePacket]
  cases hparse : parseChannelAnnouncePayload packet.payload with
  | error e => rfl
  | ok announce => rfl

def leaveFound (peerInfo : Option BitchatPeer) : ServiceM Unit := do
  let peerID := toHex packet.senderID
  match peerInfo with
  | none => pure ()
  | some peerInfo =>
      modifyData fun data => data.removePeer peerID
      notify Callbacks.peerLeft (.peerLeft peerID peerInfo.nickname)

def found (peerInfo : Option BitchatPeer) : ServiceM Unit :=
  if packet.type = pktTypeChannelAnnounce then channelAnnounceFound packet peerInfo
  else if packet.type = pktTypeAnnounce then announceFound packet peripheralID peerInfo
  else leaveFound packet peerInfo

/-- The two accesses of a handler to the peer list. A handler that has nothing to write makes
its second step without one. -/
def handling : Thread Node :=
  readWrite (fun node => node.data.getPeerInfo (toHex packet.senderID))
    fun peerInfo => (found packet peripheralID peerInfo).exec

/-- The packets whose handlers change the record of their sender and no other. -/
def IsPeerPacket : Prop :=
  packet.type = pktTypeAnnounce ∨ packet.type = pktTypeChannelAnnounce ∨
    packet.type = pktTypeLeave

variable {packet}

theorem run_handling (htype : IsPeerPacket packet) (node : Node) :
    (handling packet peripheralID).run node = (dispatch packet peripheralID).exec node := by
  rw [handling, run_readWrite]
  rcases htype with htype | htype | htype
  · have hfound : found packet peripheralID = announceFound packet peripheralID := by
      funext peerInfo
      rw [found, htype]
      rfl
    rw [hfound, dispatch_announce htype]
    rfl
  · have hfound : found packet peripheralID = channelAnnounceFound packet := by
      funext peerInfo
      rw [found, if_pos htype]
    rw [hfound, dispatch_channelAnnounce htype]
    exact exec_channelAnnounceFound packet node
  · have hfound : found packet peripheralID = leaveFound packet := by
      funext peerInfo
      rw [found, htype]
      rfl
    rw [hfound, dispatch_leave htype]
    rfl

end Handling

def peerViews (node : Node) : List PeerView := node.data.peers.map BitchatPeer.view

/-- A payload that is too short for the flag has no name either, and clears the channel. -/
def channelUpdate (payload : Bytes) : PeerUpdate :=
  match parseChannelAnnouncePayload payload with
  | .error _ => .nothing
  | .ok announce =>
      .channelAnnounce (if announce.joining = some true then announce.channel else [])

def peerUpdate (packet : BitchatPacket) (peripheralID : Bytes) : PeerUpdate :=
  if packet.type = pktTypeChannelAnnounce then channelUpdate packet.payload
  else if packet.type = pktTypeAnnounce then
    .announce (parseAnnouncePayload packet.payload) peripheralID
  else .leave

section Views

variable {node node' : Node} {packet : BitchatPacket} {peripheralID : Bytes}

theorem peerViews_storePeer (peer : BitchatPeer) (peers : List BitchatPeer) :
    (BitchatData.storePeer peer peers).map BitchatPeer.view =
      store PeerView.peerID peer.view (peers.map BitchatPeer.view) := by
  rw [BitchatData.storePeer_eq]
  exact map_store BitchatPeer.peerID_view peer peers

theorem map_view_getPeerInfo (node : Node) (peerID : Bytes) :
    (node.data.getPeerInfo peerID).map BitchatPeer.view =
      find PeerView.peerID peerID (peerViews node) :=
  map_find BitchatPeer.peerID_view peerID node.data.peers

theorem peerViews_announceFound (peerInfo : Option BitchatPeer) :
    peerViews ((announceFound packet peripheralID peerInfo).exec node) =
      (PeerUpdate.announce (parseAnnouncePayload packet.payload) peripheralID).write
        (toHex packet.senderID) (peerInfo.map BitchatPeer.view) (peerViews node) := by
  rw [exec, announceFound, outcome_bind_ok (outcome_currentTime node)]
  cases peerInfo with
  | some peer =>
      refine (peerViews_storePeer _ _).trans ?_
      cases peripheralID with
      | nil => rfl
      | cons b bs => rfl
  | none =>
      rw [outcome_bind_ok (outcome_currentTime _), outcome_bind_ok (outcome_modifyData _ _),
        outcome_notify]
      exact peerViews_storePeer _ _

theorem peerViews_channelAnnounceFound (peerInfo : Option BitchatPeer) :
    peerViews ((channelAnnounceFound packet peerInfo).exec node) =
      (channelUpdate packet.payload).write (toHex packet.senderID)
        (peerInfo.map BitchatPeer.view) (peerViews node) := by
  rw [exec, channelAnnounceFound, channelUpdate]
  cases hparse : parseChannelAnnouncePayload packet.payload with
  | error e => rfl
  | ok announce =>
      rw [outcome_bind_ok (outcome_ofParser_ok rfl node), ← exec, exec_bind_assigned, exec]
      cases peerInfo with
      | none => rfl
      | some peer =>
          obtain ⟨reads, hvalue⟩ := outcome_valueOf announce.joining node
          have hchannel : (if flagOf node announce.joining then announce.channel else []) =
              if announce.joining = some true then announce.channel else [] := by
            cases hjoining : announce.joining with
            | some joining => cases joining <;> rfl
            | none => rw [channel_of_unassigned hparse hjoining, ite_self, ite_self]
          rw [updateFoundChannel, outcome_bind_ok hvalue, hchannel]
          exact peerViews_storePeer _ _

theorem peerViews_leaveFound (peerInfo : Option BitchatPeer) :
    peerViews ((leaveFound packet peerInfo).exec node) =
      PeerUpdate.leave.write (toHex packet.senderID) (peerInfo.map BitchatPeer.view)
        (peerViews node) := by
  cases peerInfo with
  | none => rfl
  | some peer =>
      rw [exec, leaveFound, outcome_bind_ok (outcome_modifyData _ _), outcome_notify]
      exact map_remove BitchatPeer.peerID_view _ _

theorem peerViews_found (peerInfo : Option BitchatPeer) :
    peerViews ((found packet peripheralID peerInfo).exec node) =
      (peerUpdate packet peripheralID).write (toHex packet.senderID)
        (peerInfo.map BitchatPeer.view) (peerViews node) := by
  rw [found, peerUpdate]
  split_ifs
  · exact peerViews_channelAnnounceFound peerInfo
  · exact peerViews_announceFound peerInfo
  · exact peerViews_leaveFound peerInfo

theorem peerViews_dispatch (htype : IsPeerPacket packet) :
    peerViews ((dispatch packet peripheralID).exec node) =
      (peerUpdate packet peripheralID).perform (toHex packet.senderID) (peerViews node) := by
  rw [← run_handling peripheralID htype, handling, run_readWrite, peerViews_found,
    map_view_getPeerInfo, PeerUpdate.perform]

variable {packet' : BitchatPacket} {peripheralID' : Bytes}

theorem overlap_serializable_iff (htype : IsPeerPacket packet) (htype' : IsPeerPacket packet')
    (hend : node' =
      (found packet' peripheralID' (node.data.getPeerInfo (toHex packet'.senderID))).exec
        ((found packet peripheralID (node.data.getPeerInfo (toHex packet.senderID))).exec node)) :
    (peerViews node' = peerViews ((dispatch packet' peripheralID').exec
          ((dispatch packet peripheralID).exec node)) ∨
        peerViews node' = peerViews ((dispatch packet peripheralID).exec
          ((dispatch packet' peripheralID').exec node))) ↔
      toHex packet.senderID ≠ toHex packet'.senderID ∨
        PeerUpdate.Compatible (find PeerView.peerID (toHex packet.senderID) (peerViews node))
          (peerUpdate packet peripheralID) (peerUpdate packet' peripheralID') := by
  rw [hend, peerViews_found, peerViews_found, map_view_getPeerInfo, map_view_getPeerInfo,
    peerViews_dispatch htype', peerViews_dispatch htype, peerViews_dispatch htype,
    peerViews_dispatch htype', ← PeerUpdate.perform]
  by_cases hsame : toHex packet.senderID = toHex packet'.senderID
  · rw [or_iff_right (not_not_intro hsame), ← hsame]
    exact PeerUpdate.serializable_iff _ _
  · exact iff_of_true (.inl (PeerUpdate.write_eq_perform _ _ hsame)) (.inl hsame)

end Views

/-- Two handlers that run at the same time leave the peers as one of them after the other
would, exactly if they do not overlap, or concern different peers, or are compatible in the
order in which they write. -/
theorem peer_updates_serializable_iff (packet packet' : BitchatPacket)
    (peripheralID peripheralID' : Bytes) (node node' : Node) (schedule : List Side)
    (htype : IsPeerPacket packet) (htype' : IsPeerPacket packet')
    (h : Interleaves schedule (handling packet peripheralID) (handling packet' peripheralID')
      node node') :
    (peerViews node' = peerViews ((dispatch packet' peripheralID').exec
          ((dispatch packet peripheralID).exec node)) ∨
        peerViews node' = peerViews ((dispatch packet peripheralID).exec
          ((dispatch packet' peripheralID').exec node))) ↔
      (∃ side rest, schedule = side :: side :: rest) ∨
        toHex packet.senderID ≠ toHex packet'.senderID ∨
        let record := find PeerView.peerID (toHex packet.senderID) (peerViews node)
        let update := peerUpdate packet peripheralID
        let update' := peerUpdate packet' peripheralID'
        if schedule.getLast? = some .right then PeerUpdate.Compatible record update update'
        else PeerUpdate.Compatible record update' update := by
  dsimp only
  rcases readWrite_cases h with ⟨rest, rfl, hs⟩ | ⟨rest, rfl, hs⟩ | ⟨side, rfl, hs⟩ |
    ⟨side, rfl, hs⟩
  · refine iff_of_true (.inl ?_) (.inl ⟨_, _, rfl⟩)
    rw [hs, ← run_handling _ htype, ← run_handling _ htype']
    rfl
  · refine iff_of_true (.inr ?_) (.inl ⟨_, _, rfl⟩)
    rw [hs, ← run_handling _ htype, ← run_handling _ htype']
    rfl
  · have hlast : [side, side.swap, Side.left, Side.right].getLast? = some .right := rfl
    rw [or_iff_right (not_serial side _), if_pos hlast]
    exact overlap_serializable_iff htype htype' hs
  · rw [or_iff_right (not_serial side _), if_neg (by simp), or_comm,
      overlap_serializable_iff htype' htype hs, ne_comm]
    by_cases hsame : toHex packet.senderID = toHex packet'.senderID
    · rw [hsame]
    · exact iff_of_true (.inl hsame) (.inl hsame)

def host : Node where
  data :=
    { peerID := [], nickname := []
      peers := [{ peerID := toHex (List.replicate 8 9), nickname := [0x61], channel := [0x23] }] }
  clock _ := 1700000000000000000

def leaving : BitchatPacket :=
  { type := pktTypeLeave, timestamp := 1, senderID := List.replicate 8 9 }

def leavingChannel : BitchatPacket :=
  { type := pktTypeChannelAnnounce, timestamp := 2, senderID := List.replicate 8 9,
    payload := [0, 0] }

theorem isPeerPacket_leaving : IsPeerPacket leaving := .inr (.inr rfl)

theorem isPeerPacket_leavingChannel : IsPeerPacket leavingChannel := .inr (.inl rfl)

/-- The peer is in the list again although it is gone in both orders. -/
theorem leave_lost : ∃ node',
    IsPeerPacket leaving ∧ IsPeerPacket leavingChannel ∧
      (host.data.peers.map BitchatPeer.peerID).Nodup ∧
      Interleaves [.left, .right, .left, .right] (handling leaving []) (handling leavingChannel [])
        host node' ∧
      ¬ (peerViews node' =
            peerViews ((dispatch leavingChannel []).exec ((dispatch leaving []).exec host)) ∨
          peerViews node' =
            peerViews ((dispatch leaving []).exec ((dispatch leavingChannel []).exec host))) :=
  ⟨_, isPeerPacket_leaving, isPeerPacket_leavingChannel, by decide,
    .left (.right (.left (.right (.done _)))), by decide +kernel⟩

theorem leave_kept_iff : ∃ node',
    Interleaves [.left, .right, .right, .left] (handling leaving []) (handling leavingChannel [])
      host node' ∧
    ((peerViews node' =
          peerViews ((dispatch leavingChannel []).exec ((dispatch leaving []).exec host)) ∨
        peerViews node' =
          peerViews ((dispatch leaving []).exec ((dispatch leavingChannel []).exec host))) ↔
      (∃ side rest, [Side.left, .right, .right, .left] = side :: side :: rest) ∨
        toHex leaving.senderID ≠ toHex leavingChannel.senderID ∨
        let record := find PeerView.peerID (toHex leaving.senderID) (peerViews host)
        let update := peerUpdate leaving []
        let update' := peerUpdate leavingChannel []
        if [Side.left, .right, .right, .left].getLast? = some .right then
          PeerUpdate.Compatible record update update'
        else PeerUpdate.Compatible record update' update) :=
  ⟨_, .left (.right (.right (.left (.done _)))),
    peer_updates_serializable_iff leaving leavingChannel [] [] host _
      [.left, .right, .right, .left] isPeerPacket_leaving isPeerPacket_leavingChannel
      (.left (.right (.right (.left (.done _)))))⟩

end MessageService

end Bitchat
