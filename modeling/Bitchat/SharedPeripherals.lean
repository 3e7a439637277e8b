import Bitchat.AnnouncedPeers
import Bitchat.MessageReception

/-!
# Peers that share a peripheral

An announce that is relayed comes over the link of the node that relays it, so that several
peers can have the same peripheral. The disconnection of a peripheral removes the first of
them only.
-/

namespace Bitchat.MessageService

open Effect StringHelper PacketSerializer

def IsPeerLeft : Event → Bool
  | .peerLeft _ _ => true
  | _ => false

/-- The peers of the peripheral are removed, each of them is reported once, and the other
peers are those from before. -/
structure RemovesExactly (node : Node) (peripheralID : Bytes) : Prop where
  peers : ((peerDisconnected peripheralID).exec node).data.peers =
    node.data.peers.filter fun peer => peer.peripheralID ≠ peripheralID
  reports : (newEvents (peerDisconnected peripheralID) node).filter IsPeerLeft =
    (node.data.peers.filter fun peer => peer.peripheralID = peripheralID).map fun peer =>
      .peerLeft peer.peerID peer.nickname

/-- At most one peer has the peripheral. -/
def OnePeerOn (node : Node) (peripheralID : Bytes) : Prop :=
  ∀ peer ∈ node.data.peers, ∀ other ∈ node.data.peers,
    peer.peripheralID = peripheralID → other.peripheralID = peripheralID → peer = other

section Disconnection

variable {node : Node} {peripheralID : Bytes} {peer : BitchatPeer}

theorem removesExactly_of_none
    (h : node.data.peers.find? (fun peer => peer.peripheralID = peripheralID) = none) :
    RemovesExactly node peripheralID := by
  have hother : ∀ peer ∈ node.data.peers, peer.peripheralID ≠ peripheralID := by
    simpa using h
  constructor
  · rw [exec, outcome_peerDisconnected_none h]
    refine (List.filter_eq_self.mpr fun peer hpeer => ?_).symm
    simpa using hother peer hpeer
  · have hnobody : (node.data.peers.filter fun peer => peer.peripheralID = peripheralID) = [] :=
      List.filter_eq_nil_iff.mpr fun peer hpeer => by simpa using hother peer hpeer
    rw [newEvents, exec, outcome_peerDisconnected_none h, hnobody, List.drop_left, notification]
    split
    · rfl
    · rfl

theorem peers_peerDisconnected
    (h : node.data.peers.find? (fun peer => peer.peripheralID = peripheralID) = some peer) :
    ((peerDisconnected peripheralID).exec node).data.peers =
      node.data.peers.filter fun other => other.peerID ≠ peer.peerID := by
  rw [exec, outcome_peerDisconnected_some h]
  rfl

theorem reports_peerDisconnected (hleft : node.callbacks.peerLeft = true)
    (h : node.data.peers.find? (fun peer => peer.peripheralID = peripheralID) = some peer) :
    (newEvents (peerDisconnected peripheralID) node).filter IsPeerLeft =
      [.peerLeft peer.peerID peer.nickname] := by
  rw [newEvents, exec, outcome_peerDisconnected_some h, List.append_assoc, List.drop_left,
    notification, if_pos hleft, notification]
  split
  · rfl
  · rfl

theorem removesExactly_of_some (hleft : node.callbacks.peerLeft = true)
    (hdistinct : (peerIDs node).Nodup)
    (h : node.data.peers.find? (fun peer => peer.peripheralID = peripheralID) = some peer) :
    RemovesExactly node peripheralID ↔ OnePeerOn node peripheralID := by
  have hmem := List.mem_of_find?_eq_some h
  have hlink : peer.peripheralID = peripheralID := by simpa using List.find?_some h
  constructor
  · rintro ⟨hpeers, -⟩
    rw [peers_peerDisconnected h] at hpeers
    have hfound : ∀ other ∈ node.data.peers, other.peripheralID = peripheralID →
        other = peer := by
      intro other hother hsame
      by_contra hne
      have hid : other.peerID ≠ peer.peerID :=
        fun hid => hne (List.inj_on_of_nodup_map hdistinct hother hmem hid)
      have hstays : other ∈ node.data.peers.filter fun other => other.peerID ≠ peer.peerID := by
        simp [hother, hid]
      rw [hpeers] at hstays
      simp [hsame] at hstays
    intro first hfirst second hsecond hfirstLink hsecondLink
    rw [hfound first hfirst hfirstLink, hfound second hsecond hsecondLink]
  · intro hone
    have hiff : ∀ other ∈ node.data.peers,
        (other.peripheralID = peripheralID ↔ other = peer) := by
      intro other hother
      refine ⟨fun hsame => hone other hother peer hmem hsame hlink, ?_⟩
      rintro rfl
      exact hlink
    constructor
    · rw [peers_peerDisconnected h]
      refine List.filter_congr fun other hother => ?_
      have hid : other.peerID = peer.peerID ↔ other = peer :=
        ⟨List.inj_on_of_nodup_map hdistinct hother hmem, fun hsame => by rw [hsame]⟩
      simp [hid, hiff other hother]
    · have honly : (node.data.peers.filter fun other => other.peripheralID = peripheralID) =
          [peer] := by
        have hcongr : (node.data.peers.filter fun other => other.peripheralID = peripheralID) =
            node.data.peers.filter fun other => other = peer :=
          List.filter_congr fun other hother => by simp [hiff other hother]
        rw [hcongr, List.filter_eq, List.count_eq_one_of_mem hdistinct.of_map hmem]
        rfl
      rw [reports_peerDisconnected hleft h, honly]
      rfl

theorem removesExactly_iff (hleft : node.callbacks.peerLeft = true)
    (hdistinct : (peerIDs node).Nodup) :
    RemovesExactly node peripheralID ↔ OnePeerOn node peripheralID := by
  cases hpeer : node.data.peers.find? fun peer => peer.peripheralID = peripheralID with
  | none =>
      have hother : ∀ peer ∈ node.data.peers, peer.peripheralID ≠ peripheralID := by
        simpa using hpeer
      exact iff_of_true (removesExactly_of_none hpeer)
        fun first hfirst _ _ hlink => (hother first hfirst hlink).elim
  | some peer => exact removesExactly_of_some hleft hdistinct hpeer

end Disconnection

/-- Every record behind the step that has a peripheral has it from a record of the same peer
before the step. -/
def KeepsLinks (node node' : Node) : Prop :=
  ∀ peer' ∈ node'.data.peers, peer'.peripheralID ≠ [] →
    ∃ peer ∈ node.data.peers, peer.peerID = peer'.peerID ∧
      peer.peripheralID = peer'.peripheralID

instance : Std.Refl KeepsLinks := ⟨fun _ peer hpeer _ => ⟨peer, hpeer, rfl, rfl⟩⟩

instance : IsTrans Node KeepsLinks := ⟨fun _ _ _ h k peer'' hpeer'' hlink'' => by
  obtain ⟨peer', hpeer', hid', hlink'⟩ := k peer'' hpeer'' hlink''
  obtain ⟨peer, hpeer, hid, hlink⟩ := h peer' hpeer' (hlink' ▸ hlink'')
  exact ⟨peer, hpeer, hid.trans hid', hlink.trans hlink'⟩⟩

theorem keepsLinks_of_subset {node node' : Node}
    (h : node'.data.peers ⊆ node.data.peers) : KeepsLinks node node' :=
  fun peer hpeer _ => ⟨peer, h hpeer, rfl, rfl⟩

theorem keepsLinks_storePeer {node : Node} {record : BitchatPeer}
    (h : record.peripheralID ≠ [] → ∃ peer ∈ node.data.peers, peer.peerID = record.peerID ∧
      peer.peripheralID = record.peripheralID) :
    KeepsLinks node { node with data := node.data.addPeer record } := by
  intro peer hpeer hlink
  change peer ∈ BitchatData.storePeer record node.data.peers at hpeer
  rw [BitchatData.storePeer_eq] at hpeer
  rcases KeyedList.mem_of_mem_store hpeer with rfl | hold
  · exact h hlink
  · exact ⟨peer, hold, rfl, rfl⟩

theorem noiseSteps_keepsLinks : NoiseSteps KeepsLinks where
  clock node := keepsLinks_of_subset (List.Subset.refl node.data.peers)
  message node _ _ := keepsLinks_of_subset (List.Subset.refl node.data.peers)
  history node _ _ := keepsLinks_of_subset (List.Subset.refl node.data.peers)
  sent node _ _ := keepsLinks_of_subset (List.Subset.refl node.data.peers)
  noise node _ := keepsLinks_of_subset (List.Subset.refl node.data.peers)

theorem keepsLinks_unassigned (node : Node) :
    KeepsLinks node { node with unassignedReads := node.unassignedReads + 1 } :=
  keepsLinks_of_subset (List.Subset.refl node.data.peers)

theorem keepsLinks_answerVersionHello (peerID : Bytes) (hello : VersionHello) :
    Respects KeepsLinks (answerVersionHello peerID hello) := by
  have hack : ∀ ack, Respects KeepsLinks (sendVersionAck ack peerID) := fun ack =>
    respects_sendVersionAck noiseSteps_keepsLinks.clock
      (fun node _ _ => keepsLinks_of_subset (List.Subset.refl node.data.peers)) ack peerID
  refine ((hack _).bind fun _ => respects_get.bind fun node => ?_).ite (hack _)
  refine (respects_pure _).ite ((respects_currentTime noiseSteps_keepsLinks.clock).bind
    fun time => respects_modify fun node => keepsLinks_storePeer fun hlink => ?_)
  exact (hlink rfl).elim

theorem keepsLinks_handleVersionHello (peerID data : Bytes) :
    Respects KeepsLinks (handleVersionHello peerID data) :=
  (respects_pure _).ite ((respects_ofParser _).bind fun hello =>
    (keepsLinks_answerVersionHello peerID hello).bind fun _ => respects_assigned _ _)

theorem keepsLinks_removePeer (removed : Bytes) (node : Node) :
    KeepsLinks node { node with data := node.data.removePeer removed } :=
  keepsLinks_of_subset (List.filter_subset_self _)

theorem keepsLinks_notify (registered : Callbacks → Bool) (event : Event) :
    Respects KeepsLinks (notify registered event) :=
  respects_notify registered fun node =>
    keepsLinks_of_subset (List.Subset.refl node.data.peers)

theorem keepsLinks_handleVersionAck (peerID data : Bytes) :
    Respects KeepsLinks (handleVersionAck peerID data) :=
  (respects_pure _).ite ((respects_ofParser _).bind fun _ =>
    (respects_valueOf keepsLinks_unassigned _).bind fun _ =>
      (((respects_modify (keepsLinks_removePeer peerID)).bind fun _ =>
        keepsLinks_notify _ _).ite (respects_pure _)).bind fun _ => respects_assigned _ _)

theorem keepsLinks_updatePeerChannel (peerID : Bytes) (announce : ChannelAnnounce) :
    Respects KeepsLinks (updatePeerChannel peerID announce) := by
  refine respects_updatePeerChannel_of keepsLinks_unassigned
    fun node peerInfo channel hpeer _ => ?_
  have hknown : peerInfo ∈ node.data.peers := List.mem_of_find?_eq_some hpeer
  exact keepsLinks_storePeer fun _ => ⟨peerInfo, hknown, rfl, rfl⟩

theorem keepsLinks_processLeavePacket (packet : BitchatPacket) :
    Respects KeepsLinks (processLeavePacket packet) := by
  refine respects_get.bind fun node => ?_
  split
  · exact respects_pure _
  · exact (respects_modify (keepsLinks_removePeer _)).bind fun _ => keepsLinks_notify _ _

theorem keepsLinks_dispatch {packet : BitchatPacket} (h : packet.type ≠ pktTypeAnnounce)
    (peripheralID : Bytes) : Respects KeepsLinks (dispatch packet peripheralID) := by
  have hnoise := noiseSteps_keepsLinks
  apply dispatch_induction (P := Respects KeepsLinks)
  · exact fun _ => (respects_pure _).ite (keepsLinks_handleVersionHello _ _)
  · exact fun _ => (respects_pure _).ite (keepsLinks_handleVersionAck _ _)
  · exact fun _ => respects_processMessagePacket hnoise.toMessageSteps packet
  · exact fun _ => (respects_ofParser _).bind fun _ =>
      (keepsLinks_updatePeerChannel _ _).bind fun _ => respects_assigned _ _
  · exact fun htype => (h htype).elim
  · exact fun _ => keepsLinks_processLeavePacket packet
  · exact fun _ => respects_processNoiseHandshakeInitPacket hnoise
  · exact fun _ => respects_processNoiseHandshakeRespPacket hnoise
  · exact fun _ => respects_processNoiseEncryptedPacket hnoise
  · exact fun _ => respects_processNoiseIdentityAnnouncePacket hnoise
  · exact respects_pure _

/-- The listener has set the callback, the IDs are distinct, and no two peers share a
peripheral. -/
structure LinksSeparate (node : Node) : Prop where
  left : node.callbacks.peerLeft = true
  distinct : (peerIDs node).Nodup
  separate : ∀ peripheralID, peripheralID ≠ [] → OnePeerOn node peripheralID

/-- An announce comes over the link of another peer. -/
def SharesLink (node : Node) : PeerAction → Prop
  | .receive packet peripheralID => Passes node packet ∧ packet.type = pktTypeAnnounce ∧
      peripheralID ≠ [] ∧ ∃ peer ∈ node.data.peers,
        peer.peerID ≠ toHex packet.senderID ∧ peer.peripheralID = peripheralID
  | _ => False

variable {node node' : Node}

theorem KeepsLinks.separate (h : KeepsLinks node node') (hnode : LinksSeparate node)
    (hdistinct : (peerIDs node').Nodup) {peripheralID : Bytes} (hlinked : peripheralID ≠ []) :
    OnePeerOn node' peripheralID := by
  rintro first hfirst second hsecond rfl hlink
  obtain ⟨peer, hpeer, hid, hsame⟩ := h first hfirst hlinked
  obtain ⟨other, hother, hid', hsame'⟩ := h second hsecond (hlink ▸ hlinked)
  obtain rfl := hnode.separate _ hlinked peer hpeer other hother hsame (hsame'.trans hlink)
  exact List.inj_on_of_nodup_map hdistinct hfirst hsecond (hid.symm.trans hid')

theorem exists_peers_announce {packet : BitchatPacket} (hpass : Passes node packet)
    (htype : packet.type = pktTypeAnnounce) (peripheralID : Bytes) :
    ∃ time, ((processPacket packet peripheralID).exec node).data.peers =
      KeyedList.store BitchatPeer.peerID (announcedPeer
        (node.data.getPeerInfo (toHex packet.senderID)) (toHex packet.senderID) packet.payload
          peripheralID time) node.data.peers := by
  obtain ⟨time, clockReads, trace, hexec⟩ :=
    exists_exec_processAnnouncePacket (marked node packet) packet peripheralID
  have hread : (marked node packet).data.getPeerInfo (toHex packet.senderID) =
      node.data.getPeerInfo (toHex packet.senderID) := by
    rw [BitchatData.getPeerInfo_eq, peers_marked, BitchatData.getPeerInfo_eq]
  refine ⟨time, ?_⟩
  rw [exec, outcome_processPacket_of_passes hpass, dispatch_announce htype, ← exec, hexec, hread,
    BitchatData.addPeer, BitchatData.storePeer_eq, peers_marked]

theorem peerID_of_announced {packet : BitchatPacket} {peripheralID : Bytes} {time : ℤ}
    (hpass : Passes node packet) (htype : packet.type = pktTypeAnnounce)
    (hlinked : peripheralID ≠ [])
    (hshares : ¬ SharesLink node (.receive packet peripheralID)) {peer : BitchatPeer}
    (hpeer : peer ∈ KeyedList.store BitchatPeer.peerID (announcedPeer
      (node.data.getPeerInfo (toHex packet.senderID)) (toHex packet.senderID) packet.payload
        peripheralID time) node.data.peers)
    (hlink : peer.peripheralID = peripheralID) : peer.peerID = toHex packet.senderID := by
  rcases KeyedList.mem_of_mem_store hpeer with rfl | hold
  · exact peerID_announcedPeer _ _ _ _ _
  · by_contra hother
    exact hshares ⟨hpass, htype, hlinked, peer, hold, hother, hlink⟩

theorem peripheralID_announcedPeer (known : Option BitchatPeer) (peerID nickname : Bytes)
    {peripheralID : Bytes} (h : peripheralID ≠ []) (time : ℤ) :
    (announcedPeer known peerID nickname peripheralID time).peripheralID = peripheralID := by
  cases known with
  | none => rfl
  | some peer => exact if_neg h

theorem separate_announce (hnode : LinksSeparate node) {packet : BitchatPacket}
    {peripheralID : Bytes} (hpass : Passes node packet) (htype : packet.type = pktTypeAnnounce)
    (hshares : ¬ SharesLink node (.receive packet peripheralID))
    (hdistinct : (peerIDs ((processPacket packet peripheralID).exec node)).Nodup)
    {link : Bytes} (hlinked : link ≠ []) :
    OnePeerOn ((processPacket packet peripheralID).exec node) link := by
  obtain ⟨time, hpeers⟩ := exists_peers_announce hpass htype peripheralID
  by_cases hempty : peripheralID = []
  · -- the link of the sender stays what it was
    refine KeepsLinks.separate (fun peer hpeer hpeerLink => ?_) hnode hdistinct hlinked
    rw [hpeers] at hpeer
    rcases KeyedList.mem_of_mem_store hpeer with rfl | hold
    · cases hknown : node.data.getPeerInfo (toHex packet.senderID) with
      | none =>
          rw [hknown] at hpeerLink
          exact (hpeerLink hempty).elim
      | some known =>
          exact ⟨known, List.mem_of_find?_eq_some hknown, rfl, (if_pos hempty).symm⟩
    · exact ⟨peer, hold, rfl, rfl⟩
  · intro first hfirst second hsecond hfirstLink hsecondLink
    refine List.inj_on_of_nodup_map hdistinct hfirst hsecond ?_
    rw [hpeers] at hfirst hsecond
    by_cases hlink : link = peripheralID
    · rw [peerID_of_announced hpass htype hempty hshares hfirst (hfirstLink.trans hlink),
        peerID_of_announced hpass htype hempty hshares hsecond (hsecondLink.trans hlink)]
    · have hold : ∀ peer, peer ∈ KeyedList.store BitchatPeer.peerID (announcedPeer
          (node.data.getPeerInfo (toHex packet.senderID)) (toHex packet.senderID) packet.payload
            peripheralID time) node.data.peers → peer.peripheralID = link →
              peer ∈ node.data.peers := by
        intro peer hpeer hpeerLink
        refine (KeyedList.mem_of_mem_store hpeer).resolve_left ?_
        rintro rfl
        exact hlink (hpeerLink.symm.trans (peripheralID_announcedPeer _ _ _ hempty _))
      rw [hnode.separate link hlinked first (hold first hfirst hfirstLink) second
        (hold second hsecond hsecondLink) hfirstLink hsecondLink]

theorem not_separate_announce {packet : BitchatPacket} {peripheralID : Bytes}
    (hshares : SharesLink node (.receive packet peripheralID)) :
    ¬ OnePeerOn ((processPacket packet peripheralID).exec node) peripheralID := by
  obtain ⟨hpass, htype, hlinked, other, hother, hid, hlink⟩ := hshares
  obtain ⟨time, hpeers⟩ := exists_peers_announce hpass htype peripheralID
  have hsender := peerID_announcedPeer node.data (toHex packet.senderID) packet.payload
    peripheralID time
  intro hone
  rw [OnePeerOn, hpeers] at hone
  have hsame := hone _ (KeyedList.mem_store_self _ _) other
    (KeyedList.mem_store_of_ne hother (by rwa [hsender]))
    (peripheralID_announcedPeer _ _ _ hlinked _) hlink
  rw [← hsame] at hid
  exact hid hsender

theorem linksSeparate_next (hnode : LinksSeparate node) (action : PeerAction)
    (hshares : ¬ SharesLink node action) : LinksSeparate (peerActivity.next node action) := by
  have hwatched := keepsWatched_next node action
  have hdistinct := hwatched.2 hnode.distinct
  refine ⟨hwatched.1 ▸ hnode.left, hdistinct, fun link hlinked => ?_⟩
  cases action with
  | receive packet peripheralID =>
      by_cases hpass : Passes node packet
      · by_cases htype : packet.type = pktTypeAnnounce
        · exact separate_announce hnode hpass htype hshares hdistinct hlinked
        · have hmarked : KeepsLinks node (marked node packet) := by
            refine keepsLinks_of_subset ?_
            rw [peers_marked]
            exact List.Subset.refl _
          have hkeeps := trans_of KeepsLinks hmarked
            (keepsLinks_dispatch htype peripheralID (marked node packet))
          refine KeepsLinks.separate ?_ hnode hdistinct hlinked
          change KeepsLinks node ((processPacket packet peripheralID).exec node)
          rwa [exec, outcome_processPacket_of_passes hpass]
      · change OnePeerOn ((processPacket packet peripheralID).exec node) link
        rw [exec, outcome_processPacket_of_not_passes hpass]
        exact hnode.separate link hlinked
  | disconnected peripheralID =>
      refine KeepsLinks.separate ?_ hnode hdistinct hlinked
      change KeepsLinks node ((peerDisconnected peripheralID).exec node)
      refine keepsLinks_of_subset ?_
      rw [exec]
      cases hpeer : node.data.peers.find? fun peer => peer.peripheralID = peripheralID with
      | none =>
          rw [outcome_peerDisconnected_none hpeer]
          exact List.Subset.refl _
      | some peer =>
          rw [outcome_peerDisconnected_some hpeer]
          exact List.filter_subset_self _
  | cleanup time =>
      refine KeepsLinks.separate ?_ hnode hdistinct hlinked
      exact keepsLinks_of_subset (List.filter_subset_self _)

theorem not_removesExactly_next (hnode : LinksSeparate node) {action : PeerAction}
    (hshares : SharesLink node action) :
    ¬ ∀ peripheralID, peripheralID ≠ [] →
      RemovesExactly (peerActivity.next node action) peripheralID := by
  intro hexact
  have hwatched := keepsWatched_next node action
  cases action with
  | receive packet peripheralID =>
      have hremoves := hexact peripheralID hshares.2.2.1
      refine not_separate_announce hshares ?_
      exact (removesExactly_iff (hwatched.1 ▸ hnode.left) (hwatched.2 hnode.distinct)).mp hremoves
  | disconnected peripheralID => exact hshares.elim
  | cleanup time => exact hshares.elim

/-- In every state of a run, a disconnection removes and reports the peers of its peripheral
exactly if there is at most one; and that is so in all states of the run exactly if no announce
comes over the link of another peer. -/
theorem disconnection_exact_iff (hnode : LinksSeparate node) (actions : List PeerAction) :
    (∀ peripheralID, RemovesExactly (peerActivity.run node actions) peripheralID ↔
        OnePeerOn (peerActivity.run node actions) peripheralID) ∧
      (peerActivity.AllStates
          (fun node => ∀ peripheralID, peripheralID ≠ [] → RemovesExactly node peripheralID) node
          actions ↔
        peerActivity.AllSteps (fun node action => ¬ SharesLink node action) node actions) := by
  have hexec : peerActivity.Execution node actions :=
    TransitionSystem.execution_of_enabled (fun _ _ => trivial) node actions
  constructor
  · have hwatched : KeepsWatched node (peerActivity.run node actions) :=
      TransitionSystem.invariant_run (fun node' action _ hkeeps =>
        trans_of KeepsWatched hkeeps (keepsWatched_next node' action)) hexec
        (refl_of KeepsWatched node)
    intro peripheralID
    exact removesExactly_iff (hwatched.1 ▸ hnode.left) (hwatched.2 hnode.distinct)
  · refine TransitionSystem.allStates_iff_allSteps ?_ ?_ ?_ hexec hnode
    · intro node h peripheralID hlinked
      exact (removesExactly_iff h.left h.distinct).mpr (h.separate peripheralID hlinked)
    · exact fun node action _ h hshares => linksSeparate_next h action hshares
    · exact fun node action _ h hshares => not_removesExactly_next h hshares

/-- The announces of two peers come over one link, which is then lost. -/
theorem second_peer_stays :
    ¬ peerActivity.AllStates
      (fun node => ∀ peripheralID, peripheralID ≠ [] → RemovesExactly node peripheralID) listener
      [.receive laterAnnounce [0x78],
        .receive { laterAnnounce with senderID := [2, 2, 2, 2, 2, 2, 2, 2] } [0x78]] := by
  intro h
  have hremoves := (h.run [0x78] (by decide)).peers
  revert hremoves
  decide +kernel

theorem disconnection_exact_iff_listener :
    peerActivity.AllStates
      (fun node => ∀ peripheralID, peripheralID ≠ [] → RemovesExactly node peripheralID) listener
      [.receive laterAnnounce [0x78], .disconnected [0x78]] := by
  have hlistener : LinksSeparate listener :=
    ⟨rfl, List.nodup_nil, fun _ _ _ hpeer => (List.not_mem_nil hpeer).elim⟩
  refine (disconnection_exact_iff hlistener _).2.mpr ⟨?_, not_false, trivial⟩
  rintro ⟨-, -, -, peer, hpeer, -⟩
  exact List.not_mem_nil hpeer

end Bitchat.MessageService
