import Bitchat.ErrorRelay
import Bitchat.PeerNotifications
import Bitchat.VersionNegotiation

/-!
# An ack at a third node

A version ack is given to all connected peers. The packet object notes the requester as its
recipient, but without the flag the recipient is not written, so a third node takes the ack
for its own: it relays it with the TTL 0, and it drops the responder if the ack rejects.
-/

namespace Bitchat.NetworkService

open Effect StringHelper PacketSerializer CompressionHelper MessageService ProtocolHelper

/-- Nothing that concerns other nodes has happened: no peer is lost or gained, no connection
is reported as closed, and nothing is relayed. -/
structure LeftAlone (station station' : Station (List (BitchatPacket × Bytes))) : Prop where
  peers : station'.node.data.peers = station.node.data.peers
  connections : ∀ peripheralID, .peerDisconnected peripheralID ∉
    station'.node.trace.drop station.node.trace.length
  network : station'.network = station.network

theorem length_fieldBytes_le (s : Bytes) : (fieldBytes s).length ≤ 256 := by
  simp only [fieldBytes, List.length_append, List.length_singleton, List.length_take]
  omega

theorem length_ackPayload_le (ack : VersionAck) : (ackPayload ack).length ≤ 770 := by
  have hserver := length_fieldBytes_le ack.serverVersion
  have hplatform := length_fieldBytes_le ack.platform
  have hreason := length_fieldBytes_le ack.reason
  rw [ackPayload, makeVersionAckPayload_eq, ackBytes, optionalBytes]
  split_ifs
  · simp only [List.length_append, List.length_singleton, List.length_nil]
    omega
  · simp only [List.length_append, List.length_singleton]
    omega

theorem deserializePacket_ackPacket {lz4 : LZ4} (hlz4 : lz4.Inverts) {dis : ℕ → UInt8}
    {node : Node} {ownID recipientID : Bytes} {ack : VersionAck}
    (hpad : MessagePadding.unpad (serializePacket lz4 dis (ackPacket node ownID recipientID ack)) =
      serializeFrame lz4 (ackPacket node ownID recipientID ack)) :
    deserializePacket lz4 (serializePacket lz4 dis (ackPacket node ownID recipientID ack)) =
      .ok ⟨wireImage lz4 (ackPacket node ownID recipientID ack), none⟩ := by
  have hpayload : (ackPacket node ownID recipientID ack).payload.length ≤ 770 :=
    length_ackPayload_le ack
  have hwire := length_wirePayload_le lz4 (ackPacket node ownID recipientID ack)
  have hplain : (ackPacket node ownID recipientID ack).isCompressed = false := by
    have hflags : (ackPacket node ownID recipientID ack).flags = 0 := rfl
    rw [BitchatPacket.isCompressed, hflags]
    decide
  exact deserializePacket_of_unpad hlz4 (flagHolds_of_plain lz4 hplain) (by omega) (by omega) hpad

section Received

variable {received : BitchatPacket} {ack : VersionAck}

/-- The handler does not fail, and a rejection costs the sender its place in the list. -/
theorem outcome_dispatch_ack (htype : received.type = pktTypeVersionAck)
    (hpayload : received.payload = ackPayload ack) (node : Node) (peripheralID : Bytes) :
    (dispatch received peripheralID).outcome node = (.ok ⟨⟩,
      if ack.rejected then { node with
        data := node.data.removePeer (toHex received.senderID)
        trace := node.trace ++ notification node.callbacks.peerDisconnected
          (.peerDisconnected (toHex received.senderID)) }
      else node) := by
  have hdata : received.payload ≠ [] := by
    rw [hpayload, ackPayload, makeVersionAckPayload_eq, ackBytes]
    exact List.cons_ne_nil _ _
  have hparse := parse_ackPayload ack
  rw [← hpayload] at hparse
  rw [dispatch_versionAck htype, processVersionAckPacket_eq]
  exact outcome_handleVersionAck hdata hparse rfl node _

theorem leftAlone_iff_of_ok {station : Station (List (BitchatPacket × Bytes))} {node' : Node}
    {peripheralID : Bytes} {events : List Event}
    (h : (processPacket received peripheralID).outcome station.node = (.ok ⟨⟩, node'))
    (httl : received.ttl ≠ 0) (htrace : node'.trace = station.node.trace ++ events) :
    LeftAlone station ((onPacketReceived callRecorder received peripheralID).exec station) ↔
      OnlyPeer (toHex received.senderID) station.node.data ∧
        node'.data.peers = station.node.data.peers ∧
        ∀ peripheralID, .peerDisconnected peripheralID ∉ events := by
  rw [exec, outcome_onPacketReceived_ok callRecorder h]
  have hrelayed := (relayed_iff_of_ok h).trans (or_iff_right httl)
  have hdrop : node'.trace.drop station.node.trace.length = events := by
    rw [htrace, List.drop_left]
  constructor
  · rintro ⟨hpeers, hconnections, hnetwork⟩
    refine ⟨hrelayed.mp hnetwork, hpeers, fun peripheralID hmem => ?_⟩
    rw [← hdrop] at hmem
    exact hconnections peripheralID hmem
  · rintro ⟨honly, hpeers, hconnections⟩
    refine ⟨hpeers, fun peripheralID hmem => ?_, hrelayed.mpr honly⟩
    dsimp only at hmem
    rw [hdrop] at hmem
    exact hconnections peripheralID hmem

theorem leftAlone_iff (htype : received.type = pktTypeVersionAck)
    (hpayload : received.payload = ackPayload ack) (httl : received.ttl ≠ 0)
    (station : Station (List (BitchatPacket × Bytes))) (peripheralID : Bytes) :
    LeftAlone station ((onPacketReceived callRecorder received peripheralID).exec station) ↔
      OnlyPeer (toHex received.senderID) station.node.data ∧
        ¬ (Passes station.node received ∧ ack.rejected = true ∧
          (toHex received.senderID ∈ peerIDs station.node ∨
            station.node.callbacks.peerDisconnected = true)) := by
  by_cases hpass : Passes station.node received
  · have hprocess := (outcome_processPacket_of_passes hpass peripheralID).trans
      (outcome_dispatch_ack htype hpayload _ peripheralID)
    have hpeers : (marked station.node received).data.peers = station.node.data.peers := by
      rw [marked, BitchatData.markMessageProcessed_eq]
    rw [and_iff_right hpass]
    cases hrejected : ack.rejected with
    | false =>
        rw [hrejected, if_neg Bool.false_ne_true] at hprocess
        rw [leftAlone_iff_of_ok hprocess httl rfl]
        refine and_congr_right fun _ => iff_of_true ⟨hpeers, ?_⟩ fun h => by cases h.1
        simp
    | true =>
        rw [hrejected, if_pos rfl] at hprocess
        rw [leftAlone_iff_of_ok hprocess httl (List.append_assoc _ _ _), and_iff_right rfl,
          not_or]
        refine and_congr_right fun _ => and_congr ?_ ?_
        · rw [← peers_removePeer_iff]
          change ((marked station.node received).data.removePeer _).peers = _ ↔ _
          rw [BitchatData.removePeer, hpeers]
          rfl
        · change (∀ _, _ ∉ [_] ++ notification station.node.callbacks.peerDisconnected _) ↔ _
          cases station.node.callbacks.peerDisconnected with
          | true => simp [notification]
          | false => simp [notification]
  · have hprocess := outcome_processPacket_of_not_passes hpass peripheralID
    rw [leftAlone_iff_of_ok hprocess httl (List.append_nil _).symm]
    refine and_congr_right fun _ => iff_of_true ⟨rfl, ?_⟩ fun h => hpass h.1
    simp

end Received

/-- When an ack that answers a hello reaches a third node, that node is left alone exactly if
it knows nobody but, perhaps, the responder, and the ack is no rejection that it would
process, to the loss of the responder or with a report of a closed connection. -/
theorem ack_leaves_third_node_iff (lz4 : LZ4) (hlz4 : lz4.Inverts) (dis : ℕ → UInt8)
    (responder : Node) (requester data : Bytes) (hello : VersionHello) (packet : BitchatPacket)
    (hparse : parseVersionHelloPayload data = .ok hello)
    (hsent : .sent packet ∈ newEvents (handleVersionHello (toHex requester) data) responder)
    (hpad : MessagePadding.unpad (serializePacket lz4 dis packet) = serializeFrame lz4 packet)
    (station : Station (List (BitchatPacket × Bytes))) (peripheralID : Bytes) :
    ∃ received, deserializePacket lz4 (serializePacket lz4 dis packet) = .ok ⟨received, none⟩ ∧
      (LeftAlone station ((onPacketReceived callRecorder received peripheralID).exec station) ↔
        OnlyPeer (toHex received.senderID) station.node.data ∧
          ¬ (Passes station.node received ∧
            (¬ ∃ version ∈ hello.supportedVersions, version ∈ getSupportedVersions) ∧
            (toHex received.senderID ∈ peerIDs station.node ∨
              station.node.callbacks.peerDisconnected = true))) := by
  have hdata : data ≠ [] := by
    rintro rfl
    have hnone : newEvents (handleVersionHello (toHex requester) []) responder = [] :=
      List.drop_length
    rw [hnone] at hsent
    cases hsent
  have hrejected : (answer hello.supportedVersions).rejected = true ↔
      ¬ ∃ version ∈ hello.supportedVersions, version ∈ getSupportedVersions := by
    rw [← negotiateVersion_pos_iff, answer]
    split_ifs with hagreed
    · exact iff_of_false not_false (not_not_intro hagreed)
    · exact iff_of_true rfl hagreed
  rcases newEvents_handleVersionHello responder hdata hparse requester with
    ⟨ownID, -, hevents⟩ | ⟨-, hevents⟩
  · rw [hevents, notification] at hsent
    split at hsent
    · obtain rfl := Event.sent.inj (List.mem_singleton.mp hsent)
      refine ⟨_, deserializePacket_ackPacket hlz4 hpad, ?_⟩
      rw [← hrejected]
      have httl : (1 : UInt8) ≠ 0 := by decide
      exact leftAlone_iff rfl rfl httl station peripheralID
    · cases hsent
  · rw [hevents] at hsent
    cases hsent

def bystander : Station (List (BitchatPacket × Bytes)) where
  node :=
    { data :=
        { peerID := toHex [3, 3, 3, 3, 3, 3, 3, 3], nickname := [0x63]
          peers := [{ peerID := listener.data.peerID }, { peerID := announcer.data.peerID }] }
      clock := fun _ => 1700000000000000000 }
  network := []

/-- The ack of `listener` to a hello of `announcer` that offers the version only. -/
def ackTo (version : UInt8) : BitchatPacket :=
  ackPacket listener [8, 7, 6, 5, 4, 3, 2, 1] [1, 2, 3, 4, 5, 6, 7, 8] (answer [version])

def helloOf (version : UInt8) : Bytes :=
  makeVersionHelloPayload [version] version (ascii "2.0") (ascii "ios") []

/-- The bystander drops the responder, reports a closed connection and relays the ack. -/
theorem bystander_not_left_alone :
    .sent (ackTo 2) ∈ newEvents (handleVersionHello announcer.data.peerID (helloOf 2)) listener ∧
      [announcer.data.peerID, listener.data.peerID, bystander.node.data.peerID].Nodup ∧
      ∃ received, deserializePacket zerosLZ4 (serializePacket zerosLZ4 (fun _ => 0xA5) (ackTo 2)) =
          .ok ⟨received, none⟩ ∧
        ¬ LeftAlone bystander ((onPacketReceived callRecorder received []).exec bystander) := by
  refine ⟨by decide +kernel, by decide +kernel, wireImage zerosLZ4 (ackTo 2), by decide +kernel,
    fun h => ?_⟩
  have hpeers := h.peers
  revert hpeers
  decide +kernel

theorem bystander_left_alone_iff :
    ∃ received, deserializePacket zerosLZ4 (serializePacket zerosLZ4 (fun _ => 0xA5) (ackTo 1)) =
        .ok ⟨received, none⟩ ∧
      (LeftAlone bystander ((onPacketReceived callRecorder received []).exec bystander) ↔
        OnlyPeer (toHex received.senderID) bystander.node.data ∧
          ¬ (Passes bystander.node received ∧
            (¬ ∃ version ∈ [1], version ∈ getSupportedVersions) ∧
            (toHex received.senderID ∈ peerIDs bystander.node ∨
              bystander.node.callbacks.peerDisconnected = true))) :=
  ack_leaves_third_node_iff zerosLZ4 (LZ4.ofBlock_inverts _ _) (fun _ => 0xA5) listener
    [1, 2, 3, 4, 5, 6, 7, 8] (helloOf 1) _ (ackTo 1) rfl (by decide +kernel)
    (by decide +kernel) bystander []

end Bitchat.NetworkService
