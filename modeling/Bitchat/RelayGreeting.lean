import Bitchat.RelayForwarding
import Bitchat.SessionLifetime

/-!
# What the relay's greetings do to a node

The types of the sketch's greetings are those of a handshake response and of an encrypted
packet at the nodes. Its hello opens a session there, after which the node encrypts, and what
is encrypted the sketch takes for an acknowledgement and does not relay.
-/

namespace Bitchat.RelaySketch

open ByteCursor Effect StringHelper BoundedHistory MessageService PacketSerializer
  CompressionHelper MessagePadding BigEndian

def helloPacket (now : UInt64) : BitchatPacket where
  version := version
  type := typeVersionHello
  ttl := ttl
  timestamp := now
  payloadLength := UInt16.ofNat helloPayload.length
  senderID := senderID
  payload := helloPayload

def ackPacket (timestamp : UInt64) : BitchatPacket where
  version := version
  type := typeVersionAck
  ttl := ttl
  timestamp := timestamp
  senderID := senderID

theorem bigEndian64_eq (value : UInt64) : bigEndian64 value = toBytes 8 value.toNat := by
  have h := writeUint64_eq [] value
  rw [List.nil_append] at h
  rw [← h]
  rfl

theorem wireRecipient_of_plain {packet : BitchatPacket} (h : packet.flags = 0) :
    wireRecipient packet = [] := by
  rw [wireRecipient, BitchatPacket.hasRecipient, h]
  rfl

theorem wireSignature_of_plain {packet : BitchatPacket} (h : packet.flags = 0) :
    wireSignature packet = [] := by
  rw [wireSignature, BitchatPacket.hasSignature, h]
  rfl

theorem resize_senderID : resize senderID 8 = senderID := by decide

theorem serializeFrame_of_plain (lz4 : LZ4) {packet : BitchatPacket} (hflags : packet.flags = 0)
    (hshort : packet.payload.length ≤ 100) :
    serializeFrame lz4 packet =
      headerBytes packet.version packet.type packet.ttl (toBytes 8 packet.timestamp.toNat) 0
          (toBytes 2 (UInt16.ofNat packet.payload.length).toNat) ++
        (resize packet.senderID 8 ++ packet.payload) := by
  have hplain := serializerCompresses_of_short lz4 hshort
  rw [serializeFrame_eq, wirePayload, wireFlags, hplain, wireRecipient_of_plain hflags,
    wireSignature_of_plain hflags, hflags, List.append_nil, List.append_nil]
  rfl

theorem serializeFrame_helloPacket (lz4 : LZ4) (now : UInt64) :
    serializeFrame lz4 (helloPacket now) = makeVersionHelloPacket now := by
  have hshort : helloPayload.length ≤ 100 := by decide
  have hlength : toBytes 2 (UInt16.ofNat helloPayload.length).toNat =
      bigEndian16 (UInt16.ofNat helloPayload.length) := by decide
  rw [serializeFrame_of_plain lz4 rfl hshort, makeVersionHelloPacket, bigEndian64_eq]
  simp only [headerBytes, helloPacket, hlength, resize_senderID, List.append_assoc]
  rfl

theorem serializeFrame_ackPacket (lz4 : LZ4) (timestamp : UInt64) :
    serializeFrame lz4 (ackPacket timestamp) =
      [version, typeVersionAck, ttl] ++ toBytes 8 timestamp.toNat ++ [0] ++ [0, 0] ++ senderID := by
  rw [serializeFrame_of_plain lz4 rfl (Nat.zero_le _)]
  simp only [headerBytes, ackPacket, resize_senderID, List.append_assoc]
  rfl

/-- Frames whose last byte is zero or tells more than their length have nothing taken away. -/
theorem deserializePacket_of_frame (lz4 : LZ4) {packet : BitchatPacket}
    (hflags : packet.flags = 0) (hshort : packet.payload.length ≤ 100)
    (hkeep : unpad (serializeFrame lz4 packet) = serializeFrame lz4 packet)
    (hsender : packet.senderID = senderID) (himage :
      BitchatPacket.setPayload { packet with recipientID := [], signature := [] } packet.payload =
        packet) :
    deserializePacket lz4 (serializeFrame lz4 packet) = .ok ⟨packet, none⟩ := by
  have hplain := serializerCompresses_of_short lz4 hshort
  have hholds : FlagHolds lz4 packet := by
    refine flagHolds_of_plain lz4 ?_
    rw [BitchatPacket.isCompressed, hflags]
    rfl
  have hpayload : wirePayload lz4 packet = packet.payload := by
    rw [wirePayload, hplain]
    rfl
  have hdecompressed : wireDecompressed lz4 packet = some packet.payload := by
    rw [wireDecompressed, hplain]
    rfl
  have hwire : (wireImage lz4 packet).setPayload packet.payload = packet := by
    rw [wireImage, wireFlags, hplain, wireRecipient_of_plain hflags, wireSignature_of_plain hflags,
      hsender, resize_senderID, ← hsender]
    exact himage
  rw [deserializePacket, hkeep, decodeFrame_eq_wireDecoded hholds (by rw [hpayload]; omega),
    wireDecoded, hdecompressed, withDecompressed, Option.getD_some, hwire]
  rfl

/-- The bytes of the sketch's hello are those of a packet, for the decoder of the nodes too. -/
theorem deserializePacket_hello (lz4 : LZ4) (now : UInt64) :
    deserializePacket lz4 (makeVersionHelloPacket now) = .ok ⟨helloPacket now, none⟩ := by
  have hshort : (helloPacket now).payload.length ≤ 100 := Nat.le_of_ble_eq_true rfl
  rw [← serializeFrame_helloPacket lz4]
  refine deserializePacket_of_frame lz4 rfl hshort ?_ rfl rfl
  rw [serializeFrame_helloPacket]
  exact unpad_concat ([version, typeVersionHello, ttl] ++ bigEndian64 now ++ [0] ++
    bigEndian16 (UInt16.ofNat helloPayload.length) ++ senderID ++ helloPayload.dropLast) 0

theorem deserializePacket_ack (lz4 : LZ4) (timestamp : UInt64) :
    deserializePacket lz4 ([version, typeVersionAck, ttl] ++ toBytes 8 timestamp.toNat ++ [0] ++
      [0, 0] ++ senderID) = .ok ⟨ackPacket timestamp, none⟩ := by
  have hshort : (ackPacket timestamp).payload.length ≤ 100 := Nat.zero_le _
  rw [← serializeFrame_ackPacket lz4]
  refine deserializePacket_of_frame lz4 rfl hshort ?_ rfl rfl
  rw [serializeFrame_ackPacket, unpad_eq_self_iff]
  intro b hb
  rw [List.getLast?_append_of_ne_nil _ (by decide)] at hb
  obtain rfl : (0x43 : UInt8) = b := Option.some.inj hb
  refine .inr ?_
  simp only [List.length_append, length_toBytes]
  decide

theorem opens_helloPacket_iff (node : Node) (now : UInt64) :
    MessageService.Opens node (helloPacket now) ↔
      now ≠ 0 ∧ messageID (helloPacket now) ∉ node.data.processedMessages ∧
        toHex senderID ≠ node.data.peerID := by
  have hvalid : (helloPacket now).isValid = true ↔ now ≠ 0 := by
    rw [BitchatPacket.isValid_iff]
    exact ⟨fun h => h.2.2, fun h => ⟨rfl, rfl, h⟩⟩
  constructor
  · intro h
    exact ⟨hvalid.mp h.passes.1, h.passes.2, h.foreign⟩
  · rintro ⟨htime, hnew, hforeign⟩
    exact ⟨⟨hvalid.mpr htime, hnew⟩, .inr rfl, hforeign⟩

/-- A node takes the hello of the sketch for a handshake: it then has a session with the relay,
unless the packet has no timestamp, is remembered or bears the ID of the node. -/
theorem hello_opens_session_iff (lz4 : LZ4) (now : UInt64) (node : Node) (hsettled : Settled node)
    (peripheralID : Bytes) :
    ∃ decoded, deserializePacket lz4 (makeVersionHelloPacket now) = .ok decoded ∧
      decoded.error = none ∧ decoded.packet.type = pktTypeNoiseHandshakeResp ∧ ∀ peerID,
        (hasEstablishedSession ((processPacket decoded.packet peripheralID).exec node) peerID =
            true ↔
          hasEstablishedSession node peerID = true ∨ toHex senderID = peerID ∧ now ≠ 0 ∧
            messageID (helloPacket now) ∉ node.data.processedMessages ∧
            toHex senderID ≠ node.data.peerID) := by
  refine ⟨_, deserializePacket_hello lz4 now, rfl, rfl, fun peerID => ?_⟩
  have hprocess := (established_processPacket hsettled (helloPacket now) peripheralID).2 peerID
  refine hprocess.trans (or_congr_right ?_)
  rw [opens_helloPacket_iff]
  exact and_comm

theorem hello_opens_session_iff_newcomer :
    ∃ decoded, deserializePacket zerosLZ4 (makeVersionHelloPacket 1700000000) = .ok decoded ∧
      decoded.error = none ∧ decoded.packet.type = pktTypeNoiseHandshakeResp ∧ ∀ peerID,
        (hasEstablishedSession ((processPacket decoded.packet []).exec newcomer) peerID = true ↔
          hasEstablishedSession newcomer peerID = true ∨ toHex senderID = peerID ∧
            (1700000000 : UInt64) ≠ 0 ∧
            messageID (helloPacket 1700000000) ∉ newcomer.data.processedMessages ∧
            toHex senderID ≠ newcomer.data.peerID) :=
  hello_opens_session_iff zerosLZ4 1700000000 newcomer (settled_of_hasNoSession ⟨_, rfl, rfl⟩) []

theorem prefix_pad (lz4 : LZ4) (dis : ℕ → UInt8) (packet : BitchatPacket) :
    serializeFrame lz4 packet <+: serializePacket lz4 dis packet := by
  rw [serializePacket, pad]
  dsimp only
  split_ifs
  · exact List.prefix_rfl
  · exact List.prefix_rfl
  · rw [List.append_assoc]
    exact List.prefix_append _ _

theorem prefix_serializePacket (lz4 : LZ4) (dis : ℕ → UInt8) (packet : BitchatPacket) :
    [packet.version, packet.type, packet.ttl] <+: serializePacket lz4 dis packet := by
  refine List.IsPrefix.trans ?_ (prefix_pad lz4 dis packet)
  rw [serializeFrame_eq]
  exact List.prefix_append _ _

theorem hasType_serializePacket_iff (lz4 : LZ4) (dis : ℕ → UInt8) (packet : BitchatPacket)
    (type : UInt8) : HasType type (serializePacket lz4 dis packet) ↔ packet.type = type := by
  obtain ⟨rest, hdata⟩ := prefix_serializePacket lz4 dis packet
  rw [← hdata, HasType]
  simp

theorem exec_onWrite_of_ack {links : Bytes → Link} {sha256 : Bytes → Bytes} {s : Sketch}
    {rx : Bytes} (hfresh : Fresh sha256 s rx) (hack : HasType typeVersionAck rx) :
    (onWrite links sha256 rx).exec s = accept s (identify sha256 rx) := by
  have hhello : ¬ HasType typeVersionHello rx := fun hhello =>
    absurd (Option.some.inj (hhello.2.symm.trans hack.2)) (by decide)
  rw [exec, outcome_onWrite, if_pos hfresh, if_neg hhello, if_pos hack]

/-- The relay puts a new public message of a node into its queue if the node, which had no
sessions, has heard no handshake packet. If it has heard one, and the hello of the relay is
enough, the relay neither queues the message nor answers it. -/
theorem relay_carries_messages_iff (lz4 : LZ4) (dis : ℕ → UInt8) (uuid content channel : Bytes)
    (node : Node) (hnone : HasNoSession node) (actions : List NodeAction) (packet : BitchatPacket)
    (hsent : .sent packet ∈ newEvents (LocalCall.sendMessage lz4 uuid content channel).perform
      (nodeActivity.run node actions)) (links : Bytes → Link) (sha256 : Bytes → Bytes) (s : Sketch)
    (hfresh : Fresh sha256 s (serializePacket lz4 dis packet)) :
    (¬ nodeActivity.SomeStep (fun node action => ∃ peerID, HearsHandshake peerID node action)
        node actions → ((onWrite links sha256 (serializePacket lz4 dis packet)).exec s).packetQueue =
          enter maxQueueSize s.packetQueue (identify sha256 (serializePacket lz4 dis packet))) ∧
      (nodeActivity.SomeStep (fun node action => ∃ peerID, HearsHandshake peerID node action)
        node actions →
          ((onWrite links sha256 (serializePacket lz4 dis packet)).exec s).packetQueue =
              s.packetQueue ∧
            ((onWrite links sha256 (serializePacket lz4 dis packet)).exec s).written =
              s.written) := by
  obtain ⟨htype, -⟩ := carried_sendMessage hsent
  rw [← hasSession_run_iff hnone actions]
  rcases htype with ⟨htype, hnosession⟩ | ⟨htype, hsession⟩
  · have hcarried : Carried (identify sha256 (serializePacket lz4 dis packet)) := by
      refine ⟨fun hhello => ?_, fun hack => ?_⟩
      · have hhello := (hasType_serializePacket_iff lz4 dis packet _).mp hhello
        rw [htype] at hhello
        exact absurd hhello (by decide)
      · have hack := (hasType_serializePacket_iff lz4 dis packet _).mp hack
        rw [htype] at hack
        exact absurd hack (by decide)
    refine ⟨fun _ => ?_, fun hsession => (hnosession hsession).elim⟩
    rw [exec_onWrite_of_carried hfresh hcarried]
  · have hack : HasType typeVersionAck (serializePacket lz4 dis packet) := by
      rw [hasType_serializePacket_iff, htype]
      rfl
    refine ⟨fun hnosession => (hnosession hsession).elim, fun _ => ?_⟩
    rw [exec_onWrite_of_ack hfresh hack]
    exact ⟨rfl, rfl⟩

/-- Behind the hello of the relay the message of the node is lost there. -/
theorem relay_carries_messages_iff_newcomer :
    let actions := [NodeAction.receive (helloPacket 1700000000) []]
    let data := serializePacket zerosLZ4 (fun _ => 0xA5)
      (groupPacket pktTypeNoiseEncrypted (nodeActivity.run newcomer actions))
    (¬ nodeActivity.SomeStep (fun node action => ∃ peerID, HearsHandshake peerID node action)
        newcomer actions → ((onWrite (fun _ => .writable) id data).exec {}).packetQueue =
          enter maxQueueSize [] (identify id data)) ∧
      (nodeActivity.SomeStep (fun node action => ∃ peerID, HearsHandshake peerID node action)
        newcomer actions →
          ((onWrite (fun _ => .writable) id data).exec {}).packetQueue = [] ∧
            ((onWrite (fun _ => .writable) id data).exec {}).written = []) :=
  relay_carries_messages_iff zerosLZ4 (fun _ => 0xA5) greetingID (ascii "hi") (ascii "#a") newcomer
    ⟨_, rfl, rfl⟩ [.receive (helloPacket 1700000000) []] _ (by decide +kernel) (fun _ => .writable)
    id {} (by decide +kernel)

theorem makeVersionAckPacket_serializePacket (lz4 : LZ4) (dis : ℕ → UInt8)
    (packet : BitchatPacket) : makeVersionAckPacket (serializePacket lz4 dis packet) =
      .ok ([version, typeVersionAck, ttl] ++ toBytes 8 packet.timestamp.toNat ++ [0] ++ [0, 0] ++
        senderID) := by
  obtain ⟨rest, hdata⟩ := prefix_pad lz4 dis packet
  rw [serializeFrame_eq, headerBytes] at hdata
  simp only [List.append_assoc] at hdata
  rw [← hdata, makeVersionAckPacket_ok (by simp [length_toBytes])]
  change Except.ok ([version, typeVersionAck, ttl] ++ (toBytes 8 packet.timestamp.toNat ++ _).take 8
    ++ _ ++ _ ++ _) = _
  rw [List.take_left' (length_toBytes _ _)]

theorem result_processPacket_ack (node : Node) (timestamp : UInt64) (peripheralID : Bytes) :
    (processPacket (ackPacket timestamp) peripheralID).result node ≠ .ok ⟨⟩ ↔
      Passes node (ackPacket timestamp) ∧ toHex senderID ≠ node.data.peerID ∧
        ∃ service, node.noiseService = some service ∧
          service.hasEstablishedSession (toHex senderID) = false := by
  by_cases hpass : Passes node (ackPacket timestamp)
  · rw [and_iff_right hpass, result, outcome_processPacket_of_passes hpass,
      dispatch_encrypted rfl]
    by_cases hself : toHex senderID = node.data.peerID
    · have hself' : toHex (ackPacket timestamp).senderID =
          (marked node (ackPacket timestamp)).data.peerID := hself.trans peerID_marked.symm
      rw [processNoiseEncryptedPacket, outcome_onNoisePacket_of_self hself']
      exact iff_of_false (by simp) fun h => h.1 hself
    · cases hnoise : node.noiseService with
      | none =>
          have hmarked : (marked node (ackPacket timestamp)).noiseService = none := hnoise
          rw [processNoiseEncryptedPacket, outcome_onNoisePacket_of_none hmarked]
          exact iff_of_false (by simp) (by simp)
      | some service =>
          have hforeign : IsForeign (marked node (ackPacket timestamp)) (ackPacket timestamp)
              service := isForeign_marked.mpr ⟨hnoise, hself⟩
          cases hestablished : service.hasEstablishedSession (toHex senderID) with
          | false =>
              obtain ⟨what, hthrows⟩ :=
                outcome_processNoiseEncryptedPacket_error hforeign hestablished
              rw [hthrows]
              exact iff_of_true (by simp) ⟨hself, service, rfl, hestablished⟩
          | true =>
              obtain ⟨service', -, hout⟩ :=
                outcome_processNoiseEncryptedPacket hforeign hestablished
              have hempty : (ackPacket timestamp).payload.isEmpty = true := rfl
              rw [hout, if_pos hempty]
              refine iff_of_false (by simp) ?_
              rintro ⟨-, service'', hsome, hnone⟩
              cases hsome
              exact absurd (hestablished.symm.trans hnone) (by simp)
  · rw [result, outcome_processPacket_of_not_passes hpass]
    exact iff_of_false (by simp) fun h => hpass h.1

/-- The relay's answer to a packet of a node is an encrypted packet without content for every
node that hears it. Exactly a node with a noise service and no session with the relay fails
to decrypt it and throws, if the timestamp, taken over from the packet, is new to it. -/
theorem ack_throws_iff (lz4 : LZ4) (dis : ℕ → UInt8) (packet : BitchatPacket) :
    ∃ ack decoded, makeVersionAckPacket (serializePacket lz4 dis packet) = .ok ack ∧
      deserializePacket lz4 ack = .ok decoded ∧ decoded.error = none ∧
      decoded.packet.type = pktTypeNoiseEncrypted ∧ decoded.packet.payload = [] ∧
      decoded.packet.timestamp = packet.timestamp ∧
      ∀ node peripheralID, (processPacket decoded.packet peripheralID).result node ≠ .ok ⟨⟩ ↔
        packet.timestamp ≠ 0 ∧
          messageID (ackPacket packet.timestamp) ∉ node.data.processedMessages ∧
          toHex senderID ≠ node.data.peerID ∧ ∃ service, node.noiseService = some service ∧
            service.hasEstablishedSession (toHex senderID) = false := by
  refine ⟨_, _, makeVersionAckPacket_serializePacket lz4 dis packet,
    deserializePacket_ack lz4 packet.timestamp, rfl, rfl, rfl, rfl, fun node peripheralID => ?_⟩
  have hvalid : (ackPacket packet.timestamp).isValid = true ↔ packet.timestamp ≠ 0 := by
    rw [BitchatPacket.isValid_iff]
    exact ⟨fun h => h.2.2, fun h => ⟨rfl, rfl, h⟩⟩
  rw [result_processPacket_ack, ← and_assoc (a := packet.timestamp ≠ 0)]
  exact and_congr_left fun _ => and_congr_left fun _ => hvalid

end Bitchat.RelaySketch
