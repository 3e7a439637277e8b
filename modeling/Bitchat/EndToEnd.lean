import Bitchat.MessageReception
import Bitchat.MessageRoundTrip
import Bitchat.NoiseHandlers
import Bitchat.PacketRoundTrip

/-!
# A message from one node to another

`createMessagePacket` at the sender, the two codecs of the wire, and the handler at the
receiver, with or without an established session. A payload of at most 100 bytes is not
compressed at all and arrives. A longer one is compressed before it becomes the payload of
the packet, and nobody undoes that.
-/

namespace Bitchat.MessageService

open Effect StringHelper PacketSerializer CompressionHelper

/-- The session chosen for encryption is established at the receiver too. -/
def SessionShared (sender receiver : Node) : Prop :=
  ∀ service, sender.noiseService = some service → service.getEstablishedSessionIDs ≠ [] →
    ∃ service', receiver.noiseService = some service' ∧
      service'.hasEstablishedSession sender.data.peerID = true

structure CarriesPayload (packet : BitchatPacket) (senderID payload : Bytes) : Prop where
  senderID : packet.senderID = senderID
  payload : packet.payload = payload
  isCompressed : packet.isCompressed = false

theorem isCompressed_messagePacketOf (message : BitchatMessage)
    (cryptoService : Option CryptoService) {packet : BitchatPacket}
    (hplain : shouldCompress packet.payload = false) :
    (messagePacketOf message cryptoService packet).isCompressed = false := by
  have hmade : (packet.setCompressed (shouldCompress packet.payload)).isCompressed = false := by
    rw [hplain]
    exact BitchatPacket.isCompressed_setCompressed_false packet
  have haddressed : (if !message.isPrivate then
        { packet.setCompressed (shouldCompress packet.payload) with
          recipientID := List.replicate 8 0xFF }.setHasRecipient true
      else packet.setCompressed (shouldCompress packet.payload)).isCompressed = false := by
    cases message.isPrivate with
    | true => exact hmade
    | false => exact (BitchatPacket.isCompressed_setHasRecipient _).trans hmade
  cases cryptoService with
  | none => exact haddressed
  | some crypto => exact (BitchatPacket.isCompressed_setHasSignature _).trans haddressed

/-- The type of a packet that the receiver takes for a message or can decrypt to one. -/
def IsReadableType (sender : Node) (type : UInt8) : Prop :=
  type = pktTypeMessage ∨ type = pktTypeNoiseEncrypted ∧
    ∃ service, sender.noiseService = some service ∧ service.getEstablishedSessionIDs ≠ []

theorem isReadableType_of_encryptCase {message : BitchatMessage} {sender node : Node} {type : UInt8}
    (h : EncryptCase message sender node type) : IsReadableType sender type := by
  rcases h with ⟨htype, -, -⟩ | ⟨htype, -, service, -, hnoise, hids, -, -⟩
  · exact .inl htype
  · exact .inr ⟨htype, service, hnoise, hids⟩

theorem outcome_createMessagePacket (lz4 : LZ4) (uuid : Bytes) (message : BitchatMessage)
    {sender : Node} {senderID : Bytes} (hpeer : sender.data.peerID = toHex senderID)
    (hshort : (compressData lz4 (makeMessagePayload uuid message)).length ≤ 100) :
    ∃ packet node, (createMessagePacket lz4 uuid message).outcome sender =
        (.ok packet, { node with clockReads := node.clockReads + 2 }) ∧
      CarriesPayload packet senderID (compressData lz4 (makeMessagePayload uuid message)) ∧
      packet.version = pktVersion ∧ EncryptCase message sender node packet.type := by
  have hvector : stringToVector sender.data.peerID = .ok senderID := by
    rw [hpeer, stringToVector_toHex]
  obtain ⟨type, node, hcase, hout⟩ := outcome_createMessagePacket_ok lz4 uuid message hvector
  have hplain : shouldCompress (compressData lz4 (makeMessagePayload uuid message)) = false := by
    rw [Bool.eq_false_iff, Ne, shouldCompress_iff]
    omega
  obtain ⟨hversion, htype, hsender, hpayload, -⟩ := carried_messagePacketOf message
    node.cryptoService (ownPacketOf node senderID type
      (compressData lz4 (makeMessagePayload uuid message)))
  exact ⟨_, node, hout, ⟨hsender, hpayload, isCompressed_messagePacketOf message _ hplain⟩,
    hversion, htype.symm ▸ hcase⟩

/-- The messages that the message parser returned in the course of an effect. -/
def parsedMessages (m : ServiceM Unit) (node : Node) : List BitchatMessage :=
  (newEvents m node).filterMap fun event => match event with
    | .parsed message => some message
    | _ => none

theorem parsedMessages_processMessagePacket (node : Node) {packet : BitchatPacket}
    {parsed : ParsedMessage} (hparse : parseMessagePayload packet.payload = .ok parsed) :
    parsedMessages (processMessagePacket packet) node = [parsed.message] := by
  rw [parsedMessages, newEvents, trace_processMessagePacket node hparse, List.drop_left,
    receptionTrace, notification]
  split_ifs <;> rfl

/-- With an established session a packet is decrypted to a message with the same payload. -/
theorem exec_processNoiseEncryptedPacket {packet : BitchatPacket} {node : Node}
    {service : NoiseService} (hnoise : node.noiseService = some service)
    (hself : toHex packet.senderID ≠ node.data.peerID)
    (hestablished : service.hasEstablishedSession (toHex packet.senderID) = true)
    (hpayload : packet.payload ≠ []) :
    ∃ packet' node', (processNoiseEncryptedPacket packet).exec node =
        (processMessagePacket packet').exec node' ∧
      packet'.payload = packet.payload ∧ node'.trace = node.trace := by
  obtain ⟨service', -, hout⟩ := outcome_processNoiseEncryptedPacket ⟨hnoise, hself⟩ hestablished
  rw [if_neg (by simpa using hpayload)] at hout
  exact ⟨decryptedPacket node packet, _, congrArg Prod.snd hout, rfl, rfl⟩

theorem parsedMessages_dispatch {sender receiver : Node} (hshared : SessionShared sender receiver)
    (hdistinct : receiver.data.peerID ≠ sender.data.peerID) {packet : BitchatPacket}
    (hsender : toHex packet.senderID = sender.data.peerID)
    (htype : IsReadableType sender packet.type) (hpayload : packet.payload ≠ [])
    {parsed : ParsedMessage} (hparse : parseMessagePayload packet.payload = .ok parsed)
    (peripheralID : Bytes) :
    parsedMessages (dispatch packet peripheralID) receiver = [parsed.message] := by
  rcases htype with htype | ⟨htype, service, hservice, hids⟩
  · rw [dispatch_message htype, parsedMessages_processMessagePacket receiver hparse]
  · obtain ⟨service', hnoise, hestablished⟩ := hshared service hservice hids
    obtain ⟨packet', node', hexec, hsame, htrace⟩ := exec_processNoiseEncryptedPacket hnoise
      (hsender ▸ hdistinct.symm) (hsender ▸ hestablished) hpayload
    have hparsed := parsedMessages_processMessagePacket node' (hsame ▸ hparse)
    rw [parsedMessages, newEvents, htrace] at hparsed
    rw [dispatch_encrypted htype, parsedMessages, newEvents, hexec, hparsed]

/-- The sender can make a packet for the message. If the padding of its frame is removed
again, the receiver decodes the packet, and what it parses is the message. -/
def Arrives (lz4 : LZ4) (dis : ℕ → UInt8) (uuid : Bytes) (sender receiver : Node)
    (peripheralID : Bytes) (message : BitchatMessage) : Prop :=
  ∃ packet, (createMessagePacket lz4 uuid message).result sender = .ok packet ∧
    (MessagePadding.unpad (serializePacket lz4 dis packet) = serializeFrame lz4 packet →
      ∃ decoded, deserializePacket lz4 (serializePacket lz4 dis packet) = .ok decoded ∧
        parsedMessages (dispatch decoded.packet peripheralID) receiver = [message])

/-- The frame of a short payload stays below the smallest block, so it is padded. -/
theorem padAppends_of_short (lz4 : LZ4) {packet : BitchatPacket}
    (h : packet.payload.length ≤ 100) :
    MessagePadding.PadAppends (serializeFrame lz4 packet).length := by
  have hwire : wirePayload lz4 packet = packet.payload := by
    rw [wirePayload, if_neg (by simp [serializerCompresses_of_short lz4 h])]
  rw [length_serializeFrame, hwire, MessagePadding.PadAppends]
  split_ifs <;> omega

theorem deserializePacket_of_short (lz4 : LZ4) (dis : ℕ → UInt8) {packet : BitchatPacket}
    (hc : packet.isCompressed = false) (hshort : packet.payload.length ≤ 100) :
    deserializePacket lz4 (serializePacket lz4 dis packet) = .ok ⟨wireImage lz4 packet, none⟩ := by
  have hpad := padAppends_of_short lz4 hshort
  have hw := length_wirePayload_of_padAppends hpad
  have hplain : wireDecompressed lz4 packet = some packet.payload :=
    if_neg (by simp [serializerCompresses_of_short lz4 hshort])
  rw [deserializePacket, unpad_serializePacket lz4 dis hpad,
    decodeFrame_eq_wireDecoded (flagHolds_of_plain lz4 hc) (by omega), wireDecoded, hplain]
  rfl

/-- What the sender's compression leaves, if it is short, is what the receiver parses. -/
theorem arrives_iff {lz4 : LZ4} (hlz4 : lz4.Inverts) (dis : ℕ → UInt8) (uuid : Bytes)
    {sender receiver : Node} {senderID : Bytes} (hpeer : sender.data.peerID = toHex senderID)
    (hlen : senderID.length = 8) (hdistinct : receiver.data.peerID ≠ sender.data.peerID)
    (hshared : SessionShared sender receiver) (peripheralID : Bytes) {message : BitchatMessage}
    {payload : Bytes} (hpayload : compressData lz4 (makeMessagePayload uuid message) = payload)
    (hne : payload ≠ []) (hshort : payload.length ≤ 100) {parsed : ParsedMessage}
    (hparse : parseMessagePayload payload = .ok parsed) :
    Arrives lz4 dis uuid sender receiver peripheralID message ↔ parsed.message = message := by
  obtain ⟨packet, node, hout, hcarries, -, hcase⟩ := outcome_createMessagePacket lz4 uuid message
    hpeer (hpayload ▸ hshort)
  have hmade : (createMessagePacket lz4 uuid message).result sender = .ok packet := by
    rw [result, hout]
  have htype := isReadableType_of_encryptCase hcase
  rw [hpayload] at hcarries
  have hpad := padAppends_of_short lz4 (hcarries.payload ▸ hshort)
  have hread := deserializePacket_of_padAppends hlz4 dis hcarries.isCompressed
    (hcarries.payload ▸ hshort.trans (by omega)) hpad
  have hparsed : parsedMessages (dispatch (wireImage lz4 packet) peripheralID) receiver =
      [parsed.message] := by
    have hsender : toHex (wireImage lz4 packet).senderID = sender.data.peerID := by
      change toHex (resize packet.senderID 8) = _
      rw [hcarries.senderID, resize_self hlen, hpeer]
    have hsame : (wireImage lz4 packet).payload = payload := hcarries.payload
    exact parsedMessages_dispatch hshared hdistinct hsender htype (hsame ▸ hne)
      (hsame ▸ hparse) peripheralID
  constructor
  · rintro ⟨packet', hmade', harrives⟩
    obtain rfl := Except.ok.inj (hmade.symm.trans hmade')
    have hparsed' := (exists_decoded_iff hread).mp (harrives (unpad_serializePacket lz4 dis hpad))
    exact (List.cons.inj (hparsed.symm.trans hparsed')).1
  · rintro rfl
    exact ⟨packet, hmade, fun _ => ⟨_, hread, hparsed⟩⟩

/-- A message within the limits of the format. Its content is limited by the payload. -/
structure FitsFormat (message : BitchatMessage) : Prop where
  id_ne_nil : message.id ≠ []
  isEncrypted : message.isEncrypted = false
  id : message.id.length ≤ 255
  sender : message.sender.length ≤ 255
  originalSender : message.originalSender.length ≤ 255
  recipientNickname : message.recipientNickname.length ≤ 255
  channel : message.channel.length ≤ 255
  senderPeerID : message.senderPeerID.length ≤ 127
  mentions : message.mentions.length ≤ 255
  mention : ∀ mention ∈ message.mentions, mention.length ≤ 255

theorem cut_eq_self {message : BitchatMessage} (hfits : FitsFormat message)
    (hcontent : message.content.length ≤ 65535) : cut message = message := by
  have hmentions : message.mentions.map (fun s => s.take 255) = message.mentions :=
    (List.map_congr_left fun mention hmem =>
      List.take_of_length_le (hfits.mention mention hmem)).trans (List.map_id _)
  rw [cut, List.take_of_length_le hfits.id, List.take_of_length_le hfits.sender,
    List.take_of_length_le hcontent, List.take_of_length_le hfits.originalSender,
    List.take_of_length_le hfits.recipientNickname, List.take_of_length_le hfits.senderPeerID,
    hmentions, List.take_of_length_le hfits.channel]

theorem transmitted_eq_self_iff {message : BitchatMessage} (hfits : FitsFormat message)
    (hcontent : message.content.length ≤ 65535) :
    transmitted message = message ↔ message.encryptedContent = [] := by
  rw [transmitted, cut_eq_self hfits hcontent]
  constructor
  · intro h
    rw [← h]
  · rintro h
    rw [← h]

/-- A message arrives, whatever LZ4 makes of its payload, exactly if the payload is not
compressed in the first place and no content is left out of it. -/
theorem message_arrives_iff (uuid : Bytes) (message : BitchatMessage) (hfits : FitsFormat message)
    (sender receiver : Node) (senderID : Bytes) (hpeer : sender.data.peerID = toHex senderID)
    (hlen : senderID.length = 8) (hdistinct : receiver.data.peerID ≠ sender.data.peerID)
    (hshared : SessionShared sender receiver) (peripheralID : Bytes) :
    (∀ lz4 : LZ4, lz4.Inverts → ∀ dis,
      Arrives lz4 dis uuid sender receiver peripheralID message) ↔
      (makeMessagePayload uuid message).length ≤ 100 ∧ message.encryptedContent = [] := by
  have hlower := length_makeMessagePayload uuid message
  by_cases hshort : (makeMessagePayload uuid message).length ≤ 100
  · have hne : makeMessagePayload uuid message ≠ [] := List.ne_nil_of_length_pos (by omega)
    have hparse : parseMessagePayload (makeMessagePayload uuid message) =
        .ok ⟨transmitted message, none⟩ := by
      rw [parseMessagePayload_of_made,
        readMessage_makeMessagePayload uuid hfits.id_ne_nil hfits.isEncrypted hfits.mentions]
    have harrives : ∀ lz4 : LZ4, lz4.Inverts → ∀ dis,
        (Arrives lz4 dis uuid sender receiver peripheralID message ↔
          message.encryptedContent = []) := fun lz4 hlz4 dis =>
      (arrives_iff hlz4 dis uuid hpeer hlen hdistinct hshared peripheralID
        (compressData_of_short lz4 hshort) hne hshort hparse).trans
        (transmitted_eq_self_iff hfits (by omega))
    constructor
    · intro h
      have hinverts := LZ4.ofBlock_inverts [] []
      exact ⟨hshort, (harrives _ hinverts fun _ => 0).mp (h _ hinverts _)⟩
    · rintro ⟨-, hcontent⟩ lz4 hlz4 dis
      exact (harrives lz4 hlz4 dis).mpr hcontent
  · refine iff_of_false ?_ fun h => hshort h.1
    -- a codec whose block for this payload is a single byte, which parses to an empty message
    intro h
    have hinverts := LZ4.ofBlock_inverts (makeMessagePayload uuid message) [0]
    have hempty := (arrives_iff hinverts (fun _ => 0) uuid hpeer hlen hdistinct hshared
      peripheralID (compressData_ofBlock (by omega) (by simp)) (by simp) (by simp)
      (show parseMessagePayload [0] = .ok ⟨{}, some .payloadTooSmall⟩ from rfl)).mp (h _ hinverts _)
    exact hfits.id_ne_nil (by rw [← hempty])

def establishedSession (peerID : Bytes) : NoiseSessionDefault :=
  { NoiseSessionDefault.make peerID .initiator (Vector.replicate 32 0) 0 with
    sessionEstablished := true, handshakeHash := some (List.replicate 32 0) }

def connectedNode (senderID peerID : Bytes) : Node where
  data := { peerID := toHex senderID, nickname := [] }
  noiseService := some (NoiseService.putSession (toHex peerID)
    (establishedSession (toHex peerID)) { localStaticKey := Vector.replicate 32 0 })
  clock _ := 1700000000000000000

theorem sessionShared_connectedNode (senderID peerID : Bytes) :
    SessionShared (connectedNode senderID peerID) (connectedNode peerID senderID) := by
  intro _ _ _
  refine ⟨_, rfl, NoiseService.hasEstablishedSession_iff.mpr
    ⟨establishedSession (toHex senderID), ?_, rfl⟩⟩
  rw [NoiseService.getSession, NoiseService.putSession, if_neg (AList.notMem_empty _)]
  exact AList.lookup_insert _

def longMessage : BitchatMessage where
  id := [0x6D]
  sender := [0x61]
  content := List.replicate 200 0x61
  timestamp := 1700000000000

/-- The LZ4 block of the payload of `longMessage`: sixteen literals, a run, five literals. -/
def longMessageBlock : Bytes :=
  [0xFF, 0x01] ++ (makeMessagePayload [] longMessage).take 16 ++ [0x01, 0x00, 0xAF, 0x50] ++
    List.replicate 5 0x61

/-- The block is parsed as if it were the payload: the sender's compression is not undone. -/
theorem longMessage_lost :
    FitsFormat longMessage ∧
      SessionShared (connectedNode [1, 2, 3, 4, 5, 6, 7, 8] [8, 7, 6, 5, 4, 3, 2, 1])
        (connectedNode [8, 7, 6, 5, 4, 3, 2, 1] [1, 2, 3, 4, 5, 6, 7, 8]) ∧
      (LZ4.ofBlock (makeMessagePayload [] longMessage) longMessageBlock).Inverts ∧
      ¬ Arrives (LZ4.ofBlock (makeMessagePayload [] longMessage) longMessageBlock) (fun _ => 0) []
          (connectedNode [1, 2, 3, 4, 5, 6, 7, 8] [8, 7, 6, 5, 4, 3, 2, 1])
          (connectedNode [8, 7, 6, 5, 4, 3, 2, 1] [1, 2, 3, 4, 5, 6, 7, 8]) [] longMessage := by
  have hinverts := LZ4.ofBlock_inverts (makeMessagePayload [] longMessage) longMessageBlock
  have hshared := sessionShared_connectedNode [1, 2, 3, 4, 5, 6, 7, 8] [8, 7, 6, 5, 4, 3, 2, 1]
  have hparse : parseMessagePayload longMessageBlock = .ok
      ⟨{ timestamp := 72057594063867877, isRelay := true, isPrivate := true, isEncrypted := true },
        some .idOverflow⟩ := by decide +kernel
  refine ⟨by constructor <;> decide, hshared, hinverts, fun h => ?_⟩
  have hmessage := (arrives_iff hinverts (fun _ => 0) [] rfl rfl (by decide) hshared []
    (compressData_ofBlock (by decide +kernel) (by decide +kernel)) (by decide +kernel)
    (by decide +kernel) hparse).mp h
  exact absurd (congrArg BitchatMessage.id hmessage) (by decide)

def shortMessage : BitchatMessage where
  id := [0x6D]
  sender := [0x61]
  content := [0x68, 0x69]
  timestamp := 1700000000000
  channel := [0x23, 0x61]

/-- A short message arrives through the session of the two nodes. -/
theorem message_arrives_shortMessage :
    FitsFormat shortMessage ∧ ∀ lz4 : LZ4, lz4.Inverts → ∀ dis,
      Arrives lz4 dis [] (connectedNode [1, 2, 3, 4, 5, 6, 7, 8] [8, 7, 6, 5, 4, 3, 2, 1])
        (connectedNode [8, 7, 6, 5, 4, 3, 2, 1] [1, 2, 3, 4, 5, 6, 7, 8]) [] shortMessage := by
  have hfits : FitsFormat shortMessage := by constructor <;> decide
  exact ⟨hfits, (message_arrives_iff [] shortMessage hfits
    (connectedNode [1, 2, 3, 4, 5, 6, 7, 8] [8, 7, 6, 5, 4, 3, 2, 1])
    (connectedNode [8, 7, 6, 5, 4, 3, 2, 1] [1, 2, 3, 4, 5, 6, 7, 8]) [1, 2, 3, 4, 5, 6, 7, 8]
    rfl rfl (by decide)
    (sessionShared_connectedNode [1, 2, 3, 4, 5, 6, 7, 8] [8, 7, 6, 5, 4, 3, 2, 1]) []).mpr
    ⟨by decide, rfl⟩⟩

end Bitchat.MessageService
