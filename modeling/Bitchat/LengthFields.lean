import Bitchat.EndToEnd
import Bitchat.FrameDecoding

/-!
# Length fields of sixteen bits

Three lengths are cast to 16 bits: the length of the payload when a packet is made, its
length on the wire, and the original size of a compressed one. The content of a message is
cut before its length is written, but a payload has more in it than the content, and nothing
bounds the number of mentions.
-/

namespace Bitchat.MessageService

open BigEndian PacketSerializer CompressionHelper

/-- Each field has the length that it stands for. -/
structure LengthFieldsExact (lz4 : LZ4) (packet : BitchatPacket) : Prop where
  made : packet.payloadLength.toNat = packet.payload.length
  written : (frameHeader (serializeFrame lz4 packet)).payloadLength.toNat =
    (wirePayload lz4 packet).length
  original : serializerCompresses lz4 packet = true →
    ofBytes ((wirePayload lz4 packet).take 2) = packet.payload.length

/-- The payload has at most 65535 bytes, and if it has 65535, LZ4 does not save just one. -/
def FitsLengthFields (lz4 : LZ4) (payload : Bytes) : Prop :=
  payload.length ≤ 65535 ∧
    ¬ (payload.length = 65535 ∧ (compressData lz4 payload).length = 65534)

instance (lz4 : LZ4) (payload : Bytes) : Decidable (FitsLengthFields lz4 payload) :=
  inferInstanceAs (Decidable (_ ∧ _))

theorem toNat_ofNat_eq_iff (n : ℕ) : (UInt16.ofNat n).toNat = n ↔ n ≤ 65535 := by
  rw [UInt16.toNat_ofNat']
  constructor
  · intro h
    have hlt := Nat.mod_lt n (show 0 < 2 ^ 16 by decide)
    omega
  · intro h
    exact Nat.mod_eq_of_lt (by omega)

theorem serializerCompresses_iff (lz4 : LZ4) (packet : BitchatPacket) :
    serializerCompresses lz4 packet = true ↔
      (compressData lz4 packet.payload).length < packet.payload.length := by
  constructor
  · intro h
    exact (compressPayload_of_compresses lz4 packet h).2
  · intro hless
    have hlong : shouldCompress packet.payload = true := by
      rw [shouldCompress_iff]
      by_contra hshort
      rw [compressData_of_short lz4 (by omega)] at hless
      omega
    rw [serializerCompresses, compressPayload, if_pos hlong]
    dsimp only
    rw [if_pos hless]

theorem length_wirePayload_le_iff (lz4 : LZ4) {packet : BitchatPacket}
    (hp : packet.payload.length ≤ 65535) :
    (wirePayload lz4 packet).length ≤ 65535 ↔
      ¬ (packet.payload.length = 65535 ∧ (compressData lz4 packet.payload).length = 65534) := by
  have hcompresses := serializerCompresses_iff lz4 packet
  cases hs : serializerCompresses lz4 packet with
  | true =>
      have hless := hcompresses.mp hs
      rw [length_wirePayload_of_compresses lz4 hs]
      omega
  | false =>
      have hmore : ¬ (compressData lz4 packet.payload).length < packet.payload.length := by
        rw [← hcompresses, hs]
        exact Bool.false_ne_true
      rw [wirePayload, hs, if_neg Bool.false_ne_true]
      omega

theorem lengthFieldsExact_iff (lz4 : LZ4) {packet : BitchatPacket}
    (hmade : packet.payloadLength = UInt16.ofNat packet.payload.length) :
    LengthFieldsExact lz4 packet ↔ FitsLengthFields lz4 packet.payload := by
  have hwritten : (frameHeader (serializeFrame lz4 packet)).payloadLength =
      UInt16.ofNat (wirePayload lz4 packet).length := by
    rw [frameHeader_serializeFrame]
    rfl
  constructor
  · rintro ⟨hlength, hwire, -⟩
    rw [hmade, toNat_ofNat_eq_iff] at hlength
    rw [hwritten, toNat_ofNat_eq_iff, length_wirePayload_le_iff lz4 hlength] at hwire
    exact ⟨hlength, hwire⟩
  · rintro ⟨hlength, hwire⟩
    refine ⟨?_, ?_, fun hs => ?_⟩
    · rw [hmade]
      exact (toNat_ofNat_eq_iff _).mpr hlength
    · rw [hwritten]
      exact (toNat_ofNat_eq_iff _).mpr ((length_wirePayload_le_iff lz4 hlength).mpr hwire)
    · rw [wirePayload, if_pos hs, List.take_left' (length_toBytes 2 _), ofBytes_toBytes,
        (toNat_ofNat_eq_iff _).mpr hlength]
      exact Nat.mod_eq_of_lt (by omega)

def fieldLength (s : Bytes) : ℕ := 1 + min 255 s.length

def optionalFieldLength (s : Bytes) : ℕ := if s.isEmpty then 0 else fieldLength s

/-- Every mention is written, however many there are. -/
def mentionsLength (mentions : List Bytes) : ℕ :=
  if mentions.isEmpty then 0 else 1 + (mentions.map fieldLength).sum

def messageLength (uuid : Bytes) (message : BitchatMessage) : ℕ :=
  11 + fieldLength (if message.id.isEmpty then uuid else message.id) +
    fieldLength message.sender + min 65535 message.content.length +
    optionalFieldLength message.originalSender + optionalFieldLength message.recipientNickname +
    optionalFieldLength (StringHelper.toHex message.senderPeerID) +
    mentionsLength message.mentions + optionalFieldLength message.channel

theorem length_fieldBytes (s : Bytes) : (fieldBytes s).length = fieldLength s := by
  rw [fieldBytes, fieldLength, List.length_append, List.length_singleton, List.length_take]
  omega

theorem length_optionalBytes_eq (s : Bytes) : (optionalBytes s).length = optionalFieldLength s := by
  rw [optionalBytes, optionalFieldLength]
  split
  · rfl
  · exact length_fieldBytes s

theorem length_mentionsBytes (mentions : List Bytes) :
    (mentionsBytes mentions).length = mentionsLength mentions := by
  have hfields : mentions.map (fun s => (fieldBytes s).length) = mentions.map fieldLength :=
    List.map_congr_left fun s _ => length_fieldBytes s
  rw [mentionsBytes, mentionsLength]
  split
  · rfl
  · rw [List.length_append, List.length_singleton, List.length_flatMap, hfields]

theorem length_makeMessagePayload_eq (uuid : Bytes) (message : BitchatMessage) :
    (makeMessagePayload uuid message).length = messageLength uuid message := by
  have hcontent : (contentBytes message.content).length = 2 + min 65535 message.content.length := by
    rw [contentBytes, List.length_append, length_toBytes, List.length_take]
    omega
  rw [makeMessagePayload_eq, messageLength]
  simp only [List.length_append, List.length_singleton, length_toBytes, length_fieldBytes,
    length_optionalBytes_eq, length_mentionsBytes, hcontent]
  omega

theorem payload_of_createMessagePacket {lz4 : LZ4} {uuid : Bytes} {message : BitchatMessage}
    {node : Node} {packet : BitchatPacket}
    (hmade : (createMessagePacket lz4 uuid message).result node = .ok packet) :
    packet.payload = compressData lz4 (makeMessagePayload uuid message) ∧
      packet.payloadLength = UInt16.ofNat packet.payload.length := by
  obtain ⟨senderID, type, node', -, rfl⟩ := createMessagePacket_inv (Prod.ext hmade rfl)
  obtain ⟨-, -, -, hpayload, hlength⟩ := carried_messagePacketOf message node'.cryptoService
    (ownPacketOf node' senderID type (compressData lz4 (makeMessagePayload uuid message)))
  rw [hlength, hpayload]
  exact ⟨rfl, rfl⟩

/-- Of the two ways to a packet, the constructor and `createMessagePacket`, neither checks
the length of the payload; the second one has compressed it before. -/
theorem length_fields_exact_iff (lz4 : LZ4) :
    (∀ type payload timestamp, LengthFieldsExact lz4 (.make type payload timestamp) ↔
      FitsLengthFields lz4 payload) ∧
    (∀ uuid message node packet, (createMessagePacket lz4 uuid message).result node = .ok packet →
      (LengthFieldsExact lz4 packet ↔
        FitsLengthFields lz4 (compressData lz4 (makeMessagePayload uuid message)))) ∧
    ∀ uuid message, (makeMessagePayload uuid message).length = messageLength uuid message := by
  refine ⟨?_, ?_, length_makeMessagePayload_eq⟩
  · intro type payload timestamp
    exact lengthFieldsExact_iff lz4 rfl
  · intro uuid message node packet hmade
    obtain ⟨hpayload, hlength⟩ := payload_of_createMessagePacket hmade
    rw [lengthFieldsExact_iff lz4 hlength, hpayload]

theorem exists_packet_connectedNode (lz4 : LZ4) (uuid : Bytes) (message : BitchatMessage)
    (senderID peerID : Bytes) :
    ∃ packet, (createMessagePacket lz4 uuid message).result (connectedNode senderID peerID) =
      .ok packet := by
  have hid : StringHelper.stringToVector (connectedNode senderID peerID).data.peerID =
      .ok senderID := StringHelper.stringToVector_toHex senderID
  obtain ⟨type, node, -, hout⟩ := outcome_createMessagePacket_ok lz4 uuid message hid
  exact ⟨_, congrArg Prod.fst hout⟩

theorem length_fields_exact_shortMessage :
    ∃ packet, (createMessagePacket (.ofBlock [] []) [] shortMessage).result
        (connectedNode [1, 2, 3, 4, 5, 6, 7, 8] [8, 7, 6, 5, 4, 3, 2, 1]) = .ok packet ∧
      LengthFieldsExact (.ofBlock [] []) packet := by
  obtain ⟨packet, hmade⟩ := exists_packet_connectedNode (.ofBlock [] []) [] shortMessage
    [1, 2, 3, 4, 5, 6, 7, 8] [8, 7, 6, 5, 4, 3, 2, 1]
  exact ⟨packet, hmade,
    ((length_fields_exact_iff _).2.1 _ _ _ _ hmade).mpr (by decide +kernel)⟩

def fullMessage : BitchatMessage where
  id := [0x6D]
  sender := [0x61]
  content := (List.range 65535).map noise
  timestamp := 1700000000000

theorem messageLength_fullMessage : messageLength [] fullMessage = 65550 := by
  have hcontent : fullMessage.content.length = 65535 := by
    rw [fullMessage, List.length_map, List.length_range]
  rw [messageLength, hcontent]
  rfl

/-- LZ4 makes its payload of 65550 bytes longer by 259, and the packet says 273. -/
theorem fullMessage_wraps :
    LZ4.storing.Inverts ∧
      ∃ packet, (createMessagePacket .storing [] fullMessage).result
          (connectedNode [1, 2, 3, 4, 5, 6, 7, 8] [8, 7, 6, 5, 4, 3, 2, 1]) = .ok packet ∧
        packet.payload.length = 65809 ∧ packet.payloadLength = 273 ∧
        ¬ LengthFieldsExact .storing packet := by
  obtain ⟨packet, hmade⟩ := exists_packet_connectedNode .storing [] fullMessage
    [1, 2, 3, 4, 5, 6, 7, 8] [8, 7, 6, 5, 4, 3, 2, 1]
  obtain ⟨hpayload, hfield⟩ := payload_of_createMessagePacket hmade
  have hmessage := (length_makeMessagePayload_eq [] fullMessage).trans messageLength_fullMessage
  rw [compressData_storing (by omega)] at hpayload
  have hlong : 15 ≤ (makeMessagePayload [] fullMessage).length := by
    rw [hmessage]
    decide
  have hlength := length_literalBlock hlong
  rw [← hpayload, hmessage] at hlength
  rw [hlength] at hfield
  refine ⟨LZ4.storing_inverts, packet, hmade, hlength, hfield, fun hexact => ?_⟩
  have hequal := hexact.made
  rw [hlength, hfield] at hequal
  exact absurd hequal (by decide)

end Bitchat.MessageService
