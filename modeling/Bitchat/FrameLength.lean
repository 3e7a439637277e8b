import Bitchat.StreamReader

/-!
# How long a frame is

The encoder writes 14 bytes of header: version, type and time to live, eight bytes of
timestamp, the flags and two bytes of length. The decoder, the reader of a connection and
`getTotalSize` count 13. The three agree with each other and with no frame.
-/

namespace Bitchat.LinuxBluetoothNetwork

open PacketSerializer

def optionalLength (packet : BitchatPacket) : ℕ :=
  8 * packet.hasRecipient.toNat + 64 * packet.hasSignature.toNat

/-- The four places that know the length of a frame agree on the frame of `packet`. -/
structure LengthsAgree (lz4 : LZ4) (packet : BitchatPacket) : Prop where
  written : (serializeFrame lz4 packet).length =
    21 + optionalLength packet + (declaredLength (serializeFrame lz4 packet)).toNat
  decoder : (serializeFrame lz4 packet).length =
    expectedSize (frameHeader (serializeFrame lz4 packet))
  reader : (serializeFrame lz4 packet).length = declaredSize (serializeFrame lz4 packet)
  total : serializerCompresses lz4 packet = false →
    packet.payloadLength.toNat = packet.payload.length →
    (serializeFrame lz4 packet).length = packet.getTotalSize

theorem getTotalSize_eq (packet : BitchatPacket) :
    packet.getTotalSize = 21 + optionalLength packet + packet.payloadLength.toNat := by
  rw [BitchatPacket.getTotalSize, optionalLength]
  cases packet.hasRecipient <;> cases packet.hasSignature <;> simp <;> omega

variable {lz4 : LZ4} {packet : BitchatPacket}

theorem length_serializeFrame_eq :
    (serializeFrame lz4 packet).length =
      22 + optionalLength packet + (wirePayload lz4 packet).length := by
  rw [length_serializeFrame, optionalLength]
  cases packet.hasRecipient <;> cases packet.hasSignature <;> simp <;> omega

theorem header_le_serializeFrame : 14 ≤ (serializeFrame lz4 packet).length := by
  rw [length_serializeFrame_eq]
  omega

theorem declaredLength_serializeFrame (h : (wirePayload lz4 packet).length ≤ 65535) :
    (declaredLength (serializeFrame lz4 packet)).toNat = (wirePayload lz4 packet).length := by
  rw [declaredLength_eq header_le_serializeFrame, frameHeader_serializeFrame, wireHeader,
    UInt16.toNat_ofNat', Nat.mod_eq_of_lt (by omega)]

theorem expectedSize_serializeFrame (h : (wirePayload lz4 packet).length ≤ 65535) :
    expectedSize (frameHeader (serializeFrame lz4 packet)) + 1 =
      (serializeFrame lz4 packet).length := by
  rw [frameHeader_serializeFrame, expectedSize_wireHeader lz4 h]

theorem declaredSize_serializeFrame (h : (wirePayload lz4 packet).length ≤ 65535) :
    declaredSize (serializeFrame lz4 packet) + 1 = (serializeFrame lz4 packet).length := by
  rw [declaredSize_eq header_le_serializeFrame, expectedSize_serializeFrame h]

theorem getTotalSize_serializeFrame (hplain : serializerCompresses lz4 packet = false)
    (hlength : packet.payloadLength.toNat = packet.payload.length) :
    packet.getTotalSize + 1 = (serializeFrame lz4 packet).length := by
  have hwire : wirePayload lz4 packet = packet.payload := by
    rw [wirePayload, hplain]
    rfl
  rw [getTotalSize_eq, length_serializeFrame_eq, hwire, hlength]
  omega

/-- Every frame is one byte longer than each of the sizes computed for it. -/
theorem frame_lengths_disagree (lz4 : LZ4) (packet : BitchatPacket)
    (h : (wirePayload lz4 packet).length ≤ 65535) :
    ¬ LengthsAgree lz4 packet ∧
      (serializeFrame lz4 packet).length =
        22 + optionalLength packet + (declaredLength (serializeFrame lz4 packet)).toNat ∧
      expectedSize (frameHeader (serializeFrame lz4 packet)) + 1 =
        (serializeFrame lz4 packet).length ∧
      declaredSize (serializeFrame lz4 packet) + 1 = (serializeFrame lz4 packet).length ∧
      (serializerCompresses lz4 packet = false →
        packet.payloadLength.toNat = packet.payload.length →
        packet.getTotalSize + 1 = (serializeFrame lz4 packet).length) := by
  have hdecoder := expectedSize_serializeFrame h
  refine ⟨?_, ?_, hdecoder, declaredSize_serializeFrame h, ?_⟩
  · intro hagree
    have hequal := hagree.decoder
    omega
  · rw [declaredLength_serializeFrame h, length_serializeFrame_eq]
  · intro hplain hlength
    exact getTotalSize_serializeFrame hplain hlength

def addressedAnnouncement : BitchatPacket where
  type := pktTypeAnnounce
  timestamp := 1
  flags := flagHasRecipient
  payloadLength := 2
  senderID := [1, 2, 3, 4, 5, 6, 7, 8]
  recipientID := [0xFF, 0xFF, 0xFF, 0xFF, 0xFF, 0xFF, 0xFF, 0xFF]
  payload := [0x68, 0x69]

theorem addressedAnnouncement_disagrees :
    (wirePayload (.ofBlock [] []) addressedAnnouncement).length ≤ 65535 ∧
      ¬ LengthsAgree (.ofBlock [] []) addressedAnnouncement :=
  ⟨by decide +kernel, (frame_lengths_disagree _ addressedAnnouncement (by decide +kernel)).1⟩

/-- Its frame has 32 bytes where each of the three counts 31. -/
theorem addressedAnnouncement_counted :
    ¬ LengthsAgree (.ofBlock [] []) addressedAnnouncement ∧
      (serializeFrame (.ofBlock [] []) addressedAnnouncement).length = 32 ∧
      expectedSize (frameHeader (serializeFrame (.ofBlock [] []) addressedAnnouncement)) = 31 ∧
      declaredSize (serializeFrame (.ofBlock [] []) addressedAnnouncement) = 31 ∧
      addressedAnnouncement.getTotalSize = 31 := by
  refine ⟨fun hagree => ?_, by decide +kernel, by decide +kernel, by decide +kernel,
    by decide +kernel⟩
  have hlength : (serializeFrame (.ofBlock [] []) addressedAnnouncement).length = 31 :=
    hagree.decoder.trans (by decide +kernel)
  revert hlength
  decide +kernel

end Bitchat.LinuxBluetoothNetwork
