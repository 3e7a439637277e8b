import Bitchat.Deduplication
import Bitchat.FrameDecoding

/-!
# Decoding errors and validation

The decoder reports an error by returning the packet as far as it is filled. Validation
rejects such a packet or not depending on its header alone.
-/

namespace Bitchat.PacketSerializer

open ByteCursor BigEndian CompressionHelper

def validated (p : BitchatPacket) : UInt8 × UInt64 × UInt16 × Bytes :=
  (p.version, p.timestamp, p.payloadLength, p.payload)

theorem isValid_congr {p q : BitchatPacket} (h : validated p = validated q) :
    p.isValid = q.isValid := by
  simp only [validated, Prod.mk.injEq] at h
  obtain ⟨hv, ht, hl, hp⟩ := h
  rw [Bool.eq_iff_iff, BitchatPacket.isValid_iff, BitchatPacket.isValid_iff, hv, ht, hl, hp]

theorem isValid_frameHeader (u : Bytes) :
    (frameHeader u).isValid = true ↔ (frameHeader u).version = pktVersion ∧
      (frameHeader u).payloadLength = 0 ∧ (frameHeader u).timestamp ≠ 0 := by
  have hzero : (frameHeader u).payloadLength.toNat = (frameHeader u).payload.length ↔
      (frameHeader u).payloadLength = 0 := by
    rw [← UInt16.toNat_inj]
    rfl
  rw [BitchatPacket.isValid_iff, hzero]

theorem isValid_frameHeader_setPayload (u : Bytes) :
    ((frameHeader u).setPayload []).isValid = true ↔ (frameHeader u).version = pktVersion ∧
      (frameHeader u).timestamp ≠ 0 := by
  rw [BitchatPacket.isValid_iff]
  exact and_congr_right fun _ => and_iff_right rfl

/-- Behind the size check only compressed packets fail: their payload is kept out when its
size field is missing, and replaced by nothing when it cannot be decompressed. -/
theorem readBody_error {lz4 : LZ4} {u : Bytes} {p : BitchatPacket} {d : Decoded} {o o' : ℕ}
    (h : (readBody lz4 u p).run o = .ok (d, o')) (he : d.error ≠ none) :
    p.payloadLength < 2 ∧ validated d.packet = validated p ∨
      ¬ p.payloadLength < 2 ∧ validated d.packet = validated (p.setPayload []) := by
  obtain ⟨senderID, recipientID, o₁, -, -, ⟨hshort, rfl⟩ | ⟨hlong, d₁, o₂, hd, hs⟩⟩ :=
    readBody_ok h
  · exact .inl ⟨hshort.2, rfl⟩
  · obtain ⟨⟨signature, rfl⟩, -⟩ := readSignature_ok hs
    rcases readPayload_ok hd hlong with ⟨payload, error, rfl, -, -, hfailed⟩ | ⟨-, rfl, -⟩
    · obtain ⟨hc, rfl⟩ := hfailed he
      exact .inr ⟨fun hshort => hlong ⟨hc, hshort⟩, rfl⟩
    · exact absurd rfl he

/-- What an error leaves of the packet: nothing, the header, or the header with an empty
payload. -/
theorem decodeFrame_error {lz4 : LZ4} {u : Bytes} {d : Decoded}
    (h : decodeFrame lz4 u = .ok d) (he : d.error ≠ none) :
    u.length < 21 ∧ d.packet = {} ∨
      21 ≤ u.length ∧ (u.length < expectedSize (frameHeader u) ∨
          (frameHeader u).payloadLength < 2) ∧
        validated d.packet = validated (frameHeader u) ∨
      21 ≤ u.length ∧ ¬ (u.length < expectedSize (frameHeader u) ∨
          (frameHeader u).payloadLength < 2) ∧
        validated d.packet = validated ((frameHeader u).setPayload []) := by
  rcases decodeFrame_ok h with ⟨hlen, rfl⟩ | ⟨hlen, hsize, rfl⟩ | ⟨hlen, hsize, o', hbody⟩
  · exact .inl ⟨hlen, rfl⟩
  · exact .inr (.inl ⟨hlen, .inl hsize, rfl⟩)
  · rcases readBody_error hbody he with ⟨hs, hv⟩ | ⟨hs, hv⟩
    · exact .inr (.inl ⟨hlen, .inr hs, hv⟩)
    · exact .inr (.inr ⟨hlen, not_or.mpr ⟨by omega, hs⟩, hv⟩)

end Bitchat.PacketSerializer

namespace Bitchat.MessageService

open Effect PacketSerializer

/-- An error is visible to validation exactly if nothing at all was decoded, the version or
the timestamp is not acceptable, or a payload that is not there was announced. -/
theorem decode_error_dropped_iff (lz4 : LZ4) (x : Bytes) (d : Decoded)
    (hd : deserializePacket lz4 x = .ok d) (he : d.error ≠ none) :
    (d.packet.isValid = false ∧ ∀ (node : Node) (peripheralID : Bytes),
        (processPacket d.packet peripheralID).outcome node = (.ok ⟨⟩, node)) ↔
      (MessagePadding.unpad x).length < 21 ∨
        (frameHeader (MessagePadding.unpad x)).version ≠ pktVersion ∨
        (frameHeader (MessagePadding.unpad x)).timestamp = 0 ∨
        (frameHeader (MessagePadding.unpad x)).payloadLength ≠ 0 ∧
          ((MessagePadding.unpad x).length < expectedSize (frameHeader (MessagePadding.unpad x)) ∨
            (frameHeader (MessagePadding.unpad x)).payloadLength < 2) := by
  have hdropped : (d.packet.isValid = false ∧ ∀ (node : Node) (peripheralID : Bytes),
      (processPacket d.packet peripheralID).outcome node = (.ok ⟨⟩, node)) ↔
        ¬ d.packet.isValid = true := by
    rw [Bool.not_eq_true]
    refine and_iff_left_of_imp fun hinvalid node peripheralID => ?_
    exact outcome_processPacket_of_not_passes (fun h => absurd h.1 (by simp [hinvalid]))
      peripheralID
  rw [hdropped]
  rcases decodeFrame_error hd he with ⟨hshort, hp⟩ | ⟨hlong, hcase, hp⟩ | ⟨hlong, hcase, hp⟩
  · rw [hp]
    exact iff_of_true (by decide) (.inl hshort)
  · -- the payload is empty, so the declared length decides as well
    rw [isValid_congr hp, isValid_frameHeader, or_iff_right (Nat.not_lt.mpr hlong),
      and_iff_left hcase, not_and_or, not_and_or, not_ne_iff]
    exact or_congr_right or_comm
  · -- `setPayload` has made the length that of the empty payload
    rw [isValid_congr hp, isValid_frameHeader_setPayload, or_iff_right (Nat.not_lt.mpr hlong),
      not_and_or, not_ne_iff]
    exact or_congr_right (or_iff_left fun h => hcase h.2).symm

def truncatedAnnounce : Bytes :=
  [1, 1, 7, 0, 0, 0, 0, 0, 0, 0, 1, 2, 0, 0, 9, 9, 9, 9, 9, 9, 0]

/-- The truncated packet is valid and adds a peer without a name. -/
theorem truncatedAnnounce_dispatched :
    ∃ d, deserializePacket zerosLZ4 truncatedAnnounce = .ok d ∧
      d.error = some .sizeMismatch ∧ d.packet.isValid = true ∧
      IsDispatched listener d.packet [] ∧
      ((processPacket d.packet []).exec listener).data.peers.length = 1 :=
  ⟨⟨frameHeader truncatedAnnounce, some .sizeMismatch⟩, by decide +kernel, rfl,
    by decide +kernel, by decide +kernel, by decide +kernel⟩

theorem decode_error_dropped_iff_truncatedAnnounce :
    ((frameHeader truncatedAnnounce).isValid = false ∧ ∀ (node : Node) (peripheralID : Bytes),
        (processPacket (frameHeader truncatedAnnounce) peripheralID).outcome node =
          (.ok ⟨⟩, node)) ↔
      (MessagePadding.unpad truncatedAnnounce).length < 21 ∨
        (frameHeader (MessagePadding.unpad truncatedAnnounce)).version ≠ pktVersion ∨
        (frameHeader (MessagePadding.unpad truncatedAnnounce)).timestamp = 0 ∨
        (frameHeader (MessagePadding.unpad truncatedAnnounce)).payloadLength ≠ 0 ∧
          ((MessagePadding.unpad truncatedAnnounce).length <
              expectedSize (frameHeader (MessagePadding.unpad truncatedAnnounce)) ∨
            (frameHeader (MessagePadding.unpad truncatedAnnounce)).payloadLength < 2) :=
  decode_error_dropped_iff zerosLZ4 truncatedAnnounce
    ⟨frameHeader truncatedAnnounce, some .sizeMismatch⟩ (by decide +kernel) (by decide)

end Bitchat.MessageService
