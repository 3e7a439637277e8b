import Bitchat.FrameDecoding
import Bitchat.Mesh

/-!
# A packet at the next hop

The decoder unpacks a compressed payload and leaves the compression flag in the packet. The
serializer decides anew whether to compress: if it does not, the next hop takes the plain
payload for a compressed one.
-/

namespace Bitchat.NetworkService

open ByteCursor BigEndian CompressionHelper PacketSerializer

structure ArrivesAs (sent received : BitchatPacket) : Prop where
  version : received.version = sent.version
  type : received.type = sent.type
  ttl : received.ttl.toNat + 1 = sent.ttl.toNat
  timestamp : received.timestamp = sent.timestamp
  flags : received.flags ||| flagIsCompressed = sent.flags ||| flagIsCompressed
  senderID : received.senderID = sent.senderID
  recipientID : received.recipientID = sent.recipientID
  payload : received.payload = sent.payload
  signature : received.signature = sent.signature

/-- Compression makes the payload smaller. -/
def Shrinks (lz4 : LZ4) (payload : Bytes) : Prop :=
  shouldCompress payload = true ∧ (compressData lz4 payload).length < payload.length

instance (lz4 : LZ4) (payload : Bytes) : Decidable (Shrinks lz4 payload) :=
  inferInstanceAs (Decidable (_ ∧ _))

/-- A plain payload that comes out as itself when it is decompressed. -/
def IsOwnBlock (lz4 : LZ4) (payload : Bytes) : Prop :=
  2 ≤ payload.length ∧
    lz4.decompressSafe (payload.drop 2) (ofBytes (payload.take 2)) = some payload

/-- A declared signature was there when the packet was read. -/
def SignatureRead (packet : BitchatPacket) : Prop :=
  packet.hasSignature = true → packet.signature ≠ []

variable {lz4 : LZ4} {p : BitchatPacket}

theorem serializerCompresses_iff {packet : BitchatPacket} :
    serializerCompresses lz4 packet = true ↔ Shrinks lz4 packet.payload := by
  rw [serializerCompresses, compressPayload, Shrinks]
  by_cases hlong : shouldCompress packet.payload = true
  · rw [if_pos hlong]
    by_cases hless : (compressData lz4 packet.payload).length < packet.payload.length
    · exact iff_of_true (by simp [hless]) ⟨hlong, hless⟩
    · exact iff_of_false (by simp [hless]) fun h => hless h.2
  · rw [if_neg hlong]
    exact iff_of_false (by simp) fun h => hlong h.1

theorem not_serializerCompresses (h : ¬ Shrinks lz4 p.payload) :
    serializerCompresses lz4 (relayCopy p) = false :=
  Bool.eq_false_iff.mpr fun hc => h (serializerCompresses_iff.mp hc)

theorem wirePayload_of_not_shrinks (h : ¬ Shrinks lz4 p.payload) :
    wirePayload lz4 (relayCopy p) = p.payload := by
  rw [wirePayload, not_serializerCompresses h]
  rfl

theorem length_wirePayload_of_shrinks (h : Shrinks lz4 p.payload) :
    (wirePayload lz4 (relayCopy p)).length = (compressData lz4 p.payload).length + 2 :=
  length_wirePayload_of_compresses lz4 (serializerCompresses_iff.mpr h)

theorem flags_wireFlags (packet : BitchatPacket) :
    wireFlags lz4 packet ||| flagIsCompressed = packet.flags ||| flagIsCompressed := by
  rw [wireFlags]
  split_ifs
  · rw [UInt8.or_assoc, UInt8.or_self]
  · rfl

/-- Whatever becomes of the payload and of the signature, the rest of the packet arrives. -/
theorem arrivesAs_iff (hwidths : WireWidths p) (httl : 0 < p.ttl) (payload : Bytes)
    (payloadLength : UInt16) (signature : Bytes) :
    ArrivesAs p { wireAddressed lz4 (relayCopy p) with payload, payloadLength, signature } ↔
      payload = p.payload ∧ signature = p.signature := by
  constructor
  · exact fun h => ⟨h.payload, h.signature⟩
  · rintro ⟨hpayload, hsignature⟩
    have hrecipient : wireRecipient (relayCopy p) = p.recipientID := by
      have hwidth := hwidths.recipient
      change (if p.hasRecipient = true then resize p.recipientID 8 else []) = _
      split_ifs at hwidth ⊢
      · exact resize_self hwidth
      · exact (List.length_eq_zero_iff.mp hwidth).symm
    exact
      { version := rfl
        type := rfl
        ttl := Mesh.ttl_relayCopy (UInt8.lt_iff_toNat_lt.mp httl)
        timestamp := rfl
        flags := flags_wireFlags (relayCopy p)
        senderID := resize_self hwidths.sender
        recipientID := hrecipient
        payload := hpayload
        signature := hsignature }

theorem wireSignature_eq_iff (hwidths : WireWidths p) :
    wireSignature (relayCopy p) = p.signature ↔ SignatureRead p := by
  change (if p.hasSignature = true then resize p.signature 64 else []) = _ ↔ _
  unfold SignatureRead
  rcases hwidths.signature with hnone | ⟨hflag, hlength⟩
  · rw [hnone]
    split_ifs with hflag
    · refine iff_of_false (fun h => ?_) fun h => h hflag rfl
      have hlength := congrArg List.length h
      rw [length_resize] at hlength
      cases hlength
    · exact iff_of_true rfl fun h => absurd h hflag
  · rw [if_pos hflag, resize_self hlength]
    refine iff_of_true rfl fun _ hnone => ?_
    rw [hnone] at hlength
    cases hlength

theorem arrivesAs_withDecompressed_iff (hwidths : WireWidths p) (httl : 0 < p.ttl)
    (htwo : 2 ≤ p.payload.length) (decompressed : Option Bytes) :
    ArrivesAs p (withDecompressed (wireImage lz4 (relayCopy p)) decompressed).packet ↔
      decompressed = some p.payload ∧ SignatureRead p := by
  refine (arrivesAs_iff hwidths httl _ _ _).trans
    (and_congr ?_ (wireSignature_eq_iff hwidths))
  cases decompressed with
  | none =>
      refine iff_of_false (fun h => ?_) fun h => by cases h
      rw [← h] at htwo
      cases htwo
  | some payload => exact Option.some_inj.symm

/-- A payload that is flagged as compressed and has no room for its size is not read. -/
theorem decodeFrame_of_short {packet : BitchatPacket}
    (h : (wireHeader lz4 packet).isCompressed = true ∧
      (wireHeader lz4 packet).payloadLength < 2) :
    decodeFrame lz4 (serializeFrame lz4 packet) =
      .ok ⟨wireAddressed lz4 packet, some .compressedTooSmall⟩ := by
  have hread : Decodes (fun data => readBody lz4 data (wireHeader lz4 packet))
      (resize packet.senderID 8 ++ wireRecipient packet)
      ⟨wireAddressed lz4 packet, some .compressedTooSmall⟩ :=
    ((decodes_readAddresses_wire lz4 packet).bind (.ite_pos h (Decodes.pure _))).congr
      (List.append_nil _)
  exact decodeFrame_of_readBody (readBody_serializeFrame hread _ rfl)

theorem isCompressed_wireHeader_of_leftover (hflag : p.isCompressed = true)
    (h : ¬ Shrinks lz4 p.payload) : (wireHeader lz4 (relayCopy p)).isCompressed = true := by
  simp only [BitchatPacket.isCompressed, wireHeader, wireFlags, not_serializerCompresses h]
  exact hflag

theorem payloadLength_wireHeader (h : ¬ Shrinks lz4 p.payload)
    (hmax : p.payload.length ≤ 65535) :
    (wireHeader lz4 (relayCopy p)).payloadLength.toNat = p.payload.length := by
  rw [wireHeader, wirePayload_of_not_shrinks h, UInt16.toNat_ofNat', Nat.mod_eq_of_lt (by omega)]

theorem decodeFrame_of_leftover (hflag : p.isCompressed = true) (h : ¬ Shrinks lz4 p.payload)
    (htwo : 2 ≤ p.payload.length) (hmax : p.payload.length ≤ 65535) :
    decodeFrame lz4 (serializeFrame lz4 (relayCopy p)) =
      .ok (withDecompressed (wireImage lz4 (relayCopy p))
        (lz4.decompressSafe (p.payload.drop 2) (ofBytes (p.payload.take 2)))) := by
  have hwire := wirePayload_of_not_shrinks h
  have hcomp := isCompressed_wireHeader_of_leftover hflag h
  have hlength := payloadLength_wireHeader h hmax
  have hlong : ¬ ((wireHeader lz4 (relayCopy p)).isCompressed = true ∧
      (wireHeader lz4 (relayCopy p)).payloadLength < 2) := by
    rintro ⟨-, hshort⟩
    rw [UInt16.lt_iff_toNat_lt, hlength] at hshort
    exact absurd hshort (Nat.not_lt.mpr htwo)
  have hsize : (p.payload.take 2).length = 2 := by
    rw [List.length_take]
    omega
  have hbytes : ofBytes (p.payload.take 2) < 2 ^ 16 := by
    have hlt := ofBytes_lt (p.payload.take 2)
    rwa [hsize] at hlt
  have hread := decodes_readPayload_compressed lz4 (wireAddressed lz4 (relayCopy p)) hcomp hsize
    (show (p.payload.drop 2).length = _ by
      change _ = (wireHeader lz4 (relayCopy p)).payloadLength.toNat - 2
      rw [List.length_drop, hlength])
  rw [List.take_append_drop, UInt16.toNat_ofNat', Nat.mod_eq_of_lt hbytes] at hread
  have hbody : Decodes (fun data => readBody lz4 data (wireHeader lz4 (relayCopy p)))
      (wireBody lz4 (relayCopy p)) (withDecompressed (wireImage lz4 (relayCopy p))
        (lz4.decompressSafe (p.payload.drop 2) (ofBytes (p.payload.take 2)))) := by
    rw [wireBody, hwire]
    exact (decodes_readAddresses_wire lz4 _).bind (.ite_neg hlong
      (hread.bind (decodes_readSignature_wire lz4 _ _)))
  exact decodeFrame_of_readBody (readBody_serializeFrame hbody [] (List.append_nil _).symm)

/-- A compressed payload arrives unless its length field wraps. -/
theorem decodeFrame_relayCopy_of_shrinks (hlz4 : lz4.Inverts) (h : Shrinks lz4 p.payload)
    (hmax : p.payload.length ≤ 65535) :
    decodeFrame lz4 (serializeFrame lz4 (relayCopy p)) =
      if (compressData lz4 p.payload).length ≤ 65533 then
        .ok ⟨wireImage lz4 (relayCopy p), none⟩
      else .ok ⟨wireAddressed lz4 (relayCopy p), some .compressedTooSmall⟩ := by
  have hcompresses := serializerCompresses_iff.mpr h
  have hholds : FlagHolds lz4 (relayCopy p) := fun _ => hcompresses
  have hlength := length_wirePayload_of_shrinks h
  have hmax' : (relayCopy p).payload.length ≤ 65535 := hmax
  split_ifs with hfits
  · rw [decodeFrame_eq_wireDecoded hholds (by omega), wireDecoded_eq hlz4 hmax']
  · refine decodeFrame_of_short ⟨(isCompressed_wireHeader hholds).trans hcompresses, ?_⟩
    have hless := h.2
    have hwrap : (wirePayload lz4 (relayCopy p)).length = 65536 := by omega
    have hzero : (wireHeader lz4 (relayCopy p)).payloadLength = 0 := by
      rw [wireHeader, hwrap]
      rfl
    rw [hzero]
    decide

theorem decodeFrame_relayCopy_of_plain (hlz4 : lz4.Inverts) (h : ¬ Shrinks lz4 p.payload)
    (hflag : p.isCompressed = false) (hmax : p.payload.length ≤ 65535) :
    decodeFrame lz4 (serializeFrame lz4 (relayCopy p)) =
      .ok ⟨wireImage lz4 (relayCopy p), none⟩ := by
  have hplain : (relayCopy p).isCompressed = false := hflag
  have hmax' : (relayCopy p).payload.length ≤ 65535 := hmax
  have hfits : (wirePayload lz4 (relayCopy p)).length ≤ 65535 := by
    rwa [wirePayload_of_not_shrinks h]
  rw [decodeFrame_eq_wireDecoded (flagHolds_of_plain lz4 hplain) hfits, wireDecoded_eq hlz4 hmax']

/-- Relaying preserves the packet exactly if the compression flag is no leftover, or the
payload happens to be a compressed form of itself, and no part of the packet is cut. -/
theorem relay_preserves_iff (lz4 : LZ4) (hlz4 : lz4.Inverts) (dis : ℕ → UInt8) (x : Bytes)
    (p : BitchatPacket) (hx : deserializePacket lz4 x = .ok ⟨p, none⟩)
    (hvalid : p.isValid = true) (httl : 0 < p.ttl)
    (hpad : MessagePadding.unpad (serializePacket lz4 dis (relayCopy p)) =
      serializeFrame lz4 (relayCopy p)) :
    (∃ d, deserializePacket lz4 (serializePacket lz4 dis (relayCopy p)) = .ok d ∧
        ArrivesAs p d.packet) ↔
      if Shrinks lz4 p.payload then
        (compressData lz4 p.payload).length ≤ 65533 ∧ SignatureRead p
      else if p.isCompressed then
        p.payload = [] ∧ p.signature = [] ∨ IsOwnBlock lz4 p.payload ∧ SignatureRead p
      else SignatureRead p := by
  have hwidths : WireWidths p := wireWidths_of_decodeFrame hx rfl
  have hmax : p.payload.length ≤ 65535 := by
    rw [← ((BitchatPacket.isValid_iff p).mp hvalid).2.1]
    exact Nat.le_of_lt_succ (UInt16.toNat_lt _)
  have hexists : ∀ d, decodeFrame lz4 (serializeFrame lz4 (relayCopy p)) = .ok d →
      ((∃ d, deserializePacket lz4 (serializePacket lz4 dis (relayCopy p)) = .ok d ∧
        ArrivesAs p d.packet) ↔ ArrivesAs p d.packet) := by
    intro d hd
    apply exists_decoded_iff
    rw [deserializePacket, hpad, hd]
  have hwhole : ArrivesAs p (wireImage lz4 (relayCopy p)) ↔ SignatureRead p :=
    (arrivesAs_iff hwidths httl _ _ _).trans
      ((and_iff_right rfl).trans (wireSignature_eq_iff hwidths))
  have hnothing : ArrivesAs p (wireAddressed lz4 (relayCopy p)) ↔
      p.payload = [] ∧ p.signature = [] :=
    (arrivesAs_iff hwidths httl _ _ _).trans (and_congr eq_comm eq_comm)
  by_cases hshrinks : Shrinks lz4 p.payload
  · rw [if_pos hshrinks]
    have hdecoded := decodeFrame_relayCopy_of_shrinks hlz4 hshrinks hmax
    by_cases hfits : (compressData lz4 p.payload).length ≤ 65533
    · rw [if_pos hfits] at hdecoded
      rw [hexists _ hdecoded, hwhole, and_iff_right hfits]
    · rw [if_neg hfits] at hdecoded
      rw [hexists _ hdecoded, hnothing]
      refine iff_of_false (fun h => ?_) fun h => hfits h.1
      have hlong := (shouldCompress_iff _).mp hshrinks.1
      rw [h.1] at hlong
      cases hlong
  rw [if_neg hshrinks]
  cases hflag : p.isCompressed with
  | false =>
      rw [hexists _ (decodeFrame_relayCopy_of_plain hlz4 hshrinks hflag hmax), hwhole]
      rfl
  | true =>
      rw [if_pos rfl]
      by_cases htwo : 2 ≤ p.payload.length
      · have hnonempty : ¬ (p.payload = [] ∧ p.signature = []) := by
          rintro ⟨hnone, -⟩
          rw [hnone] at htwo
          cases htwo
        rw [hexists _ (decodeFrame_of_leftover hflag hshrinks htwo hmax),
          arrivesAs_withDecompressed_iff hwidths httl htwo, or_iff_right hnonempty, IsOwnBlock,
          and_iff_right htwo]
      · have hshort : (wireHeader lz4 (relayCopy p)).payloadLength < 2 := by
          rw [UInt16.lt_iff_toNat_lt, payloadLength_wireHeader hshrinks hmax]
          exact Nat.lt_of_not_le htwo
        rw [hexists _ (decodeFrame_of_short
          ⟨isCompressed_wireHeader_of_leftover hflag hshrinks, hshort⟩), hnothing]
        exact (or_iff_left fun h => htwo h.1.1).symm

def twentyZeros : LZ4 :=
  .ofBlock (List.replicate 20 0) [0x1A, 0x00, 0x01, 0x00, 0x50, 0x00, 0x00, 0x00, 0x00, 0x00]

def smallBlock : Bytes :=
  [1, 4, 7, 0, 0, 0, 0, 0, 0, 0, 1, 4, 0, 12, 9, 9, 9, 9, 9, 9, 9, 9, 0, 20,
    0x1A, 0x00, 0x01, 0x00, 0x50, 0x00, 0x00, 0x00, 0x00, 0x00]

def smallBlockPacket : BitchatPacket where
  type := pktTypeMessage
  timestamp := 1
  flags := flagIsCompressed
  payloadLength := 20
  senderID := List.replicate 8 9
  payload := List.replicate 20 0

/-- The twenty bytes go on uncompressed under the old flag and are lost at the next hop. -/
theorem smallBlock_garbled :
    (twentyZeros.Inverts ∧ deserializePacket twentyZeros smallBlock = .ok ⟨smallBlockPacket, none⟩ ∧
      smallBlockPacket.isValid = true ∧ 0 < smallBlockPacket.ttl ∧
      MessagePadding.unpad
          (serializePacket twentyZeros (fun _ => 0xA5) (relayCopy smallBlockPacket)) =
        serializeFrame twentyZeros (relayCopy smallBlockPacket)) ∧
    ¬ ∃ d, deserializePacket twentyZeros
        (serializePacket twentyZeros (fun _ => 0xA5) (relayCopy smallBlockPacket)) = .ok d ∧
      ArrivesAs smallBlockPacket d.packet := by
  refine ⟨⟨LZ4.ofBlock_inverts _ _, by decide +kernel, by decide +kernel, by decide +kernel,
    by decide +kernel⟩, ?_⟩
  rintro ⟨d, hd, harrives⟩
  have hgarbled : deserializePacket twentyZeros
      (serializePacket twentyZeros (fun _ => 0xA5) (relayCopy smallBlockPacket)) =
        .ok ⟨{ smallBlockPacket with ttl := 6, payloadLength := 0, payload := [] },
          some .decompressionFailed⟩ := by decide +kernel
  have hpayload := harrives.payload
  rw [← Except.ok.inj (hgarbled.symm.trans hd)] at hpayload
  cases hpayload

def plainBlock : Bytes :=
  [1, 4, 7, 0, 0, 0, 0, 0, 0, 0, 1, 0, 0, 20, 9, 9, 9, 9, 9, 9, 9, 9] ++ List.replicate 20 0

theorem relay_preserves_plainBlock :
    ∃ d, deserializePacket twentyZeros (serializePacket twentyZeros (fun _ => 0xA5)
        (relayCopy { smallBlockPacket with flags := 0 })) = .ok d ∧
      ArrivesAs { smallBlockPacket with flags := 0 } d.packet :=
  (relay_preserves_iff twentyZeros (LZ4.ofBlock_inverts _ _) (fun _ => 0xA5) plainBlock
    { smallBlockPacket with flags := 0 } (by decide +kernel) (by decide +kernel)
    (by decide +kernel) (by decide +kernel)).mpr fun h => by cases h

end Bitchat.NetworkService
