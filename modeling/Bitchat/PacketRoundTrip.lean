import Bitchat.PacketSerializer

/-!
# Frames are decoded as they were encoded

`wireImage` is the packet the receiver should see: the sender's packet with its addresses
and its signature cut or extended to their width on the wire, and with the compression flag
set by the serializer. `wireDecoded` is the one it sees, with whatever LZ4 makes of the
payload.
-/

namespace Bitchat.PacketSerializer

open ByteCursor BigEndian CompressionHelper

theorem or_compressed_and : ∀ f : UInt8,
    (f ||| flagIsCompressed) &&& flagHasRecipient = f &&& flagHasRecipient ∧
      (f ||| flagIsCompressed) &&& flagHasSignature = f &&& flagHasSignature ∧
      (f ||| flagIsCompressed) &&& flagIsCompressed = flagIsCompressed :=
  forall_byte (by decide +kernel)

def serializerCompresses (lz4 : LZ4) (packet : BitchatPacket) : Bool :=
  (compressPayload lz4 packet).2.2

theorem compressPayload_of_not (lz4 : LZ4) (packet : BitchatPacket)
    (h : serializerCompresses lz4 packet = false) :
    compressPayload lz4 packet = (packet.payload, 0, false) := by
  unfold serializerCompresses compressPayload at h
  unfold compressPayload
  dsimp only at h ⊢
  split_ifs at h ⊢
  · rfl
  · rfl

theorem compressPayload_of_compresses (lz4 : LZ4) (packet : BitchatPacket)
    (h : serializerCompresses lz4 packet = true) :
    compressPayload lz4 packet =
        (compressData lz4 packet.payload, UInt16.ofNat packet.payload.length, true) ∧
      (compressData lz4 packet.payload).length < packet.payload.length := by
  unfold serializerCompresses compressPayload at h
  unfold compressPayload
  dsimp only at h ⊢
  split_ifs at h ⊢ with _ hlt
  exact ⟨rfl, hlt⟩

theorem serializerCompresses_of_short (lz4 : LZ4) {packet : BitchatPacket}
    (h : packet.payload.length ≤ 100) : serializerCompresses lz4 packet = false := by
  have hs : shouldCompress packet.payload = false := by
    rw [Bool.eq_false_iff, Ne, shouldCompress_iff]
    omega
  rw [serializerCompresses, compressPayload, hs]
  rfl

def wireFlags (lz4 : LZ4) (packet : BitchatPacket) : UInt8 :=
  if serializerCompresses lz4 packet then packet.flags ||| flagIsCompressed else packet.flags

/-- The bytes between the addresses and the signature. -/
def wirePayload (lz4 : LZ4) (packet : BitchatPacket) : Bytes :=
  if serializerCompresses lz4 packet then
    toBytes 2 (UInt16.ofNat packet.payload.length).toNat ++ compressData lz4 packet.payload
  else packet.payload

def wireRecipient (packet : BitchatPacket) : Bytes :=
  if packet.hasRecipient then resize packet.recipientID 8 else []

def wireSignature (packet : BitchatPacket) : Bytes :=
  if packet.hasSignature then resize packet.signature 64 else []

def headerBytes (version type ttl : UInt8) (timestamp : Bytes) (flags : UInt8)
    (payloadLength : Bytes) : Bytes :=
  [version] ++ ([type] ++ ([ttl] ++ (timestamp ++ ([flags] ++ payloadLength))))

theorem serializeFrame_eq (lz4 : LZ4) (packet : BitchatPacket) :
    serializeFrame lz4 packet =
      headerBytes packet.version packet.type packet.ttl (toBytes 8 packet.timestamp.toNat)
          (wireFlags lz4 packet)
          (toBytes 2 (UInt16.ofNat (wirePayload lz4 packet).length).toNat) ++
        ((resize packet.senderID 8 ++ wireRecipient packet) ++
          (wirePayload lz4 packet ++ wireSignature packet)) := by
  cases hc : serializerCompresses lz4 packet with
  | false =>
      simp only [serializeFrame, compressPayload_of_not lz4 packet hc, wireFlags, wirePayload,
        wireRecipient, wireSignature, hc, headerBytes]
      cases packet.hasRecipient <;> cases packet.hasSignature <;> simp
  | true =>
      have hlen : 2 + (compressData lz4 packet.payload).length =
          (compressData lz4 packet.payload).length + 2 := Nat.add_comm _ _
      simp only [serializeFrame, (compressPayload_of_compresses lz4 packet hc).1, wireFlags,
        wirePayload, wireRecipient, wireSignature, hc, headerBytes]
      cases packet.hasRecipient <;> cases packet.hasSignature <;> simp [hlen]

theorem length_headerBytes {version type ttl flags : UInt8} {timestamp payloadLength : Bytes}
    (ht : timestamp.length = 8) (hl : payloadLength.length = 2) :
    (headerBytes version type ttl timestamp flags payloadLength).length = 14 := by
  simp [headerBytes, ht, hl]

theorem length_wireRecipient (packet : BitchatPacket) :
    (wireRecipient packet).length = if packet.hasRecipient then 8 else 0 := by
  unfold wireRecipient
  split_ifs <;> simp

theorem length_wireSignature (packet : BitchatPacket) :
    (wireSignature packet).length = if packet.hasSignature then 64 else 0 := by
  unfold wireSignature
  split_ifs <;> simp

theorem length_serializeFrame (lz4 : LZ4) (packet : BitchatPacket) :
    (serializeFrame lz4 packet).length = 22 + (if packet.hasRecipient then 8 else 0) +
      (wirePayload lz4 packet).length + (if packet.hasSignature then 64 else 0) := by
  rw [serializeFrame_eq]
  simp only [List.length_append, length_headerBytes (length_toBytes _ _) (length_toBytes _ _),
    length_resize, length_wireRecipient, length_wireSignature]
  omega

theorem decodes_readHeader (packet : BitchatPacket) (version type ttl flags : UInt8)
    {timestamp payloadLength : Bytes} (ht : timestamp.length = 8) (hl : payloadLength.length = 2) :
    Decodes (fun data => readHeader data packet)
      (headerBytes version type ttl timestamp flags payloadLength)
      { packet with
        version := version
        type := type
        ttl := ttl
        timestamp := UInt64.ofNat (ofBytes timestamp)
        flags := flags
        payloadLength := UInt16.ofNat (ofBytes payloadLength) } := by
  refine (decodes_next version).bind ((decodes_next type).bind ((decodes_next ttl).bind
    ((decodes_readUint64 ht).bind ((decodes_next flags).bind ?_))))
  exact ((decodes_readUint16 hl).bind (Decodes.pure _)).congr (List.append_nil _)

theorem decodes_readAddresses (packet : BitchatPacket) {senderID recipientID : Bytes}
    (hs : senderID.length = 8)
    (hr : recipientID.length = if packet.hasRecipient then 8 else 0) :
    Decodes (fun data => readAddresses data packet) (senderID ++ recipientID)
      { packet with
        senderID := senderID
        recipientID := if packet.hasRecipient then recipientID else packet.recipientID } := by
  refine (decodes_block hs).bind ?_
  change Decodes (fun data => if packet.hasRecipient = true then _ else _) _ _
  cases hrec : packet.hasRecipient with
  | true =>
      rw [hrec] at hr
      exact .ite_pos rfl (((decodes_block hr).bind (Decodes.pure _)).congr (List.append_nil _))
  | false =>
      rw [hrec] at hr
      obtain rfl := List.length_eq_zero_iff.mp hr
      exact .ite_neg (by simp) (Decodes.pure _)

theorem decodes_readPayload_plain (lz4 : LZ4) (packet : BitchatPacket)
    (hc : packet.isCompressed = false) {payload : Bytes}
    (hlen : payload.length = packet.payloadLength.toNat) :
    Decodes (fun data => readPayload lz4 data packet) payload
      ⟨packet.setPayload payload, none⟩ := by
  refine .ite_neg (by simp [hc]) (.get_ite_pos ?_ ?_)
  · intro before after
    simp only [List.length_append, hlen]
    omega
  · exact ((decodes_block hlen).bind (Decodes.pure _)).congr (List.append_nil _)

def withDecompressed (packet : BitchatPacket) (decompressed : Option Bytes) : Decoded :=
  ⟨packet.setPayload (decompressed.getD []),
    if decompressed.isNone then some .decompressionFailed else none⟩

theorem decodes_readPayload_compressed (lz4 : LZ4) (packet : BitchatPacket)
    (hc : packet.isCompressed = true) {size compressed : Bytes} (hsize : size.length = 2)
    (hlen : compressed.length = packet.payloadLength.toNat - 2) :
    Decodes (fun data => readPayload lz4 data packet) (size ++ compressed)
      (withDecompressed packet
        (lz4.decompressSafe compressed (UInt16.ofNat (ofBytes size)).toNat)) := by
  refine .ite_pos hc ((decodes_readUint16 hsize).bind ?_)
  refine ((decodes_block hlen).bind ?_).congr (List.append_nil _)
  have hd : ∀ n, decompressData lz4 compressed n = (lz4.decompressSafe compressed n).getD [] := by
    intro n
    rw [decompressData]
    cases lz4.decompressSafe compressed n <;> rfl
  simp only [hd]
  exact Decodes.pure _

theorem decodes_readSignature (decoded : Decoded) {signature : Bytes}
    (hlen : signature.length = if decoded.packet.hasSignature then 64 else 0) :
    Decodes (fun data => readSignature data decoded) signature
      { decoded with packet := { decoded.packet with
          signature :=
            if decoded.packet.hasSignature then signature else decoded.packet.signature } } := by
  cases hs : decoded.packet.hasSignature with
  | true =>
      rw [hs] at hlen
      refine .get_ite_pos ?_
        (((decodes_block hlen).bind (Decodes.pure _)).congr (List.append_nil _))
      intro before after
      simp only [List.length_append, hlen, hs]
      simp
  | false =>
      rw [hs] at hlen
      obtain rfl := List.length_eq_zero_iff.mp hlen
      refine .get_ite_neg ?_ (Decodes.pure _)
      simp [hs]

/-- The packet that leaves the decoder at the other end. -/
def wireImage (lz4 : LZ4) (packet : BitchatPacket) : BitchatPacket :=
  { packet with
    flags := wireFlags lz4 packet
    payloadLength := UInt16.ofNat packet.payload.length
    senderID := resize packet.senderID 8
    recipientID := wireRecipient packet
    signature := wireSignature packet }

/-- The header of the frame, as the decoder holds it before the size check. -/
def wireHeader (lz4 : LZ4) (packet : BitchatPacket) : BitchatPacket where
  version := packet.version
  type := packet.type
  ttl := packet.ttl
  timestamp := packet.timestamp
  flags := wireFlags lz4 packet
  payloadLength := UInt16.ofNat (wirePayload lz4 packet).length

theorem hasRecipient_wireHeader (lz4 : LZ4) (packet : BitchatPacket) :
    (wireHeader lz4 packet).hasRecipient = packet.hasRecipient := by
  simp only [BitchatPacket.hasRecipient, wireHeader, wireFlags]
  split_ifs
  · rw [(or_compressed_and packet.flags).1]
  · rfl

theorem hasSignature_wireHeader (lz4 : LZ4) (packet : BitchatPacket) :
    (wireHeader lz4 packet).hasSignature = packet.hasSignature := by
  simp only [BitchatPacket.hasSignature, wireHeader, wireFlags]
  split_ifs
  · rw [(or_compressed_and packet.flags).2.1]
  · rfl

/-- The serializer sets the compression flag and never clears it: a packet that has it must
be compressed again. -/
def FlagHolds (lz4 : LZ4) (packet : BitchatPacket) : Prop :=
  packet.isCompressed = true → serializerCompresses lz4 packet = true

theorem flagHolds_of_plain (lz4 : LZ4) {packet : BitchatPacket}
    (h : packet.isCompressed = false) : FlagHolds lz4 packet :=
  fun hc => absurd hc (by simp [h])

theorem isCompressed_wireHeader {lz4 : LZ4} {packet : BitchatPacket}
    (hc : FlagHolds lz4 packet) :
    (wireHeader lz4 packet).isCompressed = serializerCompresses lz4 packet := by
  cases hs : serializerCompresses lz4 packet with
  | true =>
      simp only [BitchatPacket.isCompressed, wireHeader, wireFlags, hs, if_true]
      rw [(or_compressed_and packet.flags).2.2]
      rfl
  | false =>
      have hplain : packet.isCompressed = false := by
        rw [Bool.eq_false_iff]
        exact fun h => absurd (hc h) (by simp [hs])
      simp only [BitchatPacket.isCompressed, wireHeader, wireFlags, hs] at hplain ⊢
      exact hplain

theorem length_wirePayload_of_compresses (lz4 : LZ4) {packet : BitchatPacket}
    (h : serializerCompresses lz4 packet = true) :
    (wirePayload lz4 packet).length = (compressData lz4 packet.payload).length + 2 := by
  simp only [wirePayload, h, if_true, List.length_append, length_toBytes, Nat.add_comm]

theorem length_wirePayload_le (lz4 : LZ4) (packet : BitchatPacket) :
    (wirePayload lz4 packet).length ≤ packet.payload.length + 1 := by
  cases h : serializerCompresses lz4 packet with
  | false =>
      rw [wirePayload, h]
      exact Nat.le_succ _
  | true =>
      have hless := (compressPayload_of_compresses lz4 packet h).2
      rw [length_wirePayload_of_compresses lz4 h]
      omega

/-- The payload behind the decompression, which is told the original size modulo `2 ^ 16`. -/
def wireDecompressed (lz4 : LZ4) (packet : BitchatPacket) : Option Bytes :=
  if serializerCompresses lz4 packet then
    lz4.decompressSafe (compressData lz4 packet.payload)
      (UInt16.ofNat packet.payload.length).toNat
  else some packet.payload

theorem wireDecompressed_eq {lz4 : LZ4} (hlz4 : lz4.Inverts) {packet : BitchatPacket}
    (hp : packet.payload.length ≤ 65535) : wireDecompressed lz4 packet = some packet.payload := by
  unfold wireDecompressed
  split_ifs with hs
  · rw [UInt16.toNat_ofNat', Nat.mod_eq_of_lt (by omega)]
    exact decompressSafe_compressData hlz4 le_rfl (compressPayload_of_compresses lz4 packet hs).2
  · rfl

theorem decodes_readPayload_wirePayload {lz4 : LZ4} {packet : BitchatPacket}
    (hc : FlagHolds lz4 packet) (hw : (wirePayload lz4 packet).length ≤ 65535)
    (received : BitchatPacket) (hflags : received.flags = (wireHeader lz4 packet).flags)
    (hlen : received.payloadLength = (wireHeader lz4 packet).payloadLength) :
    Decodes (fun data => readPayload lz4 data received) (wirePayload lz4 packet)
      (withDecompressed received (wireDecompressed lz4 packet)) := by
  have hcomp : received.isCompressed = serializerCompresses lz4 packet := by
    rw [← isCompressed_wireHeader hc, BitchatPacket.isCompressed, hflags]
    rfl
  have hlen' : received.payloadLength.toNat = (wirePayload lz4 packet).length := by
    rw [hlen, wireHeader, UInt16.toNat_ofNat', Nat.mod_eq_of_lt (by omega)]
  cases hs : serializerCompresses lz4 packet with
  | false =>
      have hwire : wirePayload lz4 packet = packet.payload := by
        rw [wirePayload, hs]
        rfl
      have hd : wireDecompressed lz4 packet = some packet.payload := by
        rw [wireDecompressed, hs]
        rfl
      rw [hwire] at hlen' ⊢
      rw [hd]
      exact decodes_readPayload_plain lz4 received (hcomp.trans hs) hlen'.symm
  | true =>
      have hwire : wirePayload lz4 packet =
          toBytes 2 (UInt16.ofNat packet.payload.length).toNat ++
            compressData lz4 packet.payload := by
        rw [wirePayload, if_pos hs]
      rw [length_wirePayload_of_compresses lz4 hs] at hlen'
      have hread := decodes_readPayload_compressed lz4 received (hcomp.trans hs)
        (length_toBytes 2 (UInt16.ofNat packet.payload.length).toNat)
        (show (compressData lz4 packet.payload).length = _ by omega)
      rw [ofBytes_toBytes_uint16] at hread
      rw [hwire, wireDecompressed, if_pos hs]
      exact hread

theorem readHeader_serializeFrame (lz4 : LZ4) (packet : BitchatPacket) :
    (readHeader (serializeFrame lz4 packet) {}).run 0 = .ok (wireHeader lz4 packet, 14) := by
  have hread := (decodes_readHeader {} packet.version packet.type packet.ttl
    (wireFlags lz4 packet) (length_toBytes 8 packet.timestamp.toNat)
    (length_toBytes 2 (UInt16.ofNat (wirePayload lz4 packet).length).toNat)).run_zero
      ((resize packet.senderID 8 ++ wireRecipient packet) ++
        (wirePayload lz4 packet ++ wireSignature packet))
  rw [← serializeFrame_eq, length_headerBytes (length_toBytes _ _) (length_toBytes _ _)] at hread
  rw [hread, wireHeader, ofBytes_toBytes_uint64, ofBytes_toBytes_uint16]

def wireAddressed (lz4 : LZ4) (packet : BitchatPacket) : BitchatPacket :=
  { wireHeader lz4 packet with
    senderID := resize packet.senderID 8
    recipientID := wireRecipient packet }

theorem decodes_readAddresses_wire (lz4 : LZ4) (packet : BitchatPacket) :
    Decodes (fun data => readAddresses data (wireHeader lz4 packet))
      (resize packet.senderID 8 ++ wireRecipient packet) (wireAddressed lz4 packet) := by
  have hrec : (wireRecipient packet).length =
      if (wireHeader lz4 packet).hasRecipient then 8 else 0 := by
    rw [hasRecipient_wireHeader, length_wireRecipient]
  have hread := decodes_readAddresses (wireHeader lz4 packet) (length_resize packet.senderID 8) hrec
  have hid : (if (wireHeader lz4 packet).hasRecipient then wireRecipient packet
      else (wireHeader lz4 packet).recipientID) = wireRecipient packet := by
    rw [hasRecipient_wireHeader, wireRecipient]
    split_ifs <;> rfl
  rw [hid] at hread
  exact hread

def wireDecoded (lz4 : LZ4) (packet : BitchatPacket) : Decoded :=
  withDecompressed (wireImage lz4 packet) (wireDecompressed lz4 packet)

theorem wireDecoded_eq {lz4 : LZ4} (hlz4 : lz4.Inverts) {packet : BitchatPacket}
    (hp : packet.payload.length ≤ 65535) :
    wireDecoded lz4 packet = ⟨wireImage lz4 packet, none⟩ := by
  rw [wireDecoded, wireDecompressed_eq hlz4 hp]
  rfl

theorem decodes_readSignature_wire (lz4 : LZ4) (packet : BitchatPacket)
    (decompressed : Option Bytes) :
    Decodes (fun data => readSignature data
        (withDecompressed (wireAddressed lz4 packet) decompressed))
      (wireSignature packet) (withDecompressed (wireImage lz4 packet) decompressed) := by
  have hsig : (wireSignature packet).length =
      if (wireHeader lz4 packet).hasSignature then 64 else 0 := by
    rw [hasSignature_wireHeader, length_wireSignature]
  have hread := decodes_readSignature
    (withDecompressed (wireAddressed lz4 packet) decompressed) hsig
  have hid : (if (wireHeader lz4 packet).hasSignature then wireSignature packet
      else (wireHeader lz4 packet).signature) = wireSignature packet := by
    rw [hasSignature_wireHeader, wireSignature]
    split_ifs <;> rfl
  change Decodes _ _ { withDecompressed (wireImage lz4 packet) decompressed with
    packet := { (withDecompressed (wireImage lz4 packet) decompressed).packet with
      signature := if (wireHeader lz4 packet).hasSignature then wireSignature packet
        else (wireHeader lz4 packet).signature } } at hread
  rw [hid] at hread
  exact hread

theorem not_short_wireHeader {lz4 : LZ4} {packet : BitchatPacket}
    (hc : FlagHolds lz4 packet) (hw : (wirePayload lz4 packet).length ≤ 65535) :
    ¬ ((wireHeader lz4 packet).isCompressed = true ∧
      (wireHeader lz4 packet).payloadLength < 2) := by
  rintro ⟨hcomp, hshort⟩
  rw [isCompressed_wireHeader hc] at hcomp
  have hlen := length_wirePayload_of_compresses lz4 hcomp
  rw [wireHeader, UInt16.lt_iff_toNat_lt, UInt16.toNat_ofNat',
    Nat.mod_eq_of_lt (by omega)] at hshort
  change _ < 2 at hshort
  omega

theorem decodes_readBody {lz4 : LZ4} {packet : BitchatPacket} (hc : FlagHolds lz4 packet)
    (hw : (wirePayload lz4 packet).length ≤ 65535) :
    Decodes (fun data => readBody lz4 data (wireHeader lz4 packet))
      ((resize packet.senderID 8 ++ wireRecipient packet) ++
        (wirePayload lz4 packet ++ wireSignature packet)) (wireDecoded lz4 packet) := by
  exact (decodes_readAddresses_wire lz4 packet).bind (.ite_neg (not_short_wireHeader hc hw)
    ((decodes_readPayload_wirePayload hc hw (wireAddressed lz4 packet) rfl rfl).bind
      (decodes_readSignature_wire lz4 packet _)))

theorem expectedSize_wireHeader (lz4 : LZ4) {packet : BitchatPacket}
    (hw : (wirePayload lz4 packet).length ≤ 65535) :
    expectedSize (wireHeader lz4 packet) + 1 = (serializeFrame lz4 packet).length := by
  rw [length_serializeFrame, expectedSize, hasRecipient_wireHeader, hasSignature_wireHeader,
    wireHeader, UInt16.toNat_ofNat', Nat.mod_eq_of_lt (by omega)]
  omega

theorem validatePacketSize_serializeFrame (lz4 : LZ4) (packet : BitchatPacket) :
    validatePacketSize (serializeFrame lz4 packet) (expectedSize (wireHeader lz4 packet)) =
      true := by
  have hmod : (wireHeader lz4 packet).payloadLength.toNat ≤ (wirePayload lz4 packet).length := by
    rw [wireHeader, UInt16.toNat_ofNat']
    exact Nat.mod_le _ _
  rw [validatePacketSize, decide_eq_true_eq, length_serializeFrame, expectedSize,
    hasRecipient_wireHeader, hasSignature_wireHeader]
  omega

theorem decodeFrame_of_readBody {lz4 : LZ4} {packet : BitchatPacket} {d : Decoded} {offset : ℕ}
    (h : (readBody lz4 (serializeFrame lz4 packet) (wireHeader lz4 packet)).run 14 =
      .ok (d, offset)) : decodeFrame lz4 (serializeFrame lz4 packet) = .ok d := by
  have hlen := length_serializeFrame lz4 packet
  rw [decodeFrame, if_neg (by omega), StateT.run'_eq, StateT.run_bind, readHeader_serializeFrame]
  change (fun x => x.1) <$> (if !validatePacketSize _ (expectedSize (wireHeader lz4 packet))
    then _ else _ : Reader Decoded).run 14 = _
  rw [validatePacketSize_serializeFrame, if_neg (by simp), h]
  rfl

def wireBody (lz4 : LZ4) (packet : BitchatPacket) : Bytes :=
  (resize packet.senderID 8 ++ wireRecipient packet) ++
    (wirePayload lz4 packet ++ wireSignature packet)

theorem readBody_serializeFrame {lz4 : LZ4} {packet : BitchatPacket} {d : Decoded} {enc : Bytes}
    (h : Decodes (fun data => readBody lz4 data (wireHeader lz4 packet)) enc d) (after : Bytes)
    (hbody : wireBody lz4 packet = enc ++ after) :
    (readBody lz4 (serializeFrame lz4 packet) (wireHeader lz4 packet)).run 14 =
      .ok (d, 14 + enc.length) := by
  have hrun := h (headerBytes packet.version packet.type packet.ttl
    (toBytes 8 packet.timestamp.toNat) (wireFlags lz4 packet)
    (toBytes 2 (UInt16.ofNat (wirePayload lz4 packet).length).toNat)) after
  rwa [List.append_assoc, ← hbody, wireBody, ← serializeFrame_eq,
    length_headerBytes (length_toBytes _ _) (length_toBytes _ _)] at hrun

/-- The decoder undoes the encoder, except for the compression, on every frame whose length
field does not wrap. -/
theorem decodeFrame_eq_wireDecoded {lz4 : LZ4} {packet : BitchatPacket}
    (hc : FlagHolds lz4 packet) (hw : (wirePayload lz4 packet).length ≤ 65535) :
    decodeFrame lz4 (serializeFrame lz4 packet) = .ok (wireDecoded lz4 packet) :=
  decodeFrame_of_readBody (readBody_serializeFrame (decodes_readBody hc hw) []
    (List.append_nil _).symm)

theorem exists_decoded_iff {lz4 : LZ4} {data : Bytes} {decoded : Decoded}
    (h : deserializePacket lz4 data = .ok decoded) {P : Decoded → Prop} :
    (∃ d, deserializePacket lz4 data = .ok d ∧ P d) ↔ P decoded := by
  constructor
  · rintro ⟨d, hd, hP⟩
    obtain rfl := Except.ok.inj (h.symm.trans hd)
    exact hP
  · exact fun hP => ⟨decoded, h, hP⟩

theorem deserializePacket_of_unpad {lz4 : LZ4} (hlz4 : lz4.Inverts) {dis : ℕ → UInt8}
    {packet : BitchatPacket} (hc : FlagHolds lz4 packet)
    (hp : packet.payload.length ≤ 65535) (hw : (wirePayload lz4 packet).length ≤ 65535)
    (hpad : MessagePadding.unpad (serializePacket lz4 dis packet) = serializeFrame lz4 packet) :
    deserializePacket lz4 (serializePacket lz4 dis packet) = .ok ⟨wireImage lz4 packet, none⟩ := by
  rw [deserializePacket, hpad, decodeFrame_eq_wireDecoded hc hw, wireDecoded_eq hlz4 hp]

theorem unpad_serializePacket (lz4 : LZ4) (dis : ℕ → UInt8) {packet : BitchatPacket}
    (hpad : MessagePadding.PadAppends (serializeFrame lz4 packet).length) :
    MessagePadding.unpad (serializePacket lz4 dis packet) = serializeFrame lz4 packet := by
  obtain ⟨hlo, hhi⟩ := (MessagePadding.padAppends_iff _).mp hpad
  exact MessagePadding.unpad_pad dis hlo hhi

theorem length_wirePayload_of_padAppends {lz4 : LZ4} {packet : BitchatPacket}
    (hpad : MessagePadding.PadAppends (serializeFrame lz4 packet).length) :
    (wirePayload lz4 packet).length ≤ 2010 := by
  rw [length_serializeFrame, MessagePadding.PadAppends] at hpad
  omega

theorem deserializePacket_of_padAppends {lz4 : LZ4} (hlz4 : lz4.Inverts) (dis : ℕ → UInt8)
    {packet : BitchatPacket} (hc : packet.isCompressed = false)
    (hp : packet.payload.length ≤ 65535)
    (hpad : MessagePadding.PadAppends (serializeFrame lz4 packet).length) :
    deserializePacket lz4 (serializePacket lz4 dis packet) = .ok ⟨wireImage lz4 packet, none⟩ := by
  have hw := length_wirePayload_of_padAppends hpad
  exact deserializePacket_of_unpad hlz4 (flagHolds_of_plain lz4 hc) hp (by omega)
    (unpad_serializePacket lz4 dis hpad)

/-- Packets survive the wire up to the width of their addresses and of their signature,
for every content of the random padding. -/
theorem deserializePacket_serializePacket (lz4 : LZ4) (hlz4 : lz4.Inverts) (dis : ℕ → UInt8)
    (p : BitchatPacket) (hc : p.isCompressed = false) (hp : p.payload.length ≤ 65535)
    (hlo : (serializeFrame lz4 p).length + 1 ≤
      MessagePadding.optimalBlockSize (serializeFrame lz4 p).length)
    (hhi : MessagePadding.optimalBlockSize (serializeFrame lz4 p).length ≤
      (serializeFrame lz4 p).length + 255) :
    ∃ q, deserializePacket lz4 (serializePacket lz4 dis p) = .ok ⟨q, none⟩ ∧
      q.version = p.version ∧ q.type = p.type ∧ q.ttl = p.ttl ∧ q.timestamp = p.timestamp ∧
      q.flags = (if serializerCompresses lz4 p then p.flags ||| flagIsCompressed else p.flags) ∧
      q.payload = p.payload ∧ q.payloadLength.toNat = p.payload.length ∧
      q.senderID = resize p.senderID 8 ∧
      q.recipientID = (if p.hasRecipient then resize p.recipientID 8 else []) ∧
      q.signature = (if p.hasSignature then resize p.signature 64 else []) := by
  have hread := deserializePacket_of_padAppends hlz4 dis hc hp
    ((MessagePadding.padAppends_iff _).mpr ⟨hlo, hhi⟩)
  refine ⟨wireImage lz4 p, hread, rfl, rfl, rfl, rfl, rfl, rfl, ?_, rfl, rfl, rfl⟩
  rw [wireImage, UInt16.toNat_ofNat', Nat.mod_eq_of_lt (by omega)]

def zerosLZ4 : LZ4 :=
  .ofBlock (List.replicate 200 0)
    [0x1F, 0x00, 0x01, 0x00, 0xAF, 0x50, 0x00, 0x00, 0x00, 0x00, 0x00]

/-- A compressed packet with a recipient, a short sender ID and a long signature. -/
def zerosPacket : BitchatPacket where
  type := pktTypeMessage
  timestamp := 1
  flags := flagHasRecipient ||| flagHasSignature
  payloadLength := 200
  senderID := [1, 2, 3]
  recipientID := [9, 9, 9, 9, 9, 9, 9, 9, 9]
  payload := List.replicate 200 0
  signature := List.replicate 70 5

theorem deserializePacket_zerosPacket :
    ∃ q, deserializePacket zerosLZ4 (serializePacket zerosLZ4 (fun _ => 0xA5) zerosPacket) =
        .ok ⟨q, none⟩ ∧
      q.version = 1 ∧ q.type = 0x04 ∧ q.ttl = 7 ∧ q.timestamp = 1 ∧ q.flags = 7 ∧
      q.payload = List.replicate 200 0 ∧ q.payloadLength.toNat = 200 ∧
      q.senderID = [1, 2, 3, 0, 0, 0, 0, 0] ∧ q.recipientID = List.replicate 8 9 ∧
      q.signature = List.replicate 64 5 := by
  obtain ⟨q, hread, hv, ht, httl, hts, hflags, hpay, hlen, hsender, hrecipient, hsignature⟩ :=
    deserializePacket_serializePacket zerosLZ4 (LZ4.ofBlock_inverts _ _) (fun _ => 0xA5)
      zerosPacket rfl (by decide +kernel) (by decide +kernel) (by decide +kernel)
  exact ⟨q, hread, hv, ht, httl, hts, hflags.trans (by decide +kernel), hpay,
    hlen.trans List.length_replicate, hsender, hrecipient.trans (by decide +kernel),
    hsignature.trans (by decide +kernel)⟩

end Bitchat.PacketSerializer
