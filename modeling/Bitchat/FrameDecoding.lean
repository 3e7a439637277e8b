import Bitchat.PacketRoundTrip

/-!
# What the decoder can return

The stages of the decoder read backwards: what a successful run says about the bytes it was
given and about the packet it returned. Nothing but the header is certain of the packet, and
a packet that is complete needs a buffer with room for all of it.
-/

namespace Bitchat.PacketSerializer

open ByteCursor BigEndian CompressionHelper

def frameHeader (u : Bytes) : BitchatPacket where
  version := u.getD 0 0
  type := u.getD 1 0
  ttl := u.getD 2 0
  timestamp := UInt64.ofNat (ofBytes ((u.drop 3).take 8))
  flags := u.getD 11 0
  payloadLength := UInt16.ofNat (ofBytes ((u.drop 12).take 2))

theorem exists_headerBytes {u : Bytes} (h : 14 ≤ u.length) :
    ∃ version type ttl flags timestamp payloadLength rest, timestamp.length = 8 ∧
      payloadLength.length = 2 ∧
      u = headerBytes version type ttl timestamp flags payloadLength ++ rest := by
  obtain ⟨version, type, ttl, r, rfl⟩ : ∃ a b c r, u = a :: b :: c :: r := by
    match u, h with
    | a :: b :: c :: r, _ => exact ⟨a, b, c, r, rfl⟩
  simp only [List.length_cons] at h
  obtain ⟨flags, s, hs⟩ : ∃ b s, r.drop 8 = b :: s :=
    List.exists_cons_of_length_pos (by rw [List.length_drop]; omega)
  have hlen : s.length + 1 = r.length - 8 := by rw [← List.length_drop, hs, List.length_cons]
  refine ⟨version, type, ttl, flags, r.take 8, s.take 2, s.drop 2, ?_, ?_, ?_⟩
  · rw [List.length_take]; omega
  · rw [List.length_take]; omega
  · simp only [headerBytes, List.append_assoc, List.cons_append, List.nil_append,
      List.take_append_drop]
    rw [← hs, List.take_append_drop]

theorem exists_eq_of_length_eight {bs : Bytes} (h : bs.length = 8) :
    ∃ b₀ b₁ b₂ b₃ b₄ b₅ b₆ b₇, bs = [b₀, b₁, b₂, b₃, b₄, b₅, b₆, b₇] := by
  match bs, h with
  | [b₀, b₁, b₂, b₃, b₄, b₅, b₆, b₇], _ => exact ⟨b₀, b₁, b₂, b₃, b₄, b₅, b₆, b₇, rfl⟩

theorem frameHeader_headerBytes (version type ttl flags : UInt8) {timestamp payloadLength : Bytes}
    (ht : timestamp.length = 8) (hl : payloadLength.length = 2) (rest : Bytes) :
    frameHeader (headerBytes version type ttl timestamp flags payloadLength ++ rest) =
      { version := version
        type := type
        ttl := ttl
        timestamp := UInt64.ofNat (ofBytes timestamp)
        flags := flags
        payloadLength := UInt16.ofNat (ofBytes payloadLength) } := by
  obtain ⟨b₀, b₁, b₂, b₃, b₄, b₅, b₆, b₇, rfl⟩ := exists_eq_of_length_eight ht
  obtain ⟨high, low, rfl⟩ := List.length_eq_two.mp hl
  rfl

theorem readHeader_eq {u : Bytes} (h : 14 ≤ u.length) :
    (readHeader u {}).run 0 = .ok (frameHeader u, 14) := by
  obtain ⟨version, type, ttl, flags, timestamp, payloadLength, rest, ht, hl, rfl⟩ :=
    exists_headerBytes h
  rw [(decodes_readHeader {} version type ttl flags ht hl).run_zero rest,
    frameHeader_headerBytes version type ttl flags ht hl, length_headerBytes ht hl]

theorem frameHeader_append {u : Bytes} (h : 14 ≤ u.length) (v : Bytes) :
    frameHeader (u ++ v) = frameHeader u := by
  obtain ⟨version, type, ttl, flags, timestamp, payloadLength, rest, ht, hl, rfl⟩ :=
    exists_headerBytes h
  rw [List.append_assoc, frameHeader_headerBytes _ _ _ _ ht hl,
    frameHeader_headerBytes _ _ _ _ ht hl]

theorem frameHeader_take {u : Bytes} {k : ℕ} (hk : 14 ≤ k) (h : k ≤ u.length) :
    frameHeader (u.take k) = frameHeader u := by
  have hlen : 14 ≤ (u.take k).length := by rw [List.length_take]; omega
  rw [← frameHeader_append hlen (u.drop k), List.take_append_drop]

theorem frameHeader_serializeFrame (lz4 : LZ4) (packet : BitchatPacket) :
    frameHeader (serializeFrame lz4 packet) = wireHeader lz4 packet := by
  rw [serializeFrame_eq, frameHeader_headerBytes _ _ _ _ (length_toBytes _ _) (length_toBytes _ _),
    ofBytes_toBytes_uint64, ofBytes_toBytes_uint16, wireHeader]

theorem readAddresses_ok {u : Bytes} {p q : BitchatPacket} {o o' : ℕ}
    (h : (readAddresses u p).run o = .ok (q, o')) :
    (∃ senderID recipientID, q = { p with senderID, recipientID }) ∧
      o' = o + 8 + (if p.hasRecipient then 8 else 0) ∧ o' ≤ u.length := by
  obtain ⟨senderID, o₁, hs, h⟩ := run_bind_ok h
  obtain ⟨rfl, hlen⟩ := block_ok hs
  change ((if p.hasRecipient = true then _ else _ : Reader BitchatPacket)).run (o + 8) = _ at h
  split at h
  · next hrec =>
    obtain ⟨recipientID, o₂, hr, h⟩ := run_bind_ok h
    obtain ⟨rfl, hlen'⟩ := block_ok hr
    cases h
    exact ⟨⟨senderID, recipientID, rfl⟩, by rw [if_pos hrec], hlen'⟩
  · next hrec =>
    cases h
    exact ⟨⟨senderID, p.recipientID, rfl⟩, by rw [if_neg hrec], hlen⟩

/-- Either the payload is read to its end, or it is not there and the packet is not
compressed. Only the decompression can fail. -/
theorem readPayload_ok {lz4 : LZ4} {u : Bytes} {p : BitchatPacket} {d : Decoded} {o o' : ℕ}
    (h : (readPayload lz4 u p).run o = .ok (d, o'))
    (hlong : ¬ (p.isCompressed = true ∧ p.payloadLength < 2)) :
    (∃ payload error, d = ⟨p.setPayload payload, error⟩ ∧ o' = o + p.payloadLength.toNat ∧
        o' ≤ u.length ∧ (error ≠ none → p.isCompressed = true ∧ payload = [])) ∨
      p.isCompressed = false ∧ d = ⟨p, none⟩ ∧ o' = o ∧
        u.length < o + p.payloadLength.toNat := by
  unfold readPayload at h
  split at h
  · next hc =>
    have htwo : 2 ≤ p.payloadLength.toNat := by
      by_contra hlt
      exact hlong ⟨hc, UInt16.lt_iff_toNat_lt.mpr (Nat.lt_of_not_le hlt)⟩
    obtain ⟨originalSize, o₁, hsize, h⟩ := run_bind_ok h
    obtain ⟨compressedPayload, o₂, hblock, h⟩ := run_bind_ok h
    obtain ⟨rfl, -⟩ := readUint16_ok hsize
    obtain ⟨rfl, hlen⟩ := block_ok hblock
    cases h
    refine .inl ⟨_, _, rfl, by omega, hlen, fun he => ⟨hc, ?_⟩⟩
    cases hd : lz4.decompressSafe compressedPayload originalSize.toNat with
    | none => rw [decompressData, hd]
    | some payload => rw [hd] at he; exact absurd rfl he
  · next hc =>
    obtain ⟨offset, o₁, hget, h⟩ := run_bind_ok h
    cases hget
    split at h
    · obtain ⟨payload, o₂, hblock, h⟩ := run_bind_ok h
      obtain ⟨rfl, hlen⟩ := block_ok hblock
      cases h
      exact .inl ⟨payload, none, rfl, rfl, hlen, fun he => absurd rfl he⟩
    · next hlen =>
      cases h
      exact .inr ⟨Bool.eq_false_iff.mpr hc, rfl, rfl, by omega⟩

theorem readSignature_ok {u : Bytes} {d d' : Decoded} {o o' : ℕ}
    (h : (readSignature u d).run o = .ok (d', o')) :
    (∃ signature, d' = { d with packet := { d.packet with signature } }) ∧
      (d.packet.hasSignature = true ∧ o + 64 ≤ u.length ∨ d' = d) := by
  obtain ⟨offset, o₁, hget, h⟩ := run_bind_ok h
  cases hget
  split at h
  · next hs =>
    obtain ⟨signature, o₂, -, h⟩ := run_bind_ok h
    cases h
    exact ⟨⟨signature, rfl⟩, .inl hs⟩
  · cases h
    exact ⟨⟨d.packet.signature, rfl⟩, .inr rfl⟩

theorem decodeFrame_eq (lz4 : LZ4) {u : Bytes} (hlong : 21 ≤ u.length) :
    decodeFrame lz4 u = if expectedSize (frameHeader u) ≤ u.length
      then (readBody lz4 u (frameHeader u)).run' 14
      else .ok ⟨frameHeader u, some .sizeMismatch⟩ := by
  rw [decodeFrame, if_neg (Nat.not_lt.mpr hlong), StateT.run'_eq,
    run_bind_of_run (readHeader_eq (by omega)), validatePacketSize]
  by_cases hle : expectedSize (frameHeader u) ≤ u.length
  · rw [decide_eq_true hle, if_neg (by simp), if_pos hle, StateT.run'_eq]
  · rw [decide_eq_false hle, if_pos (by simp), if_neg hle]
    rfl

/-- How a run of the decoder ends: without a header, behind the header, or in the body. -/
theorem decodeFrame_ok {lz4 : LZ4} {u : Bytes} {d : Decoded} (h : decodeFrame lz4 u = .ok d) :
    u.length < 21 ∧ d = ⟨{}, some .packetTooShort⟩ ∨
      21 ≤ u.length ∧ u.length < expectedSize (frameHeader u) ∧
        d = ⟨frameHeader u, some .sizeMismatch⟩ ∨
      21 ≤ u.length ∧ expectedSize (frameHeader u) ≤ u.length ∧
        ∃ o', (readBody lz4 u (frameHeader u)).run 14 = .ok (d, o') := by
  rcases Nat.lt_or_ge u.length 21 with hshort | hlong
  · rw [decodeFrame, if_pos hshort] at h
    cases h
    exact .inl ⟨hshort, rfl⟩
  · rw [decodeFrame_eq lz4 hlong] at h
    split at h
    · next hle =>
      obtain ⟨o', hbody⟩ := run'_ok h
      exact .inr (.inr ⟨hlong, hle, o', hbody⟩)
    · next hless =>
      cases h
      exact .inr (.inl ⟨hlong, Nat.lt_of_not_le hless, rfl⟩)

theorem readBody_ok {lz4 : LZ4} {u : Bytes} {p : BitchatPacket} {d : Decoded} {o o' : ℕ}
    (h : (readBody lz4 u p).run o = .ok (d, o')) :
    ∃ senderID recipientID o₁, o₁ = o + 8 + (if p.hasRecipient then 8 else 0) ∧ o₁ ≤ u.length ∧
      ((p.isCompressed = true ∧ p.payloadLength < 2) ∧
          d = ⟨{ p with senderID, recipientID }, some .compressedTooSmall⟩ ∨
        ¬ (p.isCompressed = true ∧ p.payloadLength < 2) ∧
          ∃ d₁ o₂, (readPayload lz4 u { p with senderID, recipientID }).run o₁ = .ok (d₁, o₂) ∧
            (readSignature u d₁).run o₂ = .ok (d, o')) := by
  obtain ⟨q, o₁, hq, h⟩ := run_bind_ok h
  obtain ⟨⟨senderID, recipientID, rfl⟩, ho₁, hle₁⟩ := readAddresses_ok hq
  refine ⟨senderID, recipientID, o₁, ho₁, hle₁, ?_⟩
  dsimp only at h
  split at h
  · next hshort =>
    cases h
    exact .inl ⟨hshort, rfl⟩
  · next hlong =>
    obtain ⟨d₁, o₂, hd, h⟩ := run_bind_ok h
    exact .inr ⟨hlong, d₁, o₂, hd, h⟩

theorem readBody_header {lz4 : LZ4} {u : Bytes} {p : BitchatPacket} {d : Decoded} {o o' : ℕ}
    (h : (readBody lz4 u p).run o = .ok (d, o')) :
    d.packet.version = p.version ∧ d.packet.type = p.type := by
  obtain ⟨senderID, recipientID, o₁, -, -, ⟨-, rfl⟩ | ⟨hlong, d₁, o₂, hd, hs⟩⟩ := readBody_ok h
  · exact ⟨rfl, rfl⟩
  · obtain ⟨⟨signature, rfl⟩, -⟩ := readSignature_ok hs
    rcases readPayload_ok hd hlong with ⟨payload, error, rfl, -⟩ | ⟨-, rfl, -⟩
    · exact ⟨rfl, rfl⟩
    · exact ⟨rfl, rfl⟩

/-- Version and type are those of the header, unless there was no header. -/
theorem decodeFrame_header {lz4 : LZ4} {u : Bytes} {d : Decoded}
    (h : decodeFrame lz4 u = .ok d) :
    d.packet = {} ∨
      21 ≤ u.length ∧ d.packet.version = (frameHeader u).version ∧
        d.packet.type = (frameHeader u).type := by
  rcases decodeFrame_ok h with ⟨-, rfl⟩ | ⟨hlen, -, rfl⟩ | ⟨hlen, -, o', hbody⟩
  · exact .inl rfl
  · exact .inr ⟨hlen, rfl, rfl⟩
  · exact .inr ⟨hlen, readBody_header hbody⟩

/-- A packet with all its parts comes from a buffer with room for them: one byte more than
the size check asks for. -/
theorem lt_length_of_readBody {lz4 : LZ4} {u : Bytes} {p : BitchatPacket} {d : Decoded} {o' : ℕ}
    (h : (readBody lz4 u p).run 14 = .ok (d, o'))
    (hempty : p.payload = [] ∧ p.signature = [])
    (hlong : ¬ (p.isCompressed = true ∧ p.payloadLength < 2))
    (hpayload : p.isCompressed = false → d.packet.payload.length = p.payloadLength.toNat)
    (hsignature : p.hasSignature = true → d.packet.signature ≠ []) :
    expectedSize p < u.length := by
  obtain ⟨senderID, recipientID, o₁, ho₁, hle₁, ⟨hshort, -⟩ | ⟨-, d₁, o₂, hd, h⟩⟩ := readBody_ok h
  · exact absurd hshort hlong
  obtain ⟨⟨signature, hd'⟩, hread⟩ := readSignature_ok h
  have hsame : d.packet.payload = d₁.packet.payload := by rw [hd']
  rw [hsame] at hpayload
  rw [expectedSize]
  have hend : d₁.packet.signature = [] ∧ o₂ = o₁ + p.payloadLength.toNat ∧ o₂ ≤ u.length := by
    rcases readPayload_ok hd hlong with ⟨payload, error, rfl, ho₂, hle₂, -⟩ | ⟨hplain, rfl, ho₂, -⟩
    · exact ⟨hempty.2, ho₂, hle₂⟩
    · have hzero : p.payloadLength.toNat = 0 := by
        rw [← hpayload hplain, hempty.1]
        rfl
      exact ⟨hempty.2, by omega, by omega⟩
  obtain ⟨hnone, ho₂, hle₂⟩ := hend
  cases hs : p.hasSignature with
  | true =>
      have hroom : o₂ + 64 ≤ u.length := by
        rcases hread with ⟨-, hroom⟩ | rfl
        · exact hroom
        · exact absurd hnone (hsignature hs)
      rw [if_pos rfl]
      omega
  | false =>
      rw [if_neg Bool.false_ne_true]
      omega

theorem lt_length_of_decodeFrame {lz4 : LZ4} {u : Bytes} {d : Decoded}
    (h : decodeFrame lz4 u = .ok d) (hsender : d.packet.senderID ≠ [])
    (hlong : ¬ ((frameHeader u).isCompressed = true ∧ (frameHeader u).payloadLength < 2))
    (hpayload : (frameHeader u).isCompressed = false →
      d.packet.payload.length = (frameHeader u).payloadLength.toNat)
    (hsignature : (frameHeader u).hasSignature = true → d.packet.signature ≠ []) :
    expectedSize (frameHeader u) < u.length := by
  rcases decodeFrame_ok h with ⟨-, rfl⟩ | ⟨-, -, rfl⟩ | ⟨-, -, o', hbody⟩
  · exact absurd rfl hsender
  · exact absurd rfl hsender
  · exact lt_length_of_readBody hbody ⟨rfl, rfl⟩ hlong hpayload hsignature

/-- Addresses and signature have their width on the wire, as far as they are there. -/
structure WireWidths (packet : BitchatPacket) : Prop where
  sender : packet.senderID.length = 8
  recipient : packet.recipientID.length = if packet.hasRecipient then 8 else 0
  signature : packet.signature = [] ∨
    packet.hasSignature = true ∧ packet.signature.length = 64

theorem lengths_of_readAddresses {u : Bytes} {p q : BitchatPacket} {o o' : ℕ}
    (h : (readAddresses u p).run o = .ok (q, o')) (hp : p.recipientID = []) :
    q.senderID.length = 8 ∧ q.recipientID.length = if q.hasRecipient then 8 else 0 := by
  obtain ⟨senderID, o₁, hs, h⟩ := run_bind_ok h
  have hsender := length_of_block hs
  change ((if p.hasRecipient = true then _ else _ : Reader BitchatPacket)).run o₁ = _ at h
  split at h
  · next hrec =>
    obtain ⟨recipientID, o₂, hr, h⟩ := run_bind_ok h
    have hrecipient := length_of_block hr
    cases h
    exact ⟨hsender, hrecipient.trans (if_pos hrec).symm⟩
  · next hrec =>
    cases h
    exact ⟨hsender, (congrArg List.length hp).trans (if_neg hrec).symm⟩

theorem signature_of_readSignature {u : Bytes} {d d' : Decoded} {o o' : ℕ}
    (h : (readSignature u d).run o = .ok (d', o')) :
    ∃ signature, d' = { d with packet := { d.packet with signature } } ∧
      (signature = d.packet.signature ∨ d.packet.hasSignature = true ∧ signature.length = 64) := by
  obtain ⟨offset, o₁, hget, h⟩ := run_bind_ok h
  cases hget
  split at h
  · next hs =>
    obtain ⟨signature, o₂, hblock, h⟩ := run_bind_ok h
    have hlength := length_of_block hblock
    cases h
    exact ⟨signature, rfl, .inr ⟨hs.1, hlength⟩⟩
  · cases h
    exact ⟨d.packet.signature, rfl, .inl rfl⟩

theorem wireWidths_of_readBody {lz4 : LZ4} {u : Bytes} {p : BitchatPacket} {d : Decoded}
    {o o' : ℕ} (h : (readBody lz4 u p).run o = .ok (d, o'))
    (hempty : p.recipientID = [] ∧ p.signature = []) : WireWidths d.packet := by
  obtain ⟨q, o₁, hq, h⟩ := run_bind_ok h
  obtain ⟨⟨senderID, recipientID, hfields⟩, -⟩ := readAddresses_ok hq
  have hnone : q.signature = [] := by rw [hfields]; exact hempty.2
  obtain ⟨hsender, hrecipient⟩ := lengths_of_readAddresses hq hempty.1
  split at h
  · cases h
    exact ⟨hsender, hrecipient, .inl hnone⟩
  · next hlong =>
    obtain ⟨d₁, o₂, hd, h⟩ := run_bind_ok h
    obtain ⟨signature, rfl, hsignature⟩ := signature_of_readSignature h
    rcases readPayload_ok hd hlong with ⟨payload, error, rfl, -⟩ | ⟨-, rfl, -⟩
    · exact ⟨hsender, hrecipient, hsignature.imp_left fun hs => hs.trans hnone⟩
    · exact ⟨hsender, hrecipient, hsignature.imp_left fun hs => hs.trans hnone⟩

theorem wireWidths_of_decodeFrame {lz4 : LZ4} {u : Bytes} {d : Decoded}
    (h : decodeFrame lz4 u = .ok d) (he : d.error = none) : WireWidths d.packet := by
  rcases decodeFrame_ok h with ⟨-, rfl⟩ | ⟨-, -, rfl⟩ | ⟨-, -, o', hbody⟩
  · cases he
  · cases he
  · exact wireWidths_of_readBody hbody ⟨rfl, rfl⟩

/-- The header and the addresses of a frame are decoded whatever becomes of its payload. -/
theorem addressed_of_decodeFrame {lz4 : LZ4} {packet : BitchatPacket} {d : Decoded}
    (h : decodeFrame lz4 (serializeFrame lz4 packet) = .ok d) :
    d.packet.type = packet.type ∧ d.packet.timestamp = packet.timestamp ∧
      d.packet.senderID = resize packet.senderID 8 := by
  have hlength := length_serializeFrame lz4 packet
  have hsize := of_decide_eq_true (validatePacketSize_serializeFrame lz4 packet)
  rcases decodeFrame_ok h with ⟨hshort, -⟩ | ⟨-, hless, -⟩ | ⟨-, -, o', hbody⟩
  · omega
  · rw [frameHeader_serializeFrame] at hless
    omega
  · rw [frameHeader_serializeFrame] at hbody
    obtain ⟨q, o₁, hq, hbody⟩ := run_bind_ok hbody
    have hread := (decodes_readAddresses_wire lz4 packet) (headerBytes packet.version packet.type
      packet.ttl (toBytes 8 packet.timestamp.toNat) (wireFlags lz4 packet)
      (toBytes 2 (UInt16.ofNat (wirePayload lz4 packet).length).toNat))
      (wirePayload lz4 packet ++ wireSignature packet)
    rw [List.append_assoc, ← serializeFrame_eq,
      length_headerBytes (length_toBytes _ _) (length_toBytes _ _), hq] at hread
    cases hread
    split at hbody
    · cases hbody
      exact ⟨rfl, rfl, rfl⟩
    · next hlong =>
      obtain ⟨d₁, o₂, hd, hs⟩ := run_bind_ok hbody
      obtain ⟨⟨signature, rfl⟩, -⟩ := readSignature_ok hs
      rcases readPayload_ok hd hlong with ⟨payload, error, rfl, -⟩ | ⟨-, rfl, -⟩
      · exact ⟨rfl, rfl, rfl⟩
      · exact ⟨rfl, rfl, rfl⟩

end Bitchat.PacketSerializer
