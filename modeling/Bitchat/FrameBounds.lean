import Bitchat.FrameDecoding
import Bitchat.ParserBounds

/-!
# Which frames are read out of bounds

The size check of the frame decoder admits a frame that is one byte short, since it counts
one byte of the header too few. What comes last in such a frame is read behind the end, if it
is read without a check of its own: the addresses of an empty payload, or a compressed
payload, but never a plain payload and never a signature.
-/

namespace Bitchat.MessagePadding

open ByteCursor

/-- `unpad` with its accesses checked. -/
def unpadChecked (data : Bytes) : Except OutOfBounds Bytes :=
  if data.isEmpty then .ok data
  else do
    let back ← fromEnd data 1
    let (paddingLength, _) ← (next data).run back
    if paddingLength = 0 ∨ paddingLength.toNat > data.length then pure data
    else
      let last ← fromEnd data paddingLength.toNat
      range data 0 last

theorem unpadChecked_eq (data : Bytes) : unpadChecked data = .ok (unpad data) := by
  cases data with
  | nil => rfl
  | cons byte rest =>
      have hlast : (byte :: rest).length - 1 < (byte :: rest).length := by
        rw [List.length_cons]
        omega
      have hback : (byte :: rest).getLast? = some (byte :: rest)[(byte :: rest).length - 1] := by
        rw [List.getLast?_eq_getElem?, List.getElem?_eq_getElem hlast]
      have hone : fromEnd (byte :: rest) 1 = .ok ((byte :: rest).length - 1) :=
        if_pos (by rw [List.length_cons]; omega)
      rw [unpadChecked, if_neg (by simp), unpad, hback, hone]
      change ((next (byte :: rest)).run ((byte :: rest).length - 1) >>= _) = _
      rw [next_run _ hlast]
      change (if _ then _ else _ : Except OutOfBounds Bytes) = _
      dsimp only
      split
      · rfl
      · next hpadding =>
        have hle : ((byte :: rest)[(byte :: rest).length - 1]).toNat ≤ (byte :: rest).length :=
          Nat.le_of_not_lt fun hlt => hpadding (.inr hlt)
        rw [fromEnd, if_pos hle]
        change range (byte :: rest) 0 _ = _
        rw [range_ok _ (Nat.sub_le _ _), List.drop_zero, Nat.sub_zero]

end Bitchat.MessagePadding

namespace Bitchat.PacketSerializer

open ByteCursor

variable {lz4 : LZ4} {u : Bytes} {p : BitchatPacket} {o : ℕ}

theorem readAddresses_run (h : o + 8 + (if p.hasRecipient then 8 else 0) ≤ u.length) :
    ∃ senderID recipientID, (readAddresses u p).run o =
      .ok ({ p with senderID, recipientID }, o + 8 + if p.hasRecipient then 8 else 0) := by
  rw [readAddresses, run_bind_of_run (block_run u (by omega))]
  change ∃ _ _, (if p.hasRecipient = true then _ else _ : Reader BitchatPacket).run (o + 8) = _
  cases hrec : p.hasRecipient with
  | true =>
      have hroom : o + 8 + 8 ≤ u.length := by
        rw [hrec] at h
        exact h
      rw [if_pos rfl, run_bind_of_run (block_run u hroom)]
      exact ⟨_, _, rfl⟩
  | false => exact ⟨_, p.recipientID, rfl⟩

theorem inBounds_readPayload (hle : o ≤ u.length)
    (h : p.isCompressed = true → 2 ≤ p.payloadLength.toNat ∧ o + p.payloadLength.toNat ≤ u.length) :
    InBounds u (readPayload lz4 u p) o := by
  refine .ite (fun hc => ?_) fun _ => .get_bind (.ite (fun hroom => ?_) fun _ => .pure _ hle)
  · obtain ⟨htwo, hroom⟩ := h hc
    obtain ⟨size, o', hsize, -⟩ := inBounds_readUint16 (show o + 2 ≤ u.length by omega)
    obtain ⟨rfl, -⟩ := readUint16_ok hsize
    refine .bind_of_run hsize ((inBounds_block (by omega)).bind fun _ _ hle => .pure _ hle)
  · exact (inBounds_block hroom).bind fun _ _ hle => .pure _ hle

theorem inBounds_readSignature (d : Decoded) (hle : o ≤ u.length) :
    InBounds u (readSignature u d) o :=
  .get_bind (.ite (fun hroom => (inBounds_block hroom.2).bind fun _ _ hle => .pure _ hle)
    fun _ => .pure _ hle)

/-- The frame ends where the size check wants it, one byte before its end, and what its last
byte belongs to is read unchecked. -/
structure OneByteShort (u : Bytes) : Prop where
  header : 21 ≤ u.length
  length : u.length =
    21 + (if (frameHeader u).hasRecipient then 8 else 0) + (frameHeader u).payloadLength.toNat
  hasSignature : (frameHeader u).hasSignature = false
  unchecked : (frameHeader u).payloadLength.toNat = 0 ∨
    (frameHeader u).isCompressed = true ∧ 2 ≤ (frameHeader u).payloadLength.toNat

theorem decodeFrame_of_short (hshort : OneByteShort u) (d : Decoded) :
    decodeFrame lz4 u ≠ .ok d := by
  obtain ⟨hheader, hlength, hsignature, hunchecked⟩ := hshort
  intro h
  rcases decodeFrame_ok h with ⟨hlt, -⟩ | ⟨-, hlt, -⟩ | ⟨-, -, o', hbody⟩
  · omega
  · rw [expectedSize, hsignature, if_neg Bool.false_ne_true] at hlt
    omega
  obtain ⟨senderID, recipientID, o₁, ho₁, hle₁, hrest⟩ := readBody_ok hbody
  rcases hunchecked with hzero | ⟨hcompressed, htwo⟩
  · omega
  rcases hrest with ⟨⟨-, hlt⟩, -⟩ | ⟨hlong, d₁, o₂, hpayload, -⟩
  · have hsmall : (frameHeader u).payloadLength.toNat < 2 := UInt16.lt_iff_toNat_lt.mp hlt
    omega
  · rcases readPayload_ok hpayload hlong with ⟨-, -, -, ho₂, hle₂, -⟩ | ⟨hplain, -⟩
    · dsimp only at ho₂
      omega
    · exact absurd (hcompressed.symm.trans hplain) (by simp)

theorem length_of_not_short (hnot : ¬ OneByteShort u) (hheader : 21 ≤ u.length)
    (hle : expectedSize (frameHeader u) ≤ u.length)
    (hunchecked : (frameHeader u).payloadLength.toNat = 0 ∨
      (frameHeader u).isCompressed = true ∧ 2 ≤ (frameHeader u).payloadLength.toNat) :
    22 + (if (frameHeader u).hasRecipient then 8 else 0) + (frameHeader u).payloadLength.toNat ≤
      u.length := by
  rw [expectedSize] at hle
  cases hsignature : (frameHeader u).hasSignature with
  | true =>
      rw [hsignature, if_pos rfl] at hle
      omega
  | false =>
      rw [hsignature, if_neg Bool.false_ne_true] at hle
      by_contra hlt
      exact hnot ⟨hheader, by omega, hsignature, hunchecked⟩

theorem inBounds_readBody (hnot : ¬ OneByteShort u) (hheader : 21 ≤ u.length)
    (hle : expectedSize (frameHeader u) ≤ u.length) :
    InBounds u (readBody lz4 u (frameHeader u)) 14 := by
  have hroom : 14 + 8 + (if (frameHeader u).hasRecipient then 8 else 0) ≤ u.length := by
    by_cases hzero : (frameHeader u).payloadLength.toNat = 0
    · have hlength := length_of_not_short hnot hheader hle (.inl hzero)
      omega
    · rw [expectedSize] at hle
      omega
  obtain ⟨senderID, recipientID, hrun⟩ := readAddresses_run hroom
  refine .bind_of_run hrun (.ite (fun _ => .pure _ hroom) fun hlong => ?_)
  refine (inBounds_readPayload hroom fun hcompressed => ?_).bind fun d _ hle' =>
    inBounds_readSignature d hle'
  have htwo : 2 ≤ (frameHeader u).payloadLength.toNat := by
    by_contra hlt
    exact hlong ⟨hcompressed, UInt16.lt_iff_toNat_lt.mpr (Nat.lt_of_not_le hlt)⟩
  have hlength := length_of_not_short hnot hheader hle (.inr ⟨hcompressed, htwo⟩)
  refine ⟨htwo, ?_⟩
  dsimp only
  omega

theorem decodeFrame_of_not_short (hnot : ¬ OneByteShort u) :
    ∃ d, decodeFrame lz4 u = .ok d := by
  rcases Nat.lt_or_ge u.length 21 with hshort | hheader
  · exact ⟨_, if_pos hshort⟩
  · rw [decodeFrame_eq lz4 hheader]
    split
    · next hle => exact (inBounds_readBody hnot hheader hle).exists_run'
    · exact ⟨_, rfl⟩

theorem decodeFrame_ok_iff (lz4 : LZ4) (u : Bytes) :
    (∃ d, decodeFrame lz4 u = .ok d) ↔ ¬ OneByteShort u := by
  constructor
  · rintro ⟨d, hd⟩ hshort
    exact decodeFrame_of_short hshort d hd
  · exact decodeFrame_of_not_short

/-- On `data` every index and every range that a decoder asks for is inside its buffer. The
control parsers may start from any values of their caller's variables. -/
structure ReadsInside (lz4 : LZ4) (data : Bytes) : Prop where
  unpad : ∃ u, MessagePadding.unpadChecked data = .ok u
  packet : ∃ d, deserializePacket lz4 data = .ok d
  versionHello : ∀ out, ∃ hello, parseVersionHelloPayloadInto out data = .ok hello
  versionAck : ∀ out, ∃ ack, parseVersionAckPayloadInto out data = .ok ack
  channelAnnounce : ∃ announce, parseChannelAnnouncePayload data = .ok announce

theorem decoders_read_inside_iff (lz4 : LZ4) (data : Bytes) :
    ReadsInside lz4 data ↔ ¬ OneByteShort (MessagePadding.unpad data) := by
  rw [← decodeFrame_ok_iff lz4]
  constructor
  · intro hinside
    exact hinside.packet
  · intro hpacket
    refine ⟨⟨_, MessagePadding.unpadChecked_eq data⟩, hpacket,
      fun out => parseVersionHelloPayloadInto_ok out data,
      fun out => parseVersionAckPayloadInto_ok out data, ?_⟩
    by_cases hshort : data.length < 2
    · exact ⟨_, if_pos hshort⟩
    · obtain ⟨announce, -, hparse, -⟩ := parseChannelAnnouncePayload_ok (Nat.le_of_not_lt hshort)
      exact ⟨announce, hparse⟩

def cutSender : Bytes := [1, 1, 7, 0, 0, 0, 0, 0, 0, 0, 1, 0, 0, 0, 1, 2, 3, 4, 5, 6, 0]

/-- A compressed payload of length 2, with one byte of its original size. -/
def cutSize : Bytes := [1, 4, 7, 0, 0, 0, 0, 0, 0, 0, 1, 4, 0, 2, 1, 2, 3, 4, 5, 6, 7, 8, 0]

theorem short_frames_read_outside :
    ¬ ReadsInside (.ofBlock [] []) cutSender ∧ ¬ ReadsInside (.ofBlock [] []) cutSize ∧
      deserializePacket (.ofBlock [] []) cutSender = .error ⟨22, 21⟩ ∧
      deserializePacket (.ofBlock [] []) cutSize = .error ⟨23, 23⟩ := by
  have hsender : deserializePacket (.ofBlock [] []) cutSender = .error ⟨22, 21⟩ := by
    decide +kernel
  have hsize : deserializePacket (.ofBlock [] []) cutSize = .error ⟨23, 23⟩ := by
    decide +kernel
  refine ⟨?_, ?_, hsender, hsize⟩
  · intro hinside
    obtain ⟨d, hd⟩ := hinside.packet
    cases hsender.symm.trans hd
  · intro hinside
    obtain ⟨d, hd⟩ := hinside.packet
    cases hsize.symm.trans hd

end Bitchat.PacketSerializer
