import Bitchat.BigEndian
import Bitchat.CompressionHelper
import Bitchat.MessagePadding
import Bitchat.Packet

/-!
# Packet frames

`serializePacket` and `deserializePacket` with the integer fields they are made of. The
decoder reports an error only through the partly filled packet it returns; `Decoded`
keeps beside that packet which of the source's error messages was logged.
-/

namespace Bitchat.PacketSerializer

open ByteCursor BigEndian CompressionHelper

def writeUint64 (data : Bytes) (value : UInt64) : Bytes :=
  [7, 6, 5, 4, 3, 2, 1, 0].foldl
    (fun data (i : UInt64) => data ++ [((value >>> (i * 8)) &&& 0xFF).toUInt8]) data

def writeUint16 (data : Bytes) (value : UInt16) : Bytes :=
  data ++ [((value >>> 8) &&& 0xFF).toUInt8] ++ [(value &&& 0xFF).toUInt8]

def writeUint8 (data : Bytes) (value : UInt8) : Bytes := data ++ [value]

def readUint64Loop (data : Bytes) : ℕ → UInt64 → Reader UInt64
  | 0, value => pure value
  | i + 1, value => do
      let byte ← next data
      readUint64Loop data i ((value <<< 8) ||| byte.toUInt64)

def readUint64 (data : Bytes) : Reader UInt64 := readUint64Loop data 8 0

def readUint16 (data : Bytes) : Reader UInt16 := do
  let high ← next data
  let low ← next data
  pure ((high.toUInt16 <<< 8) ||| low.toUInt16)

def readUint8 (data : Bytes) : Reader UInt8 := next data

def validatePacketSize (data : Bytes) (expectedSize : ℕ) : Bool :=
  decide (data.length ≥ expectedSize)

/-- `std::vector::resize(n, 0)`. -/
def resize (v : Bytes) (n : ℕ) : Bytes := v.take n ++ List.replicate (n - v.length) 0

/-- The bytes to send for the payload, its original size and whether it was compressed. -/
def compressPayload (lz4 : LZ4) (packet : BitchatPacket) : Bytes × UInt16 × Bool :=
  if shouldCompress packet.payload then
    let compressedPayload := compressData lz4 packet.payload
    if compressedPayload.length < packet.payload.length then
      (compressedPayload, UInt16.ofNat packet.payload.length, true)
    else (packet.payload, 0, false)
  else (packet.payload, 0, false)

/-- `serializePacket` up to the padding. -/
def serializeFrame (lz4 : LZ4) (packet : BitchatPacket) : Bytes :=
  let (payload, originalPayloadSize, isCompressed) := compressPayload lz4 packet
  let data := writeUint8 [] packet.version
  let data := writeUint8 data packet.type
  let data := writeUint8 data packet.ttl
  let data := writeUint64 data packet.timestamp
  let flags := if isCompressed then packet.flags ||| flagIsCompressed else packet.flags
  let data := writeUint8 data flags
  let payloadDataSize := UInt16.ofNat (payload.length + if isCompressed then 2 else 0)
  let data := writeUint16 data payloadDataSize
  let data := data ++ resize packet.senderID 8
  let data := if packet.hasRecipient then data ++ resize packet.recipientID 8 else data
  let data := if isCompressed then writeUint16 data originalPayloadSize else data
  let data := data ++ payload
  if packet.hasSignature then data ++ resize packet.signature 64 else data

def serializePacket (lz4 : LZ4) (dis : ℕ → UInt8) (packet : BitchatPacket) : Bytes :=
  let data := serializeFrame lz4 packet
  let optimalSize := MessagePadding.optimalBlockSize data.length
  MessagePadding.pad dis data optimalSize

inductive DecodeError where
  | packetTooShort
  | sizeMismatch
  | compressedTooSmall
  | decompressionFailed
  deriving DecidableEq, Repr

structure Decoded where
  packet : BitchatPacket
  error : Option DecodeError := none
  deriving DecidableEq, Repr

/-- The header up to the payload length. -/
def readHeader (data : Bytes) (packet : BitchatPacket) : Reader BitchatPacket := do
  let version ← readUint8 data
  let type ← readUint8 data
  let ttl ← readUint8 data
  let timestamp ← readUint64 data
  let flags ← readUint8 data
  let payloadLength ← readUint16 data
  pure { packet with version, type, ttl, timestamp, flags, payloadLength }

/-- The source counts 13 bytes of header; `readHeader` reads 14. -/
def expectedSize (packet : BitchatPacket) : ℕ :=
  21 + (if packet.hasRecipient then 8 else 0) + (if packet.hasSignature then 64 else 0) +
    packet.payloadLength.toNat

def readAddresses (data : Bytes) (packet : BitchatPacket) : Reader BitchatPacket := do
  let senderID ← block data 8
  let packet := { packet with senderID }
  if packet.hasRecipient then
    let recipientID ← block data 8
    pure { packet with recipientID }
  else pure packet

def readPayload (lz4 : LZ4) (data : Bytes) (packet : BitchatPacket) : Reader Decoded :=
  if packet.isCompressed then do
    let originalSize ← readUint16 data
    let compressedPayload ← block data (packet.payloadLength.toNat - 2)
    let payload := decompressData lz4 compressedPayload originalSize.toNat
    let failed := (lz4.decompressSafe compressedPayload originalSize.toNat).isNone
    pure ⟨packet.setPayload payload, if failed then some .decompressionFailed else none⟩
  else do
    let offset ← get
    if offset + packet.payloadLength.toNat ≤ data.length then
      let payload ← block data packet.payloadLength.toNat
      pure ⟨packet.setPayload payload, none⟩
    else pure ⟨packet, none⟩

def readSignature (data : Bytes) (decoded : Decoded) : Reader Decoded := do
  let offset ← get
  if decoded.packet.hasSignature ∧ offset + 64 ≤ data.length then
    let signature ← block data 64
    pure { decoded with packet := { decoded.packet with signature } }
  else pure decoded

/-- What follows the size check. -/
def readBody (lz4 : LZ4) (data : Bytes) (packet : BitchatPacket) : Reader Decoded := do
  let packet ← readAddresses data packet
  if packet.isCompressed ∧ packet.payloadLength < 2 then
    pure ⟨packet, some .compressedTooSmall⟩
  else
    let decoded ← readPayload lz4 data packet
    readSignature data decoded

/-- `deserializePacket` behind the removal of the padding. -/
def decodeFrame (lz4 : LZ4) (unpaddedData : Bytes) : Except OutOfBounds Decoded :=
  if unpaddedData.length < 21 then .ok ⟨{}, some .packetTooShort⟩
  else (do
    let packet ← readHeader unpaddedData {}
    if !validatePacketSize unpaddedData (expectedSize packet) then
      pure ⟨packet, some .sizeMismatch⟩
    else readBody lz4 unpaddedData packet : Reader Decoded).run' 0

def deserializePacket (lz4 : LZ4) (data : Bytes) : Except OutOfBounds Decoded :=
  decodeFrame lz4 (MessagePadding.unpad data)

theorem lowByte_uint64 (value : UInt64) : (value &&& 0xFF).toUInt8 = UInt8.ofNat value.toNat := by
  apply UInt8.toNat_inj.mp
  rw [UInt64.toNat_toUInt8, UInt64.toNat_and, UInt8.toNat_ofNat']
  change (value.toNat &&& (2 ^ 8 - 1)) % 2 ^ 8 = _
  rw [Nat.and_two_pow_sub_one_eq_mod, Nat.mod_mod]

theorem lowByte_uint16 (value : UInt16) : (value &&& 0xFF).toUInt8 = UInt8.ofNat value.toNat := by
  apply UInt8.toNat_inj.mp
  rw [UInt16.toNat_toUInt8, UInt16.toNat_and, UInt8.toNat_ofNat']
  change (value.toNat &&& (2 ^ 8 - 1)) % 2 ^ 8 = _
  rw [Nat.and_two_pow_sub_one_eq_mod, Nat.mod_mod]

theorem byte_of_shift (value : UInt64) (k : UInt64) :
    ((value >>> k) &&& 0xFF).toUInt8 = UInt8.ofNat (value.toNat >>> (k.toNat % 64)) := by
  rw [lowByte_uint64, UInt64.toNat_shiftRight]

@[simp] theorem writeUint64_eq (data : Bytes) (value : UInt64) :
    writeUint64 data value = data ++ toBytes 8 value.toNat := by
  simp only [writeUint64, List.foldl_cons, List.foldl_nil, byte_of_shift, List.append_assoc]
  simp [toBytes, Nat.shiftRight_eq_div_pow, Nat.div_div_eq_div_mul]

@[simp] theorem writeUint16_eq (data : Bytes) (value : UInt16) :
    writeUint16 data value = data ++ toBytes 2 value.toNat := by
  have hhigh : ((value >>> 8) &&& 0xFF).toUInt8 = UInt8.ofNat (value.toNat / 256) := by
    rw [lowByte_uint16, UInt16.toNat_shiftRight]
    exact congrArg UInt8.ofNat (Nat.shiftRight_eq_div_pow _ 8)
  rw [writeUint16, hhigh, lowByte_uint16]
  simp [toBytes]

@[simp] theorem writeUint8_eq (data : Bytes) (value : UInt8) :
    writeUint8 data value = data ++ [value] := rfl

@[simp] theorem length_resize (v : Bytes) (n : ℕ) : (resize v n).length = n := by
  simp only [resize, List.length_append, List.length_take, List.length_replicate]
  omega

theorem resize_self {v : Bytes} {n : ℕ} (h : v.length = n) : resize v n = v := by
  rw [resize, ← h, List.take_length, Nat.sub_self, List.replicate_zero, List.append_nil]

theorem shiftLeft_or_byte (a : ℕ) (b : UInt8) :
    (UInt64.ofNat a <<< 8) ||| b.toUInt64 = UInt64.ofNat (a * 256 + b.toNat) := by
  have hb : b.toNat < 2 ^ 8 := b.toNat_lt
  apply UInt64.toNat_inj.mp
  rw [UInt64.toNat_or, UInt64.toNat_shiftLeft, UInt64.toNat_ofNat', UInt8.toNat_toUInt64,
    UInt64.toNat_ofNat']
  have hshift : ((a % 2 ^ 64) <<< (UInt64.toNat 8 % 64)) % 2 ^ 64 = (a % 2 ^ 56) <<< 8 := by
    change ((a % 2 ^ 64) <<< 8) % 2 ^ 64 = (a % 2 ^ 56) <<< 8
    rw [Nat.shiftLeft_eq, Nat.shiftLeft_eq]
    omega
  rw [hshift, ← Nat.shiftLeft_add_eq_or_of_lt hb, Nat.shiftLeft_eq]
  omega

theorem decodes_readUint64Loop (bs : Bytes) (a : ℕ) :
    Decodes (fun data => readUint64Loop data bs.length (UInt64.ofNat a)) bs
      (UInt64.ofNat (bs.foldl (fun acc b => acc * 256 + b.toNat) a)) := by
  induction bs generalizing a with
  | nil => exact Decodes.pure _
  | cons b bs ih =>
      have hstep := ih (a * 256 + b.toNat)
      rw [← shiftLeft_or_byte] at hstep
      exact (decodes_next b).bind hstep

theorem decodes_readUint64 {bs : Bytes} (h : bs.length = 8) :
    Decodes readUint64 bs (UInt64.ofNat (ofBytes bs)) := by
  have hloop := decodes_readUint64Loop bs 0
  rw [h] at hloop
  exact hloop

theorem shiftLeft_or_uint16 (high low : UInt8) :
    (high.toUInt16 <<< 8) ||| low.toUInt16 = UInt16.ofNat (ofBytes [high, low]) := by
  have hh : high.toNat < 2 ^ 8 := high.toNat_lt
  have hl : low.toNat < 2 ^ 8 := low.toNat_lt
  have hvalue : ofBytes [high, low] = high.toNat * 256 + low.toNat := by simp [ofBytes]
  have hshift : (high.toNat <<< (UInt16.toNat 8 % 16)) % 2 ^ 16 = high.toNat <<< 8 := by
    change (high.toNat <<< 8) % 2 ^ 16 = high.toNat <<< 8
    rw [Nat.shiftLeft_eq]
    omega
  apply UInt16.toNat_inj.mp
  rw [UInt16.toNat_or, UInt16.toNat_shiftLeft, UInt8.toNat_toUInt16, UInt8.toNat_toUInt16,
    UInt16.toNat_ofNat', hvalue, hshift, ← Nat.shiftLeft_add_eq_or_of_lt hl, Nat.shiftLeft_eq]
  omega

theorem decodes_readUint16 {bs : Bytes} (h : bs.length = 2) :
    Decodes readUint16 bs (UInt16.ofNat (ofBytes bs)) := by
  match bs, h with
  | [high, low], _ =>
    rw [← shiftLeft_or_uint16]
    exact (decodes_next high).bind ((decodes_next low).bind (Decodes.pure _))

theorem readUint16_ok {data : Bytes} {offset offset' : ℕ} {v : UInt16}
    (h : (readUint16 data).run offset = .ok (v, offset')) :
    offset' = offset + 2 ∧ offset' ≤ data.length := by
  obtain ⟨high, o₁, hhigh, hrest⟩ := run_bind_ok h
  obtain ⟨low, o₂, hlow, hpure⟩ := run_bind_ok hrest
  cases hpure
  obtain ⟨ho₁, -⟩ := next_ok hhigh
  obtain ⟨ho₂, hlen⟩ := next_ok hlow
  exact ⟨by omega, hlen⟩

theorem ofBytes_toBytes_uint64 (v : UInt64) : UInt64.ofNat (ofBytes (toBytes 8 v.toNat)) = v := by
  have hv : v.toNat < 256 ^ 8 := v.toNat_lt
  rw [ofBytes_toBytes, Nat.mod_eq_of_lt hv, UInt64.ofNat_toNat]

theorem ofBytes_toBytes_uint16 (v : UInt16) : UInt16.ofNat (ofBytes (toBytes 2 v.toNat)) = v := by
  have hv : v.toNat < 256 ^ 2 := v.toNat_lt
  rw [ofBytes_toBytes, Nat.mod_eq_of_lt hv, UInt16.ofNat_toNat]

end Bitchat.PacketSerializer
