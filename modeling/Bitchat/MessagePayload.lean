import Bitchat.PacketSerializer

/-!
# The payload of a chat message

`makeMessagePayload` writes a flag byte, the mandatory fields and the optional ones in a
fixed order; `parseMessagePayload` reads them back. The parser returns the message it has
filled so far on every path, so `ParsedMessage` keeps beside it which error return was
taken, if any. `uuid` is what `StringHelper::createUUID` would give for a missing ID.
-/

namespace Bitchat.PacketSerializer

open ByteCursor BigEndian StringHelper

/-- The flag byte, from what each of its bits reports. -/
def messageFlagByte (relay isPrivate originalSender recipientNickname senderPeerID mentions channel
    encrypted : Bool) : UInt8 :=
  let flags : UInt8 := 0
  let flags := if relay then flags ||| 0x01 else flags
  let flags := if isPrivate then flags ||| 0x02 else flags
  let flags := if originalSender then flags ||| 0x04 else flags
  let flags := if recipientNickname then flags ||| 0x08 else flags
  let flags := if senderPeerID then flags ||| 0x10 else flags
  let flags := if mentions then flags ||| 0x20 else flags
  let flags := if channel then flags ||| 0x40 else flags
  if encrypted then flags ||| 0x80 else flags

def messageFlags (message : BitchatMessage) : UInt8 :=
  messageFlagByte message.isRelay message.isPrivate (!message.originalSender.isEmpty)
    (!message.recipientNickname.isEmpty) (!message.senderPeerID.isEmpty)
    (!message.mentions.isEmpty) (!message.channel.isEmpty) message.isEncrypted

/-- A length byte and at most 255 bytes, as every string of the payloads is written. -/
def writeField (data s : Bytes) : Bytes :=
  let data := writeUint8 data (UInt8.ofNat (min 255 s.length))
  data ++ s.take (min 255 s.length)

def writeContent (data content : Bytes) : Bytes :=
  let contentLength := UInt16.ofNat (min 65535 content.length)
  let data := writeUint16 data contentLength
  data ++ content.take contentLength.toNat

def writeMentions (data : Bytes) (mentions : List Bytes) : Bytes :=
  let data := writeUint8 data (UInt8.ofNat (min 255 mentions.length))
  mentions.foldl writeField data

def makeMessagePayload (uuid : Bytes) (message : BitchatMessage) : Bytes :=
  let data := writeUint8 [] (messageFlags message)
  let data := writeUint64 data message.timestamp
  let id := if message.id.isEmpty then uuid else message.id
  let data := writeField data id
  let data := writeField data message.sender
  let data := writeContent data message.content
  let data := if !message.originalSender.isEmpty then writeField data message.originalSender
    else data
  let data := if !message.recipientNickname.isEmpty then writeField data message.recipientNickname
    else data
  let data := if !message.senderPeerID.isEmpty then writeField data (toHex message.senderPeerID)
    else data
  let data := if !message.mentions.isEmpty then writeMentions data message.mentions else data
  if !message.channel.isEmpty then writeField data message.channel else data

inductive MessageError where
  | payloadTooSmall
  | idOverflow
  | senderOverflow
  | contentOverflow
  deriving DecidableEq, Repr

structure ParsedMessage where
  message : BitchatMessage
  error : Option MessageError := none
  deriving DecidableEq, Repr

/-- A length, its bounds check, and a copy of as many bytes; `none` where the check fails.
The length itself is consumed in both cases. -/
def readCounted (readLength : Bytes → Reader ℕ) (payload : Bytes) : Reader (Option Bytes) := do
  let len ← readLength payload
  let offset ← get
  if offset + len > payload.length then pure none
  else
    let s ← block payload len
    pure (some s)

def readField (payload : Bytes) : Reader (Option Bytes) :=
  readCounted (fun payload => UInt8.toNat <$> readUint8 payload) payload

def readContent (payload : Bytes) : Reader (Option Bytes) :=
  readCounted (fun payload => UInt16.toNat <$> readUint16 payload) payload

/-- The flag byte and the fields up to the content. -/
def readMandatory (payload : Bytes) : Reader (UInt8 × ParsedMessage) := do
  let flags ← readUint8 payload
  let timestamp ← readUint64 payload
  let message : BitchatMessage :=
    { isRelay := flags &&& 0x01 != 0
      isPrivate := flags &&& 0x02 != 0
      isEncrypted := flags &&& 0x80 != 0
      timestamp := timestamp }
  match ← readField payload with
  | none => pure (flags, ⟨message, some .idOverflow⟩)
  | some id =>
    let message := { message with id }
    match ← readField payload with
    | none => pure (flags, ⟨message, some .senderOverflow⟩)
    | some sender =>
      let message := { message with sender }
      match ← readContent payload with
      | none => pure (flags, ⟨message, some .contentOverflow⟩)
      | some content =>
        if message.isEncrypted then
          pure (flags, ⟨{ message with encryptedContent := content, content := [] }, none⟩)
        else pure (flags, ⟨{ message with content }, none⟩)

/-- A field that is read when its flag is set and the payload has not ended, and that
keeps its default when it runs past the end. -/
def readOptionalField (present : Bool) (store : Bytes → BitchatMessage → BitchatMessage)
    (payload : Bytes) (message : BitchatMessage) : Reader BitchatMessage := do
  let offset ← get
  if present ∧ offset < payload.length then
    match ← readField payload with
    | some s => pure (store s message)
    | none => pure message
  else pure message

/-- The bytes of a hexadecimal peer ID; pairs that `std::stoi` rejects are skipped. -/
def parsePeerIDHex : Bytes → Bytes
  | a :: b :: s => match stoi16 [a, b] with
    | .ok value => UInt8.ofInt value :: parsePeerIDHex s
    | .error _ => parsePeerIDHex s
  | _ => []

def readMentionsLoop (payload : Bytes) : ℕ → List Bytes → Reader (List Bytes)
  | 0, mentions => pure mentions
  | i + 1, mentions => do
      let offset ← get
      if offset < payload.length then
        match ← readField payload with
        | some s => readMentionsLoop payload i (mentions ++ [s])
        | none => readMentionsLoop payload i mentions
      else pure mentions

def readMentions (present : Bool) (payload : Bytes) (message : BitchatMessage) :
    Reader BitchatMessage := do
  let offset ← get
  if present ∧ offset < payload.length then
    let mentionCount ← readUint8 payload
    let mentions ← readMentionsLoop payload mentionCount.toNat []
    pure { message with mentions }
  else pure message

def readOptionals (flags : UInt8) (payload : Bytes) (message : BitchatMessage) :
    Reader BitchatMessage := do
  let message ← readOptionalField (flags &&& 0x04 != 0)
    (fun s message => { message with originalSender := s }) payload message
  let message ← readOptionalField (flags &&& 0x08 != 0)
    (fun s message => { message with recipientNickname := s }) payload message
  let message ← readOptionalField (flags &&& 0x10 != 0)
    (fun s message => { message with senderPeerID := parsePeerIDHex s }) payload message
  let message ← readMentions (flags &&& 0x20 != 0) payload message
  readOptionalField (flags &&& 0x40 != 0)
    (fun s message => { message with channel := s }) payload message

/-- `parseMessagePayload` behind its size check. -/
def readMessage (payload : Bytes) : Reader ParsedMessage := do
  let (flags, parsed) ← readMandatory payload
  if parsed.error.isSome then pure parsed
  else
    let message ← readOptionals flags payload parsed.message
    pure ⟨message, none⟩

def parseMessagePayload (payload : Bytes) : Except OutOfBounds ParsedMessage :=
  if payload.length < 13 then .ok ⟨{}, some .payloadTooSmall⟩
  else (readMessage payload).run' 0

theorem messageFlagByte_bits (relay isPrivate originalSender recipientNickname senderPeerID mentions
    channel encrypted : Bool) :
    let flags := messageFlagByte relay isPrivate originalSender recipientNickname senderPeerID
      mentions channel encrypted
    (flags &&& 0x01 != 0) = relay ∧ (flags &&& 0x02 != 0) = isPrivate ∧
      (flags &&& 0x04 != 0) = originalSender ∧ (flags &&& 0x08 != 0) = recipientNickname ∧
      (flags &&& 0x10 != 0) = senderPeerID ∧ (flags &&& 0x20 != 0) = mentions ∧
      (flags &&& 0x40 != 0) = channel ∧ (flags &&& 0x80 != 0) = encrypted := by
  revert relay isPrivate originalSender recipientNickname senderPeerID mentions channel encrypted
  decide +kernel

def fieldBytes (s : Bytes) : Bytes :=
  [UInt8.ofNat (min 255 s.length)] ++ s.take (min 255 s.length)

def contentBytes (content : Bytes) : Bytes :=
  toBytes 2 (min 65535 content.length) ++ content.take (min 65535 content.length)

def optionalBytes (s : Bytes) : Bytes := if s.isEmpty then [] else fieldBytes s

def mentionsBytes (mentions : List Bytes) : Bytes :=
  if mentions.isEmpty then []
  else [UInt8.ofNat (min 255 mentions.length)] ++ mentions.flatMap fieldBytes

theorem writeField_eq (data s : Bytes) : writeField data s = data ++ fieldBytes s := by
  simp [writeField, fieldBytes]

theorem toNat_min_65535 (n : ℕ) : (UInt16.ofNat (min 65535 n)).toNat = min 65535 n := by
  rw [UInt16.toNat_ofNat', Nat.mod_eq_of_lt (by omega)]

theorem writeContent_eq (data content : Bytes) :
    writeContent data content = data ++ contentBytes content := by
  simp only [writeContent, contentBytes, writeUint16_eq, toNat_min_65535, List.append_assoc]

theorem foldl_writeField (fields : List Bytes) (data : Bytes) :
    fields.foldl writeField data = data ++ fields.flatMap fieldBytes := by
  induction fields generalizing data with
  | nil => exact (List.append_nil data).symm
  | cons s fields ih =>
      rw [List.foldl_cons, ih, writeField_eq, List.flatMap_cons, List.append_assoc]

theorem writeMentions_eq (data : Bytes) (mentions : List Bytes) :
    writeMentions data mentions = data ++
      ([UInt8.ofNat (min 255 mentions.length)] ++ mentions.flatMap fieldBytes) := by
  rw [writeMentions, writeUint8_eq, foldl_writeField, List.append_assoc]

theorem makeMessagePayload_eq (uuid : Bytes) (message : BitchatMessage) :
    makeMessagePayload uuid message =
      ([messageFlags message] ++ (toBytes 8 message.timestamp.toNat ++
        (fieldBytes (if message.id.isEmpty then uuid else message.id) ++
          (fieldBytes message.sender ++ contentBytes message.content)))) ++
      (optionalBytes message.originalSender ++ (optionalBytes message.recipientNickname ++
        (optionalBytes (toHex message.senderPeerID) ++
          (mentionsBytes message.mentions ++ optionalBytes message.channel)))) := by
  have hhex : (toHex message.senderPeerID).isEmpty = message.senderPeerID.isEmpty := by
    cases message.senderPeerID <;> rfl
  simp only [makeMessagePayload, writeUint8_eq, writeUint64_eq, writeField_eq, writeContent_eq,
    writeMentions_eq, optionalBytes, mentionsBytes, hhex]
  cases message.originalSender.isEmpty <;> cases message.recipientNickname.isEmpty <;>
    cases message.senderPeerID.isEmpty <;> cases message.mentions.isEmpty <;>
    cases message.channel.isEmpty <;> simp [List.append_assoc]

end Bitchat.PacketSerializer
