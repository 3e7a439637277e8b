import Bitchat.MessagePayload

/-!
# Chat messages are parsed as they were made

Every field has its own `Decodes` lemma; the parser of a whole payload is their sequence.
What comes back is `transmitted`, the message cut to the limits of the format. Content
that only an encrypted message carries is not part of the format otherwise.
-/

namespace Bitchat.PacketSerializer

open ByteCursor BigEndian StringHelper

theorem decodes_readCounted {readLength : Bytes → Reader ℕ} {lengthBytes s : Bytes}
    (hl : Decodes readLength lengthBytes s.length) :
    Decodes (readCounted readLength) (lengthBytes ++ s) (some s) := by
  refine hl.bind (.get_ite_neg ?_ ?_)
  · intro before after
    simp only [List.length_append]
    omega
  · exact ((decodes_block rfl).bind (Decodes.pure _)).congr (List.append_nil _)

theorem take_min (n : ℕ) (s : Bytes) : s.take (min n s.length) = s.take n := by
  rcases Nat.le_total n s.length with h | h
  · rw [Nat.min_eq_left h]
  · rw [Nat.min_eq_right h, List.take_length, List.take_of_length_le h]

theorem decodes_readField (s : Bytes) : Decodes readField (fieldBytes s) (some (s.take 255)) := by
  have hlen : (UInt8.ofNat (min 255 s.length)).toNat = (s.take (min 255 s.length)).length := by
    rw [UInt8.toNat_ofNat', List.length_take]
    omega
  have hl : Decodes (fun payload => UInt8.toNat <$> readUint8 payload)
      [UInt8.ofNat (min 255 s.length)] (s.take (min 255 s.length)).length :=
    hlen ▸ (decodes_next _).map UInt8.toNat
  rw [← take_min 255 s]
  exact decodes_readCounted hl

theorem decodes_readContent (content : Bytes) :
    Decodes readContent (contentBytes content) (some (content.take 65535)) := by
  have hlen : (UInt16.ofNat (ofBytes (toBytes 2 (min 65535 content.length)))).toNat =
      (content.take (min 65535 content.length)).length := by
    rw [ofBytes_toBytes, UInt16.toNat_ofNat', List.length_take]
    omega
  have hl : Decodes (fun payload => UInt16.toNat <$> readUint16 payload)
      (toBytes 2 (min 65535 content.length)) (content.take (min 65535 content.length)).length :=
    hlen ▸ (decodes_readUint16 (length_toBytes 2 _)).map UInt16.toNat
  rw [← take_min 65535 content]
  exact decodes_readCounted hl

theorem length_fieldBytes_pos (s : Bytes) : 0 < (fieldBytes s).length := by
  simp [fieldBytes]

theorem decodes_readOptionalField {present : Bool} {s : Bytes} (hp : present = !s.isEmpty)
    (store : Bytes → BitchatMessage → BitchatMessage) (message : BitchatMessage) :
    Decodes (fun payload => readOptionalField present store payload message) (optionalBytes s)
      (if s.isEmpty then message else store (s.take 255) message) := by
  unfold readOptionalField optionalBytes
  cases hs : s.isEmpty with
  | true =>
      refine .get_ite_neg ?_ (Decodes.pure _)
      simp [hp, hs]
  | false =>
      refine .get_ite_pos ?_ ?_
      · intro before after
        have hpos := length_fieldBytes_pos s
        simp only [hp, hs, List.length_append]
        simp
        omega
      · exact ((decodes_readField s).bind (Decodes.pure _)).congr (List.append_nil _)

theorem decodes_readMentionsLoop (ms acc : List Bytes) :
    Decodes (fun payload => readMentionsLoop payload ms.length acc) (ms.flatMap fieldBytes)
      (acc ++ ms.map (fun s => s.take 255)) := by
  induction ms generalizing acc with
  | nil =>
      rw [List.map_nil, List.append_nil]
      exact Decodes.pure acc
  | cons s ms ih =>
      refine .get_ite_pos ?_ ?_
      · intro before after
        have hpos := length_fieldBytes_pos s
        simp only [List.flatMap_cons, List.length_append]
        omega
      · have hrest := ih (acc ++ [s.take 255])
        rw [List.append_assoc] at hrest
        exact (decodes_readField s).bind hrest

theorem decodes_readMentions {present : Bool} {ms : List Bytes} (hp : present = !ms.isEmpty)
    (hlen : ms.length ≤ 255) (message : BitchatMessage) :
    Decodes (fun payload => readMentions present payload message) (mentionsBytes ms)
      (if ms.isEmpty then message
        else { message with mentions := ms.map (fun s => s.take 255) }) := by
  unfold readMentions mentionsBytes
  cases hs : ms.isEmpty with
  | true =>
      refine .get_ite_neg ?_ (Decodes.pure _)
      simp [hp, hs]
  | false =>
      refine .get_ite_pos ?_ ((decodes_next _).bind ?_)
      · intro before after
        simp only [hp, hs, List.length_append]
        simp
        omega
      · have hcount : (UInt8.ofNat (min 255 ms.length)).toNat = ms.length := by
          rw [UInt8.toNat_ofNat']
          omega
        rw [hcount]
        exact ((decodes_readMentionsLoop ms []).bind (Decodes.pure _)).congr (List.append_nil _)

theorem parsePeerIDHex_take_toHex (v : Bytes) (k : ℕ) :
    parsePeerIDHex ((toHex v).take (2 * k + 1)) = v.take k := by
  induction v generalizing k with
  | nil => simp [parsePeerIDHex]
  | cons b v ih =>
      cases k with
      | zero => rfl
      | succ k =>
          rw [toHex_cons, Nat.mul_succ, List.take_succ_cons, List.take_succ_cons, parsePeerIDHex,
            stoi16_hexDigits, ih k, List.take_succ_cons]
          exact congrArg (fun byte => byte :: v.take k) (ofInt_toNat b)

/-- The message cut to the limits of the format, with everything else as it was. -/
def cut (message : BitchatMessage) : BitchatMessage :=
  { message with
    id := message.id.take 255
    sender := message.sender.take 255
    content := message.content.take 65535
    originalSender := message.originalSender.take 255
    recipientNickname := message.recipientNickname.take 255
    senderPeerID := message.senderPeerID.take 127
    mentions := message.mentions.map (fun s => s.take 255)
    channel := message.channel.take 255 }

/-- What the format carries of a message that is not encrypted. -/
def transmitted (message : BitchatMessage) : BitchatMessage :=
  { cut message with encryptedContent := [] }

def mandatoryPart (message : BitchatMessage) : BitchatMessage where
  id := message.id.take 255
  sender := message.sender.take 255
  content := message.content.take 65535
  timestamp := message.timestamp
  isRelay := message.isRelay
  isPrivate := message.isPrivate

def mandatoryBytes (uuid : Bytes) (message : BitchatMessage) : Bytes :=
  [messageFlags message] ++ (toBytes 8 message.timestamp.toNat ++
    (fieldBytes (if message.id.isEmpty then uuid else message.id) ++
      (fieldBytes message.sender ++ contentBytes message.content)))

/-- The fields up to the content as they are read; what an encrypted message has as its
content comes back as its encrypted content. -/
def mandatoryFields (uuid : Bytes) (message : BitchatMessage) : BitchatMessage where
  id := (if message.id.isEmpty then uuid else message.id).take 255
  sender := message.sender.take 255
  content := if message.isEncrypted then [] else message.content.take 65535
  encryptedContent := if message.isEncrypted then message.content.take 65535 else []
  timestamp := message.timestamp
  isRelay := message.isRelay
  isPrivate := message.isPrivate
  isEncrypted := message.isEncrypted

theorem decodes_mandatoryBytes (uuid : Bytes) (message : BitchatMessage) :
    Decodes readMandatory (mandatoryBytes uuid message)
      (messageFlags message, ⟨mandatoryFields uuid message, none⟩) := by
  obtain ⟨hrelay, hprivate, -, -, -, -, -, hencrypted⟩ := messageFlagByte_bits message.isRelay
    message.isPrivate (!message.originalSender.isEmpty) (!message.recipientNickname.isEmpty)
    (!message.senderPeerID.isEmpty) (!message.mentions.isEmpty) (!message.channel.isEmpty)
    message.isEncrypted
  change (messageFlags message &&& 0x01 != 0) = message.isRelay at hrelay
  change (messageFlags message &&& 0x02 != 0) = message.isPrivate at hprivate
  change (messageFlags message &&& 0x80 != 0) = message.isEncrypted at hencrypted
  have hts := decodes_readUint64 (length_toBytes 8 message.timestamp.toNat)
  rw [ofBytes_toBytes_uint64] at hts
  refine (decodes_next _).bind (hts.bind ((decodes_readField _).bind
    ((decodes_readField message.sender).bind
      (((decodes_readContent message.content).bind ?_).congr (List.append_nil _)))))
  simp only [hrelay, hprivate, hencrypted, mandatoryFields]
  cases message.isEncrypted with
  | true => exact Decodes.pure _
  | false => exact Decodes.pure _

theorem decodes_readMandatory (message : BitchatMessage) (henc : message.isEncrypted = false) :
    Decodes readMandatory
      ([messageFlags message] ++ (toBytes 8 message.timestamp.toNat ++
        (fieldBytes message.id ++ (fieldBytes message.sender ++ contentBytes message.content))))
      (messageFlags message, ⟨mandatoryPart message, none⟩) := by
  have hread := decodes_mandatoryBytes message.id message
  simp only [mandatoryBytes, mandatoryFields, henc, ite_self, Bool.false_eq_true, if_false] at hread
  exact hread

def withOptionals (message start : BitchatMessage) : BitchatMessage :=
  let start := if message.originalSender.isEmpty then start
    else { start with originalSender := message.originalSender.take 255 }
  let start := if message.recipientNickname.isEmpty then start
    else { start with recipientNickname := message.recipientNickname.take 255 }
  let start := if (toHex message.senderPeerID).isEmpty then start
    else { start with senderPeerID := parsePeerIDHex ((toHex message.senderPeerID).take 255) }
  let start := if message.mentions.isEmpty then start
    else { start with mentions := message.mentions.map (fun s => s.take 255) }
  if message.channel.isEmpty then start else { start with channel := message.channel.take 255 }

theorem isEmpty_toHex (data : Bytes) : (toHex data).isEmpty = data.isEmpty := by
  cases data <;> rfl

theorem messageFlags_optionals (message : BitchatMessage) :
    (messageFlags message &&& 0x04 != 0) = !message.originalSender.isEmpty ∧
      (messageFlags message &&& 0x08 != 0) = !message.recipientNickname.isEmpty ∧
      (messageFlags message &&& 0x10 != 0) = !(toHex message.senderPeerID).isEmpty ∧
      (messageFlags message &&& 0x20 != 0) = !message.mentions.isEmpty ∧
      (messageFlags message &&& 0x40 != 0) = !message.channel.isEmpty := by
  obtain ⟨-, -, horiginal, hrecipient, hsender, hmentions, hchannel, -⟩ :=
    messageFlagByte_bits message.isRelay message.isPrivate (!message.originalSender.isEmpty)
      (!message.recipientNickname.isEmpty) (!message.senderPeerID.isEmpty)
      (!message.mentions.isEmpty) (!message.channel.isEmpty) message.isEncrypted
  rw [isEmpty_toHex]
  exact ⟨horiginal, hrecipient, hsender, hmentions, hchannel⟩

theorem decodes_readOptionals (message start : BitchatMessage)
    (hm : message.mentions.length ≤ 255) :
    Decodes (fun payload => readOptionals (messageFlags message) payload start)
      (optionalBytes message.originalSender ++ (optionalBytes message.recipientNickname ++
        (optionalBytes (toHex message.senderPeerID) ++
          (mentionsBytes message.mentions ++ optionalBytes message.channel))))
      (withOptionals message start) := by
  obtain ⟨horiginal, hrecipient, hsender, hmentions, hchannel⟩ := messageFlags_optionals message
  exact (decodes_readOptionalField horiginal _ start).bind
    ((decodes_readOptionalField hrecipient _ _).bind
      ((decodes_readOptionalField hsender _ _).bind
        ((decodes_readMentions hmentions hm _).bind
          (decodes_readOptionalField hchannel _ _))))

theorem withOptionals_mandatoryPart (message : BitchatMessage)
    (henc : message.isEncrypted = false) :
    withOptionals message (mandatoryPart message) = transmitted message := by
  have hid := parsePeerIDHex_take_toHex message.senderPeerID 127
  simp only [withOptionals, mandatoryPart, transmitted, cut, isEmpty_toHex]
  split_ifs <;> simp_all

theorem length_makeMessagePayload (uuid : Bytes) (message : BitchatMessage) :
    13 + min 255 (if message.id.isEmpty then uuid else message.id).length +
        min 65535 message.content.length ≤ (makeMessagePayload uuid message).length := by
  rw [makeMessagePayload_eq]
  simp only [fieldBytes, contentBytes, List.length_append, List.length_singleton,
    length_toBytes, List.length_take]
  omega

theorem decodes_readMessage (message : BitchatMessage) (henc : message.isEncrypted = false)
    (hm : message.mentions.length ≤ 255) :
    Decodes readMessage
      (([messageFlags message] ++ (toBytes 8 message.timestamp.toNat ++
        (fieldBytes message.id ++ (fieldBytes message.sender ++ contentBytes message.content)))) ++
      (optionalBytes message.originalSender ++ (optionalBytes message.recipientNickname ++
        (optionalBytes (toHex message.senderPeerID) ++
          (mentionsBytes message.mentions ++ optionalBytes message.channel)))))
      ⟨transmitted message, none⟩ := by
  rw [← withOptionals_mandatoryPart message henc]
  refine (decodes_readMandatory message henc).bind (.ite_neg (by simp) ?_)
  exact ((decodes_readOptionals message (mandatoryPart message) hm).bind
    (Decodes.pure _)).congr (List.append_nil _)

theorem parseMessagePayload_of_made (uuid : Bytes) (message : BitchatMessage) :
    parseMessagePayload (makeMessagePayload uuid message) =
      (readMessage (makeMessagePayload uuid message)).run' 0 := by
  have hlen := length_makeMessagePayload uuid message
  rw [parseMessagePayload, if_neg (by omega)]

theorem readMessage_makeMessagePayload (uuid : Bytes) {message : BitchatMessage}
    (hid : message.id ≠ []) (henc : message.isEncrypted = false)
    (hm : message.mentions.length ≤ 255) :
    (readMessage (makeMessagePayload uuid message)).run' 0 = .ok ⟨transmitted message, none⟩ := by
  have hread := (decodes_readMessage message henc hm).run_zero []
  have hisEmpty : message.id.isEmpty = false := by simpa using hid
  rw [List.append_nil] at hread
  rw [makeMessagePayload_eq, hisEmpty, StateT.run'_eq]
  simp only [Bool.false_eq_true, if_false, hread]
  rfl

/-- The parser undoes the encoder up to the limits of the format. -/
theorem parseMessagePayload_makeMessagePayload (uuid : Bytes) (message : BitchatMessage)
    (hid : message.id ≠ []) (henc : message.isEncrypted = false)
    (hm : message.mentions.length ≤ 255) :
    parseMessagePayload (makeMessagePayload uuid message) = .ok ⟨transmitted message, none⟩ := by
  rw [parseMessagePayload_of_made, readMessage_makeMessagePayload uuid hid henc hm]

/-- A private message with every optional field, its last mention empty. -/
def fullMessage : BitchatMessage where
  id := [0x6D, 0x31]
  sender := [0x61]
  content := [0x68, 0x69]
  timestamp := 1700000000000
  isRelay := true
  originalSender := [0x62]
  isPrivate := true
  recipientNickname := [0x63]
  senderPeerID := [0xAB, 0x01]
  mentions := [[0x61], []]
  channel := [0x23]

theorem parseMessagePayload_fullMessage :
    parseMessagePayload (makeMessagePayload [] fullMessage) =
      .ok ⟨transmitted fullMessage, none⟩ :=
  parseMessagePayload_makeMessagePayload [] fullMessage (by decide) rfl (by decide)

/-- Content for encrypted messages is lost when the flag is not set. -/
theorem parseMessagePayload_encryptedContent :
    ¬ ∀ (uuid : Bytes) (message : BitchatMessage), message.id ≠ [] →
      message.isEncrypted = false → message.mentions.length ≤ 255 →
      parseMessagePayload (makeMessagePayload uuid message) = .ok ⟨cut message, none⟩ := by
  intro h
  have hread := h [] { id := [0x6D], encryptedContent := [1] } (by decide) rfl (by decide)
  revert hread
  decide

end Bitchat.PacketSerializer
