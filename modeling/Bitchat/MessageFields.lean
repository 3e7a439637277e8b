import Bitchat.MessageRoundTrip
import Bitchat.ParserBounds
import Bitchat.UnreadBytes

/-!
# The optional fields as a function of what is left

Behind the mandatory part the message parser depends on the flag byte and on the bytes that
are left, and it always returns. `takeOptionals` is that function. It is stated over any
carrier of bytes, so that it also runs over bytes which are marked with where they come from.
-/

namespace Bitchat.PacketSerializer

open ByteCursor BigEndian StringHelper

section Take

variable {κ : Type} (byte : κ → UInt8)

/-- A length byte and the bytes of the field, if they are all there. The length byte is
gone in both cases. -/
def takeField : List κ → Option (List κ) × List κ
  | [] => (none, [])
  | n :: s =>
      if (byte n).toNat ≤ s.length then
        (some (s.take (byte n).toNat), s.drop (byte n).toNat)
      else (none, s)

def takeFields : ℕ → List κ → List (List κ) × List κ
  | 0, s => ([], s)
  | i + 1, s =>
      let field := takeField byte s
      let fields := takeFields i field.2
      (field.1.toList ++ fields.1, fields.2)

def takeOptional (present : Bool) (s : List κ) : List κ × List κ :=
  if present then ((takeField byte s).1.getD [], (takeField byte s).2) else ([], s)

def takeCounted : List κ → List (List κ) × List κ
  | [] => ([], [])
  | n :: s => takeFields byte (byte n).toNat s

def takeMentions (present : Bool) (s : List κ) : List (List κ) × List κ :=
  if present then takeCounted byte s else ([], s)

/-- The optional fields of a message; the peer ID as the text it is sent in. -/
structure Optionals (κ : Type) where
  originalSender : List κ
  recipientNickname : List κ
  peerIDHex : List κ
  mentions : List (List κ)
  channel : List κ

def takeOptionals (flags : UInt8) (s : List κ) : Optionals κ :=
  let originalSender := takeOptional byte (flags &&& 0x04 != 0) s
  let recipientNickname := takeOptional byte (flags &&& 0x08 != 0) originalSender.2
  let peerIDHex := takeOptional byte (flags &&& 0x10 != 0) recipientNickname.2
  let mentions := takeMentions byte (flags &&& 0x20 != 0) peerIDHex.2
  let channel := takeOptional byte (flags &&& 0x40 != 0) mentions.2
  { originalSender := originalSender.1, recipientNickname := recipientNickname.1
    peerIDHex := peerIDHex.1, mentions := mentions.1, channel := channel.1 }

theorem takeField_append {n : κ} {v : List κ} (h : (byte n).toNat = v.length) (t : List κ) :
    takeField byte (n :: (v ++ t)) = (some v, t) := by
  rw [takeField, if_pos (by rw [h, List.length_append]; omega), h, List.take_left, List.drop_left]

theorem takeFields_nil (n : ℕ) : takeFields byte n [] = ([], []) := by
  induction n with
  | zero => rfl
  | succ n ih =>
      rw [takeFields]
      dsimp only [takeField]
      rw [ih]
      rfl

end Take

theorem reads_readField (n : UInt8) (s : Bytes) :
    Reads readField (n :: s) (takeField id (n :: s)).1 (takeField id (n :: s)).2 := by
  apply ((reads_next n s).map UInt8.toNat).bind
  rw [takeField]
  dsimp only [id]
  split_ifs with hroom
  · refine .get_ite_neg (fun before => ?_) ((reads_block hroom).bind (.pure _ _))
    rw [List.length_append]
    omega
  · refine .get_ite_pos (fun before => ?_) (.pure _ _)
    rw [List.length_append]
    omega

theorem reads_readOptionalField (present : Bool) (store : Bytes → BitchatMessage → BitchatMessage)
    {message : BitchatMessage} (hdefault : store [] message = message) (s : Bytes) :
    Reads (fun payload => readOptionalField present store payload message) s
      (store (takeOptional id present s).1 message) (takeOptional id present s).2 := by
  unfold readOptionalField takeOptional
  cases present with
  | false =>
      simp only [Bool.false_eq_true, if_false, hdefault]
      exact .get_ite_neg (fun before h => absurd h.1 (by decide)) (.pure _ _)
  | true =>
      cases s with
      | nil =>
          simp only [takeField, if_true, Option.getD_none, hdefault]
          exact .get_ite_neg (fun before h => by simp at h) (.pure _ _)
      | cons n s =>
          simp only [if_true]
          refine .get_ite_pos (fun before => by simp) ((reads_readField n s).bind ?_)
          cases (takeField id (n :: s)).1 with
          | none =>
              rw [Option.getD_none, hdefault]
              exact .pure _ _
          | some value => exact .pure _ _

theorem reads_readMentionsLoop (n : ℕ) (acc : List Bytes) (s : Bytes) :
    Reads (fun payload => readMentionsLoop payload n acc) s (acc ++ (takeFields id n s).1)
      (takeFields id n s).2 := by
  induction n generalizing acc s with
  | zero =>
      rw [takeFields, List.append_nil]
      exact .pure _ _
  | succ n ih =>
      cases s with
      | nil =>
          rw [takeFields_nil, List.append_nil]
          exact .get_ite_neg (fun before => by simp) (.pure _ _)
      | cons b s =>
          refine .get_ite_pos (fun before => by simp) ((reads_readField b s).bind ?_)
          rw [takeFields]
          dsimp only
          cases (takeField id (b :: s)).1 with
          | none => exact ih acc _
          | some value =>
              have hrest := ih (acc ++ [value]) (takeField id (b :: s)).2
              rw [List.append_assoc] at hrest
              exact hrest

theorem reads_readMentions (present : Bool) {message : BitchatMessage}
    (hdefault : message.mentions = []) (s : Bytes) :
    Reads (fun payload => readMentions present payload message) s
      { message with mentions := (takeMentions id present s).1 }
      (takeMentions id present s).2 := by
  have hkeep : { message with mentions := [] } = message := by rw [← hdefault]
  unfold readMentions takeMentions
  cases present with
  | false =>
      simp only [Bool.false_eq_true, if_false, hkeep]
      exact .get_ite_neg (fun before h => absurd h.1 (by decide)) (.pure _ _)
  | true =>
      cases s with
      | nil =>
          simp only [if_true, takeCounted, hkeep]
          exact .get_ite_neg (fun before h => by simp at h) (.pure _ _)
      | cons n s =>
          refine .get_ite_pos (fun before => by simp) ((reads_next n s).bind ?_)
          exact (reads_readMentionsLoop n.toNat [] s).bind (.pure _ _)

def attach (fields : Optionals UInt8) (message : BitchatMessage) : BitchatMessage :=
  { message with
    originalSender := fields.originalSender
    recipientNickname := fields.recipientNickname
    senderPeerID := parsePeerIDHex fields.peerIDHex
    mentions := fields.mentions
    channel := fields.channel }

structure Bare (message : BitchatMessage) : Prop where
  originalSender : message.originalSender = []
  recipientNickname : message.recipientNickname = []
  senderPeerID : message.senderPeerID = []
  mentions : message.mentions = []
  channel : message.channel = []

theorem reads_readOptionals (flags : UInt8) {message : BitchatMessage} (hbare : Bare message)
    (s : Bytes) :
    ∃ t, Reads (fun payload => readOptionals flags payload message) s
      (attach (takeOptionals id flags s) message) t := by
  refine ⟨_, (reads_readOptionalField _ _ ?_ s).bind ((reads_readOptionalField _ _ ?_ _).bind
    ((reads_readOptionalField _ _ ?_ _).bind ((reads_readMentions _ ?_ _).bind
      (reads_readOptionalField _ _ ?_ _))))⟩
  · rw [← hbare.originalSender]
  · rw [← hbare.recipientNickname]
  · have hnil : parsePeerIDHex [] = [] := rfl
    have hdefault := hbare.senderPeerID
    cases message
    cases hdefault
    rw [hnil]
  · exact hbare.mentions
  · rw [← hbare.channel]

def senderEnd (payload : Bytes) : ℕ := fieldEnd payload (fieldEnd payload 9)

def contentLength (payload : Bytes) : ℕ := ofBytes ((payload.drop (senderEnd payload)).take 2)

def contentEnd (payload : Bytes) : ℕ := senderEnd payload + 2 + contentLength payload

def optionalsOf (payload : Bytes) : Optionals UInt8 :=
  takeOptionals id (payload.getD 0 0) (payload.drop (contentEnd payload))

/-- A message with its mandatory fields; the content of an encrypted one is its encrypted
content. -/
def withContent (message : BitchatMessage) (sender content : Bytes) : BitchatMessage :=
  if message.isEncrypted then { message with sender, encryptedContent := content, content := [] }
  else { message with sender, content }

theorem bare_withContent (flags : UInt8) (timestamp : UInt64) (id sender content : Bytes) :
    Bare (withContent { flagged flags timestamp with id } sender content) := by
  unfold withContent
  split_ifs
  · exact ⟨rfl, rfl, rfl, rfl, rfl⟩
  · exact ⟨rfl, rfl, rfl, rfl, rfl⟩

variable {payload : Bytes}

theorem readField_some {offset offset' : ℕ} {s : Bytes}
    (h : (readField payload).run offset = .ok (some s, offset')) :
    offset' = fieldEnd payload offset ∧ offset' ≤ payload.length ∧ s.length ≤ 255 := by
  by_cases hlt : offset < payload.length
  · have hlen := readFieldLength_run hlt
    have hbyte : (payload.getD offset 0).toNat < 256 := UInt8.toNat_lt _
    rcases Nat.lt_or_ge payload.length (offset + 1 + (payload.getD offset 0).toNat) with hcut | hle
    · rw [readField, readCounted_cut hlen hcut] at h
      cases h
    · rw [readField, readCounted_ok hlen hle] at h
      cases h
      refine ⟨rfl, hle, ?_⟩
      rw [List.length_take]
      omega
  · have herror : (UInt8.toNat <$> readUint8 payload).run offset =
        .error ⟨offset, payload.length⟩ := by
      rw [StateT.run_map, readUint8, next_run_error payload (Nat.le_of_not_lt hlt)]
      rfl
    rw [readField, readCounted_error herror] at h
    cases h

theorem readContentLength_run {offset : ℕ} (h : offset + 2 ≤ payload.length) :
    (UInt16.toNat <$> readUint16 payload).run offset =
      .ok (ofBytes ((payload.drop offset).take 2), offset + 2) := by
  have htwo : ((payload.drop offset).take 2).length = 2 := by
    rw [List.length_take, List.length_drop]
    omega
  have hread := ((decodes_readUint16 htwo).map UInt16.toNat).reads (payload.drop (offset + 2))
  rw [← List.drop_drop, List.take_append_drop] at hread
  have hlt : ofBytes ((payload.drop offset).take 2) < 2 ^ 16 := by
    have hbound := ofBytes_lt ((payload.drop offset).take 2)
    rwa [htwo] at hbound
  rw [hread.run_drop (by omega), UInt16.toNat_ofNat', Nat.mod_eq_of_lt hlt, List.drop_drop,
    List.length_drop, show payload.length - (payload.length - (offset + 2)) = offset + 2 by omega]

theorem readContent_some {offset offset' : ℕ} {s : Bytes}
    (h : (readContent payload).run offset = .ok (some s, offset')) :
    s.length = ofBytes ((payload.drop offset).take 2) ∧ offset' = offset + 2 + s.length ∧
      offset' ≤ payload.length := by
  obtain ⟨len, o, hlen, -⟩ := run_bind_ok h
  have hroom : offset + 2 ≤ payload.length := by
    rw [StateT.run_map] at hlen
    cases hsize : (readUint16 payload).run offset with
    | error e =>
        rw [hsize] at hlen
        cases hlen
    | ok r =>
        obtain ⟨ho, hle⟩ := readUint16_ok hsize
        omega
  have hvalue := readContentLength_run hroom
  rcases Nat.lt_or_ge payload.length
    (offset + 2 + ofBytes ((payload.drop offset).take 2)) with hcut | hle
  · rw [readContent, readCounted_cut hvalue hcut] at h
    cases h
  · rw [readContent, readCounted_ok hvalue hle] at h
    cases h
    rw [List.length_take, List.length_drop]
    exact ⟨by omega, by omega, hle⟩

theorem readFields_ok {flags flags' : UInt8} {message message' : BitchatMessage} {offset : ℕ}
    (h : (readFields payload flags message).run 9 = .ok ((flags', ⟨message', none⟩), offset)) :
    flags' = flags ∧ offset = contentEnd payload ∧ contentEnd payload ≤ payload.length ∧
      ∃ id sender content, id.length ≤ 255 ∧ sender.length ≤ 255 ∧
        content.length = contentLength payload ∧
        message' = withContent { message with id } sender content := by
  obtain ⟨id, o₁, hid, h⟩ := run_bind_ok h
  cases id with
  | none => cases h
  | some id =>
      obtain ⟨sender, o₂, hsender, h⟩ := run_bind_ok h
      cases sender with
      | none => cases h
      | some sender =>
          obtain ⟨content, o₃, hcontent, h⟩ := run_bind_ok h
          cases content with
          | none => cases h
          | some content =>
              obtain ⟨rfl, -, hidLength⟩ := readField_some hid
              obtain ⟨rfl, -, hsenderLength⟩ := readField_some hsender
              obtain ⟨hlength, rfl, hle⟩ := readContent_some hcontent
              have hend : fieldEnd payload (fieldEnd payload 9) + 2 + content.length =
                  contentEnd payload := by
                rw [hlength]
                rfl
              dsimp only at h
              split at h
              · next henc =>
                cases h
                exact ⟨rfl, hend, hend ▸ hle, id, sender, content, hidLength, hsenderLength,
                  hlength, (if_pos henc).symm⟩
              · next henc =>
                cases h
                exact ⟨rfl, hend, hend ▸ hle, id, sender, content, hidLength, hsenderLength,
                  hlength, (if_neg henc).symm⟩

/-- What a payload without an error is parsed as: its mandatory fields, and behind them the
optional ones. -/
theorem parse_ok_none {message : BitchatMessage}
    (h : parseMessagePayload payload = .ok ⟨message, none⟩) :
    contentEnd payload ≤ payload.length ∧ ∃ timestamp id sender content, id.length ≤ 255 ∧
      sender.length ≤ 255 ∧ content.length = contentLength payload ∧
      message = attach (optionalsOf payload)
        (withContent { flagged (payload.getD 0 0) timestamp with id } sender content) := by
  rw [parseMessagePayload] at h
  split_ifs at h with hshort
  · cases h
  · obtain ⟨offset', hread⟩ := run'_ok h
    obtain ⟨⟨flags, mandatory⟩, o₁, hmandatory, hread⟩ := run_bind_ok hread
    obtain ⟨timestamp, hrun⟩ := readMandatory_run_flagged (Nat.le_of_not_lt hshort)
    rw [hrun] at hmandatory
    dsimp only at hread
    cases herror : mandatory.error with
    | some e =>
        rw [herror] at hread
        cases hread
        cases herror
    | none =>
        obtain ⟨message', error⟩ := mandatory
        cases herror
        obtain ⟨rfl, rfl, hle, id, sender, content, hid, hsender, hcontent, rfl⟩ :=
          readFields_ok hmandatory
        obtain ⟨t, hoptionals⟩ := reads_readOptionals (payload.getD 0 0)
          (bare_withContent (payload.getD 0 0) timestamp id sender content)
          (payload.drop (contentEnd payload))
        have hafter := hoptionals.run_drop hle
        obtain ⟨message', o₂, hoptional, hread⟩ := run_bind_ok hread
        rw [hafter] at hoptional
        cases hoptional
        cases hread
        exact ⟨hle, timestamp, id, sender, content, hid, hsender, hcontent, rfl⟩

def optionalSection (message : BitchatMessage) : Bytes :=
  optionalBytes message.originalSender ++ (optionalBytes message.recipientNickname ++
    (optionalBytes (toHex message.senderPeerID) ++
      (mentionsBytes message.mentions ++ optionalBytes message.channel)))

theorem makeMessagePayload_sections (uuid : Bytes) (message : BitchatMessage) :
    makeMessagePayload uuid message = mandatoryBytes uuid message ++ optionalSection message :=
  makeMessagePayload_eq uuid message

theorem length_mandatoryBytes (uuid : Bytes) (message : BitchatMessage) :
    13 ≤ (mandatoryBytes uuid message).length := by
  simp only [mandatoryBytes, fieldBytes, contentBytes, List.length_append, List.length_singleton,
    length_toBytes]
  omega

/-- Behind a whole mandatory part the parser takes its optional fields from whatever follows. -/
theorem parse_mandatory_append (uuid : Bytes) (message : BitchatMessage) (y : Bytes) :
    parseMessagePayload (mandatoryBytes uuid message ++ y) =
      .ok ⟨attach (takeOptionals id (messageFlags message) y) (mandatoryFields uuid message),
        none⟩ := by
  have hlen := length_mandatoryBytes uuid message
  have hbare : Bare (mandatoryFields uuid message) := ⟨rfl, rfl, rfl, rfl, rfl⟩
  obtain ⟨t, hoptionals⟩ := reads_readOptionals (messageFlags message) hbare y
  have hread : Reads readMessage (mandatoryBytes uuid message ++ y)
      ⟨attach (takeOptionals id (messageFlags message) y) (mandatoryFields uuid message), none⟩ t :=
    ((decodes_mandatoryBytes uuid message).reads y).bind (hoptionals.bind (.pure _ t))
  rw [parseMessagePayload, if_neg (by rw [List.length_append]; omega), hread.run'_zero]

theorem takeField_fieldBytes (s t : Bytes) :
    takeField id (fieldBytes s ++ t) = (some (s.take 255), t) := by
  have hlen : (UInt8.ofNat (min 255 s.length)).toNat = (s.take 255).length := by
    rw [UInt8.toNat_ofNat', List.length_take]
    omega
  rw [fieldBytes, take_min, List.append_assoc, List.singleton_append]
  exact takeField_append id hlen t

theorem takeOptional_optionalBytes (s t : Bytes) :
    takeOptional id (!s.isEmpty) (optionalBytes s ++ t) = (s.take 255, t) := by
  rw [takeOptional, optionalBytes]
  cases s with
  | nil => rfl
  | cons b s =>
      simp only [List.isEmpty_cons, Bool.not_false, Bool.false_eq_true, if_true, if_false,
        takeField_fieldBytes]
      rfl

theorem takeFields_flatMap (ms : List Bytes) (t : Bytes) :
    takeFields id ms.length (ms.flatMap fieldBytes ++ t) = (ms.map fun s => s.take 255, t) := by
  induction ms with
  | nil => rfl
  | cons s ms ih =>
      rw [List.length_cons, List.flatMap_cons, List.append_assoc, takeFields]
      simp only [takeField_fieldBytes, ih]
      rfl

theorem takeMentions_mentionsBytes (ms : List Bytes) (t : Bytes) :
    takeMentions id (!ms.isEmpty) (mentionsBytes ms ++ t) =
      ((ms.take 255).map fun s => s.take 255, (ms.drop 255).flatMap fieldBytes ++ t) := by
  cases ms with
  | nil => rfl
  | cons m ms =>
      have hcount : (UInt8.ofNat (min 255 (m :: ms).length)).toNat =
          ((m :: ms).take 255).length := by
        rw [UInt8.toNat_ofNat', List.length_take]
        omega
      have hsplit : (m :: ms).flatMap fieldBytes ++ t = ((m :: ms).take 255).flatMap fieldBytes ++
          (((m :: ms).drop 255).flatMap fieldBytes ++ t) := by
        rw [← List.append_assoc, ← List.flatMap_append, List.take_append_drop]
      rw [takeMentions, mentionsBytes]
      simp only [List.isEmpty_cons, Bool.not_false, Bool.false_eq_true, if_true, if_false]
      rw [List.append_assoc, List.singleton_append, takeCounted, hsplit]
      dsimp only [id]
      rw [hcount, takeFields_flatMap]

/-- Every field comes back cut, except the channel, which is taken from behind the 255th
mention. -/
theorem takeOptionals_made (message : BitchatMessage) :
    takeOptionals id (messageFlags message) (optionalSection message) =
      { originalSender := message.originalSender.take 255
        recipientNickname := message.recipientNickname.take 255
        peerIDHex := (toHex message.senderPeerID).take 255
        mentions := (message.mentions.take 255).map fun s => s.take 255
        channel := (takeOptional id (!message.channel.isEmpty)
          ((message.mentions.drop 255).flatMap fieldBytes ++
            optionalBytes message.channel)).1 } := by
  obtain ⟨horiginal, hrecipient, hsender, hmentions, hchannel⟩ := messageFlags_optionals message
  rw [takeOptionals, horiginal, hrecipient, hsender, hmentions, hchannel, optionalSection]
  simp only [takeOptional_optionalBytes, takeMentions_mentionsBytes]

/-- Every field fits behind the length that it is written with. -/
structure WithinLimits (message : BitchatMessage) : Prop where
  id : message.id.length ≤ 255
  sender : message.sender.length ≤ 255
  content : message.content.length ≤ 65535
  originalSender : message.originalSender.length ≤ 255
  recipientNickname : message.recipientNickname.length ≤ 255
  senderPeerID : message.senderPeerID.length ≤ 127
  mentions : message.mentions.length ≤ 255
  mention : ∀ s ∈ message.mentions, s.length ≤ 255
  channel : message.channel.length ≤ 255

theorem map_take_of_short {fields : List Bytes} (h : ∀ s ∈ fields, s.length ≤ 255) :
    (fields.map fun s => s.take 255) = fields := by
  calc
    fields.map (fun s => s.take 255) = fields.map id :=
      List.map_congr_left fun s hs => List.take_of_length_le (h s hs)
    _ = fields := List.map_id fields

theorem parse_make_within (uuid : Bytes) {message : BitchatMessage} (h : WithinLimits message)
    (hid : message.id ≠ []) :
    parseMessagePayload (makeMessagePayload uuid message) =
      .ok ⟨{ message with
        content := if message.isEncrypted then [] else message.content
        encryptedContent := if message.isEncrypted then message.content else [] }, none⟩ := by
  have hisEmpty : message.id.isEmpty = false := by simpa using hid
  have hpeer := parsePeerIDHex_take_toHex message.senderPeerID 127
  rw [List.take_of_length_le h.senderPeerID] at hpeer
  have hchannel := takeOptional_optionalBytes message.channel []
  rw [List.append_nil, List.take_of_length_le h.channel] at hchannel
  rw [makeMessagePayload_sections, parse_mandatory_append, takeOptionals_made,
    List.drop_eq_nil_of_le h.mentions, List.flatMap_nil, List.nil_append, hchannel,
    List.take_of_length_le h.originalSender, List.take_of_length_le h.recipientNickname,
    List.take_of_length_le h.mentions, map_take_of_short h.mention, attach, hpeer]
  simp only [mandatoryFields, hisEmpty, Bool.false_eq_true, if_false,
    List.take_of_length_le h.id, List.take_of_length_le h.sender,
    List.take_of_length_le h.content]

theorem takeField_length {s v : Bytes} (h : (takeField id s).1 = some v) :
    v.length ≤ 255 := by
  cases s with
  | nil => cases h
  | cons n s =>
      have hn : n.toNat < 256 := n.toNat_lt
      rw [takeField] at h
      split_ifs at h
      cases h
      rw [List.length_take, id]
      omega

theorem takeFields_length (n : ℕ) (s : Bytes) :
    (takeFields id n s).1.length ≤ n ∧ ∀ v ∈ (takeFields id n s).1, v.length ≤ 255 := by
  induction n generalizing s with
  | zero => exact ⟨Nat.le_refl 0, fun v hv => by cases hv⟩
  | succ n ih =>
      obtain ⟨hcount, hshort⟩ := ih (takeField id s).2
      rw [takeFields]
      dsimp only
      cases hfield : (takeField id s).1 with
      | none => exact ⟨hcount.trans (Nat.le_succ n), hshort⟩
      | some v =>
          refine ⟨Nat.succ_le_succ hcount, fun w hw => ?_⟩
          rcases List.mem_cons.mp hw with rfl | hw
          · exact takeField_length hfield
          · exact hshort w hw

theorem takeOptional_length (present : Bool) (s : Bytes) :
    (takeOptional id present s).1.length ≤ 255 := by
  rw [takeOptional]
  cases present with
  | false => exact Nat.zero_le _
  | true =>
      rw [if_pos rfl]
      cases hfield : (takeField id s).1 with
      | none => exact Nat.zero_le _
      | some v => exact takeField_length hfield

theorem takeMentions_length (present : Bool) (s : Bytes) :
    (takeMentions id present s).1.length ≤ 255 ∧
      ∀ v ∈ (takeMentions id present s).1, v.length ≤ 255 := by
  have hnone : ([] : List Bytes).length ≤ 255 ∧ ∀ v ∈ ([] : List Bytes), v.length ≤ 255 :=
    ⟨Nat.zero_le _, fun v hv => by cases hv⟩
  rw [takeMentions]
  cases present with
  | false => exact hnone
  | true =>
      cases s with
      | nil => exact hnone
      | cons n s =>
          have hn : n.toNat < 256 := n.toNat_lt
          obtain ⟨hcount, hshort⟩ := takeFields_length n.toNat s
          exact ⟨hcount.trans (Nat.le_of_lt_succ hn), hshort⟩

theorem length_parsePeerIDHex (s : Bytes) : 2 * (parsePeerIDHex s).length ≤ s.length := by
  induction s using List.twoStepInduction with
  | nil => exact Nat.zero_le _
  | singleton a => exact Nat.zero_le _
  | cons_cons a b s ih =>
      rw [parsePeerIDHex]
      cases stoi16 [a, b] with
      | ok value =>
          simp only [List.length_cons]
          omega
      | error e =>
          simp only [List.length_cons]
          omega

theorem contentLength_le (payload : Bytes) : contentLength payload ≤ 65535 := by
  have hlt := ofBytes_lt ((payload.drop (senderEnd payload)).take 2)
  have hpow : 256 ^ ((payload.drop (senderEnd payload)).take 2).length ≤ 256 ^ 2 :=
    Nat.pow_le_pow_right (by decide) (List.length_take_le _ _)
  rw [contentLength]
  omega

theorem takeOptionals_within (flags : UInt8) (s : Bytes) :
    let fields := takeOptionals id flags s
    fields.originalSender.length ≤ 255 ∧ fields.recipientNickname.length ≤ 255 ∧
      fields.peerIDHex.length ≤ 255 ∧ fields.mentions.length ≤ 255 ∧
      (∀ v ∈ fields.mentions, v.length ≤ 255) ∧ fields.channel.length ≤ 255 :=
  ⟨takeOptional_length _ _, takeOptional_length _ _, takeOptional_length _ _,
    (takeMentions_length _ _).1, (takeMentions_length _ _).2, takeOptional_length _ _⟩

/-- What is parsed without an error could have been sent. Its content stands in one of two
places, and the other one is empty. -/
theorem within_of_parse {message : BitchatMessage}
    (h : parseMessagePayload payload = .ok ⟨message, none⟩) :
    WithinLimits message ∧ message.isEncrypted = (payload.getD 0 0 &&& 0x80 != 0) ∧
      (message.isEncrypted = true →
        message.content = [] ∧ message.encryptedContent.length = contentLength payload) ∧
      (message.isEncrypted = false → message.encryptedContent = []) := by
  obtain ⟨-, timestamp, messageID, sender, content, hid, hsender, hcontent, rfl⟩ := parse_ok_none h
  obtain ⟨horiginal, hrecipient, hhex, hcount, hmention, hchannel⟩ :=
    takeOptionals_within (payload.getD 0 0) (payload.drop (contentEnd payload))
  have hpeer := length_parsePeerIDHex (optionalsOf payload).peerIDHex
  change (optionalsOf payload).peerIDHex.length ≤ 255 at hhex
  have hpeerLength : (parsePeerIDHex (optionalsOf payload).peerIDHex).length ≤ 127 := by omega
  have hcontentLength : content.length ≤ 65535 := hcontent ▸ contentLength_le payload
  cases hencrypted : (payload.getD 0 0 &&& 0x80 != 0) with
  | true =>
      have hflag : (flagged (payload.getD 0 0) timestamp).isEncrypted = true := hencrypted
      rw [withContent, if_pos hflag]
      exact ⟨⟨hid, hsender, Nat.zero_le _, horiginal, hrecipient, hpeerLength, hcount, hmention,
        hchannel⟩, hencrypted, fun _ => ⟨rfl, hcontent⟩, fun hplain =>
          absurd (hflag.symm.trans hplain) (by decide)⟩
  | false =>
      have hflag : (flagged (payload.getD 0 0) timestamp).isEncrypted = false := hencrypted
      rw [withContent, if_neg (by rw [hflag]; exact Bool.false_ne_true)]
      exact ⟨⟨hid, hsender, hcontentLength, horiginal, hrecipient, hpeerLength, hcount, hmention,
        hchannel⟩, hencrypted, fun hset => absurd (hflag.symm.trans hset) (by decide), fun _ => rfl⟩

end Bitchat.PacketSerializer
