import Bitchat.ControlPayload

/-!
# Which payloads the parsers read out of bounds

The parsers of the control payloads check the offset before each length byte, so behind
their size check they always return. `parseMessagePayload` does not check it before the
length of the sender and before that of the content: it reads behind the end of a payload
that is cut there, and of no other.
-/

namespace Bitchat.PacketSerializer

open ByteCursor

variable {payload : Bytes} {offset : ℕ}

def fieldEnd (payload : Bytes) (offset : ℕ) : ℕ := offset + 1 + (payload.getD offset 0).toNat

theorem readFieldLength_run (h : offset < payload.length) :
    (UInt8.toNat <$> readUint8 payload).run offset =
      .ok ((payload.getD offset 0).toNat, offset + 1) := by
  rw [StateT.run_map, readUint8, next_run payload h, List.getD_eq_getElem?_getD,
    List.getElem?_eq_getElem h]
  rfl

theorem readCounted_run {readLength : Bytes → Reader ℕ} {len offset' : ℕ}
    (hlen : (readLength payload).run offset = .ok (len, offset')) :
    (readCounted readLength payload).run offset =
      (if offset' + len > payload.length then pure none
      else do
        let s ← block payload len
        pure (some s) : Reader (Option Bytes)).run offset' := by
  rw [readCounted, run_bind_of_run hlen]
  rfl

theorem readCounted_cut {readLength : Bytes → Reader ℕ} {len offset' : ℕ}
    (hlen : (readLength payload).run offset = .ok (len, offset'))
    (hcut : payload.length < offset' + len) :
    (readCounted readLength payload).run offset = .ok (none, offset') := by
  rw [readCounted_run hlen, if_pos hcut]
  rfl

theorem readCounted_ok {readLength : Bytes → Reader ℕ} {len offset' : ℕ}
    (hlen : (readLength payload).run offset = .ok (len, offset'))
    (hle : offset' + len ≤ payload.length) :
    (readCounted readLength payload).run offset =
      .ok (some ((payload.drop offset').take len), offset' + len) := by
  rw [readCounted_run hlen, if_neg (Nat.not_lt.mpr hle), run_bind_of_run (block_run payload hle)]
  rfl

theorem readCounted_error {readLength : Bytes → Reader ℕ} {e : OutOfBounds}
    (hlen : (readLength payload).run offset = .error e) :
    (readCounted readLength payload).run offset = .error e := by
  rw [readCounted, run_bind_of_error hlen]

theorem inBounds_readCounted {readLength : Bytes → Reader ℕ}
    (hlen : InBounds payload (readLength payload) offset) :
    InBounds payload (readCounted readLength payload) offset := by
  obtain ⟨len, offset', hrun, hle⟩ := hlen
  rcases Nat.lt_or_ge payload.length (offset' + len) with hcut | hroom
  · exact ⟨_, _, readCounted_cut hrun hcut, hle⟩
  · exact ⟨_, _, readCounted_ok hrun hroom, hroom⟩

theorem inBounds_readField (h : offset < payload.length) :
    InBounds payload (readField payload) offset :=
  inBounds_readCounted ⟨_, _, readFieldLength_run h, h⟩

theorem inBounds_readUint16 (h : offset + 2 ≤ payload.length) :
    InBounds payload (readUint16 payload) offset :=
  .bind_of_run (next_run payload (by omega)) (.bind_of_run (next_run payload (by omega))
    (.pure _ (by omega)))

theorem readUint16_error (hle : offset ≤ payload.length) (h : payload.length < offset + 2) :
    (readUint16 payload).run offset = .error ⟨payload.length, payload.length⟩ := by
  rcases Nat.eq_or_lt_of_le hle with heq | hlt
  · rw [readUint16, run_bind_of_error (next_run_error payload heq.ge), heq]
  · have hsecond : offset + 1 = payload.length := by omega
    rw [readUint16, run_bind_of_run (next_run payload hlt),
      run_bind_of_error (next_run_error payload hsecond.ge), hsecond]

theorem inBounds_readContent (h : offset + 2 ≤ payload.length) :
    InBounds payload (readContent payload) offset :=
  inBounds_readCounted ((inBounds_readUint16 h).bind fun _ _ hle => .pure _ hle)

theorem readUint64Loop_run (n : ℕ) (value : UInt64) (h : offset + n ≤ payload.length) :
    ∃ v, (readUint64Loop payload n value).run offset = .ok (v, offset + n) := by
  induction n generalizing offset value with
  | zero => exact ⟨value, rfl⟩
  | succ n ih =>
      rw [readUint64Loop,
        run_bind_of_run (next_run payload (show offset < payload.length by omega)),
        show offset + (n + 1) = offset + 1 + n by omega]
      exact ih _ (by omega)

/-- The payload ends in front of the length of the sender, or before the length of the
content is complete. -/
def CutMessage (payload : Bytes) : Prop :=
  let idEnd := fieldEnd payload 9
  let senderEnd := fieldEnd payload idEnd
  13 ≤ payload.length ∧ idEnd ≤ payload.length ∧
    (idEnd = payload.length ∨ senderEnd ≤ payload.length ∧ payload.length < senderEnd + 2)

instance (payload : Bytes) : Decidable (CutMessage payload) := by
  unfold CutMessage
  infer_instance

theorem inBounds_readOptionalField (present : Bool)
    (store : Bytes → BitchatMessage → BitchatMessage) (message : BitchatMessage)
    (h : offset ≤ payload.length) :
    InBounds payload (readOptionalField present store payload message) offset := by
  refine .get_bind (.ite (fun hlt => ?_) fun _ => .pure _ h)
  refine (inBounds_readField hlt.2).bind fun s offset' hle => ?_
  cases s with
  | none => exact .pure _ hle
  | some s => exact .pure _ hle

theorem inBounds_readMentionsLoop (n : ℕ) (mentions : List Bytes) (h : offset ≤ payload.length) :
    InBounds payload (readMentionsLoop payload n mentions) offset := by
  induction n generalizing offset mentions with
  | zero => exact .pure _ h
  | succ n ih =>
      refine .get_bind (.ite (fun hlt => ?_) fun _ => .pure _ h)
      refine (inBounds_readField hlt).bind fun s offset' hle => ?_
      cases s with
      | none => exact ih _ hle
      | some s => exact ih _ hle

theorem inBounds_readMentions (present : Bool) (message : BitchatMessage)
    (h : offset ≤ payload.length) :
    InBounds payload (readMentions present payload message) offset :=
  .get_bind (.ite (fun hlt => (inBounds_next hlt.2).bind fun _ _ hle =>
    (inBounds_readMentionsLoop _ _ hle).bind fun _ _ hle => .pure _ hle) fun _ => .pure _ h)

theorem inBounds_readOptionals (flags : UInt8) (message : BitchatMessage)
    (h : offset ≤ payload.length) :
    InBounds payload (readOptionals flags payload message) offset :=
  (inBounds_readOptionalField _ _ _ h).bind fun _ _ h =>
    (inBounds_readOptionalField _ _ _ h).bind fun _ _ h =>
      (inBounds_readOptionalField _ _ _ h).bind fun _ _ h =>
        (inBounds_readMentions _ _ h).bind fun _ _ h => inBounds_readOptionalField _ _ _ h

def readFields (payload : Bytes) (flags : UInt8) (message : BitchatMessage) :
    Reader (UInt8 × ParsedMessage) := do
  match ← readField payload with
  | none => pure (flags, ⟨message, some .idOverflow⟩)
  | some id =>
    let message := { message with id }
    match ← readField payload with
    | none => pure (flags, ⟨message, some .senderOverflow⟩)
    | some sender =>
      let message := { message with sender }
      match ← readContent payload with
      | none => pure (flags, ⟨message, some .contentOverflow⟩)
      | some content =>
        if message.isEncrypted then
          pure (flags, ⟨{ message with encryptedContent := content, content := [] }, none⟩)
        else pure (flags, ⟨{ message with content }, none⟩)

def flagged (flags : UInt8) (timestamp : UInt64) : BitchatMessage where
  isRelay := flags &&& 0x01 != 0
  isPrivate := flags &&& 0x02 != 0
  isEncrypted := flags &&& 0x80 != 0
  timestamp := timestamp

theorem readMandatory_run_flagged (h : 13 ≤ payload.length) :
    ∃ timestamp, (readMandatory payload).run 0 =
      (readFields payload (payload.getD 0 0) (flagged (payload.getD 0 0) timestamp)).run 9 := by
  obtain ⟨timestamp, htimestamp⟩ := readUint64Loop_run 8 0 (show 1 + 8 ≤ payload.length by omega)
  have hflags : payload.getD 0 0 = payload[0] := by
    rw [List.getD_eq_getElem?_getD, List.getElem?_eq_getElem (by omega)]
    rfl
  refine ⟨timestamp, ?_⟩
  rw [hflags, readMandatory, readUint8, run_bind_of_run (next_run payload (by omega)), readUint64,
    run_bind_of_run htimestamp]
  rfl

theorem readMandatory_run (h : 13 ≤ payload.length) :
    ∃ flags message, (readMandatory payload).run 0 = (readFields payload flags message).run 9 ∧
      message.isPrivate = (payload.getD 0 0 &&& 0x02 != 0) ∧ message.channel = [] ∧
      message.recipientNickname = [] := by
  obtain ⟨timestamp, hrun⟩ := readMandatory_run_flagged h
  exact ⟨_, _, hrun, rfl, rfl, rfl⟩

theorem inBounds_readFields (h : 13 ≤ payload.length) (hcut : ¬ CutMessage payload) (flags : UInt8)
    (message : BitchatMessage) : InBounds payload (readFields payload flags message) 9 := by
  have hid := readFieldLength_run (show 9 < payload.length by omega)
  rcases Nat.lt_or_ge payload.length (fieldEnd payload 9) with hover | hidEnd
  · exact .bind_of_run (readCounted_cut hid hover) (.pure _ (by omega))
  refine .bind_of_run (readCounted_ok hid hidEnd) ?_
  rcases Nat.eq_or_lt_of_le hidEnd with hend | hlt
  · exact absurd ⟨h, hidEnd, .inl hend⟩ hcut
  have hsender := readFieldLength_run hlt
  rcases Nat.lt_or_ge payload.length (fieldEnd payload (fieldEnd payload 9)) with hover | hsenderEnd
  · exact .bind_of_run (readCounted_cut hsender hover) (.pure _ (by omega))
  refine .bind_of_run (readCounted_ok hsender hsenderEnd) ?_
  rcases Nat.lt_or_ge payload.length (fieldEnd payload (fieldEnd payload 9) + 2) with hend | hle
  · exact absurd ⟨h, hidEnd, .inr ⟨hsenderEnd, hend⟩⟩ hcut
  refine (inBounds_readContent hle).bind fun content offset' hle' => ?_
  cases content with
  | none => exact .pure _ hle'
  | some content => exact .ite (fun _ => .pure _ hle') fun _ => .pure _ hle'

theorem readFields_error (hcut : CutMessage payload) (flags : UInt8) (message : BitchatMessage) :
    (readFields payload flags message).run 9 = .error ⟨payload.length, payload.length⟩ := by
  obtain ⟨h, hidEnd, hend⟩ := hcut
  have hid := readFieldLength_run (show 9 < payload.length by omega)
  rw [readFields, readField, run_bind_of_run (readCounted_ok hid hidEnd)]
  dsimp only
  change (readField payload >>= _ : Reader _).run (fieldEnd payload 9) = _
  rcases hend with hend | ⟨hsenderEnd, hend⟩
  · have hsender : (UInt8.toNat <$> readUint8 payload).run (fieldEnd payload 9) =
        .error ⟨payload.length, payload.length⟩ := by
      rw [StateT.run_map, readUint8, next_run_error payload hend.ge, hend]
      rfl
    exact run_bind_of_error (readCounted_error hsender) _
  · have hlt : fieldEnd payload 9 < payload.length := by
      have hgrows : fieldEnd payload 9 < fieldEnd payload (fieldEnd payload 9) := by
        rw [fieldEnd.eq_def payload (fieldEnd payload 9)]
        omega
      omega
    have hcontent : (UInt16.toNat <$> readUint16 payload).run
        (fieldEnd payload (fieldEnd payload 9)) = .error ⟨payload.length, payload.length⟩ := by
      rw [StateT.run_map, readUint16_error hsenderEnd hend]
      rfl
    rw [readField, run_bind_of_run (readCounted_ok (readFieldLength_run hlt) hsenderEnd)]
    exact run_bind_of_error (readCounted_error hcontent) _

theorem parseMessagePayload_of_cut (hcut : CutMessage payload) :
    parseMessagePayload payload = .error ⟨payload.length, payload.length⟩ := by
  have hlong := hcut.1
  obtain ⟨flags, message, hrun, -⟩ := readMandatory_run hlong
  have herror := hrun.trans (readFields_error hcut flags message)
  rw [parseMessagePayload, if_neg (by omega), readMessage, run'_error (run_bind_of_error herror _)]

theorem parseMessagePayload_of_not_cut (hcut : ¬ CutMessage payload) :
    ∃ parsed, parseMessagePayload payload = .ok parsed := by
  by_cases hshort : payload.length < 13
  · exact ⟨_, if_pos hshort⟩
  rw [parseMessagePayload, if_neg hshort]
  obtain ⟨flags, message, hrun, -⟩ := readMandatory_run (Nat.le_of_not_lt hshort)
  have hfields : InBounds payload (readMandatory payload) 0 := by
    rw [InBounds, hrun]
    exact inBounds_readFields (Nat.le_of_not_lt hshort) hcut flags message
  have hread : InBounds payload (readMessage payload) 0 := hfields.bind fun parsed _ hle =>
    .ite (fun _ => .pure _ hle) fun _ => (inBounds_readOptionals _ _ hle).bind fun _ _ hle =>
      .pure _ hle
  exact hread.exists_run'

theorem parseMessagePayload_ok_iff (payload : Bytes) :
    (∃ parsed, parseMessagePayload payload = .ok parsed) ↔ ¬ CutMessage payload := by
  refine ⟨?_, parseMessagePayload_of_not_cut⟩
  rintro ⟨parsed, hparsed⟩ hcut
  rw [parseMessagePayload_of_cut hcut] at hparsed
  cases hparsed

/-- Every index that the message parser reads lies in the payload, unless the payload is cut
in front of the length of the sender or within that of the content. -/
theorem message_reads_inside_iff (payload : Bytes) :
    (∀ index size, parseMessagePayload payload = .error ⟨index, size⟩ → index < size) ↔
      ¬ CutMessage payload := by
  constructor
  · intro hinside hcut
    exact absurd (hinside _ _ (parseMessagePayload_of_cut hcut)) (lt_irrefl _)
  · intro hcut index size herror
    obtain ⟨parsed, hparsed⟩ := parseMessagePayload_of_not_cut hcut
    rw [hparsed] at herror
    cases herror

/-- Thirteen bytes that end behind an ID of three. -/
theorem message_read_outside :
    ¬ ∀ index size, parseMessagePayload (List.replicate 9 0 ++ [3, 0x61, 0x62, 0x63]) =
      .error ⟨index, size⟩ → index < size := by
  intro hinside
  exact absurd (hinside 13 13 (by decide +kernel)) (lt_irrefl _)

theorem parseChannelAnnouncePayload_ok (h : 2 ≤ payload.length) :
    ∃ announce joining, parseChannelAnnouncePayload payload = .ok announce ∧
      announce.joining = some joining := by
  have hid := readFieldLength_run (show 1 < payload.length by omega)
  rw [parseChannelAnnouncePayload, if_neg (by omega), readChannelAnnounce, StateT.run'_eq,
    readUint8, run_bind_of_run (next_run payload (show 0 < payload.length by omega))]
  rcases Nat.lt_or_ge payload.length (0 + 1 + 1 + (payload.getD 1 0).toNat) with hover | hend
  · rw [readField, run_bind_of_run (readCounted_cut hid hover)]
    exact ⟨_, _, rfl, rfl⟩
  · rw [readField, run_bind_of_run (readCounted_ok hid hend)]
    exact ⟨_, _, rfl, rfl⟩

theorem channel_of_unassigned {announce : ChannelAnnounce}
    (h : parseChannelAnnouncePayload payload = .ok announce) (hjoining : announce.joining = none) :
    announce.channel = [] := by
  by_cases hshort : payload.length < 2
  · rw [parseChannelAnnouncePayload, if_pos hshort] at h
    cases h
    rfl
  · obtain ⟨announce', joining, hparse, hjoining'⟩ :=
      parseChannelAnnouncePayload_ok (Nat.le_of_not_lt hshort)
    obtain rfl := Except.ok.inj (h.symm.trans hparse)
    cases hjoining.symm.trans hjoining'

theorem inBounds_readString (lengthError error : ControlError) (h : offset ≤ payload.length) :
    InBounds payload (readString lengthError error payload) offset := by
  refine .get_bind (.ite (fun _ => .pure _ h) fun hlt => ?_)
  refine (inBounds_readField (Nat.lt_of_not_le hlt)).bind fun s offset' hle => ?_
  cases s with
  | none => exact .pure _ hle
  | some s => exact .pure _ hle

theorem inBounds_readVersionsLoop (n : ℕ) (hello : VersionHello) (h : offset ≤ payload.length) :
    InBounds payload (readVersionsLoop payload n hello) offset := by
  induction n generalizing offset hello with
  | zero => exact .pure _ h
  | succ n ih =>
      exact .get_bind (.ite (fun _ => .pure _ h) fun hlt =>
        (inBounds_next (Nat.lt_of_not_le hlt)).bind fun _ _ hle => ih _ hle)

theorem inBounds_readCapabilitiesLoop (n : ℕ) (hello : VersionHello)
    (h : offset ≤ payload.length) :
    InBounds payload (readCapabilitiesLoop payload n hello) offset := by
  induction n generalizing offset hello with
  | zero => exact .pure _ h
  | succ n ih =>
      refine (inBounds_readString _ _ h).bind fun capability offset' hle => ?_
      cases capability with
      | error e => exact .pure _ hle
      | ok capability => exact ih _ hle

theorem inBounds_readCapabilities (hasCapabilities : Bool) (hello : VersionHello)
    (h : offset ≤ payload.length) :
    InBounds payload (readCapabilities hasCapabilities payload hello) offset :=
  .ite (fun _ => .get_bind (.ite (fun _ => .pure _ h) fun hlt =>
    (inBounds_next (Nat.lt_of_not_le hlt)).bind fun _ _ hle =>
      inBounds_readCapabilitiesLoop _ _ hle)) fun _ => .pure _ h

theorem inBounds_readVersionHelloInto (out : VersionHello) (h : 2 ≤ payload.length) :
    InBounds payload (readVersionHelloInto out payload) 0 := by
  refine .bind_of_run (next_run payload (by omega)) (.bind_of_run (next_run payload (by omega)) ?_)
  refine (inBounds_readVersionsLoop _ _ (by omega)).bind fun hello offset hle => ?_
  refine .ite (fun _ => .pure _ hle) fun _ => .get_bind (.ite (fun _ => .pure _ hle) fun hlt => ?_)
  refine (inBounds_next (Nat.lt_of_not_le hlt)).bind fun preferredVersion offset hle => ?_
  refine (inBounds_readString _ _ hle).bind fun clientVersion offset hle => ?_
  cases clientVersion with
  | error e => exact .pure _ hle
  | ok clientVersion =>
      refine (inBounds_readString _ _ hle).bind fun platform offset hle => ?_
      cases platform with
      | error e => exact .pure _ hle
      | ok platform => exact inBounds_readCapabilities _ _ hle

theorem parseVersionHelloPayloadInto_ok (out : VersionHello) (payload : Bytes) :
    ∃ hello, parseVersionHelloPayloadInto out payload = .ok hello := by
  by_cases hshort : payload.length < 4
  · exact ⟨_, if_pos hshort⟩
  · rw [parseVersionHelloPayloadInto, if_neg hshort]
    exact (inBounds_readVersionHelloInto out (by omega)).exists_run'

theorem parseVersionHelloPayload_ok (payload : Bytes) :
    ∃ hello, parseVersionHelloPayload payload = .ok hello := by
  exact parseVersionHelloPayloadInto_ok {} payload

theorem readVersionsLoop_result {n offset' : ℕ} {hello hello' : VersionHello}
    (h : (readVersionsLoop payload n hello).run offset = .ok (hello', offset')) :
    ∃ error, hello' = { hello with
        supportedVersions := hello.supportedVersions ++ (payload.drop offset).take n, error } ∧
      (error = hello.error ∧ offset' = offset + n ∨
        error = some .supportedVersions ∧ payload.length < offset + n) := by
  induction n generalizing hello offset with
  | zero =>
      cases h
      exact ⟨_, by simp, .inl ⟨rfl, rfl⟩⟩
  | succ n ih =>
      obtain ⟨o₁, o₂, hget, h⟩ := run_bind_ok h
      cases hget
      split at h
      · next hend =>
        cases h
        refine ⟨_, ?_, .inr ⟨rfl, by omega⟩⟩
        rw [List.drop_eq_nil_of_le hend, List.take_nil, List.append_nil]
      · next hlt =>
        obtain ⟨version, o₃, hversion, h⟩ := run_bind_ok h
        rw [readUint8, next_run payload (Nat.lt_of_not_le hlt)] at hversion
        cases hversion
        obtain ⟨error, hhello, hends⟩ := ih h
        refine ⟨error, ?_, by rwa [Nat.add_right_comm] at hends⟩
        rw [hhello, List.drop_eq_getElem_cons (Nat.lt_of_not_le hlt), List.take_succ_cons,
          List.append_assoc, List.singleton_append]

theorem readCapabilitiesLoop_result {n offset' : ℕ} {hello hello' : VersionHello}
    (h : (readCapabilitiesLoop payload n hello).run offset = .ok (hello', offset')) :
    ∃ capabilities error, hello' = { hello with capabilities, error } := by
  induction n generalizing hello offset with
  | zero =>
      cases h
      exact ⟨_, _, rfl⟩
  | succ n ih =>
      obtain ⟨capability, o₁, -, h⟩ := run_bind_ok h
      cases capability with
      | error e =>
          cases h
          exact ⟨_, _, rfl⟩
      | ok capability =>
          obtain ⟨capabilities, error, hhello⟩ := ih h
          exact ⟨capabilities, error, hhello⟩

theorem readCapabilities_result {present : Bool} {offset' : ℕ} {hello hello' : VersionHello}
    (h : (readCapabilities present payload hello).run offset = .ok (hello', offset')) :
    ∃ capabilities error, hello' = { hello with capabilities, error } := by
  rw [readCapabilities] at h
  split at h
  · obtain ⟨o₁, o₂, -, h⟩ := run_bind_ok h
    split at h
    · cases h
      exact ⟨_, _, rfl⟩
    · obtain ⟨capCount, o₃, -, h⟩ := run_bind_ok h
      exact readCapabilitiesLoop_result h
  · cases h
    exact ⟨_, _, rfl⟩

theorem readVersionHelloInto_result {offset' : ℕ} {hello : VersionHello}
    (hlen : 2 ≤ payload.length)
    (h : (readVersionHelloInto {} payload).run 0 = .ok (hello, offset')) :
    hello.supportedVersions = (payload.drop 2).take (payload.getD 1 0).toNat ∧
      (hello.preferredVersion = none ↔ payload.length ≤ 2 + (payload.getD 1 0).toNat) := by
  have hone : payload.getD 1 0 = payload[1] := by
    rw [List.getD_eq_getElem?_getD, List.getElem?_eq_getElem (by omega)]
    rfl
  obtain ⟨flags, o₁, hflags, h⟩ := run_bind_ok h
  rw [readUint8, next_run payload (by omega)] at hflags
  cases hflags
  obtain ⟨versionCount, o₂, hcount, h⟩ := run_bind_ok h
  rw [readUint8, next_run payload (by omega)] at hcount
  cases hcount
  obtain ⟨read, o₃, hloop, h⟩ := run_bind_ok h
  obtain ⟨error, rfl, hends⟩ := readVersionsLoop_result hloop
  rw [hone]
  rcases hends with ⟨rfl, rfl⟩ | ⟨rfl, hcut⟩
  · rw [if_neg (by simp)] at h
    obtain ⟨o₄, o₅, hget, h⟩ := run_bind_ok h
    cases hget
    split at h
    · next hend =>
      cases h
      exact ⟨rfl, iff_of_true rfl hend⟩
    · next hlt =>
      obtain ⟨preferredVersion, o₆, -, h⟩ := run_bind_ok h
      refine And.imp_right (fun hsome => iff_of_false hsome hlt) ?_
      obtain ⟨clientVersion, o₇, -, h⟩ := run_bind_ok h
      cases clientVersion with
      | error e =>
          cases h
          exact ⟨rfl, Option.some_ne_none _⟩
      | ok clientVersion =>
          obtain ⟨platform, o₈, -, h⟩ := run_bind_ok h
          cases platform with
          | error e =>
              cases h
              exact ⟨rfl, Option.some_ne_none _⟩
          | ok platform =>
              obtain ⟨capabilities, error, rfl⟩ := readCapabilities_result h
              exact ⟨rfl, Option.some_ne_none _⟩
  · rw [if_pos (by simp)] at h
    cases h
    exact ⟨rfl, iff_of_true rfl hcut.le⟩

def LacksPreferred (payload : Bytes) : Prop :=
  payload.length < 4 ∨ payload.length ≤ 2 + (payload.getD 1 0).toNat

theorem versionHello_of_parse {hello : VersionHello}
    (h : parseVersionHelloPayload payload = .ok hello) :
    hello.supportedVersions = (if payload.length < 4 then []
        else (payload.drop 2).take (payload.getD 1 0).toNat) ∧
      (hello.preferredVersion = none ↔ LacksPreferred payload) := by
  rw [parseVersionHelloPayload, parseVersionHelloPayloadInto] at h
  rw [LacksPreferred]
  split_ifs at h ⊢ with hshort
  · cases h
    exact ⟨rfl, iff_of_true rfl (.inl hshort)⟩
  · obtain ⟨offset', hread⟩ := run'_ok h
    rw [or_iff_right hshort]
    exact readVersionHelloInto_result (by omega) hread

theorem inBounds_readVersionAckInto (out : ParsedVersionAck) (h : 1 ≤ payload.length) :
    InBounds payload (readVersionAckInto out payload) 0 := by
  refine .bind_of_run (next_run payload (by omega)) (.get_bind (.ite (fun _ => .pure _ h) ?_))
  intro hlt
  refine (inBounds_next (Nat.lt_of_not_le hlt)).bind fun agreedVersion offset hle => ?_
  refine (inBounds_readString _ _ hle).bind fun serverVersion offset hle => ?_
  cases serverVersion with
  | error e => exact .pure _ hle
  | ok serverVersion =>
      refine (inBounds_readString _ _ hle).bind fun platform offset hle => ?_
      cases platform with
      | error e => exact .pure _ hle
      | ok platform =>
          refine .ite (fun _ => ?_) fun _ => .pure _ hle
          refine (inBounds_readString _ _ hle).bind fun reason offset hle => ?_
          cases reason with
          | error e => exact .pure _ hle
          | ok reason => exact .pure _ hle

theorem parseVersionAckPayloadInto_ok (out : ParsedVersionAck) (payload : Bytes) :
    ∃ ack, parseVersionAckPayloadInto out payload = .ok ack := by
  by_cases hshort : payload.length < 3
  · exact ⟨_, if_pos hshort⟩
  · rw [parseVersionAckPayloadInto, if_neg hshort]
    exact (inBounds_readVersionAckInto out (by omega)).exists_run'

theorem rejected_of_readVersionAck {ack : ParsedVersionAck} {offset' : ℕ}
    (hlt : offset < payload.length)
    (h : (readVersionAckInto {} payload).run offset = .ok (ack, offset')) :
    ack.rejected = some (payload.getD offset 0 &&& 0x01 != 0) := by
  have hflags : payload.getD offset 0 = payload[offset] := by
    rw [List.getD_eq_getElem?_getD, List.getElem?_eq_getElem hlt]
    rfl
  obtain ⟨flags, o₁, hread, h⟩ := run_bind_ok h
  rw [readUint8, next_run payload hlt] at hread
  cases hread
  rw [hflags]
  obtain ⟨o₁, o₂, -, h⟩ := run_bind_ok h
  split at h
  · cases h
    rfl
  obtain ⟨agreedVersion, o₃, -, h⟩ := run_bind_ok h
  obtain ⟨serverVersion, o₄, -, h⟩ := run_bind_ok h
  cases serverVersion with
  | error e => cases h; rfl
  | ok serverVersion =>
      obtain ⟨platform, o₅, -, h⟩ := run_bind_ok h
      cases platform with
      | error e => cases h; rfl
      | ok platform =>
          dsimp only at h
          split at h
          · obtain ⟨reason, o₆, -, h⟩ := run_bind_ok h
            cases reason with
            | error e => cases h; rfl
            | ok reason => cases h; rfl
          · cases h
            rfl

theorem parseVersionAckPayload_ok (h : 3 ≤ payload.length) :
    ∃ ack rejected, parseVersionAckPayload payload = .ok ack ∧ ack.rejected = some rejected := by
  obtain ⟨ack, offset, hrun, -⟩ :=
    inBounds_readVersionAckInto {} (show 1 ≤ payload.length by omega)
  refine ⟨ack, _, ?_, rejected_of_readVersionAck (by omega) hrun⟩
  rw [parseVersionAckPayload, parseVersionAckPayloadInto, if_neg (by omega),
    StateT.run'_eq, hrun]
  rfl

end Bitchat.PacketSerializer
