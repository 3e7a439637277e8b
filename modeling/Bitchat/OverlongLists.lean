import Bitchat.ControlRoundTrip
import Bitchat.MessageFields

/-!
# Lists and names that are too long

Three encoders meet more than 255 entries in three ways. The mentions of a message are
counted up to 255 and written in full, so the surplus stands where the channel is expected.
The counts of a hello and the length of a channel name wrap, and all entries are written.
For each the exact condition is given under which the payload is read as what it should
have been cut to.
-/

namespace Bitchat.PacketSerializer

open ByteCursor StringHelper

/-- A message cut to the limits of the format, its mentions to the first 255. What an
encrypted message has as its content is read as its encrypted content. -/
def cutMessage (uuid : Bytes) (message : BitchatMessage) : BitchatMessage :=
  attach
    { originalSender := message.originalSender.take 255
      recipientNickname := message.recipientNickname.take 255
      peerIDHex := (toHex message.senderPeerID).take 255
      mentions := (message.mentions.take 255).map fun s => s.take 255
      channel := message.channel.take 255 }
    (mandatoryFields uuid message)

theorem message_overlong_iff (uuid : Bytes) {message : BitchatMessage}
    (hlong : 255 < message.mentions.length) :
    parseMessagePayload (makeMessagePayload uuid message) = .ok ⟨cutMessage uuid message, none⟩ ↔
      message.channel = [] ∨
        (message.mentions.getD 255 []).take 255 = message.channel.take 255 := by
  rw [makeMessagePayload_sections, parse_mandatory_append, takeOptionals_made, cutMessage]
  simp only [attach, Except.ok.injEq, ParsedMessage.mk.injEq, BitchatMessage.mk.injEq, true_and,
    and_true]
  have hdrop : message.mentions.drop 255 =
      message.mentions.getD 255 [] :: message.mentions.drop 256 := by
    rw [List.drop_eq_getElem_cons hlong, List.getD_eq_getElem?_getD,
      List.getElem?_eq_getElem hlong]
    rfl
  rw [hdrop, List.flatMap_cons, List.append_assoc, takeOptional, takeField_fieldBytes]
  cases hchannel : message.channel with
  | nil => simp
  | cons b s => simp

theorem parseChannelAnnouncePayload_make (channel : Bytes) (joining : Bool) :
    parseChannelAnnouncePayload (makeChannelAnnouncePayload channel joining) =
      .ok { channel := channel.take (channel.length % 256), joining := some joining } := by
  have hlen : (UInt8.ofNat channel.length).toNat = channel.length % 256 := UInt8.toNat_ofNat'
  have hfield : takeField id (UInt8.ofNat channel.length :: channel) =
      (some (channel.take (channel.length % 256)), channel.drop (channel.length % 256)) := by
    rw [takeField, if_pos (by rw [id, hlen]; exact Nat.mod_le _ _), id, hlen]
  have hname := reads_readField (UInt8.ofNat channel.length) channel
  rw [hfield] at hname
  have hread : Reads readChannelAnnounce (makeChannelAnnouncePayload channel joining)
      { channel := channel.take (channel.length % 256), joining := some joining }
      (channel.drop (channel.length % 256)) := by
    have hflag : ((if joining then 1 else 0 : UInt8) != 0) = joining := by
      cases joining with
      | true => rfl
      | false => rfl
    refine (reads_next (if joining then 1 else 0) _).bind (hname.bind ?_)
    rw [hflag]
    exact .pure _ _
  rw [parseChannelAnnouncePayload, if_neg (by simp [makeChannelAnnouncePayload, writeUint8]),
    hread.run'_zero]

theorem channel_overlong_iff {channel : Bytes} (joining : Bool) (hlong : 255 < channel.length) :
    parseChannelAnnouncePayload (makeChannelAnnouncePayload channel joining) =
        .ok { channel := channel.take 255, joining := some joining } ↔
      channel.length % 256 = 255 := by
  rw [parseChannelAnnouncePayload_make]
  simp only [Except.ok.injEq, ChannelAnnounce.mk.injEq, and_true]
  constructor
  · intro h
    have hlen := congrArg List.length h
    rw [List.length_take, List.length_take] at hlen
    omega
  · intro h
    rw [h]

/-- The fields of a hello behind its versions, if there are no more than 255 capabilities. -/
def helloTail (preferredVersion : UInt8) (clientVersion platform : Bytes)
    (capabilities : List Bytes) : Bytes :=
  [preferredVersion] ++ (fieldBytes clientVersion ++
    (fieldBytes platform ++ capabilitiesBytes capabilities))

variable {payload : Bytes} {offset offset' : ℕ}

theorem between_of_readField {s : Bytes}
    (h : (readField payload).run offset = .ok (some s, offset')) :
    Between payload offset offset' (fieldBytes s) ∧ s.length ≤ 255 := by
  obtain ⟨-, -, hshort⟩ := readField_some h
  obtain ⟨len, o₁, hlen, h⟩ := run_bind_ok h
  rw [StateT.run_map] at hlen
  cases hbyte : (readUint8 payload).run offset with
  | error e =>
      rw [hbyte] at hlen
      cases hlen
  | ok r =>
      obtain ⟨n, o⟩ := r
      rw [hbyte] at hlen
      cases hlen
      obtain ⟨o₂, o₃, hget, h⟩ := run_bind_ok h
      cases hget
      split at h
      · cases h
      · obtain ⟨value, o₄, hblock, h⟩ := run_bind_ok h
        cases h
        have hlength := length_of_block hblock
        have hcount : fieldBytes s = [n] ++ s := by
          rw [fieldBytes, take_min, List.take_of_length_le hshort, hlength,
            Nat.min_eq_right (hlength ▸ hshort), UInt8.ofNat_toNat]
        rw [hcount]
        exact ⟨(between_of_next hbyte).append (between_of_block hblock), hshort⟩

theorem between_of_readString {lengthError error : ControlError} {s : Bytes}
    (h : (readString lengthError error payload).run offset = .ok (.ok s, offset')) :
    Between payload offset offset' (fieldBytes s) ∧ s.length ≤ 255 := by
  obtain ⟨o₁, o₂, hget, h⟩ := run_bind_ok h
  cases hget
  split at h
  · cases h
  · obtain ⟨field, o₃, hfield, h⟩ := run_bind_ok h
    cases field with
    | none => cases h
    | some value =>
        cases h
        exact between_of_readField hfield

theorem between_of_readVersionsLoop {n : ℕ} {hello hello' : VersionHello}
    (h : (readVersionsLoop payload n hello).run offset = .ok (hello', offset'))
    (herror : hello'.error = none) :
    ∃ versions, versions.length = n ∧ Between payload offset offset' versions ∧
      hello' = { hello with supportedVersions := hello.supportedVersions ++ versions } := by
  induction n generalizing hello offset with
  | zero =>
      cases h
      exact ⟨[], rfl, .nil _ _, by rw [List.append_nil]⟩
  | succ n ih =>
      obtain ⟨o₁, o₂, hget, h⟩ := run_bind_ok h
      cases hget
      split at h
      · cases h
        cases herror
      · obtain ⟨version, o₃, hversion, h⟩ := run_bind_ok h
        obtain ⟨versions, hlen, hbetween, hhello⟩ := ih h
        refine ⟨version :: versions, by rw [List.length_cons, hlen],
          (between_of_next hversion).append hbetween, ?_⟩
        rw [hhello, List.append_assoc, List.singleton_append]

theorem between_of_readCapabilitiesLoop {n : ℕ} {hello hello' : VersionHello}
    (h : (readCapabilitiesLoop payload n hello).run offset = .ok (hello', offset'))
    (herror : hello'.error = none) :
    ∃ capabilities, capabilities.length = n ∧
      Between payload offset offset' (capabilities.flatMap fieldBytes) ∧
      hello' = { hello with capabilities := hello.capabilities ++ capabilities } := by
  induction n generalizing hello offset with
  | zero =>
      cases h
      exact ⟨[], rfl, .nil _ _, by rw [List.append_nil]⟩
  | succ n ih =>
      obtain ⟨capability, o₁, hcapability, h⟩ := run_bind_ok h
      cases capability with
      | error e =>
          cases h
          cases herror
      | ok capability =>
          obtain ⟨capabilities, hlen, hbetween, hhello⟩ := ih h
          refine ⟨capability :: capabilities, by rw [List.length_cons, hlen],
            (between_of_readString hcapability).1.append hbetween, ?_⟩
          rw [hhello, List.append_assoc, List.singleton_append]

theorem between_of_readCapabilities {present : Bool} {hello hello' : VersionHello}
    (h : (readCapabilities present payload hello).run offset = .ok (hello', offset'))
    (hnone : hello.capabilities = []) (herror : hello'.error = none) :
    ∃ capabilities, hello' = { hello with capabilities } ∧ Between payload offset offset'
      (if present then [UInt8.ofNat capabilities.length] ++ capabilities.flatMap fieldBytes
        else []) := by
  rw [readCapabilities] at h
  cases present with
  | false =>
      cases h
      exact ⟨[], by rw [← hnone], .nil _ _⟩
  | true =>
      obtain ⟨o₁, o₂, hget, h⟩ := run_bind_ok h
      cases hget
      split at h
      · cases h
        cases herror
      · obtain ⟨capCount, o₃, hcount, h⟩ := run_bind_ok h
        obtain ⟨capabilities, hlen, hbetween, hhello⟩ := between_of_readCapabilitiesLoop h herror
        rw [hnone, List.nil_append] at hhello
        refine ⟨capabilities, hhello, ?_⟩
        rw [if_pos rfl, hlen, UInt8.ofNat_toNat]
        exact (between_of_next hcount).append hbetween

theorem parseVersionHelloPayloadInto_sound {out hello : VersionHello}
    (h : parseVersionHelloPayloadInto out payload = .ok hello) (herror : hello.error = none) :
    ∃ flags count preferredVersion rest, hello.preferredVersion = some preferredVersion ∧
      hello.supportedVersions.length = count.toNat ∧
      payload = [flags] ++ ([count] ++ (hello.supportedVersions ++ ([preferredVersion] ++
        (fieldBytes hello.clientVersion ++ (fieldBytes hello.platform ++
          ((if flags &&& 0x01 != 0 then
            [UInt8.ofNat hello.capabilities.length] ++ hello.capabilities.flatMap fieldBytes
            else []) ++ rest)))))) := by
  rw [parseVersionHelloPayloadInto] at h
  split_ifs at h with hshort
  · cases h
    cases herror
  obtain ⟨offset', h⟩ := run'_ok h
  obtain ⟨flags, o₁, hflags, h⟩ := run_bind_ok h
  obtain ⟨count, o₂, hcount, h⟩ := run_bind_ok h
  obtain ⟨hello₁, o₃, hversions, h⟩ := run_bind_ok h
  cases hloop : hello₁.error with
  | some e =>
      rw [hloop, Option.isSome_some, if_pos rfl] at h
      cases h
      rw [hloop] at herror
      cases herror
  | none =>
      obtain ⟨versions, hlen, hbetween, rfl⟩ := between_of_readVersionsLoop hversions hloop
      rw [hloop, Option.isSome_none, if_neg Bool.false_ne_true] at h
      obtain ⟨o₄, o₅, hget, h⟩ := run_bind_ok h
      cases hget
      split at h
      · cases h
        cases herror
      obtain ⟨preferredVersion, o₆, hpreferred, h⟩ := run_bind_ok h
      obtain ⟨clientVersion, o₇, hclient, h⟩ := run_bind_ok h
      cases clientVersion with
      | error e =>
          cases h
          cases herror
      | ok clientVersion =>
          obtain ⟨platform, o₈, hplatform, h⟩ := run_bind_ok h
          cases platform with
          | error e =>
              cases h
              cases herror
          | ok platform =>
              obtain ⟨capabilities, rfl, hcapabilities⟩ :=
                between_of_readCapabilities h rfl herror
              have hall := (between_of_next hflags).append ((between_of_next hcount).append
                (hbetween.append ((between_of_next hpreferred).append
                  ((between_of_readString hclient).1.append
                    ((between_of_readString hplatform).1.append hcapabilities)))))
              refine ⟨flags, count, preferredVersion, payload.drop offset', rfl, hlen, ?_⟩
              have hpayload : payload = _ := hall
              exact hpayload.trans (by simp only [List.append_assoc, List.nil_append])

theorem fieldBytes_take (s : Bytes) : fieldBytes (s.take 255) = fieldBytes s := by
  rw [fieldBytes, fieldBytes, take_min, take_min, List.take_take, Nat.min_self, List.length_take,
    ← Nat.min_assoc, Nat.min_self]

theorem flatMap_fieldBytes_take (fields : List Bytes) :
    (fields.map fun s => s.take 255).flatMap fieldBytes = fields.flatMap fieldBytes := by
  rw [List.flatMap_map]
  exact List.flatMap_congr fun s _ => fieldBytes_take s

theorem written_capabilities (capabilities : List Bytes) :
    (if (if !capabilities.isEmpty then 0x01 else 0 : UInt8) &&& 0x01 != 0 then
      [UInt8.ofNat ((capabilities.take 255).map fun s => s.take 255).length] ++
        (capabilities.take 255).flatMap fieldBytes
    else []) = capabilitiesBytes (capabilities.take 255) := by
  cases capabilities with
  | nil => rfl
  | cons s capabilities =>
      simp [capabilitiesBytes]

def cutHello (supportedVersions : Bytes) (preferredVersion : UInt8)
    (clientVersion platform : Bytes) (capabilities : List Bytes) : VersionHello :=
  { supportedVersions := supportedVersions.take 255, preferredVersion := some preferredVersion
    clientVersion := clientVersion.take 255, platform := platform.take 255
    capabilities := (capabilities.take 255).map fun s => s.take 255 }

/-- The version count must not have wrapped to less, and what is read behind the 255th version
must be the rest of the hello. -/
theorem hello_make_iff (out : VersionHello) (supportedVersions : Bytes) (preferredVersion : UInt8)
    (clientVersion platform : Bytes) (capabilities : List Bytes) :
    parseVersionHelloPayloadInto out (makeVersionHelloPayload supportedVersions preferredVersion
        clientVersion platform capabilities) =
        .ok (cutHello supportedVersions preferredVersion clientVersion platform capabilities) ↔
      supportedVersions.length % 256 = min 255 supportedVersions.length ∧
        helloTail preferredVersion clientVersion platform (capabilities.take 255) <+:
          supportedVersions.drop 255 ++
            helloTail preferredVersion clientVersion platform capabilities := by
  have hmake := makeVersionHelloPayload_eq supportedVersions preferredVersion clientVersion
    platform capabilities
  constructor
  · intro h
    obtain ⟨flags, count, preferred, rest, hpreferred, hcount, hpayload⟩ :=
      parseVersionHelloPayloadInto_sound h rfl
    cases hpreferred
    dsimp only [cutHello] at hcount hpayload
    rw [hmake, helloBytes, fieldBytes_take, fieldBytes_take, flatMap_fieldBytes_take] at hpayload
    obtain ⟨hflags, hbehind⟩ := List.append_inj hpayload rfl
    obtain ⟨hversions, hversionsBehind⟩ := List.append_inj hbehind rfl
    rw [← List.singleton_inj.mp hversions, UInt8.toNat_ofNat', List.length_take] at hcount
    conv_lhs at hversionsBehind =>
      rw [← List.take_append_drop 255 supportedVersions, List.append_assoc]
    have hrest := List.append_cancel_left hversionsBehind
    rw [← List.singleton_inj.mp hflags, written_capabilities] at hrest
    refine ⟨hcount.symm, rest, ?_⟩
    simp only [helloTail, List.append_assoc]
    exact hrest.symm
  · rintro ⟨hcount, rest, htail⟩
    have hdecodes := decodes_readVersionHelloInto out preferredVersion clientVersion platform
      (List.length_take_le 255 supportedVersions) (List.length_take_le 255 capabilities)
    have hbytes : makeVersionHelloPayload supportedVersions preferredVersion clientVersion platform
        capabilities = helloBytes (supportedVersions.take 255) preferredVersion clientVersion
          platform (capabilities.take 255) ++ rest := by
      have hflags : (capabilities.take 255).isEmpty = capabilities.isEmpty := by
        cases capabilities with
        | nil => rfl
        | cons s capabilities => rfl
      have hversions : UInt8.ofNat (supportedVersions.take 255).length =
          UInt8.ofNat supportedVersions.length := by
        apply UInt8.toNat_inj.mp
        rw [UInt8.toNat_ofNat', UInt8.toNat_ofNat', List.length_take]
        omega
      simp only [helloTail, List.append_assoc] at htail
      rw [hmake, helloBytes, helloBytes, hflags, hversions]
      simp only [List.append_assoc]
      rw [htail, ← List.append_assoc (supportedVersions.take 255), List.take_append_drop]
    have hlong : ¬ (makeVersionHelloPayload supportedVersions preferredVersion clientVersion
        platform capabilities).length < 4 := by
      have hclient := length_fieldBytes_pos clientVersion
      have hplatform := length_fieldBytes_pos platform
      rw [hmake]
      simp only [helloBytes, List.length_append, List.length_singleton]
      omega
    rw [parseVersionHelloPayloadInto, if_neg hlong, hbytes, (hdecodes.reads rest).run'_zero]
    rfl

theorem helloTail_prefix_iff (preferredVersion : UInt8) (clientVersion platform : Bytes)
    (capabilities : List Bytes) :
    helloTail preferredVersion clientVersion platform (capabilities.take 255) <+:
        helloTail preferredVersion clientVersion platform capabilities ↔
      capabilities.length % 256 = min 255 capabilities.length := by
  simp only [helloTail, List.prefix_append_right_inj]
  rcases Nat.lt_or_ge 255 capabilities.length with hlong | hshort
  · have hempty : capabilities.isEmpty = false := by
      cases capabilities with
      | nil => simp at hlong
      | cons s capabilities => rfl
    have hempty' : (capabilities.take 255).isEmpty = false := by
      cases capabilities with
      | nil => simp at hlong
      | cons s capabilities => rfl
    have hentries : (capabilities.take 255).flatMap fieldBytes <+:
        capabilities.flatMap fieldBytes := by
      refine ⟨(capabilities.drop 255).flatMap fieldBytes, ?_⟩
      rw [← List.flatMap_append, List.take_append_drop]
    simp only [capabilitiesBytes, hempty, hempty', Bool.false_eq_true, if_false,
      List.singleton_append, List.cons_prefix_cons, and_iff_left hentries]
    rw [← UInt8.toNat_inj, UInt8.toNat_ofNat', UInt8.toNat_ofNat', List.length_take]
    omega
  · rw [List.take_of_length_le hshort]
    exact iff_of_true (List.prefix_refl _) (by omega)

/-- When a hello with too many versions or capabilities is read as it should be cut. -/
def HelloKept (supportedVersions : Bytes) (preferredVersion : UInt8)
    (clientVersion platform : Bytes) (capabilities : List Bytes) : Prop :=
  if supportedVersions.length ≤ 255 then capabilities.length % 256 = 255
  else supportedVersions.length % 256 = 255 ∧
    helloTail preferredVersion clientVersion platform (capabilities.take 255) <+:
      supportedVersions.drop 255 ++
        helloTail preferredVersion clientVersion platform capabilities

theorem helloKept_of_few_versions {supportedVersions : Bytes} {preferredVersion : UInt8}
    {clientVersion platform : Bytes} {capabilities : List Bytes}
    (hfew : supportedVersions.length ≤ 255) :
    HelloKept supportedVersions preferredVersion clientVersion platform capabilities ↔
      capabilities.length % 256 = 255 := by
  rw [HelloKept, if_pos hfew]

theorem hello_overlong_iff (out : VersionHello) {supportedVersions : Bytes}
    (preferredVersion : UInt8) (clientVersion platform : Bytes) {capabilities : List Bytes}
    (hlong : 255 < supportedVersions.length ∨ 255 < capabilities.length) :
    parseVersionHelloPayloadInto out (makeVersionHelloPayload supportedVersions preferredVersion
        clientVersion platform capabilities) =
        .ok (cutHello supportedVersions preferredVersion clientVersion platform capabilities) ↔
      HelloKept supportedVersions preferredVersion clientVersion platform capabilities := by
  rw [hello_make_iff, HelloKept]
  split_ifs with hshort
  · rw [List.drop_eq_nil_of_le hshort, List.nil_append, helloTail_prefix_iff]
    omega
  · rw [Nat.min_eq_left (by omega)]

/-- Over-long lists and names are cut, and nothing else is touched, exactly under these
conditions. -/
theorem overlong_payloads_iff (uuid : Bytes) (message : BitchatMessage) (out : VersionHello)
    (supportedVersions : Bytes) (preferredVersion : UInt8) (clientVersion platform : Bytes)
    (capabilities : List Bytes) (channel : Bytes) (joining : Bool) :
    (255 < message.mentions.length →
      (parseMessagePayload (makeMessagePayload uuid message) =
          .ok ⟨cutMessage uuid message, none⟩ ↔
        message.channel = [] ∨
          (message.mentions.getD 255 []).take 255 = message.channel.take 255)) ∧
    (255 < supportedVersions.length ∨ 255 < capabilities.length →
      (parseVersionHelloPayloadInto out (makeVersionHelloPayload supportedVersions
          preferredVersion clientVersion platform capabilities) =
          .ok (cutHello supportedVersions preferredVersion clientVersion platform capabilities) ↔
        HelloKept supportedVersions preferredVersion clientVersion platform capabilities)) ∧
    (255 < channel.length →
      (parseChannelAnnouncePayload (makeChannelAnnouncePayload channel joining) =
          .ok { channel := channel.take 255, joining := some joining } ↔
        channel.length % 256 = 255)) :=
  ⟨message_overlong_iff uuid, hello_overlong_iff out preferredVersion clientVersion platform,
    channel_overlong_iff joining⟩

/-- Each list or name is one longer than can be counted. -/
theorem overlong_payloads_iff_256 :
    (parseMessagePayload (makeMessagePayload [] { mentions := List.replicate 256 [0x61] }) =
        .ok ⟨cutMessage [] { mentions := List.replicate 256 [0x61] }, none⟩ ↔
      ([] : Bytes) = [] ∨ ((List.replicate 256 [0x61]).getD 255 []).take 255 = ([] : Bytes)) ∧
    (parseVersionHelloPayloadInto {} (makeVersionHelloPayload [1] 1 [] []
        (List.replicate 256 [0x61])) = .ok (cutHello [1] 1 [] [] (List.replicate 256 [0x61])) ↔
      HelloKept [1] 1 [] [] (List.replicate 256 [0x61])) ∧
    (parseChannelAnnouncePayload (makeChannelAnnouncePayload (List.replicate 256 0x61) true) =
        .ok { channel := (List.replicate 256 0x61).take 255, joining := some true } ↔
      (List.replicate 256 (0x61 : UInt8)).length % 256 = 255) := by
  have hall := overlong_payloads_iff [] { mentions := List.replicate 256 [0x61] } {} [1] 1 [] []
    (List.replicate 256 [0x61]) (List.replicate 256 0x61) true
  have hbyte : 255 < (List.replicate 256 (0x61 : UInt8)).length := by
    rw [List.length_replicate]
    decide
  have hentry : 255 < (List.replicate 256 [(0x61 : UInt8)]).length := by
    rw [List.length_replicate]
    decide
  exact ⟨hall.1 hentry, hall.2.1 (.inr hentry), hall.2.2 hbyte⟩

def crowdedMessage : BitchatMessage where
  mentions := List.replicate 256 [0x61]
  channel := [0x23]

/-- The channel is replaced by a mention, the capabilities and the channel name vanish. -/
theorem overlong_payloads_garbled :
    (¬ ∀ (uuid : Bytes) (message : BitchatMessage), 255 < message.mentions.length →
      parseMessagePayload (makeMessagePayload uuid message) =
        .ok ⟨cutMessage uuid message, none⟩) ∧
    (¬ ∀ (out : VersionHello) (supportedVersions : Bytes) (preferredVersion : UInt8)
        (clientVersion platform : Bytes) (capabilities : List Bytes),
      255 < supportedVersions.length ∨ 255 < capabilities.length →
      parseVersionHelloPayloadInto out (makeVersionHelloPayload supportedVersions
          preferredVersion clientVersion platform capabilities) =
        .ok (cutHello supportedVersions preferredVersion clientVersion platform capabilities)) ∧
    ¬ ∀ (channel : Bytes) (joining : Bool), 255 < channel.length →
      parseChannelAnnouncePayload (makeChannelAnnouncePayload channel joining) =
        .ok { channel := channel.take 255, joining := some joining } := by
  have hbyte : (List.replicate 256 (0x61 : UInt8)).length = 256 := List.length_replicate
  have hentry : (List.replicate 256 [(0x61 : UInt8)]).length = 256 := List.length_replicate
  refine ⟨fun h => ?_, fun h => ?_, fun h => ?_⟩
  · have hlong : 255 < crowdedMessage.mentions.length := by
      rw [crowdedMessage]
      dsimp only
      rw [hentry]
      decide
    have hread := (message_overlong_iff [] hlong).mp (h [] crowdedMessage hlong)
    have hlast : crowdedMessage.mentions.getD 255 [] = [0x61] := by
      rw [List.getD_eq_getElem?_getD, crowdedMessage, List.getElem?_replicate, if_pos (by decide)]
      rfl
    rw [hlast] at hread
    exact absurd hread (by decide)
  · have hlong : 255 < (List.replicate 256 [(0x61 : UInt8)]).length := by omega
    have hkept := (hello_overlong_iff {} 1 [] [] (.inr hlong)).mp (h {} [1] 1 [] [] _ (.inr hlong))
    have hcount := (helloKept_of_few_versions (by simp)).mp hkept
    omega
  · have hlong : 255 < (List.replicate 256 (0x61 : UInt8)).length := by omega
    have hcount := (channel_overlong_iff true hlong).mp (h _ true hlong)
    omega

end Bitchat.PacketSerializer
