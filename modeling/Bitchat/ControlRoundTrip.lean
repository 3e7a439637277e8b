import Bitchat.ControlPayload
import Bitchat.MessageRoundTrip

/-!
# Version payloads are parsed as they were made

Hello and ack, string by string, for at most 255 versions and capabilities. Every string
comes back cut to the 255 bytes that its length byte can count.
-/

namespace Bitchat.PacketSerializer

open ByteCursor

theorem decodes_readString (lengthError error : ControlError) (s : Bytes) :
    Decodes (readString lengthError error) (fieldBytes s) (.ok (s.take 255)) := by
  refine .get_ite_neg ?_ ?_
  · intro before after
    have hpos := length_fieldBytes_pos s
    simp only [List.length_append]
    omega
  · exact ((decodes_readField s).bind (Decodes.pure _)).congr (List.append_nil _)

theorem decodes_readVersionsLoop (versions : Bytes) (hello : VersionHello) :
    Decodes (fun payload => readVersionsLoop payload versions.length hello) versions
      { hello with supportedVersions := hello.supportedVersions ++ versions } := by
  induction versions generalizing hello with
  | nil =>
      rw [List.append_nil]
      exact Decodes.pure hello
  | cons version versions ih =>
      refine .get_ite_neg ?_ ?_
      · intro before after
        simp only [List.length_append, List.length_cons]
        omega
      · have hrest := ih { hello with
          supportedVersions := hello.supportedVersions ++ [version] }
        rw [List.append_assoc] at hrest
        exact (decodes_next version).bind hrest

theorem decodes_readCapabilitiesLoop (capabilities : List Bytes) (hello : VersionHello) :
    Decodes (fun payload => readCapabilitiesLoop payload capabilities.length hello)
      (capabilities.flatMap fieldBytes)
      { hello with
        capabilities := hello.capabilities ++ capabilities.map fun s => s.take 255 } := by
  induction capabilities generalizing hello with
  | nil =>
      rw [List.map_nil, List.append_nil]
      exact Decodes.pure hello
  | cons s capabilities ih =>
      have hrest := ih { hello with capabilities := hello.capabilities ++ [s.take 255] }
      rw [List.append_assoc] at hrest
      exact (decodes_readString _ _ s).bind hrest

def capabilitiesBytes (capabilities : List Bytes) : Bytes :=
  if capabilities.isEmpty then []
  else [UInt8.ofNat capabilities.length] ++ capabilities.flatMap fieldBytes

theorem decodes_readCapabilities {present : Bool} {capabilities : List Bytes}
    (hpresent : present = !capabilities.isEmpty) (hlen : capabilities.length ≤ 255)
    {hello : VersionHello} (hnone : hello.capabilities = []) :
    Decodes (fun payload => readCapabilities present payload hello)
      (capabilitiesBytes capabilities)
      { hello with capabilities := capabilities.map fun s => s.take 255 } := by
  unfold readCapabilities capabilitiesBytes
  cases hcaps : capabilities with
  | nil =>
      obtain ⟨_, _, _, _, _, _⟩ := hello
      subst hpresent hcaps hnone
      exact Decodes.pure _
  | cons s rest =>
      rw [← hcaps]
      have hempty : capabilities.isEmpty = false := by rw [hcaps, List.isEmpty_cons]
      rw [hpresent, hempty, if_neg Bool.false_ne_true]
      have hcount : (UInt8.ofNat capabilities.length).toNat = capabilities.length := by
        rw [UInt8.toNat_ofNat']
        omega
      have hloop := decodes_readCapabilitiesLoop capabilities hello
      rw [hnone, List.nil_append] at hloop
      refine .get_ite_neg ?_ ((decodes_next _).bind ?_)
      · intro before after
        simp only [List.length_append, List.length_singleton]
        omega
      · rw [hcount]
        exact hloop

def helloBytes (supportedVersions : Bytes) (preferredVersion : UInt8)
    (clientVersion platform : Bytes) (capabilities : List Bytes) : Bytes :=
  [if !capabilities.isEmpty then 0x01 else 0] ++
    ([UInt8.ofNat supportedVersions.length] ++ (supportedVersions ++
      ([preferredVersion] ++ (fieldBytes clientVersion ++
        (fieldBytes platform ++ capabilitiesBytes capabilities)))))

theorem foldl_writeUint8 (versions data : Bytes) :
    versions.foldl writeUint8 data = data ++ versions := by
  induction versions generalizing data with
  | nil => exact (List.append_nil data).symm
  | cons version versions ih =>
      rw [List.foldl_cons, ih, writeUint8, List.append_assoc, List.singleton_append]

theorem makeVersionHelloPayload_eq (supportedVersions : Bytes) (preferredVersion : UInt8)
    (clientVersion platform : Bytes) (capabilities : List Bytes) :
    makeVersionHelloPayload supportedVersions preferredVersion clientVersion platform
        capabilities =
      helloBytes supportedVersions preferredVersion clientVersion platform capabilities := by
  unfold makeVersionHelloPayload helloBytes capabilitiesBytes
  cases hcaps : capabilities.isEmpty with
  | true => simp [writeUint8_eq, writeField_eq, foldl_writeUint8]
  | false => simp [writeUint8_eq, writeField_eq, foldl_writeUint8, foldl_writeField]

theorem decodes_readVersionHelloInto (out : VersionHello) {supportedVersions : Bytes}
    (preferredVersion : UInt8) (clientVersion platform : Bytes) {capabilities : List Bytes}
    (hversions : supportedVersions.length ≤ 255) (hcaps : capabilities.length ≤ 255) :
    Decodes (readVersionHelloInto out)
      (helloBytes supportedVersions preferredVersion clientVersion platform capabilities)
      { supportedVersions, preferredVersion := some preferredVersion
        clientVersion := clientVersion.take 255, platform := platform.take 255
        capabilities := capabilities.map fun s => s.take 255 } := by
  have hcount : (UInt8.ofNat supportedVersions.length).toNat = supportedVersions.length := by
    rw [UInt8.toNat_ofNat']
    omega
  have hloop := decodes_readVersionsLoop supportedVersions
    { out with supportedVersions := [], error := none }
  rw [List.nil_append] at hloop
  refine (decodes_next _).bind ((decodes_next _).bind ?_)
  rw [hcount]
  refine hloop.bind (.ite_neg (by simp) (.get_ite_neg ?_ ((decodes_next _).bind
    ((decodes_readString _ _ clientVersion).bind ((decodes_readString _ _ platform).bind ?_)))))
  · intro before after
    simp only [List.length_append, List.length_singleton]
    omega
  · refine decodes_readCapabilities ?_ hcaps rfl
    cases capabilities.isEmpty with
    | true => rfl
    | false => rfl

theorem parseVersionHelloPayloadInto_make (out : VersionHello) {supportedVersions : Bytes}
    (preferredVersion : UInt8) (clientVersion platform : Bytes) {capabilities : List Bytes}
    (hversions : supportedVersions.length ≤ 255) (hcaps : capabilities.length ≤ 255) :
    parseVersionHelloPayloadInto out (makeVersionHelloPayload supportedVersions preferredVersion
        clientVersion platform capabilities) =
      .ok { supportedVersions, preferredVersion := some preferredVersion
            clientVersion := clientVersion.take 255, platform := platform.take 255
            capabilities := capabilities.map fun s => s.take 255 } := by
  have hread := (decodes_readVersionHelloInto out preferredVersion clientVersion platform
    hversions hcaps).run_zero []
  have hclient := length_fieldBytes_pos clientVersion
  have hplatform := length_fieldBytes_pos platform
  rw [makeVersionHelloPayload_eq, parseVersionHelloPayloadInto, if_neg, StateT.run'_eq]
  · rw [List.append_nil] at hread
    rw [hread]
    rfl
  · simp only [helloBytes, List.length_append, List.length_singleton]
    omega

theorem parseVersionHelloPayload_make {supportedVersions : Bytes} (preferredVersion : UInt8)
    (clientVersion platform : Bytes) {capabilities : List Bytes}
    (hversions : supportedVersions.length ≤ 255) (hcaps : capabilities.length ≤ 255) :
    parseVersionHelloPayload (makeVersionHelloPayload supportedVersions preferredVersion
        clientVersion platform capabilities) =
      .ok { supportedVersions, preferredVersion := some preferredVersion
            clientVersion := clientVersion.take 255, platform := platform.take 255
            capabilities := capabilities.map fun s => s.take 255 } := by
  rw [parseVersionHelloPayload]
  exact parseVersionHelloPayloadInto_make {} preferredVersion clientVersion platform hversions
    hcaps

def ackFlags (rejected hasReason : Bool) : UInt8 :=
  let flags : UInt8 := if rejected then 0x01 else 0
  if hasReason then flags ||| 0x02 else flags

def ackBytes (agreedVersion : UInt8) (serverVersion platform : Bytes) (rejected : Bool)
    (reason : Bytes) : Bytes :=
  [ackFlags rejected !reason.isEmpty] ++ ([agreedVersion] ++ (fieldBytes serverVersion ++
    (fieldBytes platform ++ optionalBytes reason)))

theorem makeVersionAckPayload_eq (agreedVersion : UInt8) (serverVersion platform : Bytes)
    (rejected : Bool) (reason : Bytes) :
    makeVersionAckPayload agreedVersion serverVersion platform rejected reason =
      ackBytes agreedVersion serverVersion platform rejected reason := by
  unfold makeVersionAckPayload ackBytes ackFlags optionalBytes
  cases hreason : reason.isEmpty with
  | true => simp [writeUint8_eq, writeField_eq]
  | false => simp [writeUint8_eq, writeField_eq]

theorem ackFlags_bits (rejected hasReason : Bool) :
    (ackFlags rejected hasReason &&& 0x01 != 0) = rejected ∧
      (ackFlags rejected hasReason &&& 0x02 != 0) = hasReason := by
  cases rejected <;> cases hasReason <;> decide

theorem decodes_readVersionAckInto (out : ParsedVersionAck) (agreedVersion : UInt8)
    (serverVersion platform : Bytes) (rejected : Bool) (reason : Bytes) :
    Decodes (readVersionAckInto out)
      (ackBytes agreedVersion serverVersion platform rejected reason)
      { agreedVersion := some agreedVersion, serverVersion := serverVersion.take 255
        platform := platform.take 255, rejected := some rejected, reason := reason.take 255 } := by
  obtain ⟨hrejected, hhas⟩ := ackFlags_bits rejected !reason.isEmpty
  refine (decodes_next _).bind (.get_ite_neg ?_ ((decodes_next _).bind
    ((decodes_readString _ _ serverVersion).bind ((decodes_readString _ _ platform).bind ?_))))
  · intro before after
    simp only [List.length_append, List.length_singleton]
    omega
  · rw [hrejected, hhas, optionalBytes]
    cases hreason : reason with
    | nil => exact Decodes.pure _
    | cons b rest =>
        exact ((decodes_readString _ _ _).bind (Decodes.pure _)).congr (List.append_nil _)

theorem parseVersionAckPayloadInto_make (out : ParsedVersionAck) (agreedVersion : UInt8)
    (serverVersion platform : Bytes) (rejected : Bool) (reason : Bytes) :
    parseVersionAckPayloadInto out (makeVersionAckPayload agreedVersion serverVersion platform
        rejected reason) =
      .ok { agreedVersion := some agreedVersion, serverVersion := serverVersion.take 255
            platform := platform.take 255, rejected := some rejected
            reason := reason.take 255 } := by
  have hread := (decodes_readVersionAckInto out agreedVersion serverVersion platform rejected
    reason).run_zero []
  have hserver := length_fieldBytes_pos serverVersion
  rw [makeVersionAckPayload_eq, parseVersionAckPayloadInto, if_neg, StateT.run'_eq]
  · rw [List.append_nil] at hread
    rw [hread]
    rfl
  · simp only [ackBytes, List.length_append, List.length_singleton]
    omega

theorem parseVersionAckPayload_make (agreedVersion : UInt8) (serverVersion platform : Bytes)
    (rejected : Bool) (reason : Bytes) :
    parseVersionAckPayload (makeVersionAckPayload agreedVersion serverVersion platform rejected
        reason) =
      .ok { agreedVersion := some agreedVersion, serverVersion := serverVersion.take 255
            platform := platform.take 255, rejected := some rejected
            reason := reason.take 255 } := by
  rw [parseVersionAckPayload]
  exact parseVersionAckPayloadInto_make {} agreedVersion serverVersion platform rejected reason

/-- Whatever the variables of the caller hold before, they hold what was sent afterwards. -/
theorem version_payloads_round_trip (hello : VersionHello) (ack : ParsedVersionAck)
    {supportedVersions : Bytes} {capabilities : List Bytes}
    (hversions : supportedVersions.length ≤ 255) (hcaps : capabilities.length ≤ 255)
    (preferredVersion agreedVersion : UInt8) (clientVersion serverVersion platform : Bytes)
    (rejected : Bool) (reason : Bytes) :
    parseVersionHelloPayloadInto hello (makeVersionHelloPayload supportedVersions
        preferredVersion clientVersion platform capabilities) =
      .ok { supportedVersions, preferredVersion := some preferredVersion
            clientVersion := clientVersion.take 255, platform := platform.take 255
            capabilities := capabilities.map fun s => s.take 255, error := none } ∧
    parseVersionAckPayloadInto ack (makeVersionAckPayload agreedVersion serverVersion platform
        rejected reason) =
      .ok { agreedVersion := some agreedVersion, serverVersion := serverVersion.take 255
            platform := platform.take 255, rejected := some rejected
            reason := reason.take 255, error := none } :=
  ⟨parseVersionHelloPayloadInto_make hello preferredVersion clientVersion platform hversions
      hcaps,
    parseVersionAckPayloadInto_make ack agreedVersion serverVersion platform rejected reason⟩

/-- 255 versions, an empty capability, and variables that are in use. -/
theorem version_payloads_round_trip_full :
    parseVersionHelloPayloadInto { supportedVersions := [7], capabilities := [[1], [2]] }
        (makeVersionHelloPayload (List.replicate 255 1) 1 (ascii "1.0") (ascii "linux")
          [[], ascii "noise"]) =
      .ok { supportedVersions := List.replicate 255 1, preferredVersion := some 1
            clientVersion := ascii "1.0", platform := ascii "linux"
            capabilities := [[], ascii "noise"] } ∧
    parseVersionAckPayloadInto { reason := [9] }
        (makeVersionAckPayload 1 (ascii "1.0") (ascii "linux") true []) =
      .ok { agreedVersion := some 1, serverVersion := ascii "1.0", platform := ascii "linux"
            rejected := some true } := by
  have hversions : (List.replicate 255 (1 : UInt8)).length ≤ 255 := by
    rw [List.length_replicate]
  exact version_payloads_round_trip { supportedVersions := [7], capabilities := [[1], [2]] }
    { reason := [9] } hversions (by decide) 1 1 (ascii "1.0") (ascii "1.0") (ascii "linux") true []

end Bitchat.PacketSerializer
