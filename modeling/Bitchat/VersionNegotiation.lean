import Bitchat.ControlRoundTrip
import Bitchat.HandlerFaults

/-!
# Version negotiation

The responder answers a hello with an ack that names the version both sides know, or that
rejects the requester. What the requester reads from the ack is what the responder meant.
-/

namespace Bitchat.MessageService

open Effect ByteCursor StringHelper PacketSerializer ProtocolHelper

theorem negotiateVersion_mem {clientVersions serverVersions : Bytes}
    (h : ∃ version ∈ clientVersions, version ∈ serverVersions) :
    negotiateVersion clientVersions serverVersions ∈ clientVersions ∧
      negotiateVersion clientVersions serverVersions ∈ serverVersions := by
  rw [negotiateVersion]
  cases hfind : clientVersions.reverse.find? fun version => version ∈ serverVersions with
  | none =>
      obtain ⟨version, hclient, hserver⟩ := h
      have hnone := List.find?_eq_none.mp hfind version (List.mem_reverse.mpr hclient)
      exact (hnone (by simpa using hserver)).elim
  | some version =>
      exact ⟨List.mem_reverse.mp (List.mem_of_find?_eq_some hfind), by
        simpa using List.find?_some hfind⟩

theorem negotiateVersion_eq_zero {clientVersions serverVersions : Bytes}
    (h : ¬ ∃ version ∈ clientVersions, version ∈ serverVersions) :
    negotiateVersion clientVersions serverVersions = 0 := by
  have hnone : clientVersions.reverse.find? (fun version => version ∈ serverVersions) = none := by
    rw [List.find?_eq_none]
    intro version hclient hserver
    exact h ⟨version, List.mem_reverse.mp hclient, by simpa using hserver⟩
  rw [negotiateVersion, hnone]
  rfl

theorem negotiateVersion_pos_iff (clientVersions : Bytes) :
    negotiateVersion clientVersions getSupportedVersions > 0 ↔
      ∃ version ∈ clientVersions, version ∈ getSupportedVersions := by
  by_cases h : ∃ version ∈ clientVersions, version ∈ getSupportedVersions
  · have hone := List.mem_singleton.mp (negotiateVersion_mem h).2
    rw [hone]
    exact iff_of_true (by decide) h
  · rw [negotiateVersion_eq_zero h]
    exact iff_of_false (by decide) h

/-- What "the highest common version" of two lists is. Without one it is 0. -/
def IsHighestCommon (a b : Bytes) (version : UInt8) : Prop :=
  (version ∈ a ∧ version ∈ b ∧ ∀ other ∈ a, other ∈ b → other ≤ version) ∨
    (¬ ∃ other ∈ a, other ∈ b) ∧ version = 0

/-- A common version behind which no common one stands is the greatest of them. -/
def EndsWithHighest (versions others : Bytes) : Prop :=
  ∀ earlier version later, versions = earlier ++ version :: later → version ∈ others →
    (∀ other ∈ later, other ∉ others) → ∀ other ∈ earlier, other ∈ others → other ≤ version

theorem IsHighestCommon.symm {a b : Bytes} {version : UInt8} (h : IsHighestCommon a b version) :
    IsHighestCommon b a version := by
  rcases h with ⟨ha, hb, hmax⟩ | ⟨hnone, hzero⟩
  · exact .inl ⟨hb, ha, fun other hob hoa => hmax other hoa hob⟩
  · exact .inr ⟨fun ⟨other, hob, hoa⟩ => hnone ⟨other, hoa, hob⟩, hzero⟩

theorem IsHighestCommon.unique {a b : Bytes} {v w : UInt8} (hv : IsHighestCommon a b v)
    (hw : IsHighestCommon a b w) : v = w := by
  rcases hv with ⟨hva, hvb, hvmax⟩ | ⟨hnone, hv⟩
  · rcases hw with ⟨hwa, hwb, hwmax⟩ | ⟨hnone, -⟩
    · exact UInt8.le_antisymm (hwmax v hva hvb) (hvmax w hwa hwb)
    · exact (hnone ⟨v, hva, hvb⟩).elim
  · rcases hw with ⟨hwa, hwb, -⟩ | ⟨-, hw⟩
    · exact (hnone ⟨w, hwa, hwb⟩).elim
    · rw [hv, hw]

theorem negotiateVersion_append_cons {earlier later b : Bytes} {version : UInt8}
    (hversion : version ∈ b) (hlater : ∀ other ∈ later, other ∉ b) :
    negotiateVersion (earlier ++ version :: later) b = version := by
  have hskip : later.reverse.find? (fun other => other ∈ b) = none := by
    rw [List.find?_eq_none]
    intro other hother
    simpa using hlater other (List.mem_reverse.mp hother)
  rw [negotiateVersion, List.reverse_append, List.reverse_cons, List.append_assoc,
    List.find?_append, hskip, Option.none_or, List.cons_append, List.find?_cons_of_pos]
  · rfl
  · simpa using hversion

theorem exists_last_common {a b : Bytes} (h : ∃ version ∈ a, version ∈ b) :
    ∃ earlier version later, a = earlier ++ version :: later ∧ version ∈ b ∧
      ∀ other ∈ later, other ∉ b := by
  induction a with
  | nil => simp at h
  | cons head tail ih =>
      by_cases htail : ∃ version ∈ tail, version ∈ b
      · obtain ⟨earlier, version, later, rfl, hversion, hlater⟩ := ih htail
        exact ⟨head :: earlier, version, later, rfl, hversion, hlater⟩
      · have hlater : ∀ other ∈ tail, other ∉ b := fun other ho hob => htail ⟨other, ho, hob⟩
        obtain ⟨version, hmem, hversion⟩ := h
        rcases List.mem_cons.mp hmem with rfl | hmem
        · exact ⟨[], version, tail, rfl, hversion, hlater⟩
        · exact (htail ⟨version, hmem, hversion⟩).elim

theorem isHighestCommon_negotiateVersion (a b : Bytes) :
    IsHighestCommon a b (negotiateVersion a b) ↔ EndsWithHighest a b := by
  constructor
  · rintro h earlier version later rfl hversion hlater other hother hcommon
    rw [negotiateVersion_append_cons hversion hlater] at h
    rcases h with ⟨-, -, hmax⟩ | ⟨hnone, -⟩
    · exact hmax other (List.mem_append_left _ hother) hcommon
    · exact (hnone ⟨other, List.mem_append_left _ hother, hcommon⟩).elim
  · intro h
    by_cases hcommon : ∃ version ∈ a, version ∈ b
    · obtain ⟨earlier, version, later, rfl, hversion, hlater⟩ := exists_last_common hcommon
      rw [negotiateVersion_append_cons hversion hlater]
      refine .inl ⟨by simp, hversion, fun other hmem hother => ?_⟩
      rcases List.mem_append.mp hmem with hmem | hmem
      · exact h earlier version later rfl hversion hlater other hmem hother
      · rcases List.mem_cons.mp hmem with rfl | hmem
        · exact UInt8.le_refl _
        · exact (hlater other hmem hother).elim
    · exact .inr ⟨hcommon, negotiateVersion_eq_zero hcommon⟩

/-- Both sides find the highest common version if and only if each list ends with it. -/
theorem negotiateVersion_highest_iff (a b : Bytes) :
    IsHighestCommon a b (negotiateVersion a b) ∧ negotiateVersion a b = negotiateVersion b a ↔
      EndsWithHighest a b ∧ EndsWithHighest b a := by
  rw [isHighestCommon_negotiateVersion, ← isHighestCommon_negotiateVersion b a]
  constructor
  · rintro ⟨ha, heq⟩
    have hb := ((isHighestCommon_negotiateVersion a b).mpr ha).symm
    rw [heq] at hb
    exact ⟨ha, hb⟩
  · rintro ⟨ha, hb⟩
    exact ⟨ha, ((isHighestCommon_negotiateVersion a b).mpr ha).unique hb.symm⟩

/-- A client that lists the newer version first is answered with the older one. -/
theorem negotiateVersion_descending :
    ¬ ∀ a b : Bytes, IsHighestCommon a b (negotiateVersion a b) ∧
      negotiateVersion a b = negotiateVersion b a := by
  intro h
  have heq : negotiateVersion [2, 1] [1, 2] = negotiateVersion [1, 2] [2, 1] := (h _ _).2
  exact absurd heq (by decide)

def answer (supportedVersions : Bytes) : VersionAck :=
  if negotiateVersion supportedVersions getSupportedVersions > 0 then
    { agreedVersion := negotiateVersion supportedVersions getSupportedVersions
      serverVersion := clientVersion, platform }
  else
    { agreedVersion := 0, serverVersion := clientVersion, platform, rejected := true
      reason := rejectionReason supportedVersions getSupportedVersions }

def ackPayload (ack : VersionAck) : Bytes :=
  makeVersionAckPayload ack.agreedVersion ack.serverVersion ack.platform ack.rejected ack.reason

/-- The packet that the ack is sent in. The recipient is noted, but not its flag. -/
def ackPacket (node : Node) (ownID recipientID : Bytes) (ack : VersionAck) : BitchatPacket :=
  { ownPacketOf node ownID pktTypeVersionAck (ackPayload ack) with recipientID, ttl := 1 }

theorem outcome_sendVersionAck_ok {node : Node} {ownID : Bytes}
    (hown : stringToVector node.data.peerID = .ok ownID) (ack : VersionAck) (recipient : Bytes) :
    (sendVersionAck ack (toHex recipient)).outcome node =
      (.ok ⟨⟩, { node with
        clockReads := node.clockReads + 2
        trace := node.trace ++
          notification node.connected (.sent (ackPacket node ownID recipient ack)) }) := by
  rw [sendVersionAck, outcome_bind_ok (outcome_ownPacket_ok hown _ _), stringToVector_toHex]
  exact outcome_bind_ok (outcome_sendPacket _ _) _

def SameTrace (node node' : Node) : Prop := node'.trace = node.trace

instance : Std.Refl SameTrace := ⟨fun _ => rfl⟩

instance : IsTrans Node SameTrace := ⟨fun _ _ _ h k => k.trans h⟩

theorem trace_handleVersionHello {node : Node} {data : Bytes} {hello : VersionHello}
    (hdata : data ≠ []) (hparse : parseVersionHelloPayload data = .ok hello) (sender : Bytes) :
    ((handleVersionHello (toHex sender) data).exec node).trace =
      ((sendVersionAck (answer hello.supportedVersions) (toHex sender)).exec node).trace := by
  rw [exec_handleVersionHello hdata hparse, exec, answerVersionHello, answer]
  split_ifs with hagreed
  · have hclock : ∀ node : Node, SameTrace node { node with clockReads := node.clockReads + 1 } :=
      fun _ => rfl
    refine Respects.exec_bind (R := SameTrace) (fun _ => respects_get.bind fun node => ?_) _ node
    exact (respects_pure _).ite ((respects_currentTime hclock).bind fun _ =>
      respects_modify fun _ => rfl)
  · rfl

theorem parse_ackPayload (ack : VersionAck) :
    parseVersionAckPayload (ackPayload ack) =
      .ok { agreedVersion := some ack.agreedVersion
            serverVersion := ack.serverVersion.take 255, platform := ack.platform.take 255
            rejected := some ack.rejected, reason := ack.reason.take 255 } :=
  parseVersionAckPayload_make _ _ _ _ _

/-- The ack is sent if the node is connected and knows its own ID, and nothing else is. -/
theorem newEvents_handleVersionHello (node : Node) {data : Bytes} {hello : VersionHello}
    (hdata : data ≠ []) (hparse : parseVersionHelloPayload data = .ok hello) (sender : Bytes) :
    (∃ ownID, stringToVector node.data.peerID = .ok ownID ∧
        newEvents (handleVersionHello (toHex sender) data) node =
          notification node.connected
            (.sent (ackPacket node ownID sender (answer hello.supportedVersions)))) ∨
      ¬ KnowsItself node ∧ newEvents (handleVersionHello (toHex sender) data) node = [] := by
  rw [newEvents, trace_handleVersionHello hdata hparse]
  cases hown : stringToVector node.data.peerID with
  | ok ownID =>
      refine .inl ⟨ownID, rfl, ?_⟩
      rw [exec, outcome_sendVersionAck_ok hown, List.drop_left]
  | error e =>
      refine .inr ⟨fun h => ?_, ?_⟩
      · obtain ⟨ownID, h⟩ := h
        exact absurd (hown.symm.trans h) (by simp)
      · rw [exec, sendVersionAck, outcome_bind_error (outcome_ownPacket_error hown _ _)]
        exact List.drop_length

/-- What the requester makes of an ack to a hello with the given versions. -/
def Understood (supportedVersions : Bytes) (seen : ParsedVersionAck) : Prop :=
  if ∃ version ∈ supportedVersions, version ∈ getSupportedVersions then
    seen.rejected = some false ∧ ∃ version, seen.agreedVersion = some version ∧
      version ∈ supportedVersions ∧ version ∈ getSupportedVersions
  else
    seen.rejected = some true ∧ seen.agreedVersion = some 0 ∧
      seen.reason = (rejectionReason supportedVersions getSupportedVersions).take 255

theorem understood_answer (supportedVersions : Bytes) :
    ∃ seen, parseVersionAckPayload (ackPayload (answer supportedVersions)) = .ok seen ∧
      seen.error = none ∧ Understood supportedVersions seen := by
  refine ⟨_, parse_ackPayload _, rfl, ?_⟩
  rw [Understood, answer]
  by_cases hcommon : ∃ version ∈ supportedVersions, version ∈ getSupportedVersions
  · rw [if_pos hcommon, if_pos ((negotiateVersion_pos_iff _).mpr hcommon)]
    exact ⟨rfl, _, rfl, negotiateVersion_mem hcommon⟩
  · rw [if_neg hcommon, if_neg fun h => hcommon ((negotiateVersion_pos_iff _).mp h)]
    exact ⟨rfl, rfl, rfl⟩

/-- Requester and responder come to the same result, over any hello that can be encoded. -/
theorem negotiation_agrees (supportedVersions : Bytes) (preferredVersion : UInt8)
    (clientVersion platform : Bytes) (capabilities : List Bytes) (responder : Node)
    (requester : Bytes) (hversions : supportedVersions.length ≤ 255)
    (hcaps : capabilities.length ≤ 255) :
    let events := newEvents (handleVersionHello (toHex requester)
      (makeVersionHelloPayload supportedVersions preferredVersion clientVersion platform
        capabilities)) responder
    (KnowsItself responder → responder.connected = true → ∃ packet, events = [.sent packet]) ∧
      ∀ packet, .sent packet ∈ events → ∃ seen, parseVersionAckPayload packet.payload = .ok seen ∧
        seen.error = none ∧ Understood supportedVersions seen := by
  have hparse := parseVersionHelloPayload_make preferredVersion clientVersion platform hversions
    hcaps
  have hdata : makeVersionHelloPayload supportedVersions preferredVersion clientVersion platform
      capabilities ≠ [] := by
    rw [makeVersionHelloPayload_eq, helloBytes]
    exact List.cons_ne_nil _ _
  dsimp only
  rcases newEvents_handleVersionHello responder hdata hparse requester with
    ⟨ownID, -, hevents⟩ | ⟨hunknown, hevents⟩
  · refine ⟨fun _ hconnected => ?_, fun packet hpacket => ?_⟩
    · rw [hconnected, notification, if_pos rfl] at hevents
      exact ⟨_, hevents⟩
    · rw [hevents, notification] at hpacket
      split at hpacket
      · obtain rfl := Event.sent.inj (List.mem_singleton.mp hpacket)
        exact understood_answer supportedVersions
      · cases hpacket
  · refine ⟨fun hknows => (hunknown hknows).elim, fun packet hpacket => ?_⟩
    rw [hevents] at hpacket
    cases hpacket

theorem negotiation_agrees_v2 :
    let events := newEvents (handleVersionHello (toHex [1, 2, 3, 4, 5, 6, 7, 8])
      (makeVersionHelloPayload [2, 1] 2 (ascii "2.0") (ascii "ios") [])) listener
    (KnowsItself listener → listener.connected = true → ∃ packet, events = [.sent packet]) ∧
      ∀ packet, .sent packet ∈ events → ∃ seen, parseVersionAckPayload packet.payload = .ok seen ∧
        seen.error = none ∧ Understood [2, 1] seen :=
  negotiation_agrees [2, 1] 2 (ascii "2.0") (ascii "ios") [] listener [1, 2, 3, 4, 5, 6, 7, 8]
    (by decide) (by decide)

end Bitchat.MessageService
