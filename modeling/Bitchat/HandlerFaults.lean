import Bitchat.Deduplication
import Bitchat.MessageReception
import Bitchat.NoiseHandlers
import Bitchat.ParserBounds

/-!
# Which packets the handlers fail on

A node that knows its own ID can always answer, so a handler fails for one of three reasons:
its parser reads behind the end of the payload, the parser returns early and leaves a
variable that the handler reads without a value, or the session it calls for is not in the
right state.
-/

namespace Bitchat.MessageService

open Effect StringHelper PacketSerializer

/-- The node's own ID can be put into a packet. -/
def KnowsItself (node : Node) : Prop := ∃ ownID, stringToVector node.data.peerID = .ok ownID

def OfPeerID (P : Node → Prop) : Prop :=
  ∀ node node' : Node, node'.data.peerID = node.data.peerID → P node → P node'

theorem ofPeerID_knowsItself : OfPeerID KnowsItself := by
  rintro node node' hid ⟨ownID, h⟩
  exact ⟨ownID, hid ▸ h⟩

theorem ofPeerID_true : OfPeerID fun _ => True := fun _ _ _ h => h

variable {P : Node → Prop} (hP : OfPeerID P)
include hP

theorem succeeds_readClock : Succeeds P readClock := by
  refine succeeds_get.bind fun _ => (succeeds_modify ?_).bind fun _ => succeeds_pure _
  exact fun node h => hP node _ rfl h

theorem succeeds_currentTime : Succeeds P currentTime :=
  (succeeds_readClock hP).bind fun _ => succeeds_pure _

theorem succeeds_emit (event : Event) : Succeeds P (emit event) :=
  succeeds_modify fun node h => hP node _ rfl h

theorem succeeds_notify (registered : Callbacks → Bool) (event : Event) :
    Succeeds P (notify registered event) :=
  succeeds_get.bind fun _ => (succeeds_emit hP event).ite (succeeds_pure _)

theorem succeeds_modifyData {f : BitchatData → BitchatData}
    (hf : ∀ data, (f data).peerID = data.peerID) : Succeeds P (modifyData f) :=
  succeeds_modify fun node h => hP node _ (hf node.data) h

theorem succeeds_processAnnouncePacket (packet : BitchatPacket) (peripheralID : Bytes) :
    Succeeds P (processAnnouncePacket packet peripheralID) := by
  refine succeeds_get.bind fun node => (succeeds_currentTime hP).bind fun time => ?_
  split
  · exact succeeds_modifyData hP fun _ => rfl
  · refine (succeeds_currentTime hP).bind fun time =>
      (succeeds_modifyData hP ?_).bind fun _ => succeeds_notify hP _ _
    exact fun _ => rfl

theorem succeeds_processLeavePacket (packet : BitchatPacket) :
    Succeeds P (processLeavePacket packet) := by
  refine succeeds_get.bind fun node => ?_
  split
  · exact succeeds_pure _
  · refine (succeeds_modifyData hP ?_).bind fun _ => succeeds_notify hP _ _
    exact fun _ => rfl

theorem succeeds_sendPacket (packet : BitchatPacket) : Succeeds P (sendPacket packet) :=
  succeeds_get.bind fun _ =>
    ((succeeds_emit hP _).bind fun _ => succeeds_pure _).ite (succeeds_pure _)

omit hP

theorem succeeds_sendVersionAck (ack : VersionAck) (sender : Bytes) :
    Succeeds KnowsItself (sendVersionAck ack (toHex sender)) := by
  have hrecipient : Succeeds KnowsItself (ofExcept (stringToVector (toHex sender))) := by
    rw [stringToVector_toHex]
    exact succeeds_pure _
  intro node hnode
  obtain ⟨ownID, hown⟩ := hnode
  rw [sendVersionAck, outcome_bind_ok (outcome_ownPacket_ok hown _ _)]
  exact (hrecipient.bind fun _ => (succeeds_sendPacket ofPeerID_knowsItself _).bind fun _ =>
    succeeds_pure _) _ ⟨ownID, hown⟩

theorem succeeds_answerVersionHello (sender : Bytes) (hello : VersionHello) :
    Succeeds KnowsItself (answerVersionHello (toHex sender) hello) := by
  refine ((succeeds_sendVersionAck _ _).bind fun _ => succeeds_get.bind fun node => ?_).ite
    (succeeds_sendVersionAck _ _)
  exact (succeeds_pure _).ite ((succeeds_currentTime ofPeerID_knowsItself).bind fun time =>
    succeeds_modifyData ofPeerID_knowsItself fun _ => rfl)

variable {node : Node} {packet : BitchatPacket}

theorem result_eq_of_outcome {m : ServiceM Unit} {r : Except Fault Unit} {node' : Node}
    (h : m.outcome node = (r, node')) : m.result node = r := by
  rw [result, h]

theorem handleVersionHello_of_parse {data : Bytes} {hello : VersionHello} (hdata : data ≠ [])
    (hparse : parseVersionHelloPayload data = .ok hello) (node : Node) (sender : Bytes) :
    (handleVersionHello sender data).outcome node = (do
      answerVersionHello sender hello
      assigned (ascii "preferredVersion") hello.preferredVersion).outcome node := by
  rw [handleVersionHello, if_neg (by simpa using hdata),
    outcome_bind_ok (outcome_ofParser_ok hparse node)]

theorem exec_handleVersionHello {data : Bytes} {hello : VersionHello} (hdata : data ≠ [])
    (hparse : parseVersionHelloPayload data = .ok hello) (node : Node) (sender : Bytes) :
    (handleVersionHello sender data).exec node = (answerVersionHello sender hello).exec node := by
  rw [exec, handleVersionHello_of_parse hdata hparse]
  exact exec_bind_assigned _ _ _ _

theorem result_processVersionHelloPacket_iff (hknows : KnowsItself node) :
    (processVersionHelloPacket packet).result node = .ok ⟨⟩ ↔
      ¬ (packet.payload ≠ [] ∧ LacksPreferred packet.payload) := by
  rw [processVersionHelloPacket_eq]
  by_cases hempty : packet.payload = []
  · rw [hempty]
    exact iff_of_true rfl fun h => h.1 rfl
  · obtain ⟨hello, hparse⟩ := parseVersionHelloPayload_ok packet.payload
    have hanswer := (succeeds_answerVersionHello packet.senderID hello).result hknows
    rw [and_iff_right hempty, ← (versionHello_of_parse hparse).2, result,
      handleVersionHello_of_parse hempty hparse, ← result, result_bind_assigned hanswer]
    cases hello.preferredVersion with
    | none => exact iff_of_false (fun h => by cases h) fun h => h rfl
    | some version => exact iff_of_true rfl (Option.some_ne_none _)

theorem outcome_answerVersionAck (node : Node) (sender : Bytes) (rejected : Bool) :
    (answerVersionAck sender rejected).outcome node = (.ok ⟨⟩,
      if rejected then { node with
        data := node.data.removePeer sender
        trace := node.trace ++
          notification node.callbacks.peerDisconnected (.peerDisconnected sender) }
      else node) := by
  cases rejected with
  | true =>
      rw [answerVersionAck, if_pos rfl, if_pos rfl, outcome_bind_ok (outcome_modifyData _ _)]
      exact outcome_notify _ _ _
  | false => rfl

/-- An ack that can be read has no other effect than to remove a sender that rejects. -/
theorem outcome_handleVersionAck {data : Bytes} {ack : ParsedVersionAck} {rejected : Bool}
    (hdata : data ≠ []) (hparse : parseVersionAckPayload data = .ok ack)
    (hrejected : ack.rejected = some rejected) (node : Node) (sender : Bytes) :
    (handleVersionAck sender data).outcome node = (.ok ⟨⟩,
      if rejected then { node with
        data := node.data.removePeer sender
        trace := node.trace ++
          notification node.callbacks.peerDisconnected (.peerDisconnected sender) }
      else node) := by
  rw [handleVersionAck, if_neg (by simpa using hdata),
    outcome_bind_ok (outcome_ofParser_ok hparse node),
    outcome_bind_ok (outcome_valueOf_some hrejected node),
    outcome_bind_ok (outcome_answerVersionAck node sender rejected)]
  exact outcome_assigned_some hrejected _ _

theorem exec_handleVersionAck {data : Bytes} {ack : ParsedVersionAck} (hdata : data ≠ [])
    (hparse : parseVersionAckPayload data = .ok ack) (node : Node) (sender : Bytes) :
    ∃ reads, (handleVersionAck sender data).exec node =
      (answerVersionAck sender (flagOf node ack.rejected)).exec
        { node with unassignedReads := reads } := by
  obtain ⟨reads, hvalue⟩ := outcome_valueOf ack.rejected node
  refine ⟨reads, ?_⟩
  rw [exec, handleVersionAck, if_neg (by simpa using hdata),
    outcome_bind_ok (outcome_ofParser_ok hparse node), outcome_bind_ok hvalue]
  exact exec_bind_assigned _ _ _ _

theorem result_handleVersionAck_short {data : Bytes} (hdata : data ≠ []) (h : data.length < 3)
    (node : Node) (sender : Bytes) :
    (handleVersionAck sender data).result node = .error (.uninitialized (ascii "rejected")) := by
  have hparse : parseVersionAckPayload data = .ok { error := some .tooShort } := if_pos h
  obtain ⟨reads, hvalue⟩ := outcome_valueOf none node
  rw [result, handleVersionAck, if_neg (by simpa using hdata),
    outcome_bind_ok (outcome_ofParser_ok hparse node), outcome_bind_ok hvalue,
    outcome_bind_ok (outcome_answerVersionAck _ sender _)]
  rfl

theorem result_processVersionAckPacket_iff :
    (processVersionAckPacket packet).result node = .ok ⟨⟩ ↔
      ¬ (packet.payload.length = 1 ∨ packet.payload.length = 2) := by
  rw [processVersionAckPacket_eq]
  by_cases hempty : packet.payload = []
  · rw [hempty]
    exact iff_of_true rfl (by simp)
  · have hlen : 0 < packet.payload.length := List.length_pos_of_ne_nil hempty
    by_cases hshort : packet.payload.length < 3
    · refine iff_of_false (fun h => ?_) (by omega)
      rw [result_handleVersionAck_short hempty hshort] at h
      cases h
    · obtain ⟨ack, rejected, hparse, hrejected⟩ :=
        parseVersionAckPayload_ok (Nat.le_of_not_lt hshort)
      refine iff_of_true ?_ (by omega)
      exact result_eq_of_outcome (outcome_handleVersionAck hempty hparse hrejected node _)

theorem result_processMessagePacket_iff :
    (processMessagePacket packet).result node = .ok ⟨⟩ ↔ ¬ CutMessage packet.payload := by
  rw [← parseMessagePayload_ok_iff]
  constructor
  · intro h
    cases hparse : parseMessagePayload packet.payload with
    | ok parsed => exact ⟨parsed, rfl⟩
    | error e =>
        have herror : (ofParser (parseMessagePayload packet.payload)).outcome node =
            (.error (.outOfBounds e), node) := by
          rw [hparse]
          rfl
        rw [result, processMessagePacket, outcome_bind_error herror] at h
        cases h
  · rintro ⟨parsed, hparse⟩
    exact result_eq_of_outcome (outcome_processMessagePacket node hparse)

theorem outcome_updatePeerChannel_ok (sender : Bytes) (announce : ChannelAnnounce) (node : Node) :
    ∃ node', (updatePeerChannel sender announce).outcome node = (.ok ⟨⟩, node') := by
  rw [updatePeerChannel, outcome_bind_ok (outcome_get node)]
  cases node.data.getPeerInfo sender with
  | none => exact ⟨node, rfl⟩
  | some peerInfo =>
      obtain ⟨reads, hvalue⟩ := outcome_valueOf announce.joining node
      exact ⟨_, outcome_bind_ok hvalue _⟩

theorem result_processChannelAnnouncePacket_short (h : packet.payload.length < 2) :
    (processChannelAnnouncePacket packet).result node =
      .error (.uninitialized (ascii "joining")) := by
  have hparse : parseChannelAnnouncePayload packet.payload = .ok { error := some .tooShort } :=
    if_pos h
  obtain ⟨node', hupdate⟩ :=
    outcome_updatePeerChannel_ok (toHex packet.senderID) { error := some .tooShort } node
  rw [result, processChannelAnnouncePacket, outcome_bind_ok (outcome_ofParser_ok hparse node),
    outcome_bind_ok hupdate]
  rfl

theorem result_processChannelAnnouncePacket_iff :
    (processChannelAnnouncePacket packet).result node = .ok ⟨⟩ ↔ ¬ packet.payload.length < 2 := by
  by_cases hshort : packet.payload.length < 2
  · rw [result_processChannelAnnouncePacket_short hshort]
    exact iff_of_false (fun h => by cases h) fun h => h hshort
  · obtain ⟨announce, joining, hparse, hjoining⟩ :=
      parseChannelAnnouncePayload_ok (Nat.le_of_not_lt hshort)
    refine iff_of_true ?_ hshort
    exact result_eq_of_outcome (outcome_processChannelAnnouncePacket hparse hjoining node)

theorem IsForeign.exists_iff {service : NoiseService} (h : IsForeign node packet service)
    {Q : NoiseService → Prop} : (∃ service, IsForeign node packet service ∧ Q service) ↔
      Q service := by
  constructor
  · rintro ⟨service', h', hQ⟩
    obtain rfl := Option.some.inj (h.noise.symm.trans h'.noise)
    exact hQ
  · exact fun hQ => ⟨service, h, hQ⟩

theorem foreign_or_skipped (node : Node) (packet : BitchatPacket) :
    (∃ service, IsForeign node packet service) ∨
      (∀ service, ¬ IsForeign node packet service) ∧
        ∀ handle, (onNoisePacket packet handle).outcome node = (.ok ⟨⟩, node) := by
  cases hnoise : node.noiseService with
  | none =>
      refine .inr ⟨fun service h => ?_, outcome_onNoisePacket_of_none hnoise⟩
      cases hnoise.symm.trans h.noise
  | some service =>
      by_cases hself : toHex packet.senderID = node.data.peerID
      · exact .inr ⟨fun service h => h.sender hself, outcome_onNoisePacket_of_self hself⟩
      · exact .inl ⟨service, hnoise, hself⟩

theorem result_onHandshake {reply : Bytes → ServiceM Unit}
    (hnew : ∀ service, IsForeign node packet service →
      service.hasEstablishedSession (toHex packet.senderID) = false →
      (onHandshake packet reply).result node = .ok ⟨⟩) :
    (onHandshake packet reply).result node = .ok ⟨⟩ := by
  rcases foreign_or_skipped node packet with ⟨service, hforeign⟩ | ⟨-, hskip⟩
  · cases hestablished : service.hasEstablishedSession (toHex packet.senderID) with
    | true =>
        exact result_eq_of_outcome (outcome_onHandshake_of_established hforeign hestablished _)
    | false => exact hnew service hforeign hestablished
  · exact result_eq_of_outcome (hskip _)

theorem result_processNoiseHandshakeInitPacket (hknows : KnowsItself node) :
    (processNoiseHandshakeInitPacket packet).result node = .ok ⟨⟩ := by
  obtain ⟨ownID, hown⟩ := hknows
  apply result_onHandshake
  intro service hforeign hestablished
  obtain ⟨response, service', -, hout⟩ :=
    outcome_processNoiseHandshakeInitPacket_of_new hforeign hestablished
  have hown' : stringToVector (withSessions node service').data.peerID = .ok ownID := hown
  change (processNoiseHandshakeInitPacket packet).result node = .ok ⟨⟩
  rw [result, hout, outcome_sendOwn_ok hown']

theorem result_processNoiseHandshakeRespPacket :
    (processNoiseHandshakeRespPacket packet).result node = .ok ⟨⟩ := by
  apply result_onHandshake
  intro service hforeign hestablished
  obtain ⟨service', -, hout⟩ :=
    outcome_processNoiseHandshakeRespPacket_of_new hforeign hestablished
  exact result_eq_of_outcome hout

theorem result_processNoiseEncryptedPacket_iff :
    (processNoiseEncryptedPacket packet).result node = .ok ⟨⟩ ↔
      ¬ ∃ service, IsForeign node packet service ∧
        (service.hasEstablishedSession (toHex packet.senderID) = false ∨
          CutMessage packet.payload) := by
  rcases foreign_or_skipped node packet with ⟨service, hforeign⟩ | ⟨hnot, hskip⟩
  · rw [hforeign.exists_iff]
    cases hestablished : service.hasEstablishedSession (toHex packet.senderID) with
    | false =>
        obtain ⟨what, hout⟩ := outcome_processNoiseEncryptedPacket_error hforeign hestablished
        rw [result, hout]
        exact iff_of_false (fun h => by cases h) fun h => h (.inl rfl)
    | true =>
        obtain ⟨service', -, hout⟩ := outcome_processNoiseEncryptedPacket hforeign hestablished
        rw [result, hout, or_iff_right (by simp)]
        split
        · next hempty =>
          refine iff_of_true rfl fun hcut => ?_
          have hlong := hcut.1
          rw [List.isEmpty_iff.mp hempty] at hlong
          simp at hlong
        · have hpayload : (decryptedPacket node packet).payload = packet.payload := rfl
          rw [← hpayload]
          exact result_processMessagePacket_iff
  · refine iff_of_true (result_eq_of_outcome (hskip _)) ?_
    rintro ⟨service, h, -⟩
    exact hnot service h

theorem result_processNoiseIdentityAnnouncePacket_iff (hknows : KnowsItself node) :
    (processNoiseIdentityAnnouncePacket packet).result node = .ok ⟨⟩ ↔
      ¬ ∃ service, IsForeign node packet service ∧ node.data.peerID < toHex packet.senderID ∧
        service.status (toHex packet.senderID) ≠ some false := by
  obtain ⟨ownID, hown⟩ := hknows
  rcases foreign_or_skipped node packet with ⟨service, hforeign⟩ | ⟨hnot, hskip⟩
  · rw [hforeign.exists_iff]
    by_cases hlt : node.data.peerID < toHex packet.senderID
    · by_cases hstatus : service.status (toHex packet.senderID) = some false
      · obtain ⟨handshakeData, service', -, hout⟩ :=
          outcome_processNoiseIdentityAnnouncePacket_of_pending hforeign hlt hstatus
        have hown' : stringToVector
            { node with noiseService := some service' }.data.peerID = .ok ownID := hown
        rw [result, hout, outcome_sendOwn_ok hown']
        exact iff_of_true rfl fun h => h.2 hstatus
      · obtain ⟨what, hout⟩ :=
          outcome_processNoiseIdentityAnnouncePacket_error hforeign hlt hstatus
        rw [result, hout]
        exact iff_of_false (fun h => by cases h) fun h => h ⟨hlt, hstatus⟩
    · rw [result, outcome_processNoiseIdentityAnnouncePacket_of_ge hforeign hlt]
      exact iff_of_true rfl fun h => hlt h.1
  · refine iff_of_true (result_eq_of_outcome (hskip _)) ?_
    rintro ⟨service, h, -⟩
    exact hnot service h

/-- The handler of the packet fails. -/
def Unhandled (node : Node) (packet : BitchatPacket) : Prop :=
  packet.type = pktTypeVersionHello ∧ packet.payload ≠ [] ∧ LacksPreferred packet.payload ∨
  packet.type = pktTypeVersionAck ∧ (packet.payload.length = 1 ∨ packet.payload.length = 2) ∨
  packet.type = pktTypeMessage ∧ CutMessage packet.payload ∨
  packet.type = pktTypeChannelAnnounce ∧ packet.payload.length < 2 ∨
  packet.type = pktTypeNoiseEncrypted ∧ (∃ service, IsForeign node packet service ∧
    (service.hasEstablishedSession (toHex packet.senderID) = false ∨
      CutMessage packet.payload)) ∨
  packet.type = pktTypeNoiseIdentityAnnounce ∧ (∃ service, IsForeign node packet service ∧
    node.data.peerID < toHex packet.senderID ∧
    service.status (toHex packet.senderID) ≠ some false)

theorem unhandled_iff : Unhandled node packet ↔
    if packet.type = pktTypeVersionHello then
      packet.payload ≠ [] ∧ LacksPreferred packet.payload
    else if packet.type = pktTypeVersionAck then
      packet.payload.length = 1 ∨ packet.payload.length = 2
    else if packet.type = pktTypeMessage then CutMessage packet.payload
    else if packet.type = pktTypeChannelAnnounce then packet.payload.length < 2
    else if packet.type = pktTypeNoiseEncrypted then ∃ service, IsForeign node packet service ∧
      (service.hasEstablishedSession (toHex packet.senderID) = false ∨ CutMessage packet.payload)
    else if packet.type = pktTypeNoiseIdentityAnnounce then
      ∃ service, IsForeign node packet service ∧ node.data.peerID < toHex packet.senderID ∧
        service.status (toHex packet.senderID) ≠ some false
    else False := by
  unfold Unhandled
  split_ifs with hhello hack hmessage hchannel hencrypted hidentity
  · simp [hhello, pktTypeVersionHello, pktTypeVersionAck, pktTypeMessage, pktTypeChannelAnnounce,
      pktTypeNoiseEncrypted, pktTypeNoiseIdentityAnnounce]
  · simp [hack, pktTypeVersionHello, pktTypeVersionAck, pktTypeMessage, pktTypeChannelAnnounce, pktTypeNoiseEncrypted,
      pktTypeNoiseIdentityAnnounce]
  · simp [hmessage, pktTypeVersionHello, pktTypeVersionAck, pktTypeMessage, pktTypeChannelAnnounce,
      pktTypeNoiseEncrypted, pktTypeNoiseIdentityAnnounce]
  · simp [hchannel, pktTypeVersionHello, pktTypeVersionAck, pktTypeMessage, pktTypeChannelAnnounce,
      pktTypeNoiseEncrypted, pktTypeNoiseIdentityAnnounce]
  · simp [hencrypted, pktTypeVersionHello, pktTypeVersionAck, pktTypeMessage, pktTypeChannelAnnounce,
      pktTypeNoiseEncrypted, pktTypeNoiseIdentityAnnounce]
  · simp [hidentity, pktTypeVersionHello, pktTypeVersionAck, pktTypeMessage, pktTypeChannelAnnounce,
      pktTypeNoiseEncrypted, pktTypeNoiseIdentityAnnounce]
  · simp [hhello, hack, hmessage, hchannel, hencrypted, hidentity]

theorem result_dispatch_iff (hknows : KnowsItself node) (peripheralID : Bytes) :
    (dispatch packet peripheralID).result node = .ok ⟨⟩ ↔ ¬ Unhandled node packet := by
  rw [unhandled_iff, dispatch]
  by_cases hhello : packet.type = pktTypeVersionHello
  · rw [if_pos hhello, if_pos hhello]
    exact result_processVersionHelloPacket_iff hknows
  rw [if_neg hhello, if_neg hhello]
  by_cases hack : packet.type = pktTypeVersionAck
  · rw [if_pos hack, if_pos hack]
    exact result_processVersionAckPacket_iff
  rw [if_neg hack, if_neg hack]
  by_cases hmessage : packet.type = pktTypeMessage
  · rw [if_pos hmessage, if_pos hmessage]
    exact result_processMessagePacket_iff
  rw [if_neg hmessage, if_neg hmessage]
  by_cases hchannel : packet.type = pktTypeChannelAnnounce
  · rw [if_pos hchannel, if_pos hchannel]
    exact result_processChannelAnnouncePacket_iff
  rw [if_neg hchannel, if_neg hchannel]
  by_cases hannounce : packet.type = pktTypeAnnounce
  · have hhandled := (succeeds_processAnnouncePacket ofPeerID_true packet peripheralID).result
      (s := node) trivial
    rw [if_pos hannounce, hhandled, hannounce]
    exact iff_of_true rfl not_false
  rw [if_neg hannounce]
  by_cases hleave : packet.type = pktTypeLeave
  · have hhandled := (succeeds_processLeavePacket ofPeerID_true packet).result (s := node) trivial
    rw [if_pos hleave, hhandled, hleave]
    exact iff_of_true rfl not_false
  rw [if_neg hleave]
  by_cases hinit : packet.type = pktTypeNoiseHandshakeInit
  · rw [if_pos hinit, result_processNoiseHandshakeInitPacket hknows, hinit]
    exact iff_of_true rfl not_false
  rw [if_neg hinit]
  by_cases hresp : packet.type = pktTypeNoiseHandshakeResp
  · rw [if_pos hresp, result_processNoiseHandshakeRespPacket, hresp]
    exact iff_of_true rfl not_false
  rw [if_neg hresp]
  by_cases hencrypted : packet.type = pktTypeNoiseEncrypted
  · rw [if_pos hencrypted, if_pos hencrypted]
    exact result_processNoiseEncryptedPacket_iff
  rw [if_neg hencrypted, if_neg hencrypted]
  by_cases hidentity : packet.type = pktTypeNoiseIdentityAnnounce
  · rw [if_pos hidentity, if_pos hidentity]
    exact result_processNoiseIdentityAnnouncePacket_iff hknows
  rw [if_neg hidentity, if_neg hidentity]
  exact iff_of_true rfl not_false

theorem peerID_markMessageProcessed (data : BitchatData) (key : Bytes) :
    (data.markMessageProcessed key).peerID = data.peerID := by
  rw [BitchatData.markMessageProcessed_eq]

theorem peerID_marked : (marked node packet).data.peerID = node.data.peerID :=
  peerID_markMessageProcessed _ _

theorem isForeign_marked {service : NoiseService} :
    IsForeign (marked node packet) packet service ↔ IsForeign node packet service := by
  have hpeerID : (marked node packet).data.peerID = node.data.peerID := peerID_marked
  constructor
  · exact fun h => ⟨h.noise, hpeerID ▸ h.sender⟩
  · exact fun h => ⟨h.noise, hpeerID.symm ▸ h.sender⟩

theorem knowsItself_marked : KnowsItself (marked node packet) ↔ KnowsItself node := by
  rw [KnowsItself, KnowsItself, peerID_marked]

theorem unhandled_marked : Unhandled (marked node packet) packet ↔ Unhandled node packet := by
  simp only [Unhandled, isForeign_marked, peerID_marked]

/-- A packet makes `processPacket` fail exactly if it is new and its handler fails on it. -/
theorem processPacket_returns_iff (node : Node) (ownID : Bytes)
    (hown : node.data.peerID = toHex ownID) (packet : BitchatPacket) (peripheralID : Bytes) :
    (processPacket packet peripheralID).result node = .ok ⟨⟩ ↔
      ¬ (Passes node packet ∧ Unhandled node packet) := by
  by_cases hpass : Passes node packet
  · have hknows : KnowsItself (marked node packet) := by
      refine knowsItself_marked.mpr ⟨ownID, ?_⟩
      rw [hown, stringToVector_toHex]
    rw [result, outcome_processPacket_of_passes hpass, and_iff_right hpass, ← unhandled_marked]
    exact result_dispatch_iff hknows peripheralID
  · rw [result, outcome_processPacket_of_not_passes hpass]
    exact iff_of_true rfl fun h => hpass h.1

def startedNode : Node where
  data := { peerID := toHex [1, 2, 3, 4, 5, 6, 7, 8], nickname := [0x61] }
  noiseService := some { localStaticKey := Vector.replicate 32 7 }
  clock _ := 1700000000000000000

def encryptedByStranger : BitchatPacket :=
  { BitchatPacket.make pktTypeNoiseEncrypted [0x68, 0x69] 1700000000000 with
    senderID := [8, 7, 6, 5, 4, 3, 2, 1] }

/-- An encrypted packet of a peer without a session throws. -/
theorem encryptedByStranger_throws :
    startedNode.data.peerID = toHex [1, 2, 3, 4, 5, 6, 7, 8] ∧
      startedNode.noiseService.isSome = true ∧
      (processPacket encryptedByStranger []).result startedNode =
        .error (.runtimeError (ascii "No session found for peer: 0807060504030201")) := by
  decide +kernel

theorem processPacket_returns_iff_encryptedByStranger :
    (processPacket encryptedByStranger []).result startedNode = .ok ⟨⟩ ↔
      ¬ (Passes startedNode encryptedByStranger ∧ Unhandled startedNode encryptedByStranger) :=
  processPacket_returns_iff startedNode [1, 2, 3, 4, 5, 6, 7, 8] rfl encryptedByStranger []

end Bitchat.MessageService
