import Bitchat.PeerNotifications
import Bitchat.VersionNegotiation

/-!
# Malformed payloads

A parser that returns early has assigned some of the caller's variables, and the handlers go
on with what they find there. What is left of a malformed payload is a function of its bytes,
and so is what the handlers do with it.
-/

namespace Bitchat.PacketSerializer

open ByteCursor

variable {payload : Bytes} {offset offset' : ℕ}

theorem rejected_of_parse {ack : ParsedVersionAck} (hlen : 3 ≤ payload.length)
    (h : parseVersionAckPayload payload = .ok ack) :
    ack.rejected = some (payload.getD 0 0 &&& 0x01 != 0) := by
  rw [parseVersionAckPayload, parseVersionAckPayloadInto, if_neg (by omega)] at h
  obtain ⟨offset', hread⟩ := run'_ok h
  exact rejected_of_readVersionAck (by omega) hread

theorem channelAnnounce_of_error {announce : ChannelAnnounce}
    (h : parseChannelAnnouncePayload payload = .ok announce) (herror : announce.error ≠ none) :
    payload.length < 2 ∨ (∃ joining, announce.joining = some joining) ∧ announce.channel = [] := by
  rw [parseChannelAnnouncePayload] at h
  split_ifs at h with hshort
  · exact .inl hshort
  · obtain ⟨offset', hread⟩ := run'_ok h
    obtain ⟨flag, o₁, -, hread⟩ := run_bind_ok hread
    obtain ⟨channel, o₂, -, hread⟩ := run_bind_ok hread
    cases channel with
    | none =>
        cases hread
        exact .inr ⟨⟨_, rfl⟩, rfl⟩
    | some channel =>
        cases hread
        exact (herror rfl).elim

theorem message_of_readFields {flags flags' : UInt8} {message : BitchatMessage}
    {parsed : ParsedMessage}
    (h : (readFields payload flags message).run offset = .ok ((flags', parsed), offset')) :
    parsed.message.isPrivate = message.isPrivate ∧ parsed.message.channel = message.channel ∧
      parsed.message.recipientNickname = message.recipientNickname := by
  obtain ⟨id, o₁, -, h⟩ := run_bind_ok h
  cases id with
  | none =>
      cases h
      exact ⟨rfl, rfl, rfl⟩
  | some id =>
      obtain ⟨sender, o₂, -, h⟩ := run_bind_ok h
      cases sender with
      | none =>
          cases h
          exact ⟨rfl, rfl, rfl⟩
      | some sender =>
          obtain ⟨content, o₃, -, h⟩ := run_bind_ok h
          cases content with
          | none =>
              cases h
              exact ⟨rfl, rfl, rfl⟩
          | some content =>
              dsimp only at h
              split at h
              · cases h
                exact ⟨rfl, rfl, rfl⟩
              · cases h
                exact ⟨rfl, rfl, rfl⟩

theorem message_of_parse_error {parsed : ParsedMessage}
    (h : parseMessagePayload payload = .ok parsed) (herror : parsed.error ≠ none) :
    parsed.message.isPrivate = decide (13 ≤ payload.length ∧ payload.getD 0 0 &&& 0x02 ≠ 0) ∧
      parsed.message.channel = [] ∧ parsed.message.recipientNickname = [] := by
  rw [parseMessagePayload] at h
  split_ifs at h with hshort
  · cases h
    exact ⟨by simp [hshort], rfl, rfl⟩
  · obtain ⟨offset', hread⟩ := run'_ok h
    obtain ⟨⟨flags, mandatory⟩, o₁, hmandatory, hread⟩ := run_bind_ok hread
    obtain ⟨flags', message, hrun, hprivate, hchannel, hrecipient⟩ :=
      readMandatory_run (Nat.le_of_not_lt hshort)
    rw [hrun] at hmandatory
    obtain ⟨hprivate', hchannel', hrecipient'⟩ := message_of_readFields hmandatory
    dsimp only at hread
    split at hread
    · cases hread
      refine ⟨?_, hchannel'.trans hchannel, hrecipient'.trans hrecipient⟩
      rw [hprivate', hprivate]
      simp [Nat.le_of_not_lt hshort, bne, Bool.beq_eq_decide_eq]
    · obtain ⟨read, o₂, -, hread⟩ := run_bind_ok hread
      cases hread
      exact (herror rfl).elim

end Bitchat.PacketSerializer

namespace Bitchat.MessageService

open Effect ByteCursor StringHelper PacketSerializer ProtocolHelper

theorem shouldAddToHistory_of_unaddressed {message : BitchatMessage}
    (hchannel : message.channel = []) (hrecipient : message.recipientNickname = [])
    (data : BitchatData) : shouldAddToHistory data message = true ↔
      data.currentChannel = [] ∨ message.isPrivate = true ∧ data.nickname = [] := by
  rw [shouldAddToHistory, hchannel, hrecipient]
  by_cases hcurrent : data.currentChannel = []
  · simp [hcurrent]
  · have hempty : ([] : Bytes) ≠ data.currentChannel := Ne.symm hcurrent
    have hnickname : ([] : Bytes) = data.nickname ↔ data.nickname = [] := eq_comm
    simp [hcurrent, hempty, hnickname]

/-- A malformed message is dropped if it is the node's own, or if a channel is open and it is
not marked as private for a node without a nickname. -/
theorem malformed_message_dropped_iff (node : Node) {packet : BitchatPacket}
    {parsed : ParsedMessage} (hparse : parseMessagePayload packet.payload = .ok parsed)
    (herror : parsed.error ≠ none) :
    (((processMessagePacket packet).exec node).data.messageHistory = node.data.messageHistory ∧
        ¬ Delivers node packet) ↔
      toHex packet.senderID = node.data.peerID ∨ node.data.currentChannel ≠ [] ∧
        ¬ (13 ≤ packet.payload.length ∧ packet.payload.getD 0 0 &&& 0x02 ≠ 0 ∧
          node.data.nickname = []) := by
  obtain ⟨hprivate, hchannel, hrecipient⟩ := message_of_parse_error hparse herror
  have haccepts : Accepts node packet parsed.message ↔ ¬ (toHex packet.senderID = node.data.peerID ∨
      node.data.currentChannel ≠ [] ∧ ¬ (13 ≤ packet.payload.length ∧
        packet.payload.getD 0 0 &&& 0x02 ≠ 0 ∧ node.data.nickname = [])) := by
    rw [Accepts, shouldAddToHistory_of_unaddressed hchannel hrecipient, hprivate,
      decide_eq_true_iff]
    tauto
  rw [delivers_iff node hparse, ← not_iff_not, ← haccepts]
  constructor
  · intro h
    by_contra hnot
    refine h ⟨?_, hnot⟩
    rw [exec, outcome_processMessagePacket node hparse, receptionData, if_neg hnot]
  · exact fun h hdropped => hdropped.2 h

/-- Twelve bytes are too few for a message, and the default chat is given an empty one. -/
theorem short_message_delivered :
    (∃ parsed, parseMessagePayload (List.replicate 12 0) = .ok parsed ∧ parsed.error ≠ none) ∧
      Delivers bystander { secretPacket with payload := List.replicate 12 0 } := by
  have hparse : parseMessagePayload (List.replicate 12 0) = .ok ⟨{}, some .payloadTooSmall⟩ :=
    if_pos (by rw [List.length_replicate]; decide)
  refine ⟨⟨_, hparse, by decide⟩, (delivers_iff bystander hparse).mpr ?_⟩
  decide +kernel

theorem short_message_dropped :
    let channelMember := { bystander with data := bystander.data.setCurrentChannel [0x23, 0x61] }
    let packet := { secretPacket with payload := List.replicate 12 0 }
    ((processMessagePacket packet).exec channelMember).data.messageHistory =
        channelMember.data.messageHistory ∧ ¬ Delivers channelMember packet := by
  intro channelMember packet
  have hparse : parseMessagePayload packet.payload = .ok ⟨{}, some .payloadTooSmall⟩ :=
    if_pos (by rw [show packet.payload = List.replicate 12 0 from rfl]; decide)
  exact (malformed_message_dropped_iff channelMember hparse (by decide)).mpr
    (.inr ⟨by decide, fun h => absurd h.1 (by decide)⟩)

def AcceptsVersion (packet : BitchatPacket) : Prop :=
  packet.type = pktTypeVersionAck ∧
    ∃ ack, parseVersionAckPayload packet.payload = .ok ack ∧ ack.rejected = some false

/-- The peers stay, no version is accepted, no callback is called, and neither of the two flags
is used without a value. -/
structure LeavesNoTrace (m : ServiceM Unit) (node : Node) : Prop where
  peers : (m.exec node).data.peers = node.data.peers
  accepted : ∀ packet, .sent packet ∈ newEvents m node → ¬ AcceptsVersion packet
  reports : ∀ event ∈ newEvents m node, IsReport event = false
  assigned : ∀ flag ∈ [ascii "rejected", ascii "joining"],
    m.result node ≠ .error (.uninitialized flag)

/-- The parser for the payload returns early, and the payload is not empty. -/
def MalformedControl (packet : BitchatPacket) : Prop :=
  packet.payload ≠ [] ∧
    (packet.type = pktTypeVersionHello ∧ (∃ hello,
        parseVersionHelloPayload packet.payload = .ok hello ∧ hello.error ≠ none) ∨
      packet.type = pktTypeVersionAck ∧ (∃ ack,
        parseVersionAckPayload packet.payload = .ok ack ∧ ack.error ≠ none) ∨
      packet.type = pktTypeChannelAnnounce ∧ ∃ announce,
        parseChannelAnnouncePayload packet.payload = .ok announce ∧ announce.error ≠ none)

/-- A version of this node is among those that are there, and the ack is sent or the sender
becomes a peer. -/
def HelloMatters (node : Node) (packet : BitchatPacket) : Prop :=
  4 ≤ packet.payload.length ∧
    (∃ version ∈ (packet.payload.drop 2).take (packet.payload.getD 1 0).toNat,
      version ∈ getSupportedVersions) ∧
    KnowsItself node ∧ (node.connected = true ∨ toHex packet.senderID ∉ peerIDs node)

/-- The flag is not there, or it rejects and somebody takes notice. -/
def AckMatters (node : Node) (packet : BitchatPacket) : Prop :=
  packet.payload.length < 3 ∨ packet.payload.getD 0 0 &&& 0x01 ≠ 0 ∧
    (node.callbacks.peerDisconnected = true ∨ toHex packet.senderID ∈ peerIDs node)

/-- The flag is not there, or the sender is in a channel. -/
def ChannelMatters (node : Node) (packet : BitchatPacket) : Prop :=
  packet.payload.length < 2 ∨
    ∃ peer, node.data.getPeerInfo (toHex packet.senderID) = some peer ∧ peer.channel ≠ []

variable {node : Node} {packet : BitchatPacket}

theorem acceptsVersion_ackPacket_iff (ownID recipientID : Bytes) (supportedVersions : Bytes) :
    AcceptsVersion (ackPacket node ownID recipientID (answer supportedVersions)) ↔
      ∃ version ∈ supportedVersions, version ∈ getSupportedVersions := by
  have hparse := parse_ackPayload (answer supportedVersions)
  have hrejected : (answer supportedVersions).rejected = false ↔
      ∃ version ∈ supportedVersions, version ∈ getSupportedVersions := by
    rw [← negotiateVersion_pos_iff, answer]
    split_ifs with hagreed
    · exact iff_of_true rfl hagreed
    · exact iff_of_false (by simp) hagreed
  rw [← hrejected]
  constructor
  · rintro ⟨-, ack, hack, hfalse⟩
    obtain rfl := Except.ok.inj (hparse.symm.trans hack)
    exact Option.some.inj hfalse
  · exact fun hfalse => ⟨rfl, _, hparse, congrArg some hfalse⟩

/-- A node that does not know its own ID fails over every hello, and does nothing else. -/
theorem outcome_answerVersionHello_error (hknows : ¬ KnowsItself node) (sender : Bytes)
    (hello : VersionHello) :
    ∃ message, (answerVersionHello (toHex sender) hello).outcome node =
      (.error (.invalidArgument message), { node with clockReads := node.clockReads + 1 }) := by
  rw [answerVersionHello]
  split_ifs with hagreed
  · obtain ⟨message, hout⟩ := outcome_sendVersionAck_error hknows _ (toHex sender)
    exact ⟨message, outcome_bind_error hout _⟩
  · exact outcome_sendVersionAck_error hknows _ _

/-- The only variable without a value that a hello is handled with is the preferred version. -/
theorem result_handleVersionHello (hdata : packet.payload ≠ []) {flag : Bytes}
    (hflag : flag ≠ ascii "preferredVersion") :
    (handleVersionHello (toHex packet.senderID) packet.payload).result node ≠
      .error (.uninitialized flag) := by
  obtain ⟨hello, hparse⟩ := parseVersionHelloPayload_ok packet.payload
  rw [result, handleVersionHello_of_parse hdata hparse]
  by_cases hknows : KnowsItself node
  · have hanswer := (succeeds_answerVersionHello packet.senderID hello).result hknows
    rw [← result, result_bind_assigned hanswer]
    cases hello.preferredVersion with
    | some version => exact fun h => by cases h
    | none => exact fun h => hflag (Fault.uninitialized.inj (Except.error.inj h)).symm
  · obtain ⟨message, hout⟩ := outcome_answerVersionHello_error hknows packet.senderID hello
    rw [outcome_bind_error hout]
    exact fun h => by cases h

theorem peers_handleVersionHello_iff {hello : VersionHello} (hdata : packet.payload ≠ [])
    (hparse : parseVersionHelloPayload packet.payload = .ok hello) :
    ((handleVersionHello (toHex packet.senderID) packet.payload).exec node).data.peers =
        node.data.peers ↔
      ¬ ((∃ version ∈ hello.supportedVersions, version ∈ getSupportedVersions) ∧
        KnowsItself node ∧ toHex packet.senderID ∉ peerIDs node) := by
  by_cases hknows : KnowsItself node
  · have hown := hknows
    obtain ⟨ownID, hown⟩ := hown
    rw [← negotiateVersion_pos_iff, exec_handleVersionHello hdata hparse, exec,
      answerVersionHello]
    split_ifs with hagreed
    · rw [outcome_bind_ok (outcome_sendVersionAck_ok hown _ packet.senderID),
        outcome_bind_ok (outcome_get _)]
      dsimp only
      split_ifs with hfound
      · exact iff_of_true rfl fun h => h.2.2 (mem_peerIDs_iff.mpr hfound)
      · rw [outcome_bind_ok (outcome_currentTime _)]
        refine iff_of_false (fun hsame => hfound ?_) fun h =>
          h ⟨hagreed, hknows, fun hmem => hfound (mem_peerIDs_iff.mp hmem)⟩
        have hstored : toHex packet.senderID ∈ peerIDs node := by
          rw [peerIDs, ← hsame]
          exact mem_map_peerID_storePeer.mpr (.inl rfl)
        exact mem_peerIDs_iff.mp hstored
    · rw [outcome_sendVersionAck_ok hown]
      exact iff_of_true rfl fun h => hagreed h.1
  · obtain ⟨message, hout⟩ := outcome_answerVersionHello_error hknows packet.senderID hello
    rw [exec_handleVersionHello hdata hparse, exec, hout]
    exact iff_of_true rfl fun h => hknows h.2.1

theorem accepted_handleVersionHello_iff {hello : VersionHello} (hdata : packet.payload ≠ [])
    (hparse : parseVersionHelloPayload packet.payload = .ok hello) :
    (∀ ack, .sent ack ∈ newEvents (handleVersionHello (toHex packet.senderID) packet.payload)
        node → ¬ AcceptsVersion ack) ↔
      ¬ ((∃ version ∈ hello.supportedVersions, version ∈ getSupportedVersions) ∧
        KnowsItself node ∧ node.connected = true) := by
  rcases newEvents_handleVersionHello node hdata hparse packet.senderID with
    ⟨ownID, hown, hevents⟩ | ⟨hunknown, hevents⟩
  · rw [hevents, ← acceptsVersion_ackPacket_iff ownID packet.senderID]
    constructor
    · rintro h ⟨haccepts, -, hconnected⟩
      exact h _ (mem_notification_iff.mpr ⟨hconnected, rfl⟩) haccepts
    · intro h ack hack haccepts
      obtain ⟨hconnected, hack⟩ := mem_notification_iff.mp hack
      obtain rfl := Event.sent.inj hack
      exact h ⟨haccepts, ⟨ownID, hown⟩, hconnected⟩
  · rw [hevents]
    exact iff_of_true (fun ack hack => absurd hack List.not_mem_nil) fun h => hunknown h.2.1

theorem reports_handleVersionHello (hdata : packet.payload ≠ []) {event : Event}
    (h : event ∈ newEvents (handleVersionHello (toHex packet.senderID) packet.payload) node) :
    IsReport event = false := by
  obtain ⟨hello, hparse⟩ := parseVersionHelloPayload_ok packet.payload
  rcases newEvents_handleVersionHello node hdata hparse packet.senderID with
    ⟨ownID, -, hevents⟩ | ⟨-, hevents⟩
  · rw [hevents, mem_notification_iff] at h
    rw [h.2]
    rfl
  · rw [hevents] at h
    cases h

/-- A hello leaves no trace unless a version of this node is among those it was read to have. -/
theorem leavesNoTrace_versionHello_iff (hdata : packet.payload ≠ []) :
    LeavesNoTrace (processVersionHelloPacket packet) node ↔ ¬ HelloMatters node packet := by
  obtain ⟨hello, hparse⟩ := parseVersionHelloPayload_ok packet.payload
  have hversions := (versionHello_of_parse hparse).1
  have hmatters : HelloMatters node packet ↔
      (∃ version ∈ hello.supportedVersions, version ∈ getSupportedVersions) ∧
        KnowsItself node ∧ (node.connected = true ∨ toHex packet.senderID ∉ peerIDs node) := by
    rw [HelloMatters, hversions]
    split_ifs with hshort
    · exact iff_of_false (fun h => absurd h.1 (by omega)) fun h => by simp at h
    · rw [and_iff_right (by omega)]
  rw [processVersionHelloPacket_eq, hmatters]
  constructor
  · rintro h ⟨hcommon, hknows, hconnected | hnew⟩
    · exact (accepted_handleVersionHello_iff hdata hparse).mp h.accepted
        ⟨hcommon, hknows, hconnected⟩
    · exact (peers_handleVersionHello_iff hdata hparse).mp h.peers ⟨hcommon, hknows, hnew⟩
  · intro h
    refine ⟨(peers_handleVersionHello_iff hdata hparse).mpr ?_,
      (accepted_handleVersionHello_iff hdata hparse).mpr ?_,
      fun event => reports_handleVersionHello hdata, fun flag hflag => ?_⟩
    · rintro ⟨hcommon, hknows, hnew⟩
      exact h ⟨hcommon, hknows, .inr hnew⟩
    · rintro ⟨hcommon, hknows, hconnected⟩
      exact h ⟨hcommon, hknows, .inl hconnected⟩
    · refine result_handleVersionHello hdata fun hname => ?_
      subst hname
      exact absurd hflag (by decide)

theorem leavesNoTrace_iff_of_quiet {m : ServiceM Unit} (hevents : newEvents m node = [])
    (hresult : m.result node = .ok ⟨⟩) :
    LeavesNoTrace m node ↔ (m.exec node).data.peers = node.data.peers := by
  refine ⟨LeavesNoTrace.peers, fun hpeers => ⟨hpeers, ?_, ?_, ?_⟩⟩
  · rw [hevents]
    exact fun packet hpacket => absurd hpacket List.not_mem_nil
  · rw [hevents]
    exact fun event hevent => absurd hevent List.not_mem_nil
  · rw [hresult]
    exact fun _ _ h => by cases h

theorem newEvents_handleVersionAck {ack : ParsedVersionAck} {rejected : Bool}
    (hdata : packet.payload ≠ []) (hparse : parseVersionAckPayload packet.payload = .ok ack)
    (hrejected : ack.rejected = some rejected) (node : Node) (sender : Bytes) :
    newEvents (handleVersionAck sender packet.payload) node =
      notification (rejected && node.callbacks.peerDisconnected) (.peerDisconnected sender) := by
  rw [newEvents, exec, outcome_handleVersionAck hdata hparse hrejected]
  cases rejected with
  | true => exact List.drop_left
  | false => exact List.drop_length

theorem peers_handleVersionAck_iff {ack : ParsedVersionAck} {rejected : Bool}
    (hdata : packet.payload ≠ []) (hparse : parseVersionAckPayload packet.payload = .ok ack)
    (hrejected : ack.rejected = some rejected) (node : Node) (sender : Bytes) :
    ((handleVersionAck sender packet.payload).exec node).data.peers = node.data.peers ↔
      ¬ (rejected = true ∧ sender ∈ peerIDs node) := by
  rw [exec, outcome_handleVersionAck hdata hparse hrejected]
  cases rejected with
  | true =>
      rw [if_pos rfl, and_iff_right rfl]
      exact peers_removePeer_iff
  | false => exact iff_of_true rfl fun h => absurd h.1 Bool.false_ne_true

/-- An ack leaves no trace unless it rejects and somebody takes notice. -/
theorem leavesNoTrace_versionAck_iff (hdata : packet.payload ≠ []) :
    LeavesNoTrace (processVersionAckPacket packet) node ↔ ¬ AckMatters node packet := by
  rw [processVersionAckPacket_eq]
  by_cases hshort : packet.payload.length < 3
  · exact iff_of_false (fun h => h.assigned _ (by simp)
      (result_handleVersionAck_short hdata hshort node _)) fun h => h (.inl hshort)
  · obtain ⟨ack, rejected, hparse, hrejected⟩ :=
      parseVersionAckPayload_ok (Nat.le_of_not_lt hshort)
    have hflag := Option.some.inj
      (hrejected.symm.trans (rejected_of_parse (Nat.le_of_not_lt hshort) hparse))
    have hevents := newEvents_handleVersionAck hdata hparse hrejected node (toHex packet.senderID)
    have hpeers := peers_handleVersionAck_iff hdata hparse hrejected node (toHex packet.senderID)
    rw [AckMatters, or_iff_right hshort, ← bne_iff_ne, ← hflag]
    constructor
    · rintro h ⟨hreject, hregistered | hknown⟩
      · have hreport := h.reports (.peerDisconnected (toHex packet.senderID)) (by
          rw [hevents, hreject, Bool.true_and]
          exact mem_notification_iff.mpr ⟨hregistered, rfl⟩)
        cases hreport
      · exact hpeers.mp h.peers ⟨hreject, hknown⟩
    · intro h
      have hquiet : ¬ (rejected && node.callbacks.peerDisconnected) = true := by
        intro hregistered
        obtain ⟨hreject, hregistered⟩ := Bool.and_eq_true_iff.mp hregistered
        exact h ⟨hreject, .inl hregistered⟩
      rw [notification, if_neg hquiet] at hevents
      have hresult := result_eq_of_outcome (outcome_handleVersionAck hdata hparse hrejected node
        (toHex packet.senderID))
      rw [leavesNoTrace_iff_of_quiet hevents hresult, hpeers]
      exact fun hremoved => h ⟨hremoved.1, .inr hremoved.2⟩

/-- A malformed announce leaves no trace unless it takes the sender out of its channel. -/
theorem leavesNoTrace_channelAnnounce_iff {announce : ChannelAnnounce}
    (hparse : parseChannelAnnouncePayload packet.payload = .ok announce)
    (herror : announce.error ≠ none) :
    LeavesNoTrace (processChannelAnnouncePacket packet) node ↔ ¬ ChannelMatters node packet := by
  by_cases hshort : packet.payload.length < 2
  · exact iff_of_false (fun h => h.assigned _ (by simp)
      (result_processChannelAnnouncePacket_short hshort)) fun h => h (.inl hshort)
  · obtain ⟨⟨joining, hjoining⟩, hchannel⟩ :=
      (channelAnnounce_of_error hparse herror).resolve_left hshort
    have hout := outcome_processChannelAnnouncePacket hparse hjoining node
    rw [hchannel, ite_self] at hout
    have hquiet : newEvents (processChannelAnnouncePacket packet) node = [] := by
      rw [newEvents, exec, hout]
      cases node.data.getPeerInfo (toHex packet.senderID) with
      | none => exact List.drop_length
      | some peerInfo => exact List.drop_length
    rw [leavesNoTrace_iff_of_quiet hquiet (result_eq_of_outcome hout), ChannelMatters,
      or_iff_right hshort, exec, hout]
    cases hpeer : node.data.getPeerInfo (toHex packet.senderID) with
    | none => exact iff_of_true rfl fun h => by simp at h
    | some peerInfo =>
        have hstored : (node.data.updatePeer { peerInfo with channel := [] }).peers =
            node.data.peers ↔ { peerInfo with channel := [] } = peerInfo := by
          rw [← BitchatData.peerID_of_getPeerInfo hpeer, BitchatData.getPeerInfo_eq] at hpeer
          rw [BitchatData.updatePeer, BitchatData.storePeer_eq]
          exact KeyedList.store_eq_self_iff hpeer
        refine hstored.trans ⟨?_, fun h => ?_⟩
        · rintro hsame ⟨peer, hfound, hchannel⟩
          obtain rfl := Option.some.inj hfound
          exact hchannel (congrArg BitchatPeer.channel hsame).symm
        · have hnone : peerInfo.channel = [] := by
            by_contra hchannel
            exact h ⟨peerInfo, rfl, hchannel⟩
          rw [← hnone]

/-- The malformed payloads that are not ignored. -/
def Matters (node : Node) (packet : BitchatPacket) : Prop :=
  packet.type = pktTypeVersionHello ∧ HelloMatters node packet ∨
    packet.type = pktTypeVersionAck ∧ AckMatters node packet ∨
      packet.type = pktTypeChannelAnnounce ∧ ChannelMatters node packet

/-- A malformed control payload is ignored unless enough of it was read: the versions of a
hello, the flag of an ack or the flag of an announce; or the flag itself is missing. -/
theorem malformed_control_ignored_iff (node : Node) (packet : BitchatPacket)
    (peripheralID : Bytes) (h : MalformedControl packet) :
    LeavesNoTrace (dispatch packet peripheralID) node ↔ ¬ Matters node packet := by
  obtain ⟨hdata, ⟨htype, -⟩ | ⟨htype, -⟩ | ⟨htype, announce, hparse, herror⟩⟩ := h
  · rw [dispatch_versionHello htype, leavesNoTrace_versionHello_iff hdata, Matters, htype]
    simp [pktTypeVersionHello, pktTypeVersionAck, pktTypeChannelAnnounce]
  · rw [dispatch_versionAck htype, leavesNoTrace_versionAck_iff hdata, Matters, htype]
    simp [pktTypeVersionHello, pktTypeVersionAck, pktTypeChannelAnnounce]
  · rw [dispatch_channelAnnounce htype, leavesNoTrace_channelAnnounce_iff hparse herror, Matters,
      htype]
    simp [pktTypeVersionHello, pktTypeVersionAck, pktTypeChannelAnnounce]

/-- An ack that ends within the version of the server. -/
theorem truncated_ack_ignored :
    LeavesNoTrace (dispatch (BitchatPacket.make pktTypeVersionAck [0, 1, 5] 0) []) bystander := by
  refine (malformed_control_ignored_iff bystander _ [] ?_).mpr ?_
  · exact ⟨by decide, .inr (.inl ⟨rfl, _, rfl, by decide +kernel⟩)⟩
  · rintro (⟨htype, -⟩ | ⟨-, hshort | ⟨hrejects, -⟩⟩ | ⟨htype, -⟩)
    · exact absurd htype (by decide)
    · exact absurd hshort (by decide)
    · exact hrejects (by decide)
    · exact absurd htype (by decide)

/-- A hello that ends behind the preferred version is accepted all the same. -/
theorem truncated_hello_accepted :
    let packet := BitchatPacket.make pktTypeVersionHello [0, 1, 1, 1] 0
    MalformedControl packet ∧ ¬ LeavesNoTrace (dispatch packet []) bystander := by
  intro packet
  have hmatters : HelloMatters bystander packet := by
    refine ⟨by decide, ⟨1, by decide, by decide⟩, ⟨[8, 7, 6, 5, 4, 3, 2, 1], ?_⟩, .inl rfl⟩
    exact stringToVector_toHex _
  refine ⟨⟨by decide, .inl ⟨rfl, _, rfl, by decide +kernel⟩⟩, ?_⟩
  rw [dispatch_versionHello rfl, leavesNoTrace_versionHello_iff (by decide), not_not]
  exact hmatters

end Bitchat.MessageService
