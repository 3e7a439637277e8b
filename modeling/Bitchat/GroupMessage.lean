import Bitchat.Deduplication
import Bitchat.EndToEnd
import Bitchat.LocalCalls

/-!
# Messages for everyone in a channel

A public message is broadcast, but encrypted for one session if the sender has any. Every
node of the channel receives the packet, and those without a session with the sender cannot
read it.
-/

namespace Bitchat.MessageService

open Effect StringHelper PacketSerializer CompressionHelper

def messageOf (node : Node) (uuid content channel : Bytes) : BitchatMessage where
  id := uuid
  sender := node.data.nickname
  content := content
  channel := if channel.isEmpty then node.data.currentChannel else channel
  timestamp := timestampAt node node.clockReads

/-- The effect returns and puts the message into the history of the channel. -/
structure Appends (m : ServiceM Unit) (node : Node) (message : BitchatMessage)
    (channel : Bytes) : Prop where
  returns : m.result node = .ok ⟨⟩
  event : .addedToHistory message channel ∈ newEvents m node
  history : (m.exec node).data.messageHistory =
    (node.data.addMessageToHistory message channel).messageHistory

theorem length_optionalBytes (s : Bytes) : min 255 s.length ≤ (optionalBytes s).length := by
  rw [optionalBytes]
  split_ifs with hempty
  · rw [List.isEmpty_iff.mp hempty]
    exact Nat.min_le_right _ _
  · rw [fieldBytes, List.length_append, List.length_take]
    omega

theorem fitsFormat_messageOf {node : Node} {uuid content channel : Bytes} (huuid : uuid ≠ [])
    (hshort : (makeMessagePayload uuid (messageOf node uuid content channel)).length ≤ 100) :
    FitsFormat (messageOf node uuid content channel) := by
  have hchannel := length_optionalBytes (messageOf node uuid content channel).channel
  have hid : (if (messageOf node uuid content channel).id.isEmpty then uuid
      else (messageOf node uuid content channel).id) = uuid := ite_self uuid
  rw [makeMessagePayload_eq, hid] at hshort
  simp only [fieldBytes, List.length_append, List.length_take] at hshort
  constructor
  · exact huuid
  · rfl
  · change uuid.length ≤ 255
    omega
  · omega
  · exact Nat.zero_le _
  · exact Nat.zero_le _
  · omega
  · exact Nat.zero_le _
  · exact Nat.zero_le _
  · exact fun mention hmem => absurd hmem (List.not_mem_nil)

theorem parseMessagePayload_messageOf {node : Node} {uuid content channel : Bytes}
    (huuid : uuid ≠ [])
    (hshort : (makeMessagePayload uuid (messageOf node uuid content channel)).length ≤ 100) :
    parseMessagePayload (makeMessagePayload uuid (messageOf node uuid content channel)) =
      .ok ⟨messageOf node uuid content channel, none⟩ := by
  have hfits := fitsFormat_messageOf huuid hshort
  have hlower := length_makeMessagePayload uuid (messageOf node uuid content channel)
  rw [parseMessagePayload_of_made,
    readMessage_makeMessagePayload uuid hfits.id_ne_nil hfits.isEncrypted hfits.mentions,
    (transmitted_eq_self_iff hfits (by omega)).mpr rfl]

def HasSession (node : Node) : Prop :=
  ∃ service, node.noiseService = some service ∧ service.getEstablishedSessionIDs ≠ []

def TypeFor (sender : Node) (type : UInt8) : Prop :=
  type = pktTypeMessage ∧ ¬ HasSession sender ∨ type = pktTypeNoiseEncrypted ∧ HasSession sender

theorem typeFor_of_encryptCase {message : BitchatMessage} (hpublic : message.isPrivate = false)
    {sender node : Node} {type : UInt8} (h : EncryptCase message sender node type) :
    TypeFor sender type := by
  rcases h with ⟨htype, hnone, -⟩ | ⟨htype, -, service, -, hnoise, hids, -, -⟩
  · refine .inl ⟨htype, fun ⟨service, hnoise, hids⟩ => ?_⟩
    rcases hnone service hnoise with hprivate | hempty
    · exact absurd (hpublic.symm.trans hprivate) Bool.false_ne_true
    · exact hids hempty
  · exact .inr ⟨htype, service, hnoise, hids⟩

theorem trace_of_encryptCase {message : BitchatMessage} {sender node : Node} {type : UInt8}
    (h : EncryptCase message sender node type) :
    node.trace = sender.trace ∧ node.connected = sender.connected := by
  rcases h with ⟨-, -, rfl⟩ | ⟨-, -, service, service', -, -, -, rfl⟩
  · exact ⟨rfl, rfl⟩
  · exact ⟨rfl, rfl⟩

theorem newEvents_sendMessage (lz4 : LZ4) {uuid content channel : Bytes} {sender : Node}
    {senderID : Bytes} (hpeer : sender.data.peerID = toHex senderID)
    (hshort : (makeMessagePayload uuid (messageOf sender uuid content channel)).length ≤ 100) :
    ∃ packet, CarriesPayload packet senderID
        (makeMessagePayload uuid (messageOf sender uuid content channel)) ∧
      packet.version = pktVersion ∧ TypeFor sender packet.type ∧
      newEvents (LocalCall.sendMessage lz4 uuid content channel).perform sender =
        if sender.connected then [.sent packet,
          .addedToHistory (messageOf sender uuid content channel)
            (historyChannel (messageOf sender uuid content channel))]
        else [] := by
  set message := messageOf sender uuid content channel with hmessage
  have hplain : compressData lz4 (makeMessagePayload uuid message) =
      makeMessagePayload uuid message := compressData_of_short lz4 hshort
  have hnew : (newMessage uuid sender.data.nickname content
      (if channel.isEmpty then sender.data.currentChannel else channel)).outcome sender =
        (.ok message, { sender with clockReads := sender.clockReads + 1 }) := rfl
  have hpeer' : ({ sender with clockReads := sender.clockReads + 1 } : Node).data.peerID =
      toHex senderID := hpeer
  obtain ⟨packet, node, hcreate, hcarries, hversion, hcase⟩ := outcome_createMessagePacket lz4 uuid
    message hpeer' (hplain.symm ▸ hshort)
  rw [hplain] at hcarries
  obtain ⟨htrace, hconnected⟩ := trace_of_encryptCase hcase
  have htype : TypeFor { sender with clockReads := sender.clockReads + 1 } packet.type :=
    typeFor_of_encryptCase rfl hcase
  refine ⟨packet, hcarries, hversion, htype, ?_⟩
  rw [newEvents, LocalCall.perform, exec_bind_pure, exec, MessageService.sendMessage,
    outcome_bind_ok (outcome_get sender)]
  dsimp only
  rw [outcome_bind_ok hnew, outcome_bind_ok hcreate, outcome_bind_ok (outcome_sendPacket _ _)]
  dsimp only
  rw [hconnected, htrace]
  cases hc : sender.connected with
  | false =>
      change (sender.trace ++ []).drop sender.trace.length = []
      rw [List.append_nil, List.drop_length]
  | true =>
      change ((sender.trace ++ [Event.sent packet]) ++ [_]).drop sender.trace.length = _
      rw [List.append_assoc, List.drop_left]
      rfl

section Receiver

variable {receiver : Node} {packet : BitchatPacket} {message : BitchatMessage} {channel : Bytes}

theorem Appends.of_outcome {m m' : ServiceM Unit} {node node' : Node}
    (h : Appends m' node' message channel) (hout : m.outcome node = m'.outcome node')
    (htrace : node.trace <+: node'.trace)
    (hdata : (node'.data.addMessageToHistory message channel).messageHistory =
      (node.data.addMessageToHistory message channel).messageHistory) :
    Appends m node message channel := by
  have hexec : m.exec node = m'.exec node' := congrArg Prod.snd hout
  refine ⟨(congrArg Prod.fst hout).trans h.returns, ?_, ?_⟩
  · obtain ⟨events, hevents⟩ := htrace
    have hevent := h.event
    rw [newEvents, ← hevents, List.length_append, ← List.drop_drop] at hevent
    rw [newEvents, hexec]
    exact List.mem_of_mem_drop hevent
  · rw [hexec]
    exact h.history.trans hdata

theorem appends_processMessagePacket
    (hparse : parseMessagePayload packet.payload = .ok ⟨message, none⟩)
    (haccepts : Accepts receiver packet message) :
    Appends (processMessagePacket packet) receiver message (historyChannel message) := by
  have hout := outcome_processMessagePacket receiver hparse
  refine ⟨congrArg Prod.fst hout, ?_, ?_⟩
  · rw [newEvents, trace_processMessagePacket receiver hparse, List.drop_left, receptionTrace,
      if_pos haccepts]
    simp
  · rw [exec, hout]
    dsimp only
    rw [receptionData, if_pos haccepts]

theorem history_marked (node : Node) (packet : BitchatPacket) (message : BitchatMessage)
    (channel : Bytes) :
    ((marked node packet).data.addMessageToHistory message channel).messageHistory =
      (node.data.addMessageToHistory message channel).messageHistory := by
  rw [marked, BitchatData.markMessageProcessed_eq]
  rfl

theorem accepts_marked {sender : Node} (hsender : toHex packet.senderID = sender.data.peerID)
    (hdistinct : receiver.data.peerID ≠ sender.data.peerID)
    (hchannel : receiver.data.currentChannel = message.channel) :
    Accepts (marked receiver packet) packet message := by
  rw [Accepts, shouldAddToHistory, marked, BitchatData.markMessageProcessed_eq]
  refine ⟨fun h => hdistinct (h.symm.trans hsender), ?_⟩
  exact if_pos hchannel.symm

theorem appends_processPacket_of_passes (hpass : Passes receiver packet) (peripheralID : Bytes) :
    Appends (processPacket packet peripheralID) receiver message channel ↔
      Appends (dispatch packet peripheralID) (marked receiver packet) message channel := by
  have hout := outcome_processPacket_of_passes hpass peripheralID
  have htrace : receiver.trace <+: (marked receiver packet).trace := List.prefix_append _ _
  refine ⟨fun h => ?_, fun h => h.of_outcome hout htrace (history_marked receiver packet message _)⟩
  have hexec : (processPacket packet peripheralID).exec receiver =
      (dispatch packet peripheralID).exec (marked receiver packet) := congrArg Prod.snd hout
  obtain ⟨events, hevents⟩ :=
    (handlerFrame_dispatch packet peripheralID (marked receiver packet)).trace
  refine ⟨(congrArg Prod.fst hout).symm.trans h.returns, ?_, ?_⟩
  · have hevent := h.event
    rw [newEvents, hexec, ← hevents, marked, List.append_assoc, List.drop_left] at hevent
    rw [newEvents, ← hevents, List.drop_left]
    exact (List.mem_cons.mp hevent).resolve_left Event.noConfusion
  · rw [← hexec, history_marked]
    exact h.history

/-- Exactly with an established session for its sender an encrypted packet can be read. -/
theorem appends_processNoiseEncryptedPacket_iff {service : NoiseService}
    (hforeign : IsForeign receiver packet service) (hpayload : packet.payload ≠ [])
    (hparse : parseMessagePayload packet.payload = .ok ⟨message, none⟩)
    (haccepts : Accepts receiver packet message) :
    Appends (processNoiseEncryptedPacket packet) receiver message (historyChannel message) ↔
      service.hasEstablishedSession (toHex packet.senderID) = true := by
  cases hestablished : service.hasEstablishedSession (toHex packet.senderID) with
  | false =>
      refine iff_of_false (fun h => ?_) Bool.false_ne_true
      obtain ⟨what, herror⟩ := outcome_processNoiseEncryptedPacket_error hforeign hestablished
      have hreturns := h.returns
      rw [result, herror] at hreturns
      cases hreturns
  | true =>
      refine iff_of_true ?_ rfl
      obtain ⟨service', -, hout⟩ := outcome_processNoiseEncryptedPacket hforeign hestablished
      rw [if_neg (by simpa using hpayload)] at hout
      have hparse' : parseMessagePayload (decryptedPacket receiver packet).payload =
        .ok ⟨message, none⟩ := hparse
      have haccepts' : Accepts { withSessions receiver service' with
          clockReads := receiver.clockReads + 2 } (decryptedPacket receiver packet) message :=
        haccepts
      exact (appends_processMessagePacket hparse' haccepts').of_outcome hout List.prefix_rfl rfl

theorem sessionShared_iff {sender : Node} {service service' : NoiseService}
    (hnoise : sender.noiseService = some service) (hids : service.getEstablishedSessionIDs ≠ [])
    (hreceiver : receiver.noiseService = some service') : SessionShared sender receiver ↔
      service'.hasEstablishedSession sender.data.peerID = true := by
  constructor
  · intro h
    obtain ⟨service'', hsome, hestablished⟩ := h service hnoise hids
    cases hreceiver.symm.trans hsome
    exact hestablished
  · exact fun h _ _ _ => ⟨service', hreceiver, h⟩

theorem appends_processPacket_iff {sender : Node} (hpass : Passes receiver packet)
    (htype : TypeFor sender packet.type)
    (hsender : toHex packet.senderID = sender.data.peerID)
    (hdistinct : receiver.data.peerID ≠ sender.data.peerID) (hpayload : packet.payload ≠ [])
    (hparse : parseMessagePayload packet.payload = .ok ⟨message, none⟩)
    (hchannel : receiver.data.currentChannel = message.channel) (peripheralID : Bytes) :
    Appends (processPacket packet peripheralID) receiver message (historyChannel message) ↔
      SessionShared sender receiver := by
  have haccepts := accepts_marked hsender hdistinct hchannel
  rw [appends_processPacket_of_passes hpass]
  rcases htype with ⟨htype, hnone⟩ | ⟨htype, service, hnoise, hids⟩
  · rw [dispatch_message htype]
    exact iff_of_true (appends_processMessagePacket hparse haccepts)
      fun service hnoise hids => (hnone ⟨service, hnoise, hids⟩).elim
  · rw [dispatch_encrypted htype]
    cases hreceiver : receiver.noiseService with
    | none =>
        have hmarked : (marked receiver packet).noiseService = none := hreceiver
        refine iff_of_false (fun h => ?_) fun h => ?_
        · have hevent := h.event
          rw [newEvents, exec, processNoiseEncryptedPacket, outcome_onNoisePacket_of_none hmarked,
            List.drop_length] at hevent
          cases hevent
        · obtain ⟨service', hsome, -⟩ := h service hnoise hids
          cases hreceiver.symm.trans hsome
    | some service' =>
        have hforeign : IsForeign (marked receiver packet) packet service' :=
          ⟨hreceiver, haccepts.1⟩
        rw [sessionShared_iff hnoise hids hreceiver, ← hsender]
        exact appends_processNoiseEncryptedPacket_iff hforeign hpayload hparse haccepts

end Receiver

theorem historyChannel_of_public {message : BitchatMessage} (h : message.isPrivate = false) :
    historyChannel message = message.channel := by
  rw [historyChannel, h, Bool.and_false]
  rfl

/-- A group message reaches another member of the channel exactly if the sender's clock does
not stand at zero, and the sender has no session at all or has one that it shares. -/
theorem group_message_iff (lz4 : LZ4) (dis : ℕ → UInt8) (uuid content channel : Bytes)
    (huuid : uuid ≠ []) (sender receiver : Node) (senderID : Bytes)
    (hpeer : sender.data.peerID = toHex senderID) (hlen : senderID.length = 8)
    (hdistinct : receiver.data.peerID ≠ sender.data.peerID)
    (hshort : (makeMessagePayload uuid (messageOf sender uuid content channel)).length ≤ 100)
    (packet : BitchatPacket)
    (hsent : .sent packet ∈
      newEvents (LocalCall.sendMessage lz4 uuid content channel).perform sender)
    (hchannel : receiver.data.currentChannel = (messageOf sender uuid content channel).channel)
    (hnew : messageID packet ∉ receiver.data.processedMessages) (peripheralID : Bytes) :
    (∃ decoded, deserializePacket lz4 (serializePacket lz4 dis packet) = .ok decoded ∧
        Appends (processPacket decoded.packet peripheralID) receiver
          (messageOf sender uuid content channel) (messageOf sender uuid content channel).channel) ↔
      packet.timestamp ≠ 0 ∧ SessionShared sender receiver := by
  obtain ⟨packet', hcarries, hversion, htype, hevents⟩ :=
    newEvents_sendMessage lz4 hpeer hshort
  obtain rfl : packet = packet' := by
    rw [hevents] at hsent
    split_ifs at hsent
    · simpa using hsent
    · simp at hsent
  have hshortPacket : packet.payload.length ≤ 100 := hcarries.payload ▸ hshort
  have hread := deserializePacket_of_short lz4 dis hcarries.isCompressed hshortPacket
  have hsender : (wireImage lz4 packet).senderID = senderID := by
    change resize packet.senderID 8 = _
    rw [hcarries.senderID, resize_self hlen]
  have hkey : messageID (wireImage lz4 packet) = messageID packet :=
    (messageID_inj _ _).mpr ⟨hsender.trans hcarries.senderID.symm, rfl⟩
  have hvalid : (wireImage lz4 packet).isValid = true ↔ packet.timestamp ≠ 0 := by
    have hlength : (wireImage lz4 packet).payloadLength.toNat = packet.payload.length := by
      rw [wireImage, UInt16.toNat_ofNat', Nat.mod_eq_of_lt (by omega)]
    rw [BitchatPacket.isValid_iff]
    exact ⟨fun h => h.2.2, fun h => ⟨hversion, hlength, h⟩⟩
  have hpass : Passes receiver (wireImage lz4 packet) ↔ packet.timestamp ≠ 0 := by
    rw [Passes, hvalid, hkey]
    exact and_iff_left hnew
  have hexists : (∃ decoded, deserializePacket lz4 (serializePacket lz4 dis packet) = .ok decoded ∧
      Appends (processPacket decoded.packet peripheralID) receiver
        (messageOf sender uuid content channel) (messageOf sender uuid content channel).channel) ↔
      Appends (processPacket (wireImage lz4 packet) peripheralID) receiver
        (messageOf sender uuid content channel)
        (historyChannel (messageOf sender uuid content channel)) := by
    rw [historyChannel_of_public rfl]
    exact exists_decoded_iff hread
  rw [hexists]
  by_cases htime : packet.timestamp ≠ 0
  · rw [and_iff_right htime]
    have hpayload : (wireImage lz4 packet).payload =
      makeMessagePayload uuid (messageOf sender uuid content channel) := hcarries.payload
    have hlower := length_makeMessagePayload uuid (messageOf sender uuid content channel)
    refine appends_processPacket_iff (hpass.mpr htime) htype (hsender ▸ hpeer.symm) hdistinct ?_ ?_
      hchannel peripheralID
    · rw [hpayload]
      exact List.ne_nil_of_length_pos (by omega)
    · rw [hpayload]
      exact parseMessagePayload_messageOf huuid hshort
  · refine iff_of_false (fun h => ?_) fun h => htime h.1
    have hevent := h.event
    rw [newEvents, exec, outcome_processPacket_of_not_passes (mt hpass.mp htime),
      List.drop_length] at hevent
    cases hevent

def member : Node where
  data := { peerID := toHex (List.replicate 8 5), nickname := [0x63], currentChannel := ascii "#a" }
  noiseService := some { localStaticKey := Vector.replicate 32 0 }
  clock _ := 1700000000000000000

def acquainted : Node := connectedNode [1, 2, 3, 4, 5, 6, 7, 8] [8, 7, 6, 5, 4, 3, 2, 1]

def greetingID : Bytes := List.replicate 36 0x30

def groupPacket (type : UInt8) (node : Node) : BitchatPacket :=
  { BitchatPacket.make type
      (makeMessagePayload greetingID (messageOf node greetingID (ascii "hi") (ascii "#a")))
      1700000000000 with
    senderID := [1, 2, 3, 4, 5, 6, 7, 8], flags := flagHasRecipient,
    recipientID := List.replicate 8 0xFF }

/-- The member cannot decrypt the message, and the exception leaves its `processPacket`. -/
theorem group_message_unread :
    (acquainted.data.peerID = toHex [1, 2, 3, 4, 5, 6, 7, 8] ∧
      member.data.peerID ≠ acquainted.data.peerID ∧
      (makeMessagePayload greetingID
        (messageOf acquainted greetingID (ascii "hi") (ascii "#a"))).length ≤ 100 ∧
      .sent (groupPacket pktTypeNoiseEncrypted acquainted) ∈ newEvents (LocalCall.sendMessage
        zerosLZ4 greetingID (ascii "hi") (ascii "#a")).perform acquainted ∧
      member.data.currentChannel =
        (messageOf acquainted greetingID (ascii "hi") (ascii "#a")).channel ∧
      messageID (groupPacket pktTypeNoiseEncrypted acquainted) ∉ member.data.processedMessages) ∧
    ¬ ∃ decoded, deserializePacket zerosLZ4 (serializePacket zerosLZ4 (fun _ => 0xA5)
        (groupPacket pktTypeNoiseEncrypted acquainted)) = .ok decoded ∧
      Appends (processPacket decoded.packet []) member
        (messageOf acquainted greetingID (ascii "hi") (ascii "#a")) (ascii "#a") := by
  refine ⟨by decide +kernel, ?_⟩
  rintro ⟨decoded, hdecoded, happends⟩
  have hread : deserializePacket zerosLZ4 (serializePacket zerosLZ4 (fun _ => 0xA5)
      (groupPacket pktTypeNoiseEncrypted acquainted)) =
        .ok ⟨groupPacket pktTypeNoiseEncrypted acquainted, none⟩ := by decide +kernel
  have hthrows : (processPacket (groupPacket pktTypeNoiseEncrypted acquainted) []).result member =
      .error (.runtimeError (ascii "No session found for peer: 0102030405060708")) := by
    decide +kernel
  have hreturns := happends.returns
  rw [← Except.ok.inj (hread.symm.trans hdecoded), hthrows] at hreturns
  cases hreturns

def newcomer : Node :=
  { acquainted with noiseService := some { localStaticKey := Vector.replicate 32 0 } }

theorem group_message_iff_newcomer :
    (∃ decoded, deserializePacket zerosLZ4 (serializePacket zerosLZ4 (fun _ => 0xA5)
        (groupPacket pktTypeMessage newcomer)) = .ok decoded ∧
      Appends (processPacket decoded.packet []) member
        (messageOf newcomer greetingID (ascii "hi") (ascii "#a")) (ascii "#a")) ↔
      (groupPacket pktTypeMessage newcomer).timestamp ≠ 0 ∧ SessionShared newcomer member :=
  group_message_iff zerosLZ4 (fun _ => 0xA5) greetingID (ascii "hi") (ascii "#a") (by decide)
    newcomer member [1, 2, 3, 4, 5, 6, 7, 8] rfl rfl (by decide) (by decide +kernel)
    (groupPacket pktTypeMessage newcomer) (by decide +kernel) rfl (by decide) []

end Bitchat.MessageService
