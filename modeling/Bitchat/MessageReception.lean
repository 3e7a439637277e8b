import Bitchat.ServiceOutcomes

/-!
# What happens to a received message

`processMessagePacket` is a function of the parsed message: the message is noted, and if it
comes from another node and is for this one, it enters a history and the callback is told.
From this the handler's treatment of private messages is read off.
-/

namespace Bitchat.MessageService

open Effect StringHelper PacketSerializer

/-- The message is from another node and passes the tests of the handler. -/
def Accepts (node : Node) (packet : BitchatPacket) (message : BitchatMessage) : Prop :=
  toHex packet.senderID ≠ node.data.peerID ∧ shouldAddToHistory node.data message = true

instance (node : Node) (packet : BitchatPacket) (message : BitchatMessage) :
    Decidable (Accepts node packet message) := inferInstanceAs (Decidable (_ ∧ _))

/-- The trace of a reception behind the note of the parsed message. -/
def receptionTrace (node : Node) (packet : BitchatPacket) (message : BitchatMessage) :
    List Event :=
  if Accepts node packet message then
    .addedToHistory message (historyChannel message) ::
      notification node.callbacks.messageReceived (.messageReceived message)
  else []

def receptionData (node : Node) (packet : BitchatPacket) (message : BitchatMessage) :
    BitchatData :=
  if Accepts node packet message then
    node.data.addMessageToHistory message (historyChannel message)
  else node.data

theorem outcome_processMessagePacket (node : Node) {packet : BitchatPacket} {parsed : ParsedMessage}
    (hparse : parseMessagePayload packet.payload = .ok parsed) :
    (processMessagePacket packet).outcome node = (.ok ⟨⟩, { node with
      data := receptionData node packet parsed.message
      trace := node.trace ++ .parsed parsed.message ::
        receptionTrace node packet parsed.message }) := by
  rw [processMessagePacket, outcome_bind_ok (outcome_ofParser_ok hparse node),
    outcome_bind_ok (outcome_emit _ _), outcome_bind_ok (outcome_get _), receptionTrace,
    receptionData]
  by_cases hself : toHex packet.senderID = node.data.peerID
  · rw [if_pos hself, if_neg fun h : Accepts _ _ _ => h.1 hself,
      if_neg fun h : Accepts _ _ _ => h.1 hself]
    rfl
  · rw [if_neg hself]
    cases hadd : shouldAddToHistory node.data parsed.message with
    | false =>
        have hnot : ¬ Accepts node packet parsed.message := fun h => by simp [h.2] at hadd
        rw [if_neg (by simp), if_neg hnot, if_neg hnot]
        rfl
    | true =>
        have haccepts : Accepts node packet parsed.message := ⟨hself, hadd⟩
        rw [if_pos rfl, if_pos haccepts, if_pos haccepts, addMessageToHistory,
          outcome_bind_ok (outcome_bind_ok (outcome_modifyData _ _) _), outcome_notify]
        simp

theorem trace_processMessagePacket (node : Node) {packet : BitchatPacket} {parsed : ParsedMessage}
    (hparse : parseMessagePayload packet.payload = .ok parsed) :
    ((processMessagePacket packet).exec node).trace =
      node.trace ++ .parsed parsed.message :: receptionTrace node packet parsed.message := by
  rw [exec, outcome_processMessagePacket node hparse]

/-- The message enters a history or is given to the callback. -/
def IsDelivery : Event → Bool
  | .addedToHistory _ _ => true
  | .messageReceived _ => true
  | _ => false

/-- What an effect adds to the trace. -/
def newEvents (m : ServiceM Unit) (node : Node) : List Event :=
  (m.exec node).trace.drop node.trace.length

def Delivers (node : Node) (packet : BitchatPacket) : Prop :=
  ∃ event ∈ newEvents (processMessagePacket packet) node, IsDelivery event = true

theorem delivers_iff (node : Node) {packet : BitchatPacket} {parsed : ParsedMessage}
    (hparse : parseMessagePayload packet.payload = .ok parsed) :
    Delivers node packet ↔ Accepts node packet parsed.message := by
  rw [Delivers, newEvents, trace_processMessagePacket node hparse, List.drop_left, receptionTrace]
  by_cases h : Accepts node packet parsed.message
  · rw [if_pos h]
    refine iff_of_true ⟨.addedToHistory parsed.message (historyChannel parsed.message), ?_, rfl⟩ h
    simp
  · rw [if_neg h]
    refine iff_of_false ?_ h
    rintro ⟨event, hmem, hdelivery⟩
    rw [List.mem_singleton.mp hmem] at hdelivery
    simp [IsDelivery] at hdelivery

theorem shouldAddToHistory_iff {message : BitchatMessage} (hprivate : message.isPrivate = true)
    (data : BitchatData) :
    shouldAddToHistory data message = true ↔
      message.channel = data.currentChannel ∨ message.recipientNickname = data.nickname := by
  unfold shouldAddToHistory
  by_cases hchannel : message.channel = data.currentChannel
  · simp [hchannel]
  · have hempty : (message.channel.isEmpty && data.currentChannel.isEmpty) = false := by
      rw [Bool.and_eq_false_iff]
      by_contra hboth
      simp only [not_or, Bool.not_eq_false, List.isEmpty_iff] at hboth
      exact hchannel (hboth.1.trans hboth.2.symm)
    simp [hchannel, hempty, hprivate]

/-- A private message stays with its addressee exactly if it is the node's own, or carries
another channel than the current one, or is for this node. -/
theorem private_delivery_iff (node : Node) (packet : BitchatPacket) (parsed : ParsedMessage)
    (hparse : parseMessagePayload packet.payload = .ok parsed)
    (hprivate : parsed.message.isPrivate = true) :
    (Delivers node packet → parsed.message.recipientNickname = node.data.nickname) ↔
      toHex packet.senderID = node.data.peerID ∨
        parsed.message.channel ≠ node.data.currentChannel ∨
        parsed.message.recipientNickname = node.data.nickname := by
  rw [delivers_iff node hparse, Accepts, shouldAddToHistory_iff hprivate]
  tauto

def bystander : Node where
  data := { peerID := toHex [8, 7, 6, 5, 4, 3, 2, 1], nickname := [0x62] }
  clock _ := 1700000000000000000

def secret : BitchatMessage where
  id := [0x6D]
  sender := [0x61]
  content := [0x68, 0x69]
  timestamp := 1700000000000
  isPrivate := true
  recipientNickname := [0x63]

def secretPacket : BitchatPacket :=
  { BitchatPacket.make pktTypeMessage (makeMessagePayload [] secret) 1700000000000 with
    senderID := [1, 2, 3, 4, 5, 6, 7, 8] }

/-- Private messages carry no channel, and neither does the default chat: everyone there is
given the message. -/
theorem secret_delivered_to_bystander :
    parseMessagePayload secretPacket.payload = .ok ⟨secret, none⟩ ∧ secret.isPrivate = true ∧
      secret.recipientNickname ≠ bystander.data.nickname ∧ Delivers bystander secretPacket := by
  refine ⟨by decide +kernel, rfl, by decide, ?_⟩
  refine ⟨.messageReceived secret, ?_, rfl⟩
  decide +kernel

/-- In a channel of its own the bystander is not given the message. -/
theorem private_delivery_in_channel :
    (Delivers { bystander with data := bystander.data.setCurrentChannel [0x23, 0x61] }
        secretPacket → secret.recipientNickname = bystander.data.nickname) ↔
      toHex secretPacket.senderID = bystander.data.peerID ∨ secret.channel ≠ [0x23, 0x61] ∨
        secret.recipientNickname = bystander.data.nickname :=
  private_delivery_iff { bystander with data := bystander.data.setCurrentChannel [0x23, 0x61] }
    secretPacket ⟨secret, none⟩ (by decide +kernel) rfl

end Bitchat.MessageService
