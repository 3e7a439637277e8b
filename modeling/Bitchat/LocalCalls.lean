import Bitchat.HandlerFrame
import Bitchat.NoiseHandlers

/-!
# The calls of the local user

What a node does without having received a packet. None of it opens a session or sends a
handshake packet, and no peer is added to the list.
-/

namespace Bitchat.MessageService

open Effect ByteCursor StringHelper PacketSerializer CompressionHelper

inductive LocalCall where
  | joinChannel (channel : Bytes)
  | leaveChannel
  | sendMessage (lz4 : LZ4) (uuid content channel : Bytes)
  | sendPrivateMessage (lz4 : LZ4) (uuid content recipientNickname : Bytes)
  | startIdentityAnnounce
  | sendVersionHello (peripheralID : Bytes)
  | peerConnected (peripheralID : Bytes)
  | peerDisconnected (peripheralID : Bytes)

def LocalCall.perform : LocalCall → ServiceM Unit
  | .joinChannel channel => MessageService.joinChannel channel
  | .leaveChannel => MessageService.leaveChannel
  | .sendMessage lz4 uuid content channel => do
      let _ ← MessageService.sendMessage lz4 uuid content channel
      pure ()
  | .sendPrivateMessage lz4 uuid content recipientNickname => do
      let _ ← MessageService.sendPrivateMessage lz4 uuid content recipientNickname
      pure ()
  | .startIdentityAnnounce => MessageService.startIdentityAnnounce
  | .sendVersionHello peripheralID => MessageService.sendVersionHello peripheralID
  | .peerConnected peripheralID => MessageService.peerConnected peripheralID
  | .peerDisconnected peripheralID => MessageService.peerDisconnected peripheralID

/-- A packet that opens a session at its receiver. -/
def IsHandshake (type : UInt8) : Prop :=
  type = pktTypeNoiseHandshakeInit ∨ type = pktTypeNoiseHandshakeResp

instance (type : UInt8) : Decidable (IsHandshake type) := inferInstanceAs (Decidable (_ ∨ _))

/-- The events of the local calls: no routing, and no handshake packet. -/
def IsLocalEvent : Event → Bool
  | .sent packet => !decide (IsHandshake packet.type)
  | .sentToPeripheral packet _ => !decide (IsHandshake packet.type)
  | .relayed _ _ => false
  | .dispatched _ => false
  | _ => true

theorem isLocalEvent_of_isReport {event : Event} (h : IsReport event = true) :
    IsLocalEvent event = true := by
  cases event with
  | sent packet => cases h
  | sentToPeripheral packet peripheralID => cases h
  | relayed packet peerID => cases h
  | dispatched packet => cases h
  | _ => rfl

/-- The steps of the calls that leave the peer list alone, as a relation sees them. -/
structure SendSteps (R : Node → Node → Prop) : Prop where
  clock : ∀ node, R node { node with clockReads := node.clockReads + 1 }
  event : ∀ node event, IsLocalEvent event = true →
    R node { node with trace := node.trace ++ [event] }
  channel : ∀ node channel, R node { node with data := node.data.setCurrentChannel channel }
  history : ∀ node message channel,
    R node { node with data := node.data.addMessageToHistory message channel }
  encrypted : ∀ node service service', node.noiseService = some service →
    service'.status = service.status → R node (withSessions node service')

/-- The steps of all local calls. -/
structure LocalSteps (R : Node → Node → Prop) : Prop extends SendSteps R where
  removePeer : ∀ node peerID, R node { node with data := node.data.removePeer peerID }

variable {R : Node → Node → Prop} [Std.Refl R] [IsTrans Node R]

theorem respects_sendVersionHello
    (hclock : ∀ node, R node { node with clockReads := node.clockReads + 1 })
    (hsent : ∀ node packet, packet.type = pktTypeVersionHello →
      R node { node with trace := node.trace ++ [.sent packet] })
    (hsentTo : ∀ node packet peripheralID, packet.type = pktTypeVersionHello →
      R node { node with trace := node.trace ++ [.sentToPeripheral packet peripheralID] })
    (peripheralID : Bytes) : Respects R (sendVersionHello peripheralID) := by
  have hhello : Respects R createVersionHelloPacket :=
    (respects_ownPacket hclock _ _).bind fun _ => respects_pure _
  refine hhello.bind_of fun node packet node' hmade => ?_
  obtain ⟨made, node₁, hown, hrest⟩ := outcome_bind_inv hmade
  have htype : packet.type = pktTypeVersionHello := by
    rw [← type_of_ownPacket hown]
    cases hrest
    rfl
  exact (((respects_sendPacket fun node => hsent node packet htype).bind
    fun _ => respects_pure _).ite (respects_emit fun node => hsentTo node packet _ htype) :
      Respects R _) node'

namespace SendSteps

variable (h : SendSteps R)
include h

omit [Std.Refl R] [IsTrans Node R] in
theorem emit {event : Event} (hevent : IsLocalEvent event = true) : Respects R (emit event) :=
  respects_emit fun node => h.event node event hevent

theorem notify (registered : Callbacks → Bool) {event : Event} (hevent : IsReport event = true) :
    Respects R (notify registered event) :=
  MessageService.respects_notify registered fun node =>
    h.event node event (isLocalEvent_of_isReport hevent)

omit [Std.Refl R] [IsTrans Node R] in
theorem sent {packet : BitchatPacket} (hpacket : ¬ IsHandshake packet.type) (node : Node) :
    R node { node with trace := node.trace ++ [.sent packet] } := by
  refine h.event node _ ?_
  rw [IsLocalEvent, decide_eq_false hpacket]
  rfl

omit [Std.Refl R] [IsTrans Node R] in
theorem sentToPeripheral {packet : BitchatPacket} (hpacket : ¬ IsHandshake packet.type)
    (node : Node) (peripheralID : Bytes) :
    R node { node with trace := node.trace ++ [.sentToPeripheral packet peripheralID] } := by
  refine h.event node _ ?_
  rw [IsLocalEvent, decide_eq_false hpacket]
  rfl

theorem sendPacket {packet : BitchatPacket} (hpacket : ¬ IsHandshake packet.type) :
    Respects R (sendPacket packet) := respects_sendPacket (h.sent hpacket)

theorem sendOwnPacket {type : UInt8} (htype : ¬ IsHandshake type) (payload : Bytes) :
    Respects R (sendOwnPacket type payload) := by
  refine respects_sendOwnPacket h.clock (fun node packet hpacket => h.sent ?_ node) payload
  exact hpacket ▸ htype

omit [Std.Refl R] [IsTrans Node R] in
theorem encryptPayload [Std.Refl R] (message : BitchatMessage) (payload : Bytes) :
    Respects R (encryptPayload message payload) := by
  intro node
  obtain ⟨type, node', hout, hcase⟩ := outcome_encryptPayload message payload node
  rw [exec, hout]
  rcases hcase with ⟨-, -, rfl⟩ | ⟨-, -, service, service', hnoise, -, hstatus, rfl⟩
  · exact refl_of R _
  · exact h.encrypted node service service' hnoise hstatus

theorem createMessagePacket (lz4 : LZ4) (uuid : Bytes) (message : BitchatMessage) :
    Respects R (createMessagePacket lz4 uuid message) := by
  refine (h.encryptPayload _ _).bind fun _ => (respects_ownPacket h.clock _ _).bind fun packet =>
    respects_get.bind fun node => ?_
  cases node.cryptoService with
  | none => exact respects_pure _
  | some crypto => exact respects_pure _

omit [Std.Refl R] [IsTrans Node R] h in
theorem type_of_createMessagePacket {lz4 : LZ4} {uuid : Bytes} {message : BitchatMessage}
    {node node' : Node} {packet : BitchatPacket}
    (hmade : (MessageService.createMessagePacket lz4 uuid message).outcome node =
      (.ok packet, node')) : ¬ IsHandshake packet.type := by
  obtain ⟨senderID, type, node₁, hcase, rfl⟩ := createMessagePacket_inv hmade
  have htype := (carried_messagePacketOf message node₁.cryptoService (ownPacketOf node₁ senderID
    type (compressData lz4 (makeMessagePayload uuid message)))).2.1
  rw [htype]
  rcases hcase with ⟨rfl, -⟩ | ⟨rfl, -⟩
  · change ¬ IsHandshake pktTypeMessage
    decide
  · change ¬ IsHandshake pktTypeNoiseEncrypted
    decide

theorem newMessage (uuid sender content channel : Bytes) :
    Respects R (newMessage uuid sender content channel) :=
  (respects_getCurrentTimestamp h.clock).bind fun _ => respects_pure _

omit [Std.Refl R] in
theorem addMessageToHistory (message : BitchatMessage) (channel : Bytes) :
    Respects R (addMessageToHistory message channel) :=
  (respects_modify fun node => h.history node message channel).bind fun _ =>
    h.emit rfl

theorem sendMessage (lz4 : LZ4) (uuid content channel : Bytes) :
    Respects R (sendMessage lz4 uuid content channel) := by
  refine respects_get.bind fun node => (h.newMessage _ _ _ _).bind fun message => ?_
  refine (h.createMessagePacket _ _ _).bind_of fun node packet node' hmade => ?_
  refine ((h.sendPacket (type_of_createMessagePacket hmade)).bind fun success => ?_ :
    Respects R _) node'
  exact ((h.addMessageToHistory _ _).bind fun _ => respects_pure _).ite (respects_pure _)

theorem sendPrivateMessage (lz4 : LZ4) (uuid content recipientNickname : Bytes) :
    Respects R (sendPrivateMessage lz4 uuid content recipientNickname) := by
  refine respects_get.bind fun node => (h.newMessage _ _ _ _).bind fun message => ?_
  refine (h.createMessagePacket _ _ _).bind_of fun node packet node' hmade => ?_
  exact h.sendPacket (type_of_createMessagePacket hmade) node'

theorem sendChannelAnnounce (channel : Bytes) (joining : Bool)
    (registered : Callbacks → Bool) {event : Event} (hevent : IsReport event = true) :
    Respects R (do
      let packet ← createChannelAnnouncePacket channel joining
      let _ ← MessageService.sendPacket packet
      MessageService.notify registered event) := by
  refine Respects.bind_of ?_ fun node packet node' hmade => ?_
  · exact (respects_newPacket h.clock _ _).bind fun _ =>
      (respects_getCurrentTimestamp h.clock).bind fun _ => respects_pure _
  · have htype : packet.type = pktTypeChannelAnnounce := by
      cases hmade
      rfl
    have hpacket : ¬ IsHandshake packet.type := by
      rw [htype]
      decide
    exact ((h.sendPacket hpacket).bind fun _ => h.notify _ hevent) node'

theorem leaveChannel : Respects R leaveChannel := by
  refine respects_get.bind fun node => (respects_pure _).ite ?_
  exact (respects_modify fun node => h.channel node []).bind fun _ =>
    h.sendChannelAnnounce [] false _ rfl

theorem joinChannel (channel : Bytes) : Respects R (joinChannel channel) := by
  refine (respects_modify fun node => h.channel node channel).bind fun _ => (respects_pure _).ite ?_
  refine h.leaveChannel.bind fun _ => ?_
  exact (respects_modify fun node => h.channel node _).bind fun _ =>
    h.sendChannelAnnounce _ true _ rfl

theorem startIdentityAnnounce : Respects R startIdentityAnnounce :=
  respects_get.bind fun _ => (respects_pure _).ite
    ((h.sendOwnPacket (by decide) _).bind fun _ => respects_pure _)

theorem sendVersionHello (peripheralID : Bytes) : Respects R (sendVersionHello peripheralID) := by
  have hhello : ¬ IsHandshake pktTypeVersionHello := by decide
  exact respects_sendVersionHello h.clock (fun node _ htype => h.sent (htype ▸ hhello) node)
    (fun node _ peripheralID htype => h.sentToPeripheral (htype ▸ hhello) node peripheralID) _

theorem perform {call : LocalCall} (hcall : ∀ peripheralID, call ≠ .peerDisconnected peripheralID) :
    Respects R call.perform := by
  cases call with
  | joinChannel channel => exact h.joinChannel channel
  | leaveChannel => exact h.leaveChannel
  | sendMessage lz4 uuid content channel =>
      exact (h.sendMessage lz4 uuid content channel).bind fun _ => respects_pure _
  | sendPrivateMessage lz4 uuid content recipientNickname =>
      exact (h.sendPrivateMessage lz4 uuid content recipientNickname).bind fun _ =>
        respects_pure _
  | startIdentityAnnounce => exact h.startIdentityAnnounce
  | sendVersionHello peripheralID => exact h.sendVersionHello peripheralID
  | peerConnected peripheralID => exact h.notify _ rfl
  | peerDisconnected peripheralID => exact (hcall peripheralID rfl).elim

end SendSteps

namespace LocalSteps

variable (h : LocalSteps R)
include h

theorem peerDisconnected (peripheralID : Bytes) : Respects R (peerDisconnected peripheralID) := by
  refine respects_get.bind fun node => ?_
  split
  · exact h.notify _ rfl
  · exact (respects_modify fun node => h.removePeer node _).bind fun _ =>
      (h.notify _ rfl).bind fun _ => h.notify _ rfl

theorem perform (call : LocalCall) : Respects R call.perform := by
  cases call with
  | peerDisconnected peripheralID => exact h.peerDisconnected peripheralID
  | _ => exact h.toSendSteps.perform fun _ => LocalCall.noConfusion

end LocalSteps

end Bitchat.MessageService
