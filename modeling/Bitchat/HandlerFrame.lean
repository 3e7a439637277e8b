import Bitchat.NoiseHandlers

/-!
# What the packet handlers leave alone

A relation between nodes that each single step of a handler respects is respected by the
handler. `StoreSteps` lists the steps of the handlers that send nothing, `PlainSteps` those
of the handlers without a noise service, `HandlerSteps` those of all. Each effect of the
service has one lemma, and the lemma of a handler is put together from those of its steps.
As a first case, no handler touches the node's identity, its current channel or the set of
processed messages, and the trace only grows.
-/

namespace Bitchat.MessageService

open Effect ByteCursor StringHelper

/-- What a handler tells the rest of the program, beside the packets it sends. -/
def IsReport : Event → Bool
  | .sent _ => false
  | .sentToPeripheral _ _ => false
  | .relayed _ _ => false
  | .dispatched _ => false
  | _ => true

def IsMessageEvent : Event → Bool
  | .parsed _ => true
  | .addedToHistory _ _ => true
  | .messageReceived _ => true
  | _ => false

theorem isReport_of_isMessageEvent {event : Event} (h : IsMessageEvent event = true) :
    IsReport event = true := by
  cases event with
  | sent packet => cases h
  | sentToPeripheral packet peripheralID => cases h
  | relayed packet peerID => cases h
  | dispatched packet => cases h
  | _ => rfl

/-- A packet that carries a message of the user. -/
def IsChat (type : UInt8) : Prop := type = pktTypeMessage ∨ type = pktTypeNoiseEncrypted

instance (type : UInt8) : Decidable (IsChat type) := inferInstanceAs (Decidable (_ ∨ _))

structure MessageSteps (R : Node → Node → Prop) : Prop where
  clock : ∀ node, R node { node with clockReads := node.clockReads + 1 }
  message : ∀ node event, IsMessageEvent event = true →
    R node { node with trace := node.trace ++ [event] }
  history : ∀ node message channel,
    R node { node with data := node.data.addMessageToHistory message channel }

structure NoiseSteps (R : Node → Node → Prop) : Prop extends MessageSteps R where
  sent : ∀ node packet, ¬ IsChat packet.type →
    R node { node with trace := node.trace ++ [.sent packet] }
  noise : ∀ node service, R node { node with noiseService := some service }

/-- The steps for a packet of `peerID`. -/
structure StoreSteps (peerID : Bytes) (R : Node → Node → Prop) : Prop where
  clock : ∀ node, R node { node with clockReads := node.clockReads + 1 }
  unassigned : ∀ node, R node { node with unassignedReads := node.unassignedReads + 1 }
  event : ∀ node event, IsReport event = true → R node { node with trace := node.trace ++ [event] }
  storePeer : ∀ node peer, peer.peerID = peerID →
    R node { node with data := node.data.addPeer peer }
  removePeer : ∀ node, R node { node with data := node.data.removePeer peerID }
  history : ∀ node message channel,
    R node { node with data := node.data.addMessageToHistory message channel }

structure PlainSteps (peerID : Bytes) (R : Node → Node → Prop) : Prop
    extends StoreSteps peerID R where
  ack : ∀ node packet, packet.type = pktTypeVersionAck →
    R node { node with trace := node.trace ++ [.sent packet] }

structure HandlerSteps (peerID : Bytes) (R : Node → Node → Prop) : Prop
    extends PlainSteps peerID R where
  sent : ∀ node packet, ¬ IsChat packet.type →
    R node { node with trace := node.trace ++ [.sent packet] }
  noise : ∀ node service, R node { node with noiseService := some service }

variable {R : Node → Node → Prop} {peerID : Bytes}

theorem StoreSteps.messageSteps (h : StoreSteps peerID R) : MessageSteps R where
  clock := h.clock
  message node event hevent := h.event node event (isReport_of_isMessageEvent hevent)
  history := h.history

theorem HandlerSteps.noiseSteps (h : HandlerSteps peerID R) : NoiseSteps R where
  toMessageSteps := h.toStoreSteps.messageSteps
  sent := h.sent
  noise := h.noise

variable [Std.Refl R] [IsTrans Node R]

section Clock

variable (hclock : ∀ node, R node { node with clockReads := node.clockReads + 1 })
include hclock

theorem respects_readClock : Respects R readClock :=
  respects_get.bind fun _ => (respects_modify hclock).bind fun _ => respects_pure _

theorem respects_getCurrentTimestamp : Respects R getCurrentTimestamp :=
  (respects_readClock hclock).bind fun _ => respects_pure _

theorem respects_currentTime : Respects R currentTime :=
  (respects_readClock hclock).bind fun _ => respects_pure _

end Clock

omit [Std.Refl R] [IsTrans Node R] in
theorem respects_emit {event : Event}
    (hevent : ∀ node, R node { node with trace := node.trace ++ [event] }) :
    Respects R (emit event) := respects_modify hevent

theorem respects_notify (registered : Callbacks → Bool) {event : Event}
    (hevent : ∀ node, R node { node with trace := node.trace ++ [event] }) :
    Respects R (notify registered event) :=
  respects_get.bind fun _ => (respects_emit hevent).ite (respects_pure _)

omit [IsTrans Node R] in
theorem respects_ofExcept {α : Type} (r : Except Fault α) : Respects R (ofExcept r) := by
  cases r with
  | error e => exact respects_throw e
  | ok a => exact respects_pure a

omit [IsTrans Node R] in
theorem respects_ofParser {α : Type} (r : Except OutOfBounds α) : Respects R (ofParser r) :=
  respects_ofExcept _

omit [IsTrans Node R] in
theorem respects_assigned {α : Type} (name : Bytes) (a : Option α) :
    Respects R (assigned name a) := by
  cases a with
  | none => exact respects_throw _
  | some a => exact respects_pure _

theorem respects_valueOf
    (hread : ∀ node, R node { node with unassignedReads := node.unassignedReads + 1 })
    (flag : Option Bool) : Respects R (valueOf flag) := by
  cases flag with
  | none => exact respects_get.bind fun _ => (respects_modify hread).bind fun _ => respects_pure _
  | some value => exact respects_pure _

theorem respects_sendPacket {packet : BitchatPacket}
    (h : ∀ node, R node { node with trace := node.trace ++ [.sent packet] }) :
    Respects R (sendPacket packet) :=
  respects_get.bind fun _ =>
    ((respects_modify h).bind fun _ => respects_pure _).ite (respects_pure _)

omit [Std.Refl R] [IsTrans Node R] in
theorem type_of_ownPacket {type : UInt8} {payload : Bytes} {node node' : Node}
    {packet : BitchatPacket} (h : (ownPacket type payload).outcome node = (.ok packet, node')) :
    packet.type = type := by
  cases hid : stringToVector node.data.peerID with
  | error e =>
      rw [outcome_ownPacket_error hid] at h
      cases h
  | ok senderID =>
      rw [outcome_ownPacket_ok hid] at h
      cases h
      rfl

section Clock

variable (hclock : ∀ node, R node { node with clockReads := node.clockReads + 1 })
include hclock

theorem respects_newPacket (type : UInt8) (payload : Bytes) :
    Respects R (newPacket type payload) :=
  (respects_getCurrentTimestamp hclock).bind fun _ => respects_pure _

theorem respects_ownPacket (type : UInt8) (payload : Bytes) :
    Respects R (ownPacket type payload) :=
  (respects_newPacket hclock type payload).bind fun _ => respects_get.bind fun _ =>
    (respects_ofExcept _).bind fun _ => (respects_getCurrentTimestamp hclock).bind fun _ =>
      respects_pure _

theorem respects_sendOwnPacket {type : UInt8}
    (hsent : ∀ node packet, packet.type = type →
      R node { node with trace := node.trace ++ [.sent packet] }) (payload : Bytes) :
    Respects R (sendOwnPacket type payload) :=
  (respects_ownPacket hclock type payload).bind_of fun _ packet node' hmade =>
    respects_sendPacket (fun node => hsent node packet (type_of_ownPacket hmade)) node'

theorem respects_sendVersionAck
    (hack : ∀ node packet, packet.type = pktTypeVersionAck →
      R node { node with trace := node.trace ++ [.sent packet] })
    (ack : VersionAck) (recipient : Bytes) : Respects R (sendVersionAck ack recipient) := by
  refine (respects_ownPacket hclock _ _).bind_of fun node packet node' hmade => ?_
  have htype : packet.type = pktTypeVersionAck := type_of_ownPacket hmade
  refine ((respects_ofExcept _).bind fun recipientID => ?_ : Respects R _) node'
  exact (respects_sendPacket fun node =>
    hack node { packet with recipientID, ttl := 1 } htype).bind fun _ => respects_pure _

end Clock

theorem respects_answerVersionHello (h : PlainSteps peerID R)
    (hello : PacketSerializer.VersionHello) : Respects R (answerVersionHello peerID hello) := by
  refine ((respects_sendVersionAck h.clock h.ack _ _).bind fun _ =>
    respects_get.bind fun node => ?_).ite (respects_sendVersionAck h.clock h.ack _ _)
  exact (respects_pure _).ite ((respects_currentTime h.clock).bind fun time =>
    respects_modify fun node => h.storePeer node _ rfl)

theorem respects_handleVersionHello (h : PlainSteps peerID R) (data : Bytes) :
    Respects R (handleVersionHello peerID data) :=
  (respects_pure _).ite ((respects_ofParser _).bind fun hello =>
    (respects_answerVersionHello h hello).bind fun _ => respects_assigned _ _)

theorem respects_answerVersionAck (h : StoreSteps peerID R) (rejected : Bool) :
    Respects R (answerVersionAck peerID rejected) :=
  ((respects_modify h.removePeer).bind fun _ =>
    respects_notify _ fun node => h.event node _ rfl).ite (respects_pure _)

theorem respects_handleVersionAck (h : StoreSteps peerID R) (data : Bytes) :
    Respects R (handleVersionAck peerID data) :=
  (respects_pure _).ite ((respects_ofParser _).bind fun _ =>
    (respects_valueOf h.unassigned _).bind fun rejected =>
      (respects_answerVersionAck h rejected).bind fun _ => respects_assigned _ _)

omit [Std.Refl R] in
theorem respects_addMessageToHistory (h : MessageSteps R) (message : BitchatMessage)
    (channel : Bytes) : Respects R (addMessageToHistory message channel) :=
  (respects_modify fun node => h.history node message channel).bind fun _ =>
    respects_emit fun node => h.message node _ rfl

theorem respects_processMessagePacket (h : MessageSteps R) (packet : BitchatPacket) :
    Respects R (processMessagePacket packet) := by
  refine (respects_ofParser _).bind fun parsed =>
    (respects_emit fun node => h.message node _ rfl).bind fun _ =>
      respects_get.bind fun node => (respects_pure _).ite ?_
  exact ((respects_addMessageToHistory h _ _).bind fun _ =>
    respects_notify _ fun node => h.message node _ rfl).ite (respects_pure _)

theorem respects_updatePeerChannel_of {announce : PacketSerializer.ChannelAnnounce}
    (hread : ∀ node, R node { node with unassignedReads := node.unassignedReads + 1 })
    (hstore : ∀ (node : Node) peerInfo channel, node.data.getPeerInfo peerID = some peerInfo →
      channel = announce.channel ∨ channel = [] →
        R node { node with data := node.data.updatePeer { peerInfo with channel := channel } }) :
    Respects R (updatePeerChannel peerID announce) := by
  intro node
  rw [exec, updatePeerChannel, outcome_bind_ok (outcome_get node)]
  cases hpeer : node.data.getPeerInfo peerID with
  | none => exact refl_of R node
  | some peerInfo =>
      have hchosen : ∀ joining : Bool, (if joining then announce.channel else []) =
          announce.channel ∨ (if joining then announce.channel else []) = [] :=
        fun joining => by cases joining <;> simp
      cases announce.joining with
      | some joining => exact hstore node peerInfo _ hpeer (hchosen joining)
      | none => exact trans_of R (hread node) (hstore _ peerInfo _ hpeer (hchosen _))

theorem respects_updatePeerChannel (h : StoreSteps peerID R)
    (announce : PacketSerializer.ChannelAnnounce) :
    Respects R (updatePeerChannel peerID announce) := by
  refine respects_updatePeerChannel_of h.unassigned fun node peerInfo channel hpeer _ => ?_
  have hid : peerInfo.peerID = peerID := BitchatData.peerID_of_getPeerInfo hpeer
  exact h.storePeer node { peerInfo with channel := channel } hid

section Packet

variable {packet : BitchatPacket}

theorem respects_processChannelAnnouncePacket (h : StoreSteps (toHex packet.senderID) R) :
    Respects R (processChannelAnnouncePacket packet) :=
  (respects_ofParser _).bind fun _ => (respects_updatePeerChannel h _).bind fun _ =>
    respects_assigned _ _

theorem respects_processAnnouncePacket (h : StoreSteps (toHex packet.senderID) R)
    (peripheralID : Bytes) : Respects R (processAnnouncePacket packet peripheralID) := by
  refine respects_get.bind fun node => (respects_currentTime h.clock).bind fun time => ?_
  split
  · next existingPeer hpeer =>
      have hid := BitchatData.peerID_of_getPeerInfo hpeer
      refine respects_modify fun node => h.storePeer node _ ?_
      split
      · exact hid
      · exact hid
  · exact (respects_currentTime h.clock).bind fun time =>
      (respects_modify fun node => h.storePeer node _ rfl).bind fun _ =>
        respects_notify _ fun node => h.event node _ rfl

theorem respects_processLeavePacket (h : StoreSteps (toHex packet.senderID) R) :
    Respects R (processLeavePacket packet) := by
  refine respects_get.bind fun node => ?_
  split
  · exact respects_pure _
  · exact (respects_modify h.removePeer).bind fun _ =>
      respects_notify _ fun node => h.event node _ rfl

theorem respects_onNoisePacket {handle : Node → NoiseService → Bytes → ServiceM Unit}
    (h : ∀ node service, Respects R (handle node service (toHex packet.senderID))) :
    Respects R (onNoisePacket packet handle) := by
  refine respects_get.bind fun node => ?_
  cases node.noiseService with
  | none => exact respects_pure _
  | some service => exact (respects_pure _).ite (h node service)

section Noise

variable (h : NoiseSteps R)
include h

omit [Std.Refl R] [IsTrans Node R] in
theorem respects_withNoise {α : Type} (service : NoiseService)
    (m : Effect Fault NoiseService α) : Respects R (withNoise service m) :=
  respects_zoom m fun node service => h.noise node service

theorem respects_handshakePacket {type : UInt8} (htype : ¬ IsChat type) (payload : Bytes) :
    Respects R (do let _ ← sendOwnPacket type payload; pure ()) :=
  (respects_sendOwnPacket h.clock (fun node packet hpacket => h.sent node packet (hpacket ▸ htype))
    payload).bind fun _ => respects_pure _

theorem respects_onHandshake {reply : Bytes → ServiceM Unit}
    (hreply : ∀ response, Respects R (reply response)) : Respects R (onHandshake packet reply) := by
  apply respects_onNoisePacket
  intro node service
  refine (respects_pure _).ite ((respects_readClock h.clock).bind fun now =>
    (respects_withNoise h _ _).bind fun response => ?_)
  cases response with
  | none => exact respects_pure _
  | some response => exact hreply response

theorem respects_processNoiseHandshakeInitPacket :
    Respects R (processNoiseHandshakeInitPacket packet) :=
  respects_onHandshake h fun _ => (respects_pure _).ite (respects_handshakePacket h (by decide) _)

theorem respects_processNoiseHandshakeRespPacket :
    Respects R (processNoiseHandshakeRespPacket packet) :=
  respects_onHandshake h fun _ => (respects_handshakePacket h (by decide) _).ite (respects_pure _)

theorem respects_processNoiseEncryptedPacket :
    Respects R (processNoiseEncryptedPacket packet) :=
  respects_onNoisePacket fun _ _ => (respects_readClock h.clock).bind fun _ =>
    (respects_withNoise h _ _).bind fun _ => (respects_pure _).ite
      ((respects_newPacket h.clock _ _).bind fun _ =>
        respects_processMessagePacket h.toMessageSteps _)

theorem respects_processNoiseIdentityAnnouncePacket :
    Respects R (processNoiseIdentityAnnouncePacket packet) :=
  respects_onNoisePacket fun _ _ => ((respects_withNoise h _ _).bind fun _ =>
    (respects_pure _).ite (respects_handshakePacket h (by decide) _)).ite (respects_pure _)

end Noise

theorem respects_dispatch (h : HandlerSteps (toHex packet.senderID) R) (peripheralID : Bytes) :
    Respects R (dispatch packet peripheralID) := by
  apply dispatch_induction (P := Respects R)
  · exact fun _ => (respects_pure _).ite (respects_handleVersionHello h.toPlainSteps _)
  · exact fun _ => (respects_pure _).ite (respects_handleVersionAck h.toStoreSteps _)
  · exact fun _ => respects_processMessagePacket h.toStoreSteps.messageSteps packet
  · exact fun _ => respects_processChannelAnnouncePacket h.toStoreSteps
  · exact fun _ => respects_processAnnouncePacket h.toStoreSteps peripheralID
  · exact fun _ => respects_processLeavePacket h.toStoreSteps
  · exact fun _ => respects_processNoiseHandshakeInitPacket h.noiseSteps
  · exact fun _ => respects_processNoiseHandshakeRespPacket h.noiseSteps
  · exact fun _ => respects_processNoiseEncryptedPacket h.noiseSteps
  · exact fun _ => respects_processNoiseIdentityAnnouncePacket h.noiseSteps
  · exact respects_pure _

end Packet

/-- The fields of the store that no packet handler assigns. -/
def SameSettings (data data' : BitchatData) : Prop :=
  data'.peerID = data.peerID ∧ data'.nickname = data.nickname ∧
    data'.currentChannel = data.currentChannel ∧
    data'.processedMessages = data.processedMessages

structure HandlerFrame (node node' : Node) : Prop where
  settings : SameSettings node.data node'.data
  trace : node.trace <+: node'.trace

theorem SameSettings.rfl {data : BitchatData} : SameSettings data data :=
  ⟨Eq.refl _, Eq.refl _, Eq.refl _, Eq.refl _⟩

theorem SameSettings.trans {a b c : BitchatData} (hab : SameSettings a b)
    (hbc : SameSettings b c) : SameSettings a c := by
  obtain ⟨h₁, h₂, h₃, h₄⟩ := hab
  obtain ⟨k₁, k₂, k₃, k₄⟩ := hbc
  exact ⟨k₁.trans h₁, k₂.trans h₂, k₃.trans h₃, k₄.trans h₄⟩

instance : Std.Refl HandlerFrame := ⟨fun _ => ⟨.rfl, List.prefix_rfl⟩⟩

instance : IsTrans Node HandlerFrame :=
  ⟨fun _ _ _ h k => ⟨h.settings.trans k.settings, h.trace.trans k.trace⟩⟩

theorem handlerSteps_handlerFrame (peerID : Bytes) : HandlerSteps peerID HandlerFrame where
  clock _ := ⟨.rfl, List.prefix_rfl⟩
  unassigned _ := ⟨.rfl, List.prefix_rfl⟩
  event _ _ _ := ⟨.rfl, List.prefix_append _ _⟩
  ack _ _ _ := ⟨.rfl, List.prefix_append _ _⟩
  storePeer _ _ _ := ⟨.rfl, List.prefix_rfl⟩
  removePeer _ := ⟨.rfl, List.prefix_rfl⟩
  history _ _ _ := ⟨.rfl, List.prefix_rfl⟩
  sent _ _ _ := ⟨.rfl, List.prefix_append _ _⟩
  noise _ _ := ⟨.rfl, List.prefix_rfl⟩

theorem handlerFrame_dispatch (packet : BitchatPacket) (peripheralID : Bytes) :
    Respects HandlerFrame (dispatch packet peripheralID) :=
  respects_dispatch (handlerSteps_handlerFrame _) peripheralID

end Bitchat.MessageService
