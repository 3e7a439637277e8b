import Bitchat.GroupMessage
import Bitchat.NodeActivity
import Bitchat.TwoRuns

/-!
# What nobody reads of a packet

The handlers read the version, the type, the sender, the time and the payload of a packet. They
take it from whoever it is for, however many hops it has still to go, and whatever its signature
is: but for what it relays, no run of a node can tell two packets apart that differ in these.
-/

namespace Bitchat

open Effect StringHelper PacketSerializer

/-- Everything but the notes on the packets that were routed, and the copies that were relayed. -/
def visible (events : List Event) : List Event :=
  events.filter fun
    | .dispatched _ => false
    | .relayed _ _ => false
    | _ => true

def Alike (node node' : Node) : Prop :=
  ∃ trace, node' = { node with trace } ∧ visible node.trace = visible trace

theorem alike_refl (node : Node) : Alike node node := ⟨node.trace, rfl, rfl⟩

/-- The packets agree in what is read of them. -/
structure ReadsAlike (packet packet' : BitchatPacket) : Prop where
  version : packet.version = packet'.version
  type : packet.type = packet'.type
  timestamp : packet.timestamp = packet'.timestamp
  senderID : packet.senderID = packet'.senderID
  payload : packet.payload = packet'.payload
  payloadLength : packet.payloadLength = packet'.payloadLength

namespace MessageService

/-- The effect cannot tell alike nodes apart. -/
def Oblivious {α : Type} (m : ServiceM α) : Prop := Related Alike m m

section Rules

variable {α β : Type}

theorem oblivious_pure (a : α) : Oblivious (pure a) := related_pure a

theorem oblivious_bind {m : ServiceM α} {k : α → ServiceM β} (hm : Oblivious m)
    (hk : ∀ a, Oblivious (k a)) : Oblivious (m >>= k) := Related.bind hm hk

theorem oblivious_get_bind {k : Node → ServiceM β}
    (htrace : ∀ node trace, k { node with trace } = k node) (hk : ∀ node, Oblivious (k node)) :
    Oblivious (get >>= k) := by
  refine related_get_bind ?_
  rintro node _ ⟨trace, rfl, -⟩
  rw [htrace node trace]
  exact hk node

theorem oblivious_modify {f : Node → Node}
    (h : ∀ node trace, f { node with trace } = { f node with trace })
    (hsame : ∀ node, (f node).trace = node.trace) : Oblivious (modify f) := by
  refine related_modify ?_
  rintro node _ ⟨trace, rfl, hvisible⟩
  exact ⟨trace, h node trace, (hsame node).symm ▸ hvisible⟩

theorem oblivious_ite {m m' : ServiceM α} {c : Prop} [Decidable c] (hm : Oblivious m)
    (hm' : Oblivious m') : Oblivious (if c then m else m') := Related.ite hm hm'

end Rules

theorem oblivious_emit (event : Event) : Oblivious (emit event) := by
  refine related_modify ?_
  rintro node _ ⟨trace, rfl, hvisible⟩
  refine ⟨trace ++ [event], rfl, ?_⟩
  rw [visible, visible, List.filter_append, List.filter_append]
  exact congrArg (· ++ _) hvisible

theorem oblivious_notify (registered : Callbacks → Bool) (event : Event) :
    Oblivious (notify registered event) :=
  oblivious_get_bind (fun _ _ => rfl) fun _ =>
    oblivious_ite (oblivious_emit event) (oblivious_pure _)

theorem oblivious_modifyData (f : BitchatData → BitchatData) : Oblivious (modifyData f) :=
  oblivious_modify (fun _ _ => rfl) fun _ => rfl

theorem oblivious_readClock : Oblivious readClock :=
  oblivious_get_bind (fun _ _ => rfl) fun _ =>
    oblivious_bind (oblivious_modify (fun _ _ => rfl) fun _ => rfl) fun _ => oblivious_pure _

theorem oblivious_getCurrentTimestamp : Oblivious getCurrentTimestamp :=
  oblivious_bind oblivious_readClock fun _ => oblivious_pure _

theorem oblivious_currentTime : Oblivious currentTime :=
  oblivious_bind oblivious_readClock fun _ => oblivious_pure _

theorem oblivious_ofExcept {α : Type} (r : Except Fault α) : Oblivious (ofExcept r) := by
  cases r with
  | ok a => exact oblivious_pure a
  | error e => exact related_throw e

theorem oblivious_assigned {α : Type} (name : Bytes) (a : Option α) :
    Oblivious (assigned name a) := by
  cases a with
  | none => exact related_throw _
  | some a => exact oblivious_pure _

theorem oblivious_valueOf (flag : Option Bool) : Oblivious (valueOf flag) := by
  cases flag with
  | some value => exact oblivious_pure value
  | none =>
      exact oblivious_get_bind (fun _ _ => rfl) fun _ =>
        oblivious_bind (oblivious_modify (fun _ _ => rfl) fun _ => rfl) fun _ => oblivious_pure _

theorem oblivious_withNoise {α : Type} (service : NoiseService) (m : Effect Fault NoiseService α) :
    Oblivious (withNoise service m) := by
  refine related_zoom m (fun _ _ _ => rfl) ?_
  rintro node _ service' ⟨trace, rfl, hvisible⟩
  exact ⟨trace, rfl, hvisible⟩

theorem oblivious_sendPacket (packet : BitchatPacket) : Oblivious (sendPacket packet) :=
  oblivious_get_bind (fun _ _ => rfl) fun _ =>
    oblivious_ite (oblivious_bind (oblivious_emit _) fun _ => oblivious_pure _) (oblivious_pure _)

theorem oblivious_newPacket (type : UInt8) (payload : Bytes) :
    Oblivious (newPacket type payload) :=
  oblivious_bind oblivious_getCurrentTimestamp fun _ => oblivious_pure _

theorem oblivious_ownPacket (type : UInt8) (payload : Bytes) :
    Oblivious (ownPacket type payload) :=
  oblivious_bind (oblivious_newPacket type payload) fun _ =>
    oblivious_get_bind (fun _ _ => rfl) fun _ =>
      oblivious_bind (oblivious_ofExcept _) fun _ =>
        oblivious_bind oblivious_getCurrentTimestamp fun _ => oblivious_pure _

theorem oblivious_sendOwnPacket (type : UInt8) (payload : Bytes) :
    Oblivious (sendOwnPacket type payload) :=
  oblivious_bind (oblivious_ownPacket type payload) oblivious_sendPacket

theorem oblivious_encryptPayload (message : BitchatMessage) (payload : Bytes) :
    Oblivious (encryptPayload message payload) := by
  refine oblivious_get_bind (fun _ _ => rfl) fun node => ?_
  cases node.noiseService with
  | none => exact oblivious_pure _
  | some service =>
      refine oblivious_ite (oblivious_pure _) ?_
      cases service.getEstablishedSessionIDs with
      | nil => exact oblivious_pure _
      | cons firstPeerId _ =>
          exact oblivious_bind oblivious_readClock fun now =>
            oblivious_bind (oblivious_withNoise service _) fun _ => oblivious_pure _

theorem oblivious_createMessagePacket (lz4 : LZ4) (uuid : Bytes) (message : BitchatMessage) :
    Oblivious (createMessagePacket lz4 uuid message) := by
  refine oblivious_bind (oblivious_encryptPayload _ _) fun _ =>
    oblivious_bind (oblivious_ownPacket _ _) fun _ =>
      oblivious_get_bind (fun _ _ => rfl) fun node => ?_
  cases node.cryptoService with
  | none => exact oblivious_pure _
  | some crypto => exact oblivious_pure _

theorem oblivious_createChannelAnnouncePacket (channel : Bytes) (joining : Bool) :
    Oblivious (createChannelAnnouncePacket channel joining) :=
  oblivious_bind (oblivious_newPacket _ _) fun _ =>
    oblivious_bind oblivious_getCurrentTimestamp fun _ => oblivious_pure _

theorem oblivious_createAnnouncePacket : Oblivious createAnnouncePacket :=
  oblivious_get_bind (fun _ _ => rfl) fun _ => oblivious_ownPacket _ _

theorem oblivious_sendVersionHello (peripheralID : Bytes) :
    Oblivious (sendVersionHello peripheralID) :=
  oblivious_bind (oblivious_bind (oblivious_ownPacket _ _) fun _ => oblivious_pure _) fun _ =>
    oblivious_ite (oblivious_bind (oblivious_sendPacket _) fun _ => oblivious_pure _)
      (oblivious_emit _)

theorem oblivious_sendVersionAck (ack : VersionAck) (peerID : Bytes) :
    Oblivious (sendVersionAck ack peerID) :=
  oblivious_bind (oblivious_ownPacket _ _) fun _ =>
    oblivious_bind (oblivious_ofExcept _) fun _ =>
      oblivious_bind (oblivious_sendPacket _) fun _ => oblivious_pure _

theorem oblivious_newMessage (uuid sender content channel : Bytes) :
    Oblivious (newMessage uuid sender content channel) :=
  oblivious_bind oblivious_getCurrentTimestamp fun _ => oblivious_pure _

theorem oblivious_addMessageToHistory (message : BitchatMessage) (channel : Bytes) :
    Oblivious (addMessageToHistory message channel) :=
  oblivious_bind (oblivious_modifyData _) fun _ => oblivious_emit _

theorem oblivious_sendMessage (lz4 : LZ4) (uuid content channel : Bytes) :
    Oblivious (sendMessage lz4 uuid content channel) :=
  oblivious_get_bind (fun _ _ => rfl) fun _ =>
    oblivious_bind (oblivious_newMessage _ _ _ _) fun _ =>
      oblivious_bind (oblivious_createMessagePacket _ _ _) fun _ =>
        oblivious_bind (oblivious_sendPacket _) fun _ =>
          oblivious_ite (oblivious_bind (oblivious_addMessageToHistory _ _) fun _ =>
            oblivious_pure _) (oblivious_pure _)

theorem oblivious_sendPrivateMessage (lz4 : LZ4) (uuid content recipientNickname : Bytes) :
    Oblivious (sendPrivateMessage lz4 uuid content recipientNickname) :=
  oblivious_get_bind (fun _ _ => rfl) fun _ =>
    oblivious_bind (oblivious_newMessage _ _ _ _) fun _ =>
      oblivious_bind (oblivious_createMessagePacket _ _ _) fun _ => oblivious_sendPacket _

theorem oblivious_leaveChannel : Oblivious leaveChannel :=
  oblivious_get_bind (fun _ _ => rfl) fun _ =>
    oblivious_ite (oblivious_pure _) (oblivious_bind (oblivious_modifyData _) fun _ =>
      oblivious_bind (oblivious_createChannelAnnouncePacket _ _) fun _ =>
        oblivious_bind (oblivious_sendPacket _) fun _ => oblivious_notify _ _)

theorem oblivious_joinChannel (channel : Bytes) : Oblivious (joinChannel channel) :=
  oblivious_bind (oblivious_modifyData _) fun _ =>
    oblivious_ite (oblivious_pure _) (oblivious_bind oblivious_leaveChannel fun _ =>
      oblivious_bind (oblivious_modifyData _) fun _ =>
        oblivious_bind (oblivious_createChannelAnnouncePacket _ _) fun _ =>
          oblivious_bind (oblivious_sendPacket _) fun _ => oblivious_notify _ _)

theorem oblivious_startIdentityAnnounce : Oblivious startIdentityAnnounce :=
  oblivious_get_bind (fun _ _ => rfl) fun _ =>
    oblivious_ite (oblivious_pure _)
      (oblivious_bind (oblivious_sendOwnPacket _ _) fun _ => oblivious_pure _)

theorem oblivious_answerVersionHello (peerID : Bytes) (hello : VersionHello) :
    Oblivious (answerVersionHello peerID hello) :=
  oblivious_ite
    (oblivious_bind (oblivious_sendVersionAck _ _) fun _ =>
      oblivious_get_bind (fun _ _ => rfl) fun _ =>
        oblivious_ite (oblivious_pure _)
          (oblivious_bind oblivious_currentTime fun _ => oblivious_modifyData _))
    (oblivious_sendVersionAck _ _)

theorem oblivious_handleVersionHello (peerID data : Bytes) :
    Oblivious (handleVersionHello peerID data) :=
  oblivious_ite (oblivious_pure _) (oblivious_bind (oblivious_ofExcept _) fun hello =>
    oblivious_bind (oblivious_answerVersionHello peerID hello) fun _ => oblivious_assigned _ _)

theorem oblivious_handleVersionAck (peerID data : Bytes) :
    Oblivious (handleVersionAck peerID data) :=
  oblivious_ite (oblivious_pure _) (oblivious_bind (oblivious_ofExcept _) fun _ =>
    oblivious_bind (oblivious_valueOf _) fun _ =>
      oblivious_bind (oblivious_ite
        (oblivious_bind (oblivious_modifyData _) fun _ => oblivious_notify _ _)
        (oblivious_pure _)) fun _ => oblivious_assigned _ _)

theorem oblivious_processMessagePacket (packet : BitchatPacket) :
    Oblivious (processMessagePacket packet) :=
  oblivious_bind (oblivious_ofExcept _) fun _ => oblivious_bind (oblivious_emit _) fun _ =>
    oblivious_get_bind (fun _ _ => rfl) fun _ =>
      oblivious_ite (oblivious_pure _) (oblivious_ite
        (oblivious_bind (oblivious_addMessageToHistory _ _) fun _ => oblivious_notify _ _)
        (oblivious_pure _))

theorem oblivious_updatePeerChannel (peerID : Bytes) (announce : ChannelAnnounce) :
    Oblivious (updatePeerChannel peerID announce) := by
  refine oblivious_get_bind (fun _ _ => rfl) fun node => ?_
  cases node.data.getPeerInfo peerID with
  | none => exact oblivious_pure _
  | some peerInfo =>
      exact oblivious_bind (oblivious_valueOf _) fun _ => oblivious_modifyData _

theorem oblivious_processChannelAnnouncePacket (packet : BitchatPacket) :
    Oblivious (processChannelAnnouncePacket packet) :=
  oblivious_bind (oblivious_ofExcept _) fun _ =>
    oblivious_bind (oblivious_updatePeerChannel _ _) fun _ => oblivious_assigned _ _

theorem oblivious_processAnnouncePacket (packet : BitchatPacket) (peripheralID : Bytes) :
    Oblivious (processAnnouncePacket packet peripheralID) := by
  refine oblivious_get_bind (fun _ _ => rfl) fun node =>
    oblivious_bind oblivious_currentTime fun time => ?_
  cases node.data.getPeerInfo (toHex packet.senderID) with
  | none =>
      exact oblivious_bind oblivious_currentTime fun _ =>
        oblivious_bind (oblivious_modifyData _) fun _ => oblivious_notify _ _
  | some existingPeer => exact oblivious_modifyData _

theorem oblivious_processLeavePacket (packet : BitchatPacket) :
    Oblivious (processLeavePacket packet) := by
  refine oblivious_get_bind (fun _ _ => rfl) fun node => ?_
  cases node.data.getPeerInfo (toHex packet.senderID) with
  | none => exact oblivious_pure _
  | some peerInfo => exact oblivious_bind (oblivious_modifyData _) fun _ => oblivious_notify _ _

theorem oblivious_onNoisePacket (packet : BitchatPacket)
    {handle : Node → NoiseService → Bytes → ServiceM Unit}
    (htrace : ∀ node trace, handle { node with trace } = handle node)
    (hhandle : ∀ node service peerID, Oblivious (handle node service peerID)) :
    Oblivious (onNoisePacket packet handle) := by
  refine oblivious_get_bind (fun node trace => ?_) fun node => ?_
  · rw [htrace]
  · cases node.noiseService with
    | none => exact oblivious_pure _
    | some service => exact oblivious_ite (oblivious_pure _) (hhandle node service _)

theorem oblivious_sendHandshake (type : UInt8) (data : Bytes) :
    Oblivious (do
      let _ ← sendOwnPacket type data
      pure ()) :=
  oblivious_bind (oblivious_sendOwnPacket type data) fun _ => oblivious_pure _

theorem oblivious_processNoiseHandshakeInitPacket (packet : BitchatPacket) :
    Oblivious (processNoiseHandshakeInitPacket packet) := by
  refine oblivious_onNoisePacket packet (fun _ _ => rfl) fun node service peerID =>
    oblivious_ite (oblivious_pure _) (oblivious_bind oblivious_readClock fun _ =>
      oblivious_bind (oblivious_withNoise service _) fun response => ?_)
  cases response with
  | none => exact oblivious_pure _
  | some response => exact oblivious_ite (oblivious_pure _) (oblivious_sendHandshake _ _)

theorem oblivious_processNoiseHandshakeRespPacket (packet : BitchatPacket) :
    Oblivious (processNoiseHandshakeRespPacket packet) := by
  refine oblivious_onNoisePacket packet (fun _ _ => rfl) fun node service peerID =>
    oblivious_ite (oblivious_pure _) (oblivious_bind oblivious_readClock fun _ =>
      oblivious_bind (oblivious_withNoise service _) fun response => ?_)
  cases response with
  | none => exact oblivious_pure _
  | some response => exact oblivious_ite (oblivious_sendHandshake _ _) (oblivious_pure _)

theorem oblivious_processNoiseEncryptedPacket (packet : BitchatPacket) :
    Oblivious (processNoiseEncryptedPacket packet) :=
  oblivious_onNoisePacket packet (fun _ _ => rfl) fun _ service _ =>
    oblivious_bind oblivious_readClock fun _ =>
      oblivious_bind (oblivious_withNoise service _) fun _ =>
        oblivious_ite (oblivious_pure _) (oblivious_bind (oblivious_newPacket _ _) fun _ =>
          oblivious_processMessagePacket _)

theorem oblivious_processNoiseIdentityAnnouncePacket (packet : BitchatPacket) :
    Oblivious (processNoiseIdentityAnnouncePacket packet) :=
  oblivious_onNoisePacket packet (fun _ _ => rfl) fun _ service _ =>
    oblivious_ite (oblivious_bind (oblivious_withNoise service _) fun _ =>
      oblivious_ite (oblivious_pure _) (oblivious_sendHandshake _ _)) (oblivious_pure _)

theorem oblivious_dispatch (packet : BitchatPacket) (peripheralID : Bytes) :
    Oblivious (dispatch packet peripheralID) := by
  unfold dispatch
  refine oblivious_ite ?_ (oblivious_ite ?_ (oblivious_ite ?_ (oblivious_ite ?_ (oblivious_ite ?_
    (oblivious_ite ?_ (oblivious_ite ?_ (oblivious_ite ?_ (oblivious_ite ?_ (oblivious_ite ?_
      (oblivious_pure _))))))))))
  · exact oblivious_ite (oblivious_pure _) (oblivious_handleVersionHello _ _)
  · exact oblivious_ite (oblivious_pure _) (oblivious_handleVersionAck _ _)
  · exact oblivious_processMessagePacket packet
  · exact oblivious_processChannelAnnouncePacket packet
  · exact oblivious_processAnnouncePacket packet peripheralID
  · exact oblivious_processLeavePacket packet
  · exact oblivious_processNoiseHandshakeInitPacket packet
  · exact oblivious_processNoiseHandshakeRespPacket packet
  · exact oblivious_processNoiseEncryptedPacket packet
  · exact oblivious_processNoiseIdentityAnnouncePacket packet

theorem processMessagePacket_congr {packet packet' : BitchatPacket}
    (hsender : packet.senderID = packet'.senderID) (hpayload : packet.payload = packet'.payload) :
    processMessagePacket packet = processMessagePacket packet' := by
  unfold processMessagePacket
  rw [hsender, hpayload]

section Packets

variable {packet packet' : BitchatPacket} (h : ReadsAlike packet packet')
include h

/-- A decrypted packet takes the flags of the packet it came in, which nobody reads either. -/
theorem dispatch_of_readsAlike (peripheralID : Bytes) :
    dispatch packet peripheralID = dispatch packet' peripheralID := by
  have hhello : processVersionHelloPacket packet = processVersionHelloPacket packet' := by
    unfold processVersionHelloPacket
    rw [h.senderID, h.payload]
  have hack : processVersionAckPacket packet = processVersionAckPacket packet' := by
    unfold processVersionAckPacket
    rw [h.senderID, h.payload]
  have hmessage : processMessagePacket packet = processMessagePacket packet' :=
    processMessagePacket_congr h.senderID h.payload
  have hchannel : processChannelAnnouncePacket packet = processChannelAnnouncePacket packet' := by
    unfold processChannelAnnouncePacket
    rw [h.senderID, h.payload]
  have hannounce : processAnnouncePacket packet peripheralID =
      processAnnouncePacket packet' peripheralID := by
    unfold processAnnouncePacket
    rw [h.senderID, h.payload]
  have hleave : processLeavePacket packet = processLeavePacket packet' := by
    unfold processLeavePacket
    rw [h.senderID]
  have hinit : processNoiseHandshakeInitPacket packet = processNoiseHandshakeInitPacket packet' := by
    unfold processNoiseHandshakeInitPacket onNoisePacket
    rw [h.senderID, h.payload]
  have hresp : processNoiseHandshakeRespPacket packet = processNoiseHandshakeRespPacket packet' := by
    unfold processNoiseHandshakeRespPacket onNoisePacket
    rw [h.senderID, h.payload]
  have hencrypted : processNoiseEncryptedPacket packet = processNoiseEncryptedPacket packet' := by
    unfold processNoiseEncryptedPacket onNoisePacket
    rw [h.senderID, h.payload, h.timestamp]
    refine bind_congr fun node => ?_
    cases node.noiseService with
    | none => rfl
    | some service =>
        refine if_congr Iff.rfl rfl (bind_congr fun now => bind_congr fun decrypted => ?_)
        refine if_congr Iff.rfl rfl (bind_congr fun made => ?_)
        exact processMessagePacket_congr rfl rfl
  have hidentity : processNoiseIdentityAnnouncePacket packet =
      processNoiseIdentityAnnouncePacket packet' := by
    unfold processNoiseIdentityAnnouncePacket onNoisePacket
    rw [h.senderID]
  unfold dispatch
  rw [h.type, hhello, hack, hmessage, hchannel, hannounce, hleave, hinit, hresp, hencrypted,
    hidentity]

theorem isValid_of_readsAlike : packet.isValid = packet'.isValid := by
  unfold BitchatPacket.isValid
  rw [h.version, h.payloadLength, h.payload, h.timestamp]

theorem messageID_of_readsAlike : messageID packet = messageID packet' := by
  rw [messageID, messageID, h.senderID, h.timestamp]

omit h in
/-- The note on the routed packet is all that the two packets leave behind differently. -/
theorem related_emit_dispatched :
    Related Alike (emit (.dispatched packet)) (emit (.dispatched packet')) := by
  refine related_modify ?_
  rintro node _ ⟨trace, rfl, hvisible⟩
  refine ⟨trace ++ [.dispatched packet'], rfl, ?_⟩
  have hnone : ∀ packet, visible [.dispatched packet] = [] := fun _ => rfl
  rw [visible, List.filter_append, visible, List.filter_append]
  change visible _ ++ visible _ = visible _ ++ visible _
  rw [hnone, hnone, hvisible]

theorem related_processPacket (peripheralID : Bytes) :
    Related Alike (processPacket packet peripheralID) (processPacket packet' peripheralID) := by
  unfold processPacket shouldProcessPacket markPacketProcessed
  rw [isValid_of_readsAlike h, messageID_of_readsAlike h, dispatch_of_readsAlike h]
  refine Related.ite (related_pure _) (related_get_bind ?_)
  rintro node _ ⟨trace, rfl, -⟩
  exact Related.ite (related_pure _) (Related.bind (oblivious_modifyData _) fun _ =>
    Related.bind related_emit_dispatched fun _ => oblivious_dispatch packet' peripheralID)

end Packets

theorem oblivious_peerDisconnected (peripheralID : Bytes) :
    Oblivious (peerDisconnected peripheralID) := by
  refine oblivious_get_bind (fun _ _ => rfl) fun node => ?_
  cases node.data.peers.find? fun peer => peer.peripheralID = peripheralID with
  | none => exact oblivious_notify _ _
  | some peer =>
      exact oblivious_bind (oblivious_modifyData _) fun _ =>
        oblivious_bind (oblivious_notify _ _) fun _ => oblivious_notify _ _

theorem oblivious_localCall (call : LocalCall) : Oblivious call.perform := by
  cases call with
  | joinChannel channel => exact oblivious_joinChannel channel
  | leaveChannel => exact oblivious_leaveChannel
  | sendMessage lz4 uuid content channel =>
      exact oblivious_bind (oblivious_sendMessage _ _ _ _) fun _ => oblivious_pure _
  | sendPrivateMessage lz4 uuid content recipientNickname =>
      exact oblivious_bind (oblivious_sendPrivateMessage _ _ _ _) fun _ => oblivious_pure _
  | startIdentityAnnounce => exact oblivious_startIdentityAnnounce
  | sendVersionHello peripheralID => exact oblivious_sendVersionHello peripheralID
  | peerConnected peripheralID => exact oblivious_notify _ _
  | peerDisconnected peripheralID => exact oblivious_peerDisconnected peripheralID

theorem oblivious_announce (isReady : Bool) : Oblivious (BluetoothAnnounceRunner.announce isReady) :=
  oblivious_get_bind (fun _ _ => rfl) fun _ =>
    oblivious_bind (oblivious_newPacket _ _) fun _ => oblivious_bind (oblivious_ofExcept _) fun _ =>
      oblivious_bind oblivious_getCurrentTimestamp fun _ =>
        oblivious_ite (oblivious_bind (oblivious_sendPacket _) fun _ => oblivious_pure _)
          (oblivious_pure _)

end MessageService

open MessageService NetworkService

/-- The same action, but for what nobody reads of the packet that is received. -/
inductive ActsAlike : NodeAction → NodeAction → Prop
  | receive {packet packet' : BitchatPacket} (h : ReadsAlike packet packet')
      (peripheralID : Bytes) : ActsAlike (.receive packet peripheralID) (.receive packet' peripheralID)
  | same (action : NodeAction) : ActsAlike action action

theorem readsAlike_refl (packet : BitchatPacket) : ReadsAlike packet packet :=
  ⟨rfl, rfl, rfl, rfl, rfl, rfl⟩

theorem outcome_relaying (packet : BitchatPacket) (node : Node) : ∃ relays, visible relays = [] ∧
    (if packet.ttl > 0 then noteRelays packet else pure () : ServiceM Unit).outcome node =
      (.ok ⟨⟩, { node with trace := node.trace ++ relays }) := by
  split_ifs
  · refine ⟨_, ?_, outcome_emitAll _ node⟩
    simp [visible]
  · refine ⟨[], rfl, ?_⟩
    rw [List.append_nil]
    rfl

theorem related_receive {packet packet' : BitchatPacket} (h : ReadsAlike packet packet')
    (peripheralID : Bytes) :
    Related Alike (receive packet peripheralID) (receive packet' peripheralID) := by
  rw [receive_eq, receive_eq]
  refine (related_processPacket h peripheralID).bind fun _ => ?_
  rintro node _ ⟨trace, rfl, hvisible⟩
  obtain ⟨relays, hnone, hout⟩ := outcome_relaying packet node
  obtain ⟨relays', hnone', hout'⟩ := outcome_relaying packet' { node with trace }
  rw [result, result, exec, exec, hout, hout']
  refine ⟨rfl, trace ++ relays', rfl, ?_⟩
  rw [visible] at hnone hnone' hvisible ⊢
  rw [visible, List.filter_append, List.filter_append, hnone, hnone', hvisible, visible]

theorem oblivious_perform (action : NodeAction) : Oblivious action.perform := by
  cases action with
  | receive packet peripheralID => exact related_receive (readsAlike_refl packet) peripheralID
  | call localCall => exact oblivious_localCall localCall
  | changeNickname nickname => exact oblivious_modifyData _
  | announce isReady => exact oblivious_announce isReady
  | announceTo peripheralID =>
      exact oblivious_bind oblivious_createAnnouncePacket fun _ => oblivious_emit _
  | cleanupStalePeers time => exact oblivious_modifyData _
  | network connected => exact oblivious_modify (fun _ _ => rfl) fun _ => rfl

theorem related_perform {action action' : NodeAction} (h : ActsAlike action action') :
    Related Alike action.perform action'.perform := by
  cases h with
  | receive hreads peripheralID => exact related_receive hreads peripheralID
  | same => exact oblivious_perform action

/-- Whatever recipients, hops, flags and signatures the received packets have, a run of a node
leaves the same data, the same sessions and the same clock behind, sends the same packets of its
own and reports the same. -/
theorem runs_alike (node : Node) {actions actions' : List NodeAction}
    (h : List.Forall₂ ActsAlike actions actions') :
    Alike (nodeActivity.run node actions) (nodeActivity.run node actions') :=
  TransitionSystem.run_forall₂ (fun node node' _ _ halike hacts =>
    (related_perform hacts node node' halike).2) h (alike_refl node)

/-- The packet of `hi`, sent on by somebody else, for one node alone and with a signature. -/
def forgedPacket : BitchatPacket :=
  { groupPacket pktTypeMessage newcomer with
    ttl := 0
    flags := flagHasRecipient ||| flagHasSignature
    recipientID := List.replicate 8 1
    signature := List.replicate 64 0 }

/-- A node with a peer, to which it relays the one packet and not the other. -/
def relayingMember : Node :=
  { member with data := { member.data with peers := [{ peerID := toHex (List.replicate 8 2) }] } }

theorem runs_alike_forged :
    Alike (nodeActivity.run relayingMember [.receive (groupPacket pktTypeMessage newcomer) [],
        .announce true])
      (nodeActivity.run relayingMember [.receive forgedPacket [], .announce true]) := by
  have hreads : ReadsAlike (groupPacket pktTypeMessage newcomer) forgedPacket :=
    ⟨rfl, rfl, rfl, rfl, rfl, rfl⟩
  exact runs_alike relayingMember (.cons (.receive hreads []) (.cons (.same _) .nil))

end Bitchat
