import Bitchat.ServiceOutcomes

/-!
# Outcomes of the noise handlers

A noise handler does nothing without a noise service or on a packet of the node itself. For
another sender, what it does is decided by the state of the sender's session. The packet of
a message is made here too, since the state of the sessions decides whether it is encrypted.
-/

namespace Bitchat.MessageService

open Effect StringHelper PacketSerializer CompressionHelper

variable {node : Node} {packet : BitchatPacket} {service : NoiseService}

theorem outcome_onNoisePacket_of_none (h : node.noiseService = none)
    (handle : Node → NoiseService → Bytes → ServiceM Unit) :
    (onNoisePacket packet handle).outcome node = (.ok ⟨⟩, node) := by
  rw [onNoisePacket, outcome_bind_ok (outcome_get node), h]
  rfl

theorem outcome_onNoisePacket_of_self (h : toHex packet.senderID = node.data.peerID)
    (handle : Node → NoiseService → Bytes → ServiceM Unit) :
    (onNoisePacket packet handle).outcome node = (.ok ⟨⟩, node) := by
  rw [onNoisePacket, outcome_bind_ok (outcome_get node)]
  cases node.noiseService with
  | none => rfl
  | some service =>
      dsimp only
      rw [if_pos h]
      rfl

/-- A packet of another node for a node that has a noise service. -/
structure IsForeign (node : Node) (packet : BitchatPacket) (service : NoiseService) : Prop where
  noise : node.noiseService = some service
  sender : toHex packet.senderID ≠ node.data.peerID

theorem outcome_onNoisePacket (h : IsForeign node packet service)
    (handle : Node → NoiseService → Bytes → ServiceM Unit) :
    (onNoisePacket packet handle).outcome node =
      (handle node service (toHex packet.senderID)).outcome node := by
  rw [onNoisePacket, outcome_bind_ok (outcome_get node), h.noise]
  dsimp only
  rw [if_neg h.sender]

/-- Both handlers of handshake packets stop at an established session, and establish one
otherwise. `reply` is what they do with the answer. -/
def onHandshake (packet : BitchatPacket) (reply : Bytes → ServiceM Unit) : ServiceM Unit :=
  onNoisePacket packet fun node service peerID => do
    if service.hasEstablishedSession peerID then pure ()
    else
      let now ← readClock
      let response ← withNoise service
        (NoiseService.handleIncomingHandshake peerID packet.payload node.data.peerID now)
      match response with
      | none => pure ()
      | some response => reply response

theorem outcome_onHandshake_of_established (h : IsForeign node packet service)
    (hestablished : service.hasEstablishedSession (toHex packet.senderID) = true)
    (reply : Bytes → ServiceM Unit) : (onHandshake packet reply).outcome node = (.ok ⟨⟩, node) := by
  rw [onHandshake, outcome_onNoisePacket h]
  rw [if_pos hestablished]
  rfl

/-- The node when the answer is handled. -/
def withSessions (node : Node) (service : NoiseService) : Node :=
  { node with noiseService := some service, clockReads := node.clockReads + 1 }

theorem outcome_onHandshake_of_new (h : IsForeign node packet service)
    (hnew : service.hasEstablishedSession (toHex packet.senderID) = false)
    (reply : Bytes → ServiceM Unit) :
    ∃ response service', response.length = 6 ∧
      service'.status =
        Function.update service.status (toHex packet.senderID) (some true) ∧
      (onHandshake packet reply).outcome node =
        (reply response).outcome (withSessions node service') := by
  obtain ⟨response, service', hout, hlen, hstatus⟩ := NoiseService.outcome_handleIncomingHandshake
    hnew packet.payload node.data.peerID (node.clock node.clockReads)
  refine ⟨response, service', hlen, hstatus, ?_⟩
  have hnoise : ∀ node : Node, (withNoise service (NoiseService.handleIncomingHandshake
        (toHex packet.senderID) packet.payload node.data.peerID
        (node.clock node.clockReads))).outcome { node with clockReads := node.clockReads + 1 } =
      (((NoiseService.handleIncomingHandshake (toHex packet.senderID) packet.payload
          node.data.peerID (node.clock node.clockReads)).outcome service).1,
        withSessions node ((NoiseService.handleIncomingHandshake (toHex packet.senderID)
          packet.payload node.data.peerID (node.clock node.clockReads)).outcome service).2) :=
    fun _ => rfl
  rw [onHandshake, outcome_onNoisePacket h]
  rw [hnew, if_neg Bool.false_ne_true, outcome_bind_ok (outcome_readClock node), outcome_bind,
    hnoise, hout]

/-- `sendOwnPacket` with its result dropped. -/
def sendOwn (type : UInt8) (payload : Bytes) : ServiceM Unit := do
  let _ ← sendOwnPacket type payload
  pure ()

/-- The node after a packet of its own has been made and given to the network. -/
def sentOwn (node : Node) (senderID : Bytes) (type : UInt8) (payload : Bytes) : Node :=
  { node with
    clockReads := node.clockReads + 2
    trace := node.trace ++
      notification node.connected (.sent (ownPacketOf node senderID type payload)) }

theorem outcome_sendOwn_ok {senderID : Bytes} (h : stringToVector node.data.peerID = .ok senderID)
    (type : UInt8) (payload : Bytes) :
    (sendOwn type payload).outcome node = (.ok ⟨⟩, sentOwn node senderID type payload) := by
  rw [sendOwn, outcome_bind_ok (outcome_sendOwnPacket_ok h type payload)]
  rfl

theorem outcome_sendOwn_error {e : Fault} (h : stringToVector node.data.peerID = .error e)
    (type : UInt8) (payload : Bytes) :
    (sendOwn type payload).outcome node =
      (.error e, { node with clockReads := node.clockReads + 1 }) := by
  rw [sendOwn, outcome_bind_error (outcome_sendOwnPacket_error h type payload)]

theorem processNoiseHandshakeInitPacket_eq (packet : BitchatPacket) :
    processNoiseHandshakeInitPacket packet = onHandshake packet fun response =>
      if response.isEmpty then pure () else sendOwn pktTypeNoiseHandshakeResp response := rfl

theorem processNoiseHandshakeRespPacket_eq (packet : BitchatPacket) :
    processNoiseHandshakeRespPacket packet = onHandshake packet fun response =>
      if response.length = 96 ∨ response.length = 48 then
        sendOwn pktTypeNoiseHandshakeResp response
      else pure () := rfl

theorem outcome_processNoiseHandshakeInitPacket_of_new (h : IsForeign node packet service)
    (hnew : service.hasEstablishedSession (toHex packet.senderID) = false) :
    ∃ response service', service'.status =
        Function.update service.status (toHex packet.senderID) (some true) ∧
      (processNoiseHandshakeInitPacket packet).outcome node =
        (sendOwn pktTypeNoiseHandshakeResp response).outcome (withSessions node service') := by
  rw [processNoiseHandshakeInitPacket_eq]
  obtain ⟨response, service', hlen, hstatus, hout⟩ := outcome_onHandshake_of_new h hnew
    fun response =>
      if response.isEmpty then pure () else sendOwn pktTypeNoiseHandshakeResp response
  have hne : response.isEmpty = false := by
    rw [List.isEmpty_eq_false_iff]
    rintro rfl
    simp at hlen
  refine ⟨response, service', hstatus, ?_⟩
  rw [hout, hne, if_neg Bool.false_ne_true]

/-- The answer to a response has six bytes, so it is never sent. -/
theorem outcome_processNoiseHandshakeRespPacket_of_new (h : IsForeign node packet service)
    (hnew : service.hasEstablishedSession (toHex packet.senderID) = false) :
    ∃ service', service'.status =
        Function.update service.status (toHex packet.senderID) (some true) ∧
      (processNoiseHandshakeRespPacket packet).outcome node =
        (.ok ⟨⟩, withSessions node service') := by
  rw [processNoiseHandshakeRespPacket_eq]
  obtain ⟨response, service', hlen, hstatus, hout⟩ := outcome_onHandshake_of_new h hnew
    fun response => if response.length = 96 ∨ response.length = 48 then
      sendOwn pktTypeNoiseHandshakeResp response else pure ()
  refine ⟨service', hstatus, ?_⟩
  rw [hout, if_neg (by omega)]
  rfl

theorem outcome_processNoiseEncryptedPacket_error (h : IsForeign node packet service)
    (hnew : service.hasEstablishedSession (toHex packet.senderID) = false) :
    ∃ what, (processNoiseEncryptedPacket packet).outcome node =
      (.error (.runtimeError what), withSessions node service) := by
  obtain ⟨what, hdecrypt⟩ := NoiseService.outcome_decrypt_error hnew packet.payload
    (node.clock node.clockReads)
  refine ⟨what, ?_⟩
  rw [processNoiseEncryptedPacket, outcome_onNoisePacket h,
    outcome_bind_ok (outcome_readClock node), outcome_bind, withNoise, outcome_zoom, hdecrypt]
  rfl

def decryptedPacket (node : Node) (packet : BitchatPacket) : BitchatPacket :=
  { BitchatPacket.make pktTypeMessage packet.payload (timestampAt node (node.clockReads + 1)) with
    senderID := packet.senderID, timestamp := packet.timestamp, flags := packet.flags }

theorem outcome_processNoiseEncryptedPacket (h : IsForeign node packet service)
    (hestablished : service.hasEstablishedSession (toHex packet.senderID) = true) :
    ∃ service', service'.status = service.status ∧
      (processNoiseEncryptedPacket packet).outcome node =
        if packet.payload.isEmpty then (.ok ⟨⟩, withSessions node service')
        else (processMessagePacket (decryptedPacket node packet)).outcome
          { withSessions node service' with clockReads := node.clockReads + 2 } := by
  obtain ⟨service', hdecrypt, hstatus⟩ := NoiseService.outcome_decrypt_of_established hestablished
    packet.payload (node.clock node.clockReads)
  refine ⟨service', hstatus, ?_⟩
  rw [processNoiseEncryptedPacket, outcome_onNoisePacket h,
    outcome_bind_ok (outcome_readClock node), outcome_bind, withNoise, outcome_zoom, hdecrypt]
  dsimp only
  split
  · rfl
  · rw [outcome_bind_ok (outcome_newPacket _ _ _)]
    rfl

theorem outcome_processNoiseIdentityAnnouncePacket_of_ge (h : IsForeign node packet service)
    (hge : ¬ node.data.peerID < toHex packet.senderID) :
    (processNoiseIdentityAnnouncePacket packet).outcome node = (.ok ⟨⟩, node) := by
  rw [processNoiseIdentityAnnouncePacket, outcome_onNoisePacket h, if_neg hge]
  rfl

/-- The initiator throws unless there is a session that is not established yet. -/
theorem outcome_processNoiseIdentityAnnouncePacket_error (h : IsForeign node packet service)
    (hlt : node.data.peerID < toHex packet.senderID)
    (hstatus : service.status (toHex packet.senderID) ≠ some false) :
    ∃ what, (processNoiseIdentityAnnouncePacket packet).outcome node =
      (.error (.runtimeError what), node) := by
  obtain ⟨what, hinitiate⟩ := NoiseService.outcome_initiateHandshake_error hstatus
  have hsame : { node with noiseService := some service } = node := by rw [← h.noise]
  have hout : (withNoise service
      (NoiseService.initiateHandshake (toHex packet.senderID))).outcome node =
      (.error (.runtimeError what), node) := by
    rw [withNoise, outcome_zoom, hinitiate, hsame]
  refine ⟨what, ?_⟩
  rw [processNoiseIdentityAnnouncePacket, outcome_onNoisePacket h, if_pos hlt,
    outcome_bind_error hout]

theorem outcome_processNoiseIdentityAnnouncePacket_of_pending (h : IsForeign node packet service)
    (hlt : node.data.peerID < toHex packet.senderID)
    (hstatus : service.status (toHex packet.senderID) = some false) :
    ∃ handshakeData service', service'.status =
        Function.update service.status (toHex packet.senderID) (some true) ∧
      (processNoiseIdentityAnnouncePacket packet).outcome node =
        (sendOwn pktTypeNoiseHandshakeInit handshakeData).outcome
          { node with noiseService := some service' } := by
  obtain ⟨handshakeData, service', hinitiate, hlen, hstatus'⟩ :=
    NoiseService.outcome_initiateHandshake_of_pending hstatus
  have hout : (withNoise service
      (NoiseService.initiateHandshake (toHex packet.senderID))).outcome node =
      (.ok handshakeData, { node with noiseService := some service' }) := by
    rw [withNoise, outcome_zoom, hinitiate]
  have hne : handshakeData.isEmpty = false := by
    rw [List.isEmpty_eq_false_iff]
    rintro rfl
    simp at hlen
  refine ⟨handshakeData, service', hstatus', ?_⟩
  rw [processNoiseIdentityAnnouncePacket, outcome_onNoisePacket h, if_pos hlt,
    outcome_bind_ok hout, hne, if_neg Bool.false_ne_true]
  rfl

/-- The outcome of `encryptPayload`: the type of the packet and the node behind it. -/
def EncryptCase (message : BitchatMessage) (node node' : Node) (type : UInt8) : Prop :=
  type = pktTypeMessage ∧ (∀ service, node.noiseService = some service →
      message.isPrivate = true ∨ service.getEstablishedSessionIDs = []) ∧ node' = node ∨
    type = pktTypeNoiseEncrypted ∧ message.isPrivate = false ∧ ∃ service service',
      node.noiseService = some service ∧ service.getEstablishedSessionIDs ≠ [] ∧
        service'.status = service.status ∧ node' = withSessions node service'

theorem data_of_encryptPayload {message : BitchatMessage} {node node' : Node} {type : UInt8}
    (h : EncryptCase message node node' type) : node'.data = node.data := by
  rcases h with ⟨-, -, rfl⟩ | ⟨-, -, service, service', -, -, -, rfl⟩
  · rfl
  · rfl

theorem outcome_encryptPayload (message : BitchatMessage) (payload : Bytes) (node : Node) :
    ∃ type node', (encryptPayload message payload).outcome node = (.ok (type, payload), node') ∧
      EncryptCase message node node' type := by
  rw [encryptPayload, outcome_bind_ok (outcome_get node)]
  cases hnoise : node.noiseService with
  | none =>
      refine ⟨_, _, rfl, .inl ⟨rfl, fun service h => ?_, rfl⟩⟩
      cases hnoise.symm.trans h
  | some service =>
      have honly : ∀ service', node.noiseService = some service' → service' = service :=
        fun service' h => Option.some.inj (h.symm.trans hnoise)
      dsimp only
      cases hprivate : message.isPrivate with
      | true => exact ⟨_, _, rfl, .inl ⟨rfl, fun _ _ => .inl hprivate, rfl⟩⟩
      | false =>
          rw [if_neg Bool.false_ne_true]
          cases hids : service.getEstablishedSessionIDs with
          | nil =>
              exact ⟨_, _, rfl, .inl ⟨rfl, fun service' h => .inr (honly service' h ▸ hids), rfl⟩⟩
          | cons firstPeerId ids =>
              have hestablished : service.hasEstablishedSession firstPeerId = true :=
                NoiseService.hasEstablishedSession_of_mem (hids ▸ List.mem_cons_self)
              obtain ⟨service', hencrypt, hstatus⟩ := NoiseService.outcome_encrypt_of_established
                hestablished payload (node.clock node.clockReads)
              dsimp only
              rw [outcome_bind_ok (outcome_readClock node), outcome_bind, withNoise, outcome_zoom,
                hencrypt]
              exact ⟨_, _, rfl, .inr ⟨rfl, hprivate, service, service', hnoise, by simp [hids],
                hstatus, rfl⟩⟩

/-- The flags, the recipient and the signature that a message's packet gets. -/
def messagePacketOf (message : BitchatMessage) (cryptoService : Option CryptoService)
    (packet : BitchatPacket) : BitchatPacket :=
  let plain := packet.setCompressed (shouldCompress packet.payload)
  let addressed := if !message.isPrivate then
      { plain with recipientID := List.replicate 8 0xFF }.setHasRecipient true
    else plain
  match cryptoService with
  | none => addressed
  | some crypto =>
      { addressed with signature := crypto.signData packet.payload }.setHasSignature true

theorem carried_messagePacketOf (message : BitchatMessage) (cryptoService : Option CryptoService)
    (packet : BitchatPacket) :
    (messagePacketOf message cryptoService packet).version = packet.version ∧
      (messagePacketOf message cryptoService packet).type = packet.type ∧
      (messagePacketOf message cryptoService packet).senderID = packet.senderID ∧
      (messagePacketOf message cryptoService packet).payload = packet.payload ∧
      (messagePacketOf message cryptoService packet).payloadLength = packet.payloadLength := by
  unfold messagePacketOf
  cases cryptoService <;> cases message.isPrivate <;> exact ⟨rfl, rfl, rfl, rfl, rfl⟩

theorem compressed_payload_eq (lz4 : LZ4) (payload : Bytes) :
    (if shouldCompress payload then compressData lz4 payload else payload) =
      compressData lz4 payload := by
  split
  · rfl
  · next h => rw [compressData, if_pos (by simpa using h)]

theorem outcome_createMessagePacket_ok (lz4 : LZ4) (uuid : Bytes) (message : BitchatMessage)
    {senderID : Bytes} (hid : stringToVector node.data.peerID = .ok senderID) :
    ∃ type node', EncryptCase message node node' type ∧
      (createMessagePacket lz4 uuid message).outcome node =
        (.ok (messagePacketOf message node'.cryptoService (ownPacketOf node' senderID type
            (compressData lz4 (makeMessagePayload uuid message)))),
          { node' with clockReads := node'.clockReads + 2 }) := by
  obtain ⟨type, node', hencrypt, hcase⟩ := outcome_encryptPayload message
    (compressData lz4 (makeMessagePayload uuid message)) node
  have hid' : stringToVector node'.data.peerID = .ok senderID := by
    rw [data_of_encryptPayload hcase]
    exact hid
  refine ⟨type, node', hcase, ?_⟩
  rw [createMessagePacket]
  dsimp only
  rw [compressed_payload_eq, outcome_bind_ok hencrypt]
  dsimp only
  rw [outcome_bind_ok (outcome_ownPacket_ok hid' _ _), outcome_bind_ok (outcome_get _)]
  unfold messagePacketOf
  dsimp only
  cases node'.cryptoService with
  | none => rfl
  | some crypto => rfl

theorem createMessagePacket_inv {lz4 : LZ4} {uuid : Bytes} {message : BitchatMessage}
    {node' : Node}
    (h : (createMessagePacket lz4 uuid message).outcome node = (.ok packet, node')) :
    ∃ senderID type node₁, EncryptCase message node node₁ type ∧
      packet = messagePacketOf message node₁.cryptoService (ownPacketOf node₁ senderID type
        (compressData lz4 (makeMessagePayload uuid message))) := by
  cases hid : stringToVector node.data.peerID with
  | ok senderID =>
      obtain ⟨type, node₁, hcase, hout⟩ := outcome_createMessagePacket_ok lz4 uuid message hid
      rw [hout] at h
      cases h
      exact ⟨senderID, type, node₁, hcase, rfl⟩
  | error e =>
      obtain ⟨type, node₁, hencrypt, hcase⟩ := outcome_encryptPayload message
        (compressData lz4 (makeMessagePayload uuid message)) node
      rw [createMessagePacket] at h
      dsimp only at h
      rw [compressed_payload_eq, outcome_bind_ok hencrypt] at h
      dsimp only at h
      rw [outcome_bind_error (outcome_ownPacket_error (by
        rw [data_of_encryptPayload hcase]
        exact hid) _ _)] at h
      cases h

end Bitchat.MessageService
