import Bitchat.BitchatData
import Bitchat.ControlPayload
import Bitchat.NoiseService

/-!
# The message service

A `Node` is one running instance: its data store, its noise and crypto services, which
callbacks are registered, and the clock it reads. The methods of `MessageService` are
effects on a node. The network and the callbacks are seen through the `trace`, which also
notes when a packet is routed, what the message parser returned and what enters a history.
-/

namespace Bitchat

open ByteCursor StringHelper PacketSerializer CompressionHelper

namespace ProtocolHelper

def clientVersion : Bytes := ascii "1.0"
def platform : Bytes := ascii "cpp"

/-- The last version of the client's list that the server knows too. -/
def negotiateVersion (clientVersions serverVersions : Bytes) : UInt8 :=
  (clientVersions.reverse.find? fun version => version ∈ serverVersions).getD 0

def getSupportedVersions : Bytes := [1]

end ProtocolHelper

structure VersionAck where
  agreedVersion : UInt8
  serverVersion : Bytes
  platform : Bytes
  rejected : Bool := false
  reason : Bytes := []

structure CryptoService where
  signData : Bytes → Bytes

/-- Which of the callbacks have been set. -/
structure Callbacks where
  messageReceived : Bool := true
  channelJoined : Bool := true
  channelLeft : Bool := true
  peerJoined : Bool := true
  peerLeft : Bool := true
  peerConnected : Bool := true
  peerDisconnected : Bool := true

inductive Event where
  | sent (packet : BitchatPacket)
  | sentToPeripheral (packet : BitchatPacket) (peripheralID : Bytes)
  | relayed (packet : BitchatPacket) (peerID : Bytes)
  | dispatched (packet : BitchatPacket)
  | parsed (message : BitchatMessage)
  | addedToHistory (message : BitchatMessage) (channel : Bytes)
  | messageReceived (message : BitchatMessage)
  | channelJoined (channel : Bytes)
  | channelLeft (channel : Bytes)
  | peerJoined (peerID nickname : Bytes)
  | peerLeft (peerID nickname : Bytes)
  | peerConnected (peripheralID : Bytes)
  | peerDisconnected (peripheralID : Bytes)
  deriving DecidableEq, Repr

/-- `clock k` is the reading number `k` of the clock in nanoseconds, `unassigned k` is what
the flag number `k` holds that is read without having been assigned, and `connected` is what
the Bluetooth network answers when it is given a packet. -/
structure Node where
  data : BitchatData
  noiseService : Option NoiseService := none
  cryptoService : Option CryptoService := none
  callbacks : Callbacks := {}
  connected : Bool := true
  clock : ℕ → ℕ
  clockReads : ℕ := 0
  unassigned : ℕ → Bool := fun _ => false
  unassignedReads : ℕ := 0
  trace : List Event := []

abbrev ServiceM (α : Type) := Effect Fault Node α

namespace MessageService

def readClock : ServiceM ℕ := do
  let node ← get
  modify fun node => { node with clockReads := node.clockReads + 1 }
  pure (node.clock node.clockReads)

/-- `DateTimeHelper::getCurrentTimestamp`, in milliseconds. -/
def getCurrentTimestamp : ServiceM UInt64 := do
  let now ← readClock
  pure (UInt64.ofNat (now / 1000000))

/-- `std::time`, in seconds. -/
def currentTime : ServiceM ℤ := do
  let now ← readClock
  pure ((now / 1000000000 : ℕ) : ℤ)

def emit (event : Event) : ServiceM Unit :=
  modify fun node => { node with trace := node.trace ++ [event] }

def notify (registered : Callbacks → Bool) (event : Event) : ServiceM Unit := do
  let node ← get
  if registered node.callbacks then emit event else pure ()

def modifyData (f : BitchatData → BitchatData) : ServiceM Unit :=
  modify fun node => { node with data := f node.data }

def ofExcept {α : Type} (r : Except Fault α) : ServiceM α :=
  match r with
  | .ok a => pure a
  | .error e => throw e

def ofParser {α : Type} (r : Except OutOfBounds α) : ServiceM α :=
  ofExcept (r.mapError .outOfBounds)

/-- What a flag holds: the value it was assigned, or whatever is there without one. -/
def valueOf (flag : Option Bool) : ServiceM Bool :=
  match flag with
  | some value => pure value
  | none => do
      let node ← get
      modify fun node => { node with unassignedReads := node.unassignedReads + 1 }
      pure (node.unassigned node.unassignedReads)

/-- A handler that has used a variable goes on with what was there. If that was never assigned,
the run has failed, and what the handler did stands. -/
def assigned {α : Type} (name : Bytes) : Option α → ServiceM Unit
  | some _ => pure ()
  | none => throw (.uninitialized name)

/-- An effect on the noise service that the node is known to have. -/
def withNoise {α : Type} (service : NoiseService) (m : Effect Fault NoiseService α) :
    ServiceM α :=
  Effect.zoom (fun _ => service) (fun service node => { node with noiseService := some service }) m

def sendPacket (packet : BitchatPacket) : ServiceM Bool := do
  let node ← get
  if node.connected then
    emit (.sent packet)
    pure true
  else pure false

def newPacket (type : UInt8) (payload : Bytes) : ServiceM BitchatPacket := do
  let timestamp ← getCurrentTimestamp
  pure (BitchatPacket.make type payload timestamp)

/-- A packet with the node's own ID, as most packets are made; the clock is read again. -/
def ownPacket (type : UInt8) (payload : Bytes) : ServiceM BitchatPacket := do
  let packet ← newPacket type payload
  let node ← get
  let senderID ← ofExcept (stringToVector node.data.peerID)
  let timestamp ← getCurrentTimestamp
  pure { packet with senderID, timestamp }

def sendOwnPacket (type : UInt8) (payload : Bytes) : ServiceM Bool := do
  let packet ← ownPacket type payload
  sendPacket packet

/-- The packet type and the payload after encryption, if some session is established. -/
def encryptPayload (message : BitchatMessage) (payload : Bytes) : ServiceM (UInt8 × Bytes) := do
  let node ← get
  match node.noiseService with
  | none => pure (pktTypeMessage, payload)
  | some service =>
      if message.isPrivate then pure (pktTypeMessage, payload)
      else
        match service.getEstablishedSessionIDs with
        | [] => pure (pktTypeMessage, payload)
        | firstPeerId :: _ =>
            let now ← readClock
            let encryptedPayload ← withNoise service (NoiseService.encrypt payload firstPeerId now)
            pure (pktTypeNoiseEncrypted, encryptedPayload)

def createMessagePacket (lz4 : LZ4) (uuid : Bytes) (message : BitchatMessage) :
    ServiceM BitchatPacket := do
  let payload := makeMessagePayload uuid message
  let payload := if shouldCompress payload then compressData lz4 payload else payload
  let (packetType, payload) ← encryptPayload message payload
  let packet ← ownPacket packetType payload
  let packet := packet.setCompressed (shouldCompress payload)
  let packet := if !message.isPrivate then
      { packet with recipientID := List.replicate 8 0xFF }.setHasRecipient true
    else packet
  let node ← get
  match node.cryptoService with
  | none => pure packet
  | some crypto =>
      pure ({ packet with signature := crypto.signData payload }.setHasSignature true)

def createAnnouncePacket : ServiceM BitchatPacket := do
  let node ← get
  ownPacket pktTypeAnnounce (makeAnnouncePayload node.data.nickname)

/-- The sender ID keeps its default, which is empty. -/
def createChannelAnnouncePacket (channel : Bytes) (joining : Bool) : ServiceM BitchatPacket := do
  let packet ← newPacket pktTypeChannelAnnounce (makeChannelAnnouncePayload channel joining)
  let timestamp ← getCurrentTimestamp
  pure { packet with timestamp }

def createVersionHelloPacket : ServiceM BitchatPacket := do
  let payload := makeVersionHelloPayload [1] 1 ProtocolHelper.clientVersion
    ProtocolHelper.platform []
  let packet ← ownPacket pktTypeVersionHello payload
  pure { packet with ttl := 1 }

def sendVersionHello (peripheralID : Bytes) : ServiceM Unit := do
  let packet ← createVersionHelloPacket
  if peripheralID.isEmpty then
    let _ ← sendPacket packet
    pure ()
  else emit (.sentToPeripheral packet peripheralID)

def sendVersionAck (ack : VersionAck) (peerID : Bytes) : ServiceM Unit := do
  let packet ← ownPacket pktTypeVersionAck
    (makeVersionAckPayload ack.agreedVersion ack.serverVersion ack.platform ack.rejected ack.reason)
  let recipientID ← ofExcept (stringToVector peerID)
  let _ ← sendPacket { packet with recipientID, ttl := 1 }
  pure ()

/-- `uuid` is the ID drawn for the message. -/
def newMessage (uuid sender content channel : Bytes) : ServiceM BitchatMessage := do
  let timestamp ← getCurrentTimestamp
  pure { id := uuid, sender, content, channel, timestamp }

/-- The history a message belongs to. -/
def historyChannel (message : BitchatMessage) : Bytes :=
  if message.channel.isEmpty && message.isPrivate then ascii "private" else message.channel

def addMessageToHistory (message : BitchatMessage) (channel : Bytes) : ServiceM Unit := do
  modifyData fun data => data.addMessageToHistory message channel
  emit (.addedToHistory message channel)

def sendMessage (lz4 : LZ4) (uuid content channel : Bytes) : ServiceM Bool := do
  let node ← get
  let targetChannel := if channel.isEmpty then node.data.currentChannel else channel
  let message ← newMessage uuid node.data.nickname content targetChannel
  let packet ← createMessagePacket lz4 uuid message
  let success ← sendPacket packet
  if success then
    addMessageToHistory message (historyChannel message)
    pure success
  else pure success

def sendPrivateMessage (lz4 : LZ4) (uuid content recipientNickname : Bytes) : ServiceM Bool := do
  let node ← get
  let message ← newMessage uuid node.data.nickname content []
  let packet ← createMessagePacket lz4 uuid { message with isPrivate := true, recipientNickname }
  sendPacket packet

def leaveChannel : ServiceM Unit := do
  let node ← get
  let currentChannel := node.data.currentChannel
  if currentChannel.isEmpty then pure ()
  else
    modifyData fun data => data.setCurrentChannel []
    let packet ← createChannelAnnouncePacket [] false
    let _ ← sendPacket packet
    notify Callbacks.channelLeft (.channelLeft currentChannel)

/-- The current channel is set before it is left, so that what is left is the new one. -/
def joinChannel (channel : Bytes) : ServiceM Unit := do
  modifyData fun data => data.setCurrentChannel channel
  if channel.isEmpty then pure ()
  else
    leaveChannel
    let newChannel := if channel.head? ≠ some 0x23 then 0x23 :: channel else channel
    modifyData fun data => data.setCurrentChannel newChannel
    let packet ← createChannelAnnouncePacket newChannel true
    let _ ← sendPacket packet
    notify Callbacks.channelJoined (.channelJoined newChannel)

def startIdentityAnnounce : ServiceM Unit := do
  let node ← get
  if node.noiseService.isNone ∨ node.cryptoService.isNone then pure ()
  else
    let _ ← sendOwnPacket pktTypeNoiseIdentityAnnounce node.data.peerID
    pure ()

def versionList (versions : Bytes) : Bytes :=
  List.intercalate (ascii ", ") (versions.map fun version => toDecimal version.toNat)

def rejectionReason (supportedVersions ourVersions : Bytes) : Bytes :=
  ascii "No compatible protocol version. Client supports: " ++ versionList supportedVersions ++
    ascii ", server supports: " ++ versionList ourVersions

/-- The negotiation, with as much of the hello as was read. -/
def answerVersionHello (peerID : Bytes) (hello : VersionHello) : ServiceM Unit := do
  let ourVersions := ProtocolHelper.getSupportedVersions
  let agreedVersion := ProtocolHelper.negotiateVersion hello.supportedVersions ourVersions
  if agreedVersion > 0 then
    sendVersionAck
      { agreedVersion, serverVersion := ProtocolHelper.clientVersion,
        platform := ProtocolHelper.platform } peerID
    let node ← get
    if (node.data.getPeerInfo peerID).isSome then pure ()
    else
      let time ← currentTime
      modifyData fun data => data.addPeer (BitchatPeer.make peerID hello.clientVersion time)
  else
    sendVersionAck
      { agreedVersion := 0, serverVersion := ProtocolHelper.clientVersion,
        platform := ProtocolHelper.platform, rejected := true,
        reason := rejectionReason hello.supportedVersions ourVersions } peerID

/-- A log line in front of the negotiation reads `preferredVersion`, which decides nothing. -/
def handleVersionHello (peerID data : Bytes) : ServiceM Unit := do
  if data.isEmpty then pure ()
  else
    let hello ← ofParser (parseVersionHelloPayload data)
    answerVersionHello peerID hello
    assigned (ascii "preferredVersion") hello.preferredVersion

def answerVersionAck (peerID : Bytes) (rejected : Bool) : ServiceM Unit := do
  if rejected then
    modifyData fun data => data.removePeer peerID
    notify Callbacks.peerDisconnected (.peerDisconnected peerID)
  else pure ()

def handleVersionAck (peerID data : Bytes) : ServiceM Unit := do
  if data.isEmpty then pure ()
  else
    let ack ← ofParser (parseVersionAckPayload data)
    let rejected ← valueOf ack.rejected
    answerVersionAck peerID rejected
    assigned (ascii "rejected") ack.rejected

def processVersionHelloPacket (packet : BitchatPacket) : ServiceM Unit :=
  let peerID := toHex packet.senderID
  let data := packet.payload
  if data.isEmpty then pure () else handleVersionHello peerID data

def processVersionAckPacket (packet : BitchatPacket) : ServiceM Unit :=
  let peerID := toHex packet.senderID
  let data := packet.payload
  if data.isEmpty then pure () else handleVersionAck peerID data

/-- Whether a received message is kept. The second test repeats a case of the first. -/
def shouldAddToHistory (data : BitchatData) (message : BitchatMessage) : Bool :=
  if message.channel = data.currentChannel then true
  else if message.channel.isEmpty && data.currentChannel.isEmpty then true
  else message.isPrivate && message.recipientNickname = data.nickname

def processMessagePacket (packet : BitchatPacket) : ServiceM Unit := do
  let parsed ← ofParser (parseMessagePayload packet.payload)
  let message := parsed.message
  emit (.parsed message)
  let node ← get
  if toHex packet.senderID = node.data.peerID then pure ()
  else if shouldAddToHistory node.data message then
    addMessageToHistory message (historyChannel message)
    notify Callbacks.messageReceived (.messageReceived message)
  else pure ()

def updatePeerChannel (peerID : Bytes) (announce : ChannelAnnounce) : ServiceM Unit := do
  let node ← get
  match node.data.getPeerInfo peerID with
  | none => pure ()
  | some peerInfo =>
      let joining ← valueOf announce.joining
      modifyData fun data =>
        data.updatePeer { peerInfo with channel := if joining then announce.channel else [] }

/-- The log line at the end reads `joining` too, so it is read in any case. -/
def processChannelAnnouncePacket (packet : BitchatPacket) : ServiceM Unit := do
  let announce ← ofParser (parseChannelAnnouncePayload packet.payload)
  updatePeerChannel (toHex packet.senderID) announce
  assigned (ascii "joining") announce.joining

def processAnnouncePacket (packet : BitchatPacket) (peripheralID : Bytes) : ServiceM Unit := do
  let nickname := parseAnnouncePayload packet.payload
  let peerID := toHex packet.senderID
  let node ← get
  let time ← currentTime
  match node.data.getPeerInfo peerID with
  | some existingPeer =>
      let updatedPeer := existingPeer.updateLastSeen time
      let updatedPeer := if !peripheralID.isEmpty then
          { updatedPeer with peripheralID := peripheralID }
        else updatedPeer
      modifyData fun data => data.updatePeer updatedPeer
  | none =>
      let peer := BitchatPeer.make peerID nickname time
      let time ← currentTime
      let peer := peer.updateLastSeen time
      modifyData fun data => data.addPeer { peer with peripheralID, hasAnnounced := true }
      notify Callbacks.peerJoined (.peerJoined peerID nickname)

def processLeavePacket (packet : BitchatPacket) : ServiceM Unit := do
  let peerID := toHex packet.senderID
  let node ← get
  match node.data.getPeerInfo peerID with
  | none => pure ()
  | some peerInfo =>
      modifyData fun data => data.removePeer peerID
      notify Callbacks.peerLeft (.peerLeft peerID peerInfo.nickname)

/-- The common start of the noise handlers: a noise service, and a sender other than the
node itself. -/
def onNoisePacket (packet : BitchatPacket)
    (handle : Node → NoiseService → Bytes → ServiceM Unit) : ServiceM Unit := do
  let node ← get
  match node.noiseService with
  | none => pure ()
  | some service =>
      let peerID := toHex packet.senderID
      if peerID = node.data.peerID then pure () else handle node service peerID

def processNoiseHandshakeInitPacket (packet : BitchatPacket) : ServiceM Unit :=
  onNoisePacket packet fun node service peerID => do
    if service.hasEstablishedSession peerID then pure ()
    else
      let now ← readClock
      let response ← withNoise service
        (NoiseService.handleIncomingHandshake peerID packet.payload node.data.peerID now)
      match response with
      | none => pure ()
      | some response =>
          if response.isEmpty then pure ()
          else
            let _ ← sendOwnPacket pktTypeNoiseHandshakeResp response
            pure ()

/-- A response of any other size than 96 and 48 bytes is not sent. -/
def processNoiseHandshakeRespPacket (packet : BitchatPacket) : ServiceM Unit :=
  onNoisePacket packet fun node service peerID => do
    if service.hasEstablishedSession peerID then pure ()
    else
      let now ← readClock
      let response ← withNoise service
        (NoiseService.handleIncomingHandshake peerID packet.payload node.data.peerID now)
      match response with
      | none => pure ()
      | some response =>
          if response.length = 96 ∨ response.length = 48 then
            let _ ← sendOwnPacket pktTypeNoiseHandshakeResp response
            pure ()
          else pure ()

def processNoiseEncryptedPacket (packet : BitchatPacket) : ServiceM Unit :=
  onNoisePacket packet fun _ service peerID => do
    let now ← readClock
    let decryptedPayload ← withNoise service (NoiseService.decrypt packet.payload peerID now)
    if decryptedPayload.isEmpty then pure ()
    else
      let decryptedPacket ← newPacket pktTypeMessage decryptedPayload
      processMessagePacket
        { decryptedPacket with
          senderID := packet.senderID, timestamp := packet.timestamp, flags := packet.flags }

def processNoiseIdentityAnnouncePacket (packet : BitchatPacket) : ServiceM Unit :=
  onNoisePacket packet fun node service peerID => do
    if node.data.peerID < peerID then
      let handshakeData ← withNoise service (NoiseService.initiateHandshake peerID)
      if handshakeData.isEmpty then pure ()
      else
        let _ ← sendOwnPacket pktTypeNoiseHandshakeInit handshakeData
        pure ()
    else pure ()

/-- The key under which a packet is remembered. -/
def messageID (packet : BitchatPacket) : Bytes :=
  toHex packet.senderID ++ ascii "_" ++ toDecimal packet.timestamp.toNat

def shouldProcessPacket (data : BitchatData) (packet : BitchatPacket) : Bool :=
  !data.wasMessageProcessed (messageID packet)

def markPacketProcessed (packet : BitchatPacket) : ServiceM Unit :=
  modifyData fun data => data.markMessageProcessed (messageID packet)

/-- The routing of `processPacket`. -/
def dispatch (packet : BitchatPacket) (peripheralID : Bytes) : ServiceM Unit :=
  if packet.type = pktTypeVersionHello then processVersionHelloPacket packet
  else if packet.type = pktTypeVersionAck then processVersionAckPacket packet
  else if packet.type = pktTypeMessage then processMessagePacket packet
  else if packet.type = pktTypeChannelAnnounce then processChannelAnnouncePacket packet
  else if packet.type = pktTypeAnnounce then processAnnouncePacket packet peripheralID
  else if packet.type = pktTypeLeave then processLeavePacket packet
  else if packet.type = pktTypeNoiseHandshakeInit then processNoiseHandshakeInitPacket packet
  else if packet.type = pktTypeNoiseHandshakeResp then processNoiseHandshakeRespPacket packet
  else if packet.type = pktTypeNoiseEncrypted then processNoiseEncryptedPacket packet
  else if packet.type = pktTypeNoiseIdentityAnnounce then
    processNoiseIdentityAnnouncePacket packet
  else pure ()

def processPacket (packet : BitchatPacket) (peripheralID : Bytes) : ServiceM Unit := do
  if !packet.isValid then pure ()
  else
    let node ← get
    if !shouldProcessPacket node.data packet then pure ()
    else
      markPacketProcessed packet
      emit (.dispatched packet)
      dispatch packet peripheralID

def peerConnected (peripheralID : Bytes) : ServiceM Unit :=
  notify Callbacks.peerConnected (.peerConnected peripheralID)

/-- Only the first peer of the peripheral is removed. -/
def peerDisconnected (peripheralID : Bytes) : ServiceM Unit := do
  let node ← get
  match node.data.peers.find? fun peer => peer.peripheralID = peripheralID with
  | none => notify Callbacks.peerDisconnected (.peerDisconnected peripheralID)
  | some peer =>
      modifyData fun data => data.removePeer peer.peerID
      notify Callbacks.peerLeft (.peerLeft peer.peerID peer.nickname)
      notify Callbacks.peerDisconnected (.peerDisconnected peripheralID)

end MessageService

end Bitchat
