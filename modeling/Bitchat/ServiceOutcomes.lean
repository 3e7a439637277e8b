import Bitchat.MessageService

/-!
# Outcomes of the service's effects

The basic effects of `MessageService` and the making of packets, each with the result and
the node it ends in.
-/

namespace Bitchat.MessageService

open Effect StringHelper

@[simp] theorem outcome_emit (event : Event) (node : Node) :
    (emit event).outcome node = (.ok ⟨⟩, { node with trace := node.trace ++ [event] }) := rfl

@[simp] theorem outcome_modifyData (f : BitchatData → BitchatData) (node : Node) :
    (modifyData f).outcome node = (.ok ⟨⟩, { node with data := f node.data }) := rfl

def notification (registered : Bool) (event : Event) : List Event :=
  if registered then [event] else []

theorem mem_notification_iff {registered : Bool} {event event' : Event} :
    event' ∈ notification registered event ↔ registered = true ∧ event' = event := by
  rw [notification]
  split_ifs with hregistered
  · rw [List.mem_singleton, and_iff_right hregistered]
  · exact iff_of_false List.not_mem_nil fun h => hregistered h.1

theorem outcome_notify (registered : Callbacks → Bool) (event : Event) (node : Node) :
    (notify registered event).outcome node =
      (.ok ⟨⟩, { node with
        trace := node.trace ++ notification (registered node.callbacks) event }) := by
  rw [notify, outcome_bind_ok (outcome_get node), notification]
  cases registered node.callbacks with
  | true => rfl
  | false =>
      change (Except.ok PUnit.unit, node) = (Except.ok PUnit.unit,
        { node with trace := node.trace ++ [] })
      rw [List.append_nil]

theorem outcome_ofParser_ok {α : Type} {r : Except ByteCursor.OutOfBounds α} {a : α}
    (h : r = .ok a) (node : Node) : (ofParser r).outcome node = (.ok a, node) := by
  subst h
  rfl

theorem outcome_readClock (node : Node) :
    readClock.outcome node =
      (.ok (node.clock node.clockReads), { node with clockReads := node.clockReads + 1 }) := rfl

theorem outcome_currentTime (node : Node) :
    currentTime.outcome node = (.ok ((node.clock node.clockReads / 1000000000 : ℕ) : ℤ),
      { node with clockReads := node.clockReads + 1 }) := rfl

/-- What a flag is read to be. -/
def flagOf (node : Node) (flag : Option Bool) : Bool :=
  flag.getD (node.unassigned node.unassignedReads)

theorem outcome_valueOf_some {flag : Option Bool} {value : Bool} (h : flag = some value)
    (node : Node) : (valueOf flag).outcome node = (.ok value, node) := by
  subst h
  rfl

theorem outcome_valueOf (flag : Option Bool) (node : Node) :
    ∃ reads, (valueOf flag).outcome node =
      (.ok (flagOf node flag), { node with unassignedReads := reads }) := by
  cases flag with
  | some value => exact ⟨_, rfl⟩
  | none => exact ⟨_, rfl⟩

theorem outcome_assigned_some {α : Type} {a : Option α} {value : α}
    (h : a = some value) (name : Bytes) (node : Node) :
    (assigned name a).outcome node = (.ok ⟨⟩, node) := by
  subst h
  rfl

theorem exec_bind_assigned {α : Type} (m : ServiceM Unit) (name : Bytes) (a : Option α)
    (node : Node) : (m >>= fun _ => assigned name a).exec node = m.exec node := by
  rw [exec, exec, outcome_bind]
  rcases m.outcome node with ⟨_ | _, _⟩
  · rfl
  · cases a with
    | some value => rfl
    | none => rfl

theorem result_bind_assigned {α : Type} {m : ServiceM Unit} {node : Node}
    (h : m.result node = .ok ⟨⟩) (name : Bytes) (a : Option α) :
    (m >>= fun _ => assigned name a).result node =
      a.elim (.error (.uninitialized name)) fun _ => .ok ⟨⟩ := by
  rw [result] at h ⊢
  rw [outcome_bind]
  rcases hout : m.outcome node with ⟨_ | _, node'⟩
  · rw [hout] at h
    cases h
  · cases a with
    | some value => rfl
    | none => rfl

def timestampAt (node : Node) (k : ℕ) : UInt64 := UInt64.ofNat (node.clock k / 1000000)

theorem outcome_newPacket (type : UInt8) (payload : Bytes) (node : Node) :
    (newPacket type payload).outcome node =
      (.ok (BitchatPacket.make type payload (timestampAt node node.clockReads)),
        { node with clockReads := node.clockReads + 1 }) := rfl

/-- The packet that `ownPacket` returns: its timestamp is the second reading. -/
def ownPacketOf (node : Node) (senderID : Bytes) (type : UInt8) (payload : Bytes) :
    BitchatPacket :=
  { BitchatPacket.make type payload (timestampAt node (node.clockReads + 1)) with senderID }

theorem outcome_ownPacket_ok {node : Node} {senderID : Bytes}
    (h : stringToVector node.data.peerID = .ok senderID) (type : UInt8) (payload : Bytes) :
    (ownPacket type payload).outcome node =
      (.ok (ownPacketOf node senderID type payload),
        { node with clockReads := node.clockReads + 2 }) := by
  rw [ownPacket, outcome_bind_ok (outcome_newPacket type payload node),
    outcome_bind_ok (outcome_get _)]
  dsimp only
  rw [h]
  rfl

theorem outcome_ownPacket_error {node : Node} {e : Fault}
    (h : stringToVector node.data.peerID = .error e) (type : UInt8) (payload : Bytes) :
    (ownPacket type payload).outcome node =
      (.error e, { node with clockReads := node.clockReads + 1 }) := by
  rw [ownPacket, outcome_bind_ok (outcome_newPacket type payload node),
    outcome_bind_ok (outcome_get _)]
  dsimp only
  rw [h]
  rfl

theorem outcome_sendPacket (packet : BitchatPacket) (node : Node) :
    (sendPacket packet).outcome node =
      (.ok node.connected, { node with
        trace := node.trace ++ notification node.connected (.sent packet) }) := by
  rw [sendPacket, outcome_bind_ok (outcome_get node), notification]
  by_cases hc : node.connected = true
  · rw [if_pos hc, if_pos hc]
    exact congrArg (fun sent => (Except.ok sent,
      { node with trace := node.trace ++ [Event.sent packet] })) hc.symm
  · rw [if_neg hc, if_neg hc, List.append_nil]
    exact congrArg (fun sent => (Except.ok sent, node)) (Bool.eq_false_iff.mpr hc).symm

theorem outcome_sendOwnPacket_ok {node : Node} {senderID : Bytes}
    (h : stringToVector node.data.peerID = .ok senderID) (type : UInt8) (payload : Bytes) :
    (sendOwnPacket type payload).outcome node =
      (.ok node.connected, { node with
        clockReads := node.clockReads + 2
        trace := node.trace ++
          notification node.connected (.sent (ownPacketOf node senderID type payload)) }) := by
  rw [sendOwnPacket, outcome_bind_ok (outcome_ownPacket_ok h type payload), outcome_sendPacket]

theorem outcome_sendOwnPacket_error {node : Node} {e : Fault}
    (h : stringToVector node.data.peerID = .error e) (type : UInt8) (payload : Bytes) :
    (sendOwnPacket type payload).outcome node =
      (.error e, { node with clockReads := node.clockReads + 1 }) := by
  rw [sendOwnPacket, outcome_bind_error (outcome_ownPacket_error h type payload)]

theorem processVersionHelloPacket_eq (packet : BitchatPacket) :
    processVersionHelloPacket packet =
      handleVersionHello (toHex packet.senderID) packet.payload := by
  rw [processVersionHelloPacket]
  cases hdata : packet.payload with
  | nil => rfl
  | cons b bs => rfl

theorem processVersionAckPacket_eq (packet : BitchatPacket) :
    processVersionAckPacket packet =
      handleVersionAck (toHex packet.senderID) packet.payload := by
  rw [processVersionAckPacket]
  cases hdata : packet.payload with
  | nil => rfl
  | cons b bs => rfl

section Routing

variable {packet : BitchatPacket}

theorem dispatch_versionHello (htype : packet.type = pktTypeVersionHello) (peripheralID : Bytes) :
    dispatch packet peripheralID = processVersionHelloPacket packet := by
  rw [dispatch, htype]
  rfl

theorem dispatch_versionAck (htype : packet.type = pktTypeVersionAck) (peripheralID : Bytes) :
    dispatch packet peripheralID = processVersionAckPacket packet := by
  rw [dispatch, htype]
  rfl

theorem dispatch_message (htype : packet.type = pktTypeMessage) (peripheralID : Bytes) :
    dispatch packet peripheralID = processMessagePacket packet := by
  rw [dispatch, htype]
  rfl

theorem dispatch_channelAnnounce (htype : packet.type = pktTypeChannelAnnounce)
    (peripheralID : Bytes) :
    dispatch packet peripheralID = processChannelAnnouncePacket packet := by
  rw [dispatch, htype]
  rfl

theorem dispatch_announce (htype : packet.type = pktTypeAnnounce) (peripheralID : Bytes) :
    dispatch packet peripheralID = processAnnouncePacket packet peripheralID := by
  rw [dispatch, htype]
  rfl

theorem dispatch_leave (htype : packet.type = pktTypeLeave) (peripheralID : Bytes) :
    dispatch packet peripheralID = processLeavePacket packet := by
  rw [dispatch, htype]
  rfl

theorem dispatch_handshakeInit (htype : packet.type = pktTypeNoiseHandshakeInit)
    (peripheralID : Bytes) :
    dispatch packet peripheralID = processNoiseHandshakeInitPacket packet := by
  rw [dispatch, htype]
  rfl

theorem dispatch_handshakeResp (htype : packet.type = pktTypeNoiseHandshakeResp)
    (peripheralID : Bytes) :
    dispatch packet peripheralID = processNoiseHandshakeRespPacket packet := by
  rw [dispatch, htype]
  rfl

theorem dispatch_encrypted (htype : packet.type = pktTypeNoiseEncrypted) (peripheralID : Bytes) :
    dispatch packet peripheralID = processNoiseEncryptedPacket packet := by
  rw [dispatch, htype]
  rfl

theorem dispatch_identityAnnounce (htype : packet.type = pktTypeNoiseIdentityAnnounce)
    (peripheralID : Bytes) :
    dispatch packet peripheralID = processNoiseIdentityAnnouncePacket packet := by
  rw [dispatch, htype]
  rfl

/-- What holds of every handler, for a packet of its type, and of doing nothing, holds of the
routing. -/
theorem dispatch_induction {P : ServiceM Unit → Prop} (packet : BitchatPacket)
    (peripheralID : Bytes)
    (versionHello : packet.type = pktTypeVersionHello → P (processVersionHelloPacket packet))
    (versionAck : packet.type = pktTypeVersionAck → P (processVersionAckPacket packet))
    (message : packet.type = pktTypeMessage → P (processMessagePacket packet))
    (channelAnnounce : packet.type = pktTypeChannelAnnounce →
      P (processChannelAnnouncePacket packet))
    (announce : packet.type = pktTypeAnnounce → P (processAnnouncePacket packet peripheralID))
    (leave : packet.type = pktTypeLeave → P (processLeavePacket packet))
    (handshakeInit : packet.type = pktTypeNoiseHandshakeInit →
      P (processNoiseHandshakeInitPacket packet))
    (handshakeResp : packet.type = pktTypeNoiseHandshakeResp →
      P (processNoiseHandshakeRespPacket packet))
    (encrypted : packet.type = pktTypeNoiseEncrypted → P (processNoiseEncryptedPacket packet))
    (identityAnnounce : packet.type = pktTypeNoiseIdentityAnnounce →
      P (processNoiseIdentityAnnouncePacket packet))
    (other : P (pure ())) : P (dispatch packet peripheralID) := by
  refine iteInduction versionHello fun _ => ?_
  refine iteInduction versionAck fun _ => ?_
  refine iteInduction message fun _ => ?_
  refine iteInduction channelAnnounce fun _ => ?_
  refine iteInduction announce fun _ => ?_
  refine iteInduction leave fun _ => ?_
  refine iteInduction handshakeInit fun _ => ?_
  refine iteInduction handshakeResp fun _ => ?_
  refine iteInduction encrypted fun _ => ?_
  exact iteInduction identityAnnounce fun _ => other

theorem outcome_processChannelAnnouncePacket
    {announce : PacketSerializer.ChannelAnnounce} {joining : Bool}
    (hparse : PacketSerializer.parseChannelAnnouncePayload packet.payload = .ok announce)
    (hjoining : announce.joining = some joining) (node : Node) :
    (processChannelAnnouncePacket packet).outcome node = (.ok ⟨⟩,
      (node.data.getPeerInfo (toHex packet.senderID)).elim node fun peerInfo =>
        { node with data := node.data.updatePeer { peerInfo with
            channel := if joining then announce.channel else [] } }) := by
  rw [processChannelAnnouncePacket, outcome_bind_ok (outcome_ofParser_ok hparse node),
    outcome_bind, updatePeerChannel, outcome_bind_ok (outcome_get node)]
  cases node.data.getPeerInfo (toHex packet.senderID) with
  | none => exact outcome_assigned_some hjoining _ node
  | some peerInfo =>
      dsimp only
      rw [outcome_bind_ok (outcome_valueOf_some hjoining node), outcome_modifyData]
      exact outcome_assigned_some hjoining _ _

end Routing

end Bitchat.MessageService
