import Bitchat.Deduplication

/-!
# The network service

`onPacketReceived` gives a packet to the message service, which is its callback, and then
relays it. A callback that throws ends it before that. The Bluetooth transport is a
parameter with a state of its own, of which relaying needs `sendPacketToPeer` only.
-/

namespace Bitchat

structure IBluetoothNetwork (τ : Type) where
  sendPacketToPeer (packet : BitchatPacket) (peerID : Bytes) : τ → Bool × τ

/-- A node together with its transport. -/
structure Station (τ : Type) where
  node : Node
  network : τ

namespace NetworkService

open Effect StringHelper MessageService

variable {τ : Type} (bluetooth : IBluetoothNetwork τ)

def sendPacketToPeer (packet : BitchatPacket) (peerID : Bytes) :
    Effect Fault (Station τ) Bool := do
  let station ← get
  let (sent, network) := bluetooth.sendPacketToPeer packet peerID station.network
  modify fun station => { station with network }
  pure sent

def relayLoop (packet : BitchatPacket) (senderID : Bytes) :
    List BitchatPeer → Effect Fault (Station τ) Unit
  | [] => pure ()
  | peer :: peers => do
      if peer.peerID ≠ senderID then
        let _ ← sendPacketToPeer bluetooth packet peer.peerID
        relayLoop packet senderID peers
      else relayLoop packet senderID peers

/-- The copy that is relayed. The decrement is one of `uint8_t`. -/
def relayCopy (packet : BitchatPacket) : BitchatPacket := { packet with ttl := packet.ttl - 1 }

def relayPacket (packet : BitchatPacket) : Effect Fault (Station τ) Unit := do
  let senderID := toHex packet.senderID
  let station ← get
  relayLoop bluetooth (relayCopy packet) senderID station.node.data.peers

def packetReceivedCallback (packet : BitchatPacket) (peripheralID : Bytes) :
    Effect Fault (Station τ) Unit :=
  zoom Station.node (fun node station => { station with node })
    (processPacket packet peripheralID)

def onPacketReceived (packet : BitchatPacket) (peripheralID : Bytes) :
    Effect Fault (Station τ) Unit := do
  packetReceivedCallback packet peripheralID
  if packet.ttl > 0 then relayPacket bluetooth packet else pure ()

/-- The peers that a packet is relayed to. -/
def relayTargets (packet : BitchatPacket) (peers : List BitchatPeer) : List Bytes :=
  (peers.map BitchatPeer.peerID).filter fun peerID => peerID ≠ toHex packet.senderID

/-- The transport after one packet has been sent to several peers. -/
def sendToAll (packet : BitchatPacket) (peerIDs : List Bytes) (network : τ) : τ :=
  peerIDs.foldl (fun network peerID => (bluetooth.sendPacketToPeer packet peerID network).2) network

theorem sendToAll_of_same {packet : BitchatPacket} {peerIDs : List Bytes} {network : τ}
    (h : ∀ peerID ∈ peerIDs, (bluetooth.sendPacketToPeer packet peerID network).2 = network) :
    sendToAll bluetooth packet peerIDs network = network := by
  induction peerIDs with
  | nil => rfl
  | cons peerID peerIDs ih =>
      obtain ⟨hfirst, hrest⟩ := List.forall_mem_cons.mp h
      rw [sendToAll, List.foldl_cons, hfirst]
      exact ih hrest

theorem outcome_relayLoop (packet : BitchatPacket) (senderID : Bytes) (peers : List BitchatPeer)
    (station : Station τ) :
    (relayLoop bluetooth packet senderID peers).outcome station =
      (.ok ⟨⟩, { station with
        network := sendToAll bluetooth packet
          ((peers.map BitchatPeer.peerID).filter fun peerID => peerID ≠ senderID)
          station.network }) := by
  induction peers generalizing station with
  | nil => rfl
  | cons peer peers ih =>
      rw [relayLoop]
      by_cases hpeer : peer.peerID = senderID
      · rw [if_neg (not_not_intro hpeer), ih, List.map_cons,
          List.filter_cons_of_neg (by simp [hpeer])]
      · have hsend : (sendPacketToPeer bluetooth packet peer.peerID).outcome station =
            (.ok (bluetooth.sendPacketToPeer packet peer.peerID station.network).1,
              { station with network :=
                (bluetooth.sendPacketToPeer packet peer.peerID station.network).2 }) := rfl
        rw [if_pos hpeer, outcome_bind_ok hsend, ih, List.map_cons,
          List.filter_cons_of_pos (by simp [hpeer])]
        rfl

theorem outcome_relayPacket (packet : BitchatPacket) (station : Station τ) :
    (relayPacket bluetooth packet).outcome station =
      (.ok ⟨⟩, { station with
        network := sendToAll bluetooth (relayCopy packet)
          (relayTargets packet station.node.data.peers) station.network }) := by
  rw [relayPacket, outcome_bind_ok (outcome_get station), outcome_relayLoop, relayTargets]

/-- What `onPacketReceived` does to the transport after a callback that ended in `node`. -/
def relayed (packet : BitchatPacket) (node : Node) (network : τ) : τ :=
  if packet.ttl > 0 then
    sendToAll bluetooth (relayCopy packet) (relayTargets packet node.data.peers) network
  else network

theorem outcome_onPacketReceived_ok {packet : BitchatPacket} {peripheralID : Bytes}
    {station : Station τ} {node : Node}
    (h : (processPacket packet peripheralID).outcome station.node = (.ok ⟨⟩, node)) :
    (onPacketReceived bluetooth packet peripheralID).outcome station =
      (.ok ⟨⟩, ⟨node, relayed bluetooth packet node station.network⟩) := by
  have hcallback : (packetReceivedCallback packet peripheralID).outcome station =
      (.ok ⟨⟩, { station with node }) := by
    rw [packetReceivedCallback, outcome_zoom, h]
  rw [onPacketReceived, outcome_bind_ok hcallback, relayed]
  split
  · rw [outcome_relayPacket]
  · rfl

theorem outcome_onPacketReceived_error {packet : BitchatPacket} {peripheralID : Bytes}
    {station : Station τ} {node : Node} {e : Fault}
    (h : (processPacket packet peripheralID).outcome station.node = (.error e, node)) :
    (onPacketReceived bluetooth packet peripheralID).outcome station =
      (.error e, { station with node }) := by
  have hcallback : (packetReceivedCallback packet peripheralID).outcome station =
      (.error e, { station with node }) := by
    rw [packetReceivedCallback, outcome_zoom, h]
  rw [onPacketReceived, outcome_bind_error hcallback]

/-- A transport that keeps the calls it gets. -/
def callRecorder : IBluetoothNetwork (List (BitchatPacket × Bytes)) where
  sendPacketToPeer packet peerID calls := (true, calls ++ [(packet, peerID)])

theorem sendToAll_callRecorder (packet : BitchatPacket) (peerIDs : List Bytes)
    (calls : List (BitchatPacket × Bytes)) :
    sendToAll callRecorder packet peerIDs calls = calls ++ peerIDs.map fun peerID =>
      (packet, peerID) := by
  induction peerIDs generalizing calls with
  | nil => simp [sendToAll]
  | cons peerID peerIDs ih =>
      have hstep : sendToAll callRecorder packet (peerID :: peerIDs) calls =
          sendToAll callRecorder packet peerIDs (calls ++ [(packet, peerID)]) := rfl
      rw [hstep, ih, List.map_cons, List.append_assoc, List.singleton_append]

/-- The node with its calls of `sendPacketToPeer` in the trace. -/
def noted (station : Station (List (BitchatPacket × Bytes))) : Node :=
  { station.node with
    trace := station.node.trace ++ station.network.map fun call => .relayed call.1 call.2 }

/-- `onPacketReceived` of a node that notes what it gives to the network. -/
def receive (packet : BitchatPacket) (peripheralID : Bytes) : ServiceM Unit :=
  ExceptT.mk fun node =>
    let outcome := (onPacketReceived callRecorder packet peripheralID).outcome ⟨node, []⟩
    (outcome.1, noted outcome.2)

theorem outcome_receive (packet : BitchatPacket) (peripheralID : Bytes) (node : Node) :
    (receive packet peripheralID).outcome node =
      (((onPacketReceived callRecorder packet peripheralID).outcome ⟨node, []⟩).1,
        noted ((onPacketReceived callRecorder packet peripheralID).outcome ⟨node, []⟩).2) := rfl

theorem noted_nil (node : Node) : noted ⟨node, []⟩ = node := by
  rw [noted, List.map_nil, List.append_nil]

def emitAll : List Event → ServiceM Unit
  | [] => pure ()
  | event :: events => do
      emit event
      emitAll events

theorem outcome_emitAll (events : List Event) (node : Node) :
    (emitAll events).outcome node = (.ok ⟨⟩, { node with trace := node.trace ++ events }) := by
  induction events generalizing node with
  | nil =>
      rw [List.append_nil]
      rfl
  | cons event events ih =>
      rw [emitAll, outcome_bind_ok (outcome_emit event node), ih, List.append_assoc]
      rfl

def noteRelays (packet : BitchatPacket) : ServiceM Unit := do
  let node ← get
  emitAll ((relayTargets packet node.data.peers).map fun peerID =>
    .relayed (relayCopy packet) peerID)

/-- The message service comes first. If it does not throw, the relays are noted behind what it
has done. -/
theorem receive_eq (packet : BitchatPacket) (peripheralID : Bytes) :
    receive packet peripheralID = (do
      processPacket packet peripheralID
      if packet.ttl > 0 then noteRelays packet else pure () : ServiceM Unit) := by
  refine Effect.ext fun node => ?_
  cases hout : (processPacket packet peripheralID).outcome node with
  | mk r node' =>
      have hstation : (processPacket packet peripheralID).outcome
          (⟨node, []⟩ : Station (List (BitchatPacket × Bytes))).node = (r, node') := hout
      cases r with
      | error e =>
          rw [outcome_bind_error hout, outcome_receive,
            outcome_onPacketReceived_error callRecorder hstation]
          exact congrArg _ (noted_nil node')
      | ok u =>
          rw [outcome_bind_ok hout, outcome_receive,
            outcome_onPacketReceived_ok callRecorder hstation, relayed]
          split_ifs with httl
          · rw [sendToAll_callRecorder, noteRelays, outcome_bind_ok (outcome_get node'),
              outcome_emitAll, List.nil_append, noted, List.map_map]
            rfl
          · exact congrArg _ (noted_nil node')

section Respects

variable {R : Node → Node → Prop} [Std.Refl R] [IsTrans Node R]
  (hrelayed : ∀ node packet peerID,
    R node { node with trace := node.trace ++ [.relayed packet peerID] })
include hrelayed

theorem respects_noteRelays (packet : BitchatPacket) : Respects R (noteRelays packet) := by
  refine respects_get.bind fun node => ?_
  induction relayTargets packet node.data.peers with
  | nil => exact respects_pure _
  | cons peerID peerIDs ih =>
      exact (respects_emit fun node => hrelayed node _ peerID).bind fun _ => ih

theorem rel_receive (packet : BitchatPacket) (peripheralID : Bytes) (node : Node) :
    R ((processPacket packet peripheralID).exec node) ((receive packet peripheralID).exec node) := by
  have hrelays : Respects R (if packet.ttl > 0 then noteRelays packet else pure ()) :=
    (respects_noteRelays hrelayed packet).ite (respects_pure _)
  rw [receive_eq, exec, exec, outcome_bind]
  cases (processPacket packet peripheralID).outcome node with
  | mk r node' =>
      cases r with
      | error e => exact refl_of R node'
      | ok u => exact hrelays node'

theorem respects_receive {packet : BitchatPacket} {peripheralID : Bytes}
    (h : Respects R (processPacket packet peripheralID)) :
    Respects R (receive packet peripheralID) := fun node =>
  trans_of R (h node) (rel_receive hrelayed packet peripheralID node)

end Respects

end NetworkService

end Bitchat
