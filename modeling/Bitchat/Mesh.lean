import Bitchat.Branching
import Bitchat.NetworkService
import Bitchat.TransitionSystem

/-!
# Nodes that relay to each other

A network of nodes, each of them running `onPacketReceived`. A packet that one of them is to
send to a peer is on its way to the node with that ID, if there is one. Packets arrive in
any order, and as they were sent: the transport between the nodes is assumed to lose nothing
on the way, which the frames of `PacketSerializer` do not grant for every packet. Beside the
nodes and the packets in flight the mesh keeps which copies were made of them.
-/

namespace Bitchat

open Effect MessageService NetworkService StringHelper

variable {ι : Type} [DecidableEq ι]

structure Mesh (ι : Type) where
  node : ι → Node
  inFlight : Multiset (ι × BitchatPacket) := 0
  copies : List (BitchatPacket × BitchatPacket) := []

/-- Packets arrive, nodes change by themselves, and packets are put on their way. -/
inductive MeshAction (ι : Type) where
  | deliver (i : ι) (packet : BitchatPacket) (peripheralID : Bytes)
  | change (i : ι) (node : Node)
  | originate (i : ι) (packet : BitchatPacket)

namespace Mesh

/-- The node and the calls of `sendPacketToPeer` behind the reception of a packet. -/
def received (node : Node) (packet : BitchatPacket) (peripheralID : Bytes) :
    Station (List (BitchatPacket × Bytes)) :=
  (onPacketReceived callRecorder packet peripheralID).exec ⟨node, []⟩

/-- Whether `onPacketReceived` gets to `relayPacket`. -/
def performsRelay (node : Node) (packet : BitchatPacket) (peripheralID : Bytes) : Bool :=
  decide (packet.ttl > 0) && decide ((processPacket packet peripheralID).result node = .ok ⟨⟩)

def routed (route : Bytes → Option ι) (calls : List (BitchatPacket × Bytes)) :
    List (ι × BitchatPacket) :=
  calls.filterMap fun call => (route call.2).map fun i => (i, call.1)

def deliver (route : Bytes → Option ι) (mesh : Mesh ι) (i : ι) (packet : BitchatPacket)
    (peripheralID : Bytes) : Mesh ι :=
  let station := received (mesh.node i) packet peripheralID
  { node := Function.update mesh.node i station.node
    inFlight := mesh.inFlight.erase (i, packet) + routed route station.network
    copies := mesh.copies ++ station.network.map fun call => (packet, call.1) }

def next (route : Bytes → Option ι) (mesh : Mesh ι) : MeshAction ι → Mesh ι
  | .deliver i packet peripheralID => mesh.deliver route i packet peripheralID
  | .change i node => { mesh with node := Function.update mesh.node i node }
  | .originate i packet => { mesh with inFlight := (i, packet) ::ₘ mesh.inFlight }

omit [DecidableEq ι]

theorem received_eq (node : Node) (packet : BitchatPacket) (peripheralID : Bytes) :
    received node packet peripheralID =
      if performsRelay node packet peripheralID then
        (relayPacket callRecorder packet).exec
          ⟨(processPacket packet peripheralID).exec node, []⟩
      else ⟨(processPacket packet peripheralID).exec node, []⟩ := by
  rw [received, performsRelay, result]
  cases hout : (processPacket packet peripheralID).outcome node with
  | mk r node' =>
      have hexec : (processPacket packet peripheralID).exec node = node' := by rw [exec, hout]
      have hstation : (processPacket packet peripheralID).outcome
          (⟨node, []⟩ : Station (List (BitchatPacket × Bytes))).node = (r, node') := hout
      rw [hexec, exec, exec]
      cases r with
      | error e =>
          rw [outcome_onPacketReceived_error callRecorder hstation]
          simp
      | ok u =>
          rw [outcome_onPacketReceived_ok callRecorder hstation, relayed,
            outcome_relayPacket]
          by_cases httl : packet.ttl > 0
          · simp [httl]
          · simp [httl]

/-- The calls of `sendPacketToPeer`: one copy for every peer but the sender, after the
callback has done its work. -/
theorem network_received (node : Node) (packet : BitchatPacket) (peripheralID : Bytes) :
    (received node packet peripheralID).network =
      if performsRelay node packet peripheralID then
        (relayTargets packet ((processPacket packet peripheralID).exec node).data.peers).map
          fun peerID => (relayCopy packet, peerID)
      else [] := by
  rw [received_eq]
  split_ifs
  · rw [exec, outcome_relayPacket, sendToAll_callRecorder, List.nil_append]
  · rfl

theorem node_received (node : Node) (packet : BitchatPacket) (peripheralID : Bytes) :
    (received node packet peripheralID).node = (processPacket packet peripheralID).exec node := by
  rw [received_eq]
  split_ifs
  · rw [exec, outcome_relayPacket]
  · rfl

theorem ttl_pos_of_performsRelay {node : Node} {packet : BitchatPacket} {peripheralID : Bytes}
    (h : performsRelay node packet peripheralID = true) : 0 < packet.ttl.toNat := by
  rw [performsRelay, Bool.and_eq_true, decide_eq_true_eq] at h
  exact UInt8.lt_iff_toNat_lt.mp h.1

theorem ttl_relayCopy {packet : BitchatPacket} (h : 0 < packet.ttl.toNat) :
    (relayCopy packet).ttl.toNat + 1 = packet.ttl.toNat := by
  have hone : (1 : UInt8) ≤ packet.ttl := UInt8.le_iff_toNat_le.mpr h
  rw [relayCopy, UInt8.toNat_sub_of_le _ _ hone]
  change packet.ttl.toNat - 1 + 1 = _
  omega

theorem ttl_of_mem_received {node : Node} {packet : BitchatPacket} {peripheralID : Bytes}
    {call : BitchatPacket × Bytes} (h : call ∈ (received node packet peripheralID).network) :
    call.1.ttl.toNat + 1 = packet.ttl.toNat := by
  rw [network_received] at h
  split_ifs at h with hrelay
  · obtain ⟨peerID, -, rfl⟩ := List.mem_map.mp h
    exact ttl_relayCopy (ttl_pos_of_performsRelay hrelay)
  · simp at h

theorem length_received_le (node : Node) (packet : BitchatPacket) (peripheralID : Bytes) :
    (received node packet peripheralID).network.length ≤
      (received node packet peripheralID).node.data.peers.length := by
  rw [network_received, node_received]
  split_ifs
  · rw [List.length_map, relayTargets]
    exact (List.length_filter_le _ _).trans (by rw [List.length_map])
  · exact Nat.zero_le _

theorem mem_routed {route : Bytes → Option ι} {calls : List (BitchatPacket × Bytes)}
    {copy : ι × BitchatPacket} (h : copy ∈ routed route calls) :
    ∃ call ∈ calls, call.1 = copy.2 := by
  obtain ⟨call, hcall, hroute⟩ := List.mem_filterMap.mp h
  obtain ⟨i, -, rfl⟩ := Option.map_eq_some_iff.mp hroute
  exact ⟨call, hcall, rfl⟩

theorem length_routed_le (route : Bytes → Option ι) (calls : List (BitchatPacket × Bytes)) :
    (routed route calls).length ≤ calls.length := List.length_filterMap_le _ _

def pairID (i : Bool) : Bytes := if i then List.replicate 8 2 else List.replicate 8 1

def pairNode (i : Bool) : Node where
  data := { peerID := toHex (pairID i), nickname := [], peers := [{ peerID := toHex (pairID !i) }] }
  clock _ := 0

def pairRoute (peerID : Bytes) : Option Bool :=
  if peerID = toHex (pairID false) then some false
  else if peerID = toHex (pairID true) then some true
  else none

def passingPacket : BitchatPacket :=
  { type := pktTypeLeave, ttl := 3, timestamp := 1, senderID := List.replicate 8 9 }

def pair : Mesh Bool where
  node := pairNode
  inFlight := {(false, passingPacket)}

def pingPong : List (MeshAction Bool) :=
  [.deliver false passingPacket [], .deliver true { passingPacket with ttl := 2 } [],
    .deliver false { passingPacket with ttl := 1 } [],
    .deliver true { passingPacket with ttl := 0 } []]

end Mesh

end Bitchat
