import Bitchat.LocalCalls
import Bitchat.NetworkService
import Bitchat.PacketSerializer
import Bitchat.TransitionSystem

/-!
# Relaying over the Linux transport

The transport keeps its sockets under the Bluetooth addresses of the devices, as `ba2str`
writes them. The data store keeps the peers under their IDs in hexadecimal, and these are
what `relayPacket` asks the transport for. An address has colons in it and an ID has none.

The station takes one step after the other: that the callback for a new device waits for a
mutex that its own thread holds, and a started program may never get here, is the subject of
`LinuxThreads`.
-/

namespace Bitchat

open StringHelper PacketSerializer

/-- `broken` are the sockets on which `write` fails, and `written` is what `sendPacketToPeer`
has given to the others; packets for everybody are seen through the trace of the node. -/
structure LinuxBluetoothNetwork where
  connectedSockets : AList (fun _ : Bytes => ℕ) := ∅
  broken : ℕ → Bool := fun _ => false
  written : List (ℕ × Bytes) := []

namespace LinuxBluetoothNetwork

def sendPacketToPeer (lz4 : LZ4) (dis : ℕ → UInt8) (packet : BitchatPacket) (peerID : Bytes)
    (network : LinuxBluetoothNetwork) : Bool × LinuxBluetoothNetwork :=
  let data := serializePacket lz4 dis packet
  match network.connectedSockets.lookup peerID with
  | some socket =>
      if network.broken socket then (false, network)
      else (true, { network with written := network.written ++ [(socket, data)] })
  | none => (false, network)

def interface (lz4 : LZ4) (dis : ℕ → UInt8) : IBluetoothNetwork LinuxBluetoothNetwork where
  sendPacketToPeer := LinuxBluetoothNetwork.sendPacketToPeer lz4 dis

end LinuxBluetoothNetwork

namespace NetworkService

open Effect MessageService

/-- What happens to a node: a device connects or goes, a packet arrives from one, the node
announces itself to a new device, the user acts, stale peers are dropped, and the network
changes its mind about taking packets. -/
inductive LinuxAction (β : Type) where
  | connect (address : β) (socket : ℕ)
  | disconnect (address : β)
  | receive (packet : BitchatPacket) (dis : ℕ → UInt8)
  | announceTo (address : β) (dis : ℕ → UInt8)
  | call (call : LocalCall)
  | cleanupStalePeers (time : ℤ)
  | environment (connected : Bool) (broken : ℕ → Bool)

def onNode {τ : Type} (m : ServiceM Unit) (station : Station τ) : Station τ :=
  { station with node := m.exec station.node }

/-- The packet of `onPeripheralDiscovered`, which goes to the device alone. -/
def announceTo (lz4 : LZ4) (dis : ℕ → UInt8) (deviceID : Bytes) :
    Effect Fault (Station LinuxBluetoothNetwork) Unit := do
  let packet ← zoom Station.node (fun node station => { station with node }) createAnnouncePacket
  let _ ← sendPacketToPeer (LinuxBluetoothNetwork.interface lz4 dis) packet deviceID
  pure ()

variable {β : Type}

/-- `ba2str` is the library's. The reader thread passes no peripheral ID on. -/
def linux (lz4 : LZ4) (ba2str : β → Bytes) :
    TransitionSystem (Station LinuxBluetoothNetwork) (LinuxAction β) where
  Enabled station action := match action with
    | .disconnect address => ba2str address ∈ station.network.connectedSockets
    | _ => True
  next station action := match action with
    | .connect address socket =>
        onNode (do
            MessageService.peerConnected (ba2str address)
            MessageService.sendVersionHello (ba2str address))
          { station with network := { station.network with
              connectedSockets :=
                station.network.connectedSockets.insert (ba2str address) socket } }
    | .disconnect address =>
        let station := onNode (MessageService.peerDisconnected (ba2str address)) station
        { station with network := { station.network with
            connectedSockets := station.network.connectedSockets.erase (ba2str address) } }
    | .receive packet dis =>
        (onPacketReceived (LinuxBluetoothNetwork.interface lz4 dis) packet []).exec station
    | .announceTo address dis => (announceTo lz4 dis (ba2str address)).exec station
    | .call call => onNode call.perform station
    | .cleanupStalePeers time => onNode (modifyData fun data => data.cleanupStalePeers time) station
    | .environment connected broken =>
        { node := { station.node with connected }, network := { station.network with broken } }

instance (lz4 : LZ4) (ba2str : β → Bytes) (station : Station LinuxBluetoothNetwork)
    (action : LinuxAction β) : Decidable ((linux lz4 ba2str).Enabled station action) :=
  match action with
  | .disconnect address =>
      inferInstanceAs (Decidable (ba2str address ∈ station.network.connectedSockets))
  | .connect _ _ => .isTrue trivial
  | .receive _ _ => .isTrue trivial
  | .announceTo _ _ => .isTrue trivial
  | .call _ => .isTrue trivial
  | .cleanupStalePeers _ => .isTrue trivial
  | .environment _ _ => .isTrue trivial

/-- All peers of the list have hexadecimal IDs. -/
def HexPeers (node : Node) : Prop :=
  ∀ id ∈ node.data.peers.map BitchatPeer.peerID, ∃ bytes, id = toHex bytes

def KeepsHexPeers (node node' : Node) : Prop := HexPeers node → HexPeers node'

instance : Std.Refl KeepsHexPeers := ⟨fun _ h => h⟩

instance : IsTrans Node KeepsHexPeers := ⟨fun _ _ _ hab hbc h => hbc (hab h)⟩

theorem hexPeers_of_subset {node node' : Node}
    (h : ∀ peer ∈ node'.data.peers, peer ∈ node.data.peers) : KeepsHexPeers node node' := by
  intro hhex id hid
  obtain ⟨peer, hpeer, rfl⟩ := List.mem_map.mp hid
  exact hhex _ (List.mem_map_of_mem (h peer hpeer))

theorem handlerSteps_keepsHexPeers (senderID : Bytes) :
    HandlerSteps (toHex senderID) KeepsHexPeers where
  clock _ h := h
  unassigned _ h := h
  event _ _ _ h := h
  ack _ _ _ h := h
  storePeer node peer hpeer h := by
    intro id hid
    change id ∈ (BitchatData.storePeer peer node.data.peers).map BitchatPeer.peerID at hid
    rw [BitchatData.map_peerID_storePeer] at hid
    split at hid
    · exact h id hid
    · rcases List.mem_append.mp hid with hid | hid
      · exact h id hid
      · exact ⟨senderID, (List.mem_singleton.mp hid).trans hpeer⟩
  removePeer node := hexPeers_of_subset fun _ hpeer => List.mem_of_mem_filter hpeer
  history _ _ _ h := h
  sent _ _ _ h := h
  noise _ _ h := h

theorem localSteps_keepsHexPeers : LocalSteps KeepsHexPeers where
  clock _ h := h
  event _ _ _ h := h
  channel _ _ h := h
  history _ _ _ h := h
  removePeer _ _ := hexPeers_of_subset fun _ hpeer => List.mem_of_mem_filter hpeer
  encrypted _ _ _ _ _ h := h

/-- The sockets keep their names, and so do the peers. -/
def KeepsNames (station station' : Station LinuxBluetoothNetwork) : Prop :=
  station'.network.connectedSockets = station.network.connectedSockets ∧
    KeepsHexPeers station.node station'.node

instance : Std.Refl KeepsNames := ⟨fun _ => ⟨rfl, fun h => h⟩⟩

instance : IsTrans (Station LinuxBluetoothNetwork) KeepsNames :=
  ⟨fun _ _ _ hab hbc => ⟨hbc.1.trans hab.1, fun h => hbc.2 (hab.2 h)⟩⟩

theorem keepsNames_onNode {m : ServiceM Unit} (hm : Respects KeepsHexPeers m)
    (station : Station LinuxBluetoothNetwork) : KeepsNames station (onNode m station) :=
  ⟨rfl, hm station.node⟩

section Relay

variable (lz4 : LZ4) (dis : ℕ → UInt8)

theorem connectedSockets_sendPacketToPeer (packet : BitchatPacket) (peerID : Bytes)
    (network : LinuxBluetoothNetwork) :
    (network.sendPacketToPeer lz4 dis packet peerID).2.connectedSockets =
      network.connectedSockets := by
  unfold LinuxBluetoothNetwork.sendPacketToPeer
  dsimp only
  split
  · split <;> rfl
  · rfl

theorem keepsNames_sendPacketToPeer (packet : BitchatPacket) (peerID : Bytes) :
    Respects KeepsNames
      (sendPacketToPeer (LinuxBluetoothNetwork.interface lz4 dis) packet peerID) :=
  fun _ => ⟨connectedSockets_sendPacketToPeer lz4 dis packet peerID _, fun h => h⟩

theorem keepsNames_relayLoop (packet : BitchatPacket) (senderID : Bytes)
    (peers : List BitchatPeer) :
    Respects KeepsNames
      (relayLoop (LinuxBluetoothNetwork.interface lz4 dis) packet senderID peers) := by
  induction peers with
  | nil => exact respects_pure _
  | cons peer peers ih =>
      exact ((keepsNames_sendPacketToPeer lz4 dis packet _).bind fun _ => ih).ite ih

theorem keepsNames_onPacketReceived (packet : BitchatPacket) (peripheralID : Bytes) :
    Respects KeepsNames
      (onPacketReceived (LinuxBluetoothNetwork.interface lz4 dis) packet peripheralID) := by
  have hprocess : Respects KeepsHexPeers (processPacket packet peripheralID) := by
    refine respects_processPacket (handlerSteps_keepsHexPeers _) (fun node => ?_) _
    rw [marked, BitchatData.markMessageProcessed_eq]
    exact fun h => h
  refine (hprocess.zoom fun station node h => ⟨rfl, h⟩).bind fun _ => ?_
  exact (respects_get.bind fun _ => keepsNames_relayLoop lz4 dis _ _ _).ite (respects_pure _)

theorem keepsNames_announceTo (deviceID : Bytes) :
    Respects KeepsNames (announceTo lz4 dis deviceID) := by
  have hannounce : Respects KeepsHexPeers createAnnouncePacket :=
    respects_get.bind fun _ => respects_ownPacket localSteps_keepsHexPeers.clock _ _
  exact (hannounce.zoom fun station node h => ⟨rfl, h⟩).bind fun _ =>
    (keepsNames_sendPacketToPeer lz4 dis _ _).bind fun _ => respects_pure _

end Relay

structure LinuxInvariant (ba2str : β → Bytes) (station : Station LinuxBluetoothNetwork) : Prop where
  keys : ∀ id ∈ station.network.connectedSockets, ∃ address, id = ba2str address
  peers : HexPeers station.node

theorem LinuxInvariant.of_keepsNames {ba2str : β → Bytes}
    {station station' : Station LinuxBluetoothNetwork} (h : LinuxInvariant ba2str station)
    (hkeeps : KeepsNames station station') : LinuxInvariant ba2str station' :=
  ⟨fun id hid => h.keys id (hkeeps.1 ▸ hid), hkeeps.2 h.peers⟩

theorem linuxInvariant_next (lz4 : LZ4) {ba2str : β → Bytes}
    {station : Station LinuxBluetoothNetwork} (action : LinuxAction β)
    (h : LinuxInvariant ba2str station) :
    LinuxInvariant ba2str ((linux lz4 ba2str).next station action) := by
  cases action with
  | connect address socket =>
      have hnew : LinuxInvariant ba2str { station with network := { station.network with
          connectedSockets :=
            station.network.connectedSockets.insert (ba2str address) socket } } := by
        refine ⟨fun id hid => ?_, h.peers⟩
        rcases (AList.mem_insert _).mp hid with rfl | hid
        · exact ⟨address, rfl⟩
        · exact h.keys id hid
      exact hnew.of_keepsNames (keepsNames_onNode
        ((localSteps_keepsHexPeers.notify _ rfl).bind fun _ =>
          localSteps_keepsHexPeers.sendVersionHello _) _)
  | disconnect address =>
      have hgone := h.of_keepsNames (keepsNames_onNode
        (localSteps_keepsHexPeers.peerDisconnected (ba2str address)) station)
      exact ⟨fun id hid => hgone.keys id (AList.mem_erase.mp hid).2, hgone.peers⟩
  | receive packet dis => exact h.of_keepsNames (keepsNames_onPacketReceived lz4 dis packet [] _)
  | announceTo address dis => exact h.of_keepsNames (keepsNames_announceTo lz4 dis _ _)
  | call call =>
      exact h.of_keepsNames (keepsNames_onNode (localSteps_keepsHexPeers.perform call) station)
  | cleanupStalePeers time =>
      exact ⟨h.keys, hexPeers_of_subset (fun _ hpeer => List.mem_of_mem_filter hpeer) h.peers⟩
  | environment connected broken => exact ⟨h.keys, h.peers⟩

theorem sendToAll_of_unknown (lz4 : LZ4) (dis : ℕ → UInt8) (packet : BitchatPacket)
    {peerIDs : List Bytes} {network : LinuxBluetoothNetwork}
    (h : ∀ peerID ∈ peerIDs, network.connectedSockets.lookup peerID = none) :
    sendToAll (LinuxBluetoothNetwork.interface lz4 dis) packet peerIDs network = network := by
  induction peerIDs with
  | nil => rfl
  | cons peerID peerIDs ih =>
      have hsame : (network.sendPacketToPeer lz4 dis packet peerID).2 = network := by
        rw [LinuxBluetoothNetwork.sendPacketToPeer, h peerID List.mem_cons_self]
      change sendToAll _ packet peerIDs (network.sendPacketToPeer lz4 dis packet peerID).2 = _
      rw [hsame]
      exact ih fun id hid => h id (List.mem_cons_of_mem _ hid)

theorem colon_notMem_toHex (data : Bytes) : 0x3A ∉ toHex data := by
  intro h
  obtain ⟨d, hd⟩ := exists_hexValue_of_mem_toHex h
  exact absurd hd (by simp [hexValue])

/-- What `relayPacket` writes to the sockets. -/
def relayWrites (lz4 : LZ4) (dis : ℕ → UInt8) (packet : BitchatPacket)
    (station : Station LinuxBluetoothNetwork) : List (ℕ × Bytes) :=
  ((relayPacket (LinuxBluetoothNetwork.interface lz4 dis) packet).exec
    station).network.written.drop station.network.written.length

/-- The copy is written to the socket of each connected device whose owner has not sent the
packet. -/
def ReachesNeighbours (lz4 : LZ4) (ba2str : β → Bytes) (owner : β → Bytes)
    (packet : BitchatPacket) (station : Station LinuxBluetoothNetwork) : Prop :=
  ∀ dis address socket, station.network.connectedSockets.lookup (ba2str address) = some socket →
    toHex (owner address) ≠ toHex packet.senderID →
      (socket, serializePacket lz4 dis (relayCopy packet)) ∈ relayWrites lz4 dis packet station

theorem relayWrites_eq_nil (lz4 : LZ4) (dis : ℕ → UInt8) {ba2str : β → Bytes}
    (hba2str : ∀ address, 0x3A ∈ ba2str address) (packet : BitchatPacket)
    {station : Station LinuxBluetoothNetwork} (h : LinuxInvariant ba2str station) :
    relayWrites lz4 dis packet station = [] := by
  have hunknown : ∀ peerID ∈ relayTargets packet station.node.data.peers,
      station.network.connectedSockets.lookup peerID = none := by
    intro peerID hpeerID
    obtain ⟨bytes, rfl⟩ := h.peers peerID (List.mem_of_mem_filter hpeerID)
    rw [AList.lookup_eq_none]
    intro hkey
    obtain ⟨address, haddress⟩ := h.keys _ hkey
    exact colon_notMem_toHex bytes (haddress ▸ hba2str address)
  rw [relayWrites, exec, outcome_relayPacket, sendToAll_of_unknown lz4 dis _ hunknown,
    List.drop_length]

/-- The relay never finds a socket: it reaches the neighbours exactly if there is none but
the sender itself. -/
theorem relay_reaches_neighbours_iff (lz4 : LZ4) (ba2str : β → Bytes)
    (hba2str : ∀ address, (ba2str address).length = 17 ∧ 0x3A ∈ ba2str address)
    (start : Station LinuxBluetoothNetwork) (hsockets : start.network.connectedSockets = ∅)
    (hpeers : start.node.data.peers = []) (actions : List (LinuxAction β))
    (hexec : (linux lz4 ba2str).Execution start actions) (owner : β → Bytes)
    (packet : BitchatPacket) :
    ReachesNeighbours lz4 ba2str owner packet ((linux lz4 ba2str).run start actions) ↔
      ∀ address,
        ba2str address ∈ ((linux lz4 ba2str).run start actions).network.connectedSockets →
          owner address = packet.senderID := by
  have hstart : LinuxInvariant ba2str start := by
    refine ⟨fun id hid => ?_, fun id hid => ?_⟩
    · rw [hsockets] at hid
      exact absurd hid (AList.notMem_empty id)
    · rw [hpeers] at hid
      simp at hid
  have hinv := TransitionSystem.invariant_run
    (fun _ action _ h => linuxInvariant_next lz4 action h) hexec hstart
  constructor
  · intro h address haddress
    obtain ⟨socket, hsocket⟩ := Option.isSome_iff_exists.mp (AList.lookup_isSome.mpr haddress)
    by_contra hother
    have hwritten := h (fun _ => 0) address socket hsocket (toHex_injective.ne hother)
    rw [relayWrites_eq_nil lz4 _ (fun address => (hba2str address).2) packet hinv] at hwritten
    simp at hwritten
  · intro h dis address socket hsocket hother
    have haddress := AList.lookup_isSome.mp (Option.isSome_of_mem hsocket)
    exact absurd (congrArg toHex (h address haddress)) hother

/-- The six bytes of an address, the last first, as `ba2str` formats them. -/
def formatAddress (address : Vector UInt8 6) : Bytes :=
  let digit (n : UInt8) : UInt8 := if n < 10 then 0x30 + n else 0x37 + n
  List.intercalate [0x3A] (address.toList.reverse.map fun (byte : UInt8) =>
    [digit (byte >>> 4), digit (byte &&& 0x0F)])

theorem formatAddress_spec (address : Vector UInt8 6) :
    (formatAddress address).length = 17 ∧ 0x3A ∈ formatAddress address := by
  obtain ⟨⟨bytes⟩, hsize⟩ := address
  match bytes, hsize with
  | [a, b, c, d, e, f], _ =>
    constructor
    · rfl
    · exact List.mem_cons_of_mem _ (List.mem_cons_of_mem _ List.mem_cons_self)

/-- The address of a device and the ID of its owner. -/
def deviceAddress : Vector UInt8 6 := #v[0x66, 0x55, 0x44, 0x33, 0x22, 0x11]

def deviceOwner (_address : Vector UInt8 6) : Bytes := [8, 7, 6, 5, 4, 3, 2, 1]

def unconnected : Station LinuxBluetoothNetwork where
  node :=
    { data := { peerID := toHex [1, 2, 3, 4, 5, 6, 7, 8], nickname := [0x61] }
      clock := fun _ => 1700000000000000000 }
  network := {}

def ownerAnnounce : BitchatPacket :=
  { BitchatPacket.make pktTypeAnnounce [0x62] 1700000000000 with
    senderID := [8, 7, 6, 5, 4, 3, 2, 1] }

/-- The device connects, and its owner announces itself. -/
def introduction : List (LinuxAction (Vector UInt8 6)) :=
  [.connect deviceAddress 5, .receive ownerAnnounce fun _ => 0]

/-- A packet of a third node. -/
def foreignPacket : BitchatPacket :=
  { BitchatPacket.make pktTypeAnnounce [0x63] 1700000000000 with
    senderID := [9, 9, 9, 9, 9, 9, 9, 9] }

def silentLZ4 : LZ4 := .ofBlock [] []

/-- The owner is in the peer list and its device is connected, and nothing is written. -/
theorem introduction_not_reached :
    (linux silentLZ4 formatAddress).Execution unconnected introduction ∧
      ((linux silentLZ4 formatAddress).run unconnected introduction).network.connectedSockets.lookup
        (formatAddress deviceAddress) = some 5 ∧
      (((linux silentLZ4 formatAddress).run unconnected introduction).node.data.getPeerInfo
        (toHex (deviceOwner deviceAddress))).isSome = true ∧
      deviceOwner deviceAddress ≠ foreignPacket.senderID ∧ 0 < foreignPacket.ttl ∧
      ¬ ReachesNeighbours silentLZ4 formatAddress deviceOwner foreignPacket
        ((linux silentLZ4 formatAddress).run unconnected introduction) := by
  have hsocket : ((linux silentLZ4 formatAddress).run unconnected
      introduction).network.connectedSockets.lookup (formatAddress deviceAddress) = some 5 := by
    decide +kernel
  refine ⟨by decide +kernel, hsocket, by decide +kernel, by decide, by decide, fun h => ?_⟩
  have hwritten := h (fun _ => 0) deviceAddress 5 hsocket (by decide)
  have hnothing : relayWrites silentLZ4 (fun _ => 0) foreignPacket
      ((linux silentLZ4 formatAddress).run unconnected introduction) = [] := by decide +kernel
  rw [hnothing] at hwritten
  simp at hwritten

theorem relay_reaches_neighbours_iff_introduction :
    ReachesNeighbours silentLZ4 formatAddress deviceOwner foreignPacket
        ((linux silentLZ4 formatAddress).run unconnected introduction) ↔
      ∀ address, formatAddress address ∈ ((linux silentLZ4 formatAddress).run unconnected
          introduction).network.connectedSockets →
        deviceOwner address = foreignPacket.senderID :=
  relay_reaches_neighbours_iff silentLZ4 formatAddress formatAddress_spec unconnected rfl rfl
    introduction (by decide +kernel) deviceOwner foreignPacket

end NetworkService

end Bitchat
