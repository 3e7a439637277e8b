import Bitchat.AppleLinks
import Bitchat.GroupMessage
import Bitchat.NodeActivity

/-!
# A node on the Apple transport

The transport keeps its devices under the strings of their identifiers, which have dashes in
them. Packets that a node makes by itself go to everybody, or to a device by its identifier;
relaying asks for the peers by their IDs, and finds no device under any of them.
-/

namespace Bitchat

open Effect StringHelper MessageService PacketSerializer NetworkService

/-- `dis` are the bytes drawn for the padding. -/
def AppleBluetooth.interface (lz4 : LZ4) (dis : ℕ → UInt8) : IBluetoothNetwork AppleBluetooth where
  sendPacketToPeer packet peerID :=
    AppleBluetooth.sendPacketToPeer (serializePacket lz4 dis packet) peerID

abbrev AppleStation := Station AppleBluetooth

namespace AppleStation

def carry (lz4 : LZ4) (dis : ℕ → UInt8) (bluetooth : AppleBluetooth) (event : Event) :
    AppleBluetooth :=
  match event with
  | .sent packet => (bluetooth.sendPacket (serializePacket lz4 dis packet)).2
  | .sentToPeripheral packet peripheralID =>
      (bluetooth.sendPacketToPeripheralID (serializePacket lz4 dis packet) peripheralID).2
  | _ => bluetooth

def call (lz4 : LZ4) (dis : ℕ → UInt8) (m : ServiceM Unit) (station : AppleStation) :
    AppleStation where
  node := m.exec station.node
  network := (newEvents m station.node).foldl (carry lz4 dis) station.network

/-- `onPacketReceived`. What the handler sends goes out before the packet is relayed. -/
def receive (lz4 : LZ4) (dis : ℕ → UInt8) (packet : BitchatPacket) (peripheralID : Bytes)
    (station : AppleStation) : AppleStation :=
  let handled := call lz4 dis (processPacket packet peripheralID) station
  match (processPacket packet peripheralID).result station.node with
  | .ok _ =>
      if packet.ttl > 0 then (relayPacket (AppleBluetooth.interface lz4 dis) packet).exec handled
      else handled
  | .error _ => handled

/-- The callbacks of the bridge. Packets of devices that have connected have no peripheral. -/
def deliver (lz4 : LZ4) (dis : ℕ → UInt8) (station : AppleStation) (event : AppleEvent) :
    AppleStation :=
  match event with
  | .peerConnected peripheralID =>
      call lz4 dis (MessageService.peerConnected peripheralID) station
  | .peerDisconnected peripheralID =>
      call lz4 dis (MessageService.peerDisconnected peripheralID) station
  | .peripheralDiscovered peripheralID =>
      call lz4 dis (MessageService.sendVersionHello peripheralID) station
  | .packetReceived data peripheralID =>
      match deserializePacket lz4 data with
      | .ok decoded => receive lz4 dis decoded.packet (peripheralID.getD []) station
      | .error _ => station
  | _ => station

def report (lz4 : LZ4) (dis : ℕ → UInt8) (action : AppleBluetooth.Action)
    (station : AppleStation) : AppleStation :=
  let network := station.network.perform action
  (network.trace.drop station.network.trace.length).foldl (deliver lz4 dis) { station with network }

end AppleStation

/-- What Core Bluetooth reports to a node, and what the node does by itself. -/
inductive AppleAction where
  | report (action : AppleBluetooth.Action) (dis : ℕ → UInt8)
  | own (action : NodeAction) (dis : ℕ → UInt8)

def AppleBluetooth.Action.isSend : AppleBluetooth.Action → Bool
  | .sendPacket _ => true
  | .sendPacketToPeer _ _ => true
  | .sendPacketToPeripheralID _ _ => true
  | _ => false

/-- Nothing is sent but what the node sends, and nothing is received but from the transport. -/
def appleStation (lz4 : LZ4) : TransitionSystem AppleStation AppleAction where
  Enabled station
    | .report action _ => station.network.Reported action ∧ action.isSend = false
    | .own action _ => ∀ packet peripheralID, action ≠ .receive packet peripheralID
  next station
    | .report action dis => AppleStation.report lz4 dis action station
    | .own action dis => AppleStation.call lz4 dis action.perform station

namespace AppleStation

def Sends : AppleBluetooth → AppleBluetooth → Prop :=
  AppleBluetooth.coreBluetooth.Reaches fun action => action.isSend = true

instance : Std.Refl Sends := inferInstanceAs (Std.Refl (AppleBluetooth.coreBluetooth.Reaches _))

instance : IsTrans AppleBluetooth Sends :=
  inferInstanceAs (IsTrans _ (AppleBluetooth.coreBluetooth.Reaches _))

theorem sends_perform {action : AppleBluetooth.Action} (hsend : action.isSend = true)
    (bluetooth : AppleBluetooth) : Sends bluetooth (bluetooth.perform action) := by
  refine TransitionSystem.reaches_next hsend ?_
  cases action with
  | sendPacket data => exact trivial
  | sendPacketToPeer data peerID => exact trivial
  | sendPacketToPeripheralID data peripheralID => exact trivial
  | _ => cases hsend

theorem sends_foldl {α : Type} {f : AppleBluetooth → α → AppleBluetooth}
    (h : ∀ bluetooth a, Sends bluetooth (f bluetooth a)) (items : List α)
    (bluetooth : AppleBluetooth) : Sends bluetooth (items.foldl f bluetooth) := by
  induction items generalizing bluetooth with
  | nil => exact refl_of Sends bluetooth
  | cons item items ih => exact trans_of Sends (h bluetooth item) (ih _)

theorem sends_carry (lz4 : LZ4) (dis : ℕ → UInt8) (bluetooth : AppleBluetooth) (event : Event) :
    Sends bluetooth (carry lz4 dis bluetooth event) := by
  cases event with
  | sent packet =>
      have hsend : (AppleBluetooth.Action.sendPacket (serializePacket lz4 dis packet)).isSend =
        true := rfl
      exact sends_perform hsend bluetooth
  | sentToPeripheral packet peripheralID =>
      have hsend : (AppleBluetooth.Action.sendPacketToPeripheralID
        (serializePacket lz4 dis packet) peripheralID).isSend = true := rfl
      exact sends_perform hsend bluetooth
  | _ => exact refl_of Sends bluetooth

theorem sends_call (lz4 : LZ4) (dis : ℕ → UInt8) (m : ServiceM Unit) (station : AppleStation) :
    Sends station.network (call lz4 dis m station).network :=
  sends_foldl (sends_carry lz4 dis) _ _

theorem sends_sendToAll (lz4 : LZ4) (dis : ℕ → UInt8) (packet : BitchatPacket)
    (peerIDs : List Bytes) (bluetooth : AppleBluetooth) :
    Sends bluetooth
      (sendToAll (AppleBluetooth.interface lz4 dis) packet peerIDs bluetooth) := by
  refine sends_foldl (fun bluetooth peerID => ?_) peerIDs bluetooth
  have hsend : (AppleBluetooth.Action.sendPacketToPeer (serializePacket lz4 dis packet)
    peerID).isSend = true := rfl
  exact sends_perform hsend bluetooth

/-- The transport is only asked to send, and the peers keep to their names. -/
structure Keeps (station station' : AppleStation) : Prop where
  sends : Sends station.network station'.network
  peers : KeepsHexPeers station.node station'.node

instance : Std.Refl Keeps := ⟨fun _ => ⟨refl_of Sends _, refl_of KeepsHexPeers _⟩⟩

instance : IsTrans AppleStation Keeps :=
  ⟨fun _ _ _ h k => ⟨trans_of Sends h.sends k.sends, trans_of KeepsHexPeers h.peers k.peers⟩⟩

section Keeps

variable (lz4 : LZ4) (dis : ℕ → UInt8)

theorem keeps_call {m : ServiceM Unit} (hm : Respects KeepsHexPeers m) (station : AppleStation) :
    Keeps station (call lz4 dis m station) := ⟨sends_call lz4 dis m station, hm station.node⟩

theorem keepsHexPeers_processPacket (packet : BitchatPacket) (peripheralID : Bytes) :
    Respects KeepsHexPeers (processPacket packet peripheralID) := by
  refine respects_processPacket (handlerSteps_keepsHexPeers _) (fun node => ?_) _
  rw [marked, BitchatData.markMessageProcessed_eq]
  exact fun h => h

theorem keeps_relayPacket (packet : BitchatPacket) :
    Respects Keeps (relayPacket (AppleBluetooth.interface lz4 dis) packet) := by
  intro station
  rw [exec, outcome_relayPacket]
  exact ⟨sends_sendToAll lz4 dis _ _ _, refl_of KeepsHexPeers _⟩

theorem keeps_receive (packet : BitchatPacket) (peripheralID : Bytes) (station : AppleStation) :
    Keeps station (receive lz4 dis packet peripheralID station) := by
  have hcall := keeps_call lz4 dis (keepsHexPeers_processPacket packet peripheralID) station
  unfold receive
  dsimp only
  split
  · split
    · exact trans_of Keeps hcall (keeps_relayPacket lz4 dis packet _)
    · exact hcall
  · exact hcall

theorem keeps_deliver (station : AppleStation) (event : AppleEvent) :
    Keeps station (deliver lz4 dis station event) := by
  cases event with
  | peerConnected peripheralID =>
      exact keeps_call lz4 dis (localSteps_keepsHexPeers.notify _ rfl) station
  | peerDisconnected peripheralID =>
      exact keeps_call lz4 dis (localSteps_keepsHexPeers.peerDisconnected peripheralID) station
  | peripheralDiscovered peripheralID =>
      exact keeps_call lz4 dis (localSteps_keepsHexPeers.sendVersionHello peripheralID) station
  | packetReceived data peripheralID =>
      unfold deliver
      dsimp only
      split
      · exact keeps_receive lz4 dis _ _ station
      · exact refl_of Keeps station
  | _ => exact refl_of Keeps station

theorem keeps_deliverAll (events : List AppleEvent) (station : AppleStation) :
    Keeps station (events.foldl (deliver lz4 dis) station) := by
  induction events generalizing station with
  | nil => exact refl_of Keeps station
  | cons event events ih => exact trans_of Keeps (keeps_deliver lz4 dis station event) (ih _)

theorem keepsHexPeers_perform (action : NodeAction) : Respects KeepsHexPeers action.perform := by
  have h := localSteps_keepsHexPeers
  cases action with
  | receive packet peripheralID =>
      exact respects_receive (fun _ _ _ hpeers => hpeers)
        (keepsHexPeers_processPacket packet peripheralID)
  | call localCall => exact h.perform localCall
  | changeNickname nickname => exact respects_modify fun _ hpeers => hpeers
  | announce isReady => exact h.announce isReady
  | announceTo peripheralID => exact h.announceToPeripheral peripheralID
  | cleanupStalePeers time =>
      exact respects_modify fun _ => hexPeers_of_subset fun _ hpeer => List.mem_of_mem_filter hpeer
  | network connected => exact respects_modify fun _ hpeers => hpeers

end Keeps

def reports : List AppleAction → List AppleBluetooth.Action :=
  List.filterMap fun
    | .report action _ => some action
    | .own _ _ => none

/-- In a run of a node its transport runs as it would alone: it gets the reports of the run, and
is asked to send between them. -/
theorem refines_coreBluetooth (lz4 : LZ4) {station : AppleStation} {actions : List AppleAction}
    (hexec : (appleStation lz4).Execution station actions) :
    ∃ calls, AppleBluetooth.coreBluetooth.Execution station.network calls ∧
      AppleBluetooth.coreBluetooth.run station.network calls =
        ((appleStation lz4).run station actions).network ∧
      calls.filter (fun action => !action.isSend) = reports actions := by
  induction actions generalizing station with
  | nil => exact ⟨[], trivial, rfl, rfl⟩
  | cons action actions ih =>
      obtain ⟨henabled, hrest⟩ := hexec
      obtain ⟨calls, hcalls, hrun, hreports⟩ := ih hrest
      have hnone : ∀ sends : List AppleBluetooth.Action, (∀ a ∈ sends, a.isSend = true) →
          sends.filter (fun action => !action.isSend) = [] :=
        fun sends hsends => List.filter_eq_nil_iff.mpr (by simpa using hsends)
      cases action with
      | report action dis =>
          obtain ⟨sends, hsends, hexec, hnext⟩ := (keeps_deliverAll lz4 dis
            ((station.network.perform action).trace.drop station.network.trace.length)
            { station with network := station.network.perform action }).sends
          refine ⟨action :: (sends ++ calls), ⟨henabled.1, ?_⟩, ?_, ?_⟩
          · exact TransitionSystem.execution_append.mpr ⟨hexec, hnext ▸ hcalls⟩
          · refine (TransitionSystem.run_append _ sends calls).trans ?_
            exact hnext ▸ hrun
          · rw [List.filter_cons_of_pos (by simp [henabled.2]), List.filter_append, hnone sends hsends,
              hreports]
            rfl
      | own action dis =>
          obtain ⟨sends, hsends, hexec, hnext⟩ := sends_call lz4 dis action.perform station
          refine ⟨sends ++ calls, ?_, ?_, ?_⟩
          · exact TransitionSystem.execution_append.mpr ⟨hexec, hnext ▸ hcalls⟩
          · rw [TransitionSystem.run_append]
            exact hnext ▸ hrun
          · rw [List.filter_append, hnone sends hsends, hreports]
            rfl

theorem hexPeers_next {lz4 : LZ4} (station : AppleStation) (action : AppleAction)
    (_ : (appleStation lz4).Enabled station action) (h : HexPeers station.node) :
    HexPeers ((appleStation lz4).next station action).node := by
  cases action with
  | report action dis => exact (keeps_deliverAll lz4 dis _ _).peers h
  | own action dis => exact keepsHexPeers_perform action station.node h

theorem lookup_toHex_eq_none {bluetooth : AppleBluetooth} (h : bluetooth.Bookkeeping)
    (bytes : Bytes) : bluetooth.connectedPeripherals.lookup (toHex bytes) = none := by
  cases hlookup : bluetooth.connectedPeripherals.lookup (toHex bytes) with
  | none => rfl
  | some peripheral =>
      have hname := ((h.connected _ peripheral).mp hlookup).1
      have hdash := dash_mem_UUIDString peripheral
      rw [← hname] at hdash
      obtain ⟨digit, hdigit⟩ := exists_hexValue_of_mem_toHex hdash
      exact absurd hdigit (by simp [hexValue])

/-- Whatever a node on the Apple transport has been through, a packet that it receives is
handled and goes no further: relaying writes it to nobody. -/
theorem relay_adds_nothing (lz4 : LZ4) (station : AppleStation) (hnetwork : station.network = {})
    (hpeers : station.node.data.peers = []) (actions : List AppleAction)
    (hexec : (appleStation lz4).Execution station actions) (dis : ℕ → UInt8)
    (packet : BitchatPacket) (peripheralID : Bytes) :
    receive lz4 dis packet peripheralID ((appleStation lz4).run station actions) =
      call lz4 dis (processPacket packet peripheralID) ((appleStation lz4).run station actions) := by
  have hhex : HexPeers ((appleStation lz4).run station actions).node := by
    refine TransitionSystem.invariant_run hexPeers_next hexec fun id hid => ?_
    rw [hpeers] at hid
    exact absurd hid List.not_mem_nil
  obtain ⟨calls, hcalls, hrun, -⟩ := refines_coreBluetooth lz4 hexec
  set last := (appleStation lz4).run station actions
  have hkeeps := keeps_call lz4 dis (keepsHexPeers_processPacket packet peripheralID) last
  have hbooks : (call lz4 dis (processPacket packet peripheralID) last).network.Bookkeeping := by
    obtain ⟨sends, -, hsends, hnext⟩ := hkeeps.sends
    rw [← hnext]
    refine TransitionSystem.invariant_run AppleBluetooth.bookkeeping_perform hsends ?_
    rw [← hrun, hnetwork]
    exact AppleBluetooth.bookkeeping_run (hnetwork ▸ hcalls)
  have hsame : (relayPacket (AppleBluetooth.interface lz4 dis) packet).exec
      (call lz4 dis (processPacket packet peripheralID) last) =
        call lz4 dis (processPacket packet peripheralID) last := by
    rw [exec, outcome_relayPacket, sendToAll_of_same]
    intro peerID hpeer
    obtain ⟨bytes, rfl⟩ := hkeeps.peers hhex peerID (List.mem_of_mem_filter hpeer)
    change (AppleBluetooth.sendPacketToPeer _ (toHex bytes) _).2 = _
    rw [AppleBluetooth.sendPacketToPeer, lookup_toHex_eq_none hbooks]
  unfold receive
  dsimp only
  split
  · split
    · exact hsame
    · rfl
  · rfl

def passingAnnounce : BitchatPacket :=
  { BitchatPacket.make pktTypeAnnounce (ascii "bob") 1700000000000 with
    senderID := List.replicate 8 2 }

def encounter : List AppleAction :=
  [.centralManagerState true, .mainQueue, .didDiscoverPeripheral AppleBluetooth.passerby,
    .didConnectPeripheral AppleBluetooth.passerby, .stateChanged AppleBluetooth.passerby true,
    .didDiscoverCharacteristics AppleBluetooth.passerby [AppleBluetooth.CHARACTERISTIC_UUID],
    .didUpdateValue AppleBluetooth.passerby
      (some (serializePacket zerosLZ4 (fun _ => 0) passingAnnounce))].map fun action => .report action fun _ => 0

theorem execution_encounter : (appleStation zerosLZ4).Execution ⟨member, {}⟩ encounter := by
  refine ⟨⟨trivial, rfl⟩, ⟨trivial, rfl⟩, ⟨⟨?_, ?_⟩, rfl⟩, ⟨(?_ : _ ∈ _), rfl⟩, ⟨trivial, rfl⟩,
    ⟨(?_ : _ ∈ _), rfl⟩, ⟨(?_ : _ ∈ _), rfl⟩, trivial⟩
  · decide +kernel
  · decide +kernel
  · decide +kernel
  · decide +kernel
  · decide +kernel

def encountered : AppleStation := (appleStation zerosLZ4).run ⟨member, {}⟩ encounter

/-- The node knows one peer, on the one device that is connected, and relays nothing to it. -/
theorem relay_adds_nothing_encounter :
    encountered.node.data.peers.map BitchatPeer.peerID = [toHex (List.replicate 8 2)] ∧
      encountered.network.allValues = [AppleBluetooth.passerby] ∧
      receive zerosLZ4 (fun _ => 0) (groupPacket pktTypeMessage newcomer) [] encountered =
        call zerosLZ4 (fun _ => 0) (processPacket (groupPacket pktTypeMessage newcomer) [])
          encountered :=
  ⟨by decide +kernel, by decide +kernel, relay_adds_nothing zerosLZ4 ⟨member, {}⟩ rfl rfl encounter
    execution_encounter (fun _ => 0) (groupPacket pktTypeMessage newcomer) []⟩

end AppleStation

end Bitchat
