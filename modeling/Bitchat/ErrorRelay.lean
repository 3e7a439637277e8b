import Bitchat.DecodeErrors
import Bitchat.HandlerFaults
import Bitchat.NetworkService

/-!
# What the network service does with broken packets

The decoder reports an error by returning the packet as far as it is filled, and the
network service relays whatever it is given. A broken packet stays inside the node only if
its TTL is used up, if there is nobody else to relay it to, or if its handler throws.
-/

namespace Bitchat.NetworkService

open Effect StringHelper PacketSerializer MessageService

def IsSent : Event → Bool
  | .sent _ => true
  | .sentToPeripheral _ _ => true
  | _ => false

theorem isSent_of_isReport {event : Event} (h : IsReport event = true) : IsSent event = false := by
  cases event <;> first | rfl | cases h

def Silent (node node' : Node) : Prop :=
  ∃ events, node'.trace = node.trace ++ events ∧ ∀ event ∈ events, IsSent event = false

theorem Silent.of_trace_eq {node node' : Node} (h : node'.trace = node.trace) :
    Silent node node' := ⟨[], h.trans (List.append_nil _).symm, by simp⟩

instance : Std.Refl Silent := ⟨fun _ => .of_trace_eq rfl⟩

instance : IsTrans Node Silent := by
  constructor
  rintro a b c ⟨events, hab, hevents⟩ ⟨events', hbc, hevents'⟩
  refine ⟨events ++ events', by rw [hbc, hab, List.append_assoc], fun event hmem => ?_⟩
  exact (List.mem_append.mp hmem).elim (hevents event) (hevents' event)

theorem storeSteps_silent (peerID : Bytes) : StoreSteps peerID Silent where
  clock _ := .of_trace_eq rfl
  unassigned _ := .of_trace_eq rfl
  event _ event hevent := ⟨[event], rfl, by simpa using isSent_of_isReport hevent⟩
  storePeer _ _ _ := .of_trace_eq rfl
  removePeer _ := .of_trace_eq rfl
  history _ _ _ := .of_trace_eq rfl

theorem silent_iff {node node' : Node} {events : List Event}
    (h : node'.trace = node.trace ++ events) :
    Silent node node' ↔ ∀ event ∈ events, IsSent event = false := by
  constructor
  · rintro ⟨events', h', hevents⟩
    obtain rfl := List.append_cancel_left (h.symm.trans h')
    exact hevents
  · exact fun hevents => ⟨events, h, hevents⟩

/-- Nobody is known but, perhaps, the peer with the given ID. -/
def OnlyPeer (peerID : Bytes) (data : BitchatData) : Prop :=
  ∀ id ∈ data.peers.map BitchatPeer.peerID, id = peerID

instance (peerID : Bytes) (data : BitchatData) : Decidable (OnlyPeer peerID data) :=
  inferInstanceAs (Decidable (∀ _ ∈ _, _))

def SameOthers (peerID : Bytes) (node node' : Node) : Prop :=
  OnlyPeer peerID node.data ↔ OnlyPeer peerID node'.data

instance (peerID : Bytes) : Std.Refl (SameOthers peerID) := ⟨fun _ => Iff.rfl⟩

instance (peerID : Bytes) : IsTrans Node (SameOthers peerID) := ⟨fun _ _ _ h k => h.trans k⟩

theorem onlyPeer_addPeer {peerID : Bytes} {peer : BitchatPeer} (h : peer.peerID = peerID)
    (data : BitchatData) : OnlyPeer peerID data ↔ OnlyPeer peerID (data.addPeer peer) := by
  unfold OnlyPeer BitchatData.addPeer
  rw [BitchatData.map_peerID_storePeer, h]
  split_ifs
  · rfl
  · simp [or_imp]

theorem onlyPeer_removePeer (peerID : Bytes) (data : BitchatData) :
    OnlyPeer peerID data ↔ OnlyPeer peerID (data.removePeer peerID) := by
  simp only [OnlyPeer, BitchatData.removePeer, List.forall_mem_map, List.mem_filter,
    decide_eq_true_eq]
  constructor
  · exact fun h peer hpeer => h peer hpeer.1
  · intro h peer hpeer
    by_contra hne
    exact hne (h peer ⟨hpeer, hne⟩)

theorem handlerSteps_sameOthers (peerID : Bytes) : HandlerSteps peerID (SameOthers peerID) where
  clock _ := Iff.rfl
  unassigned _ := Iff.rfl
  event _ _ _ := Iff.rfl
  ack _ _ _ := Iff.rfl
  storePeer node _ hpeer := onlyPeer_addPeer hpeer node.data
  removePeer node := onlyPeer_removePeer peerID node.data
  history _ _ _ := Iff.rfl
  sent _ _ _ := Iff.rfl
  noise _ _ := Iff.rfl

theorem relayTargets_eq_nil_iff (packet : BitchatPacket) (data : BitchatData) :
    relayTargets packet data.peers = [] ↔ OnlyPeer (toHex packet.senderID) data := by
  simp [relayTargets, OnlyPeer, List.filter_eq_nil_iff]

theorem relayed_callRecorder_iff (packet : BitchatPacket) (node : Node)
    (calls : List (BitchatPacket × Bytes)) :
    relayed callRecorder packet node calls = calls ↔
      packet.ttl = 0 ∨ OnlyPeer (toHex packet.senderID) node.data := by
  rw [relayed, ← relayTargets_eq_nil_iff]
  by_cases httl : packet.ttl = 0
  · rw [httl, if_neg (by decide)]
    exact iff_of_true rfl (.inl rfl)
  · rw [if_pos (UInt8.pos_iff_ne_zero.mpr httl), sendToAll_callRecorder,
      List.append_right_eq_self, List.map_eq_nil_iff, or_iff_right httl]

def Prompts (node : Node) (packet : BitchatPacket) : Prop :=
  ∃ service, IsForeign node packet service ∧
    (packet.type = pktTypeNoiseHandshakeInit ∧
        service.hasEstablishedSession (toHex packet.senderID) = false ∨
      packet.type = pktTypeNoiseIdentityAnnounce ∧ node.data.peerID < toHex packet.senderID ∧
        service.status (toHex packet.senderID) = some false)

def Refused (node : Node) (packet : BitchatPacket) : Prop :=
  ∃ service, IsForeign node packet service ∧
    (packet.type = pktTypeNoiseEncrypted ∧
        service.hasEstablishedSession (toHex packet.senderID) = false ∨
      packet.type = pktTypeNoiseIdentityAnnounce ∧ node.data.peerID < toHex packet.senderID ∧
        service.status (toHex packet.senderID) ≠ some false)

variable {node : Node} {packet : BitchatPacket}

theorem outcome_dispatch_of_prompts (h : Prompts node packet) (peripheralID : Bytes) :
    ∃ type payload node', (dispatch packet peripheralID).outcome node =
        (sendOwn type payload).outcome node' ∧
      node'.data = node.data ∧ node'.connected = node.connected ∧ node'.trace = node.trace := by
  obtain ⟨service, hforeign, ⟨htype, hnew⟩ | ⟨htype, hlt, hstatus⟩⟩ := h
  · obtain ⟨response, service', -, hout⟩ :=
      outcome_processNoiseHandshakeInitPacket_of_new hforeign hnew
    rw [dispatch_handshakeInit htype]
    exact ⟨_, _, _, hout, rfl, rfl, rfl⟩
  · obtain ⟨handshakeData, service', -, hout⟩ :=
      outcome_processNoiseIdentityAnnouncePacket_of_pending hforeign hlt hstatus
    rw [dispatch_identityAnnounce htype]
    exact ⟨_, _, _, hout, rfl, rfl, rfl⟩

theorem outcome_dispatch_of_refused (h : Refused node packet) (peripheralID : Bytes) :
    ∃ what node', (dispatch packet peripheralID).outcome node =
      (.error (.runtimeError what), node') ∧ Silent node node' := by
  obtain ⟨service, hforeign, ⟨htype, hnew⟩ | ⟨htype, hlt, hstatus⟩⟩ := h
  · obtain ⟨what, hout⟩ := outcome_processNoiseEncryptedPacket_error hforeign hnew
    rw [dispatch_encrypted htype]
    exact ⟨what, _, hout, .of_trace_eq rfl⟩
  · obtain ⟨what, hout⟩ :=
      outcome_processNoiseIdentityAnnouncePacket_error hforeign hlt hstatus
    rw [dispatch_identityAnnounce htype]
    exact ⟨what, _, hout, .of_trace_eq rfl⟩

theorem result_dispatch_channelAnnounce (hpayload : packet.payload = [])
    (htype : packet.type = pktTypeChannelAnnounce) (peripheralID : Bytes) :
    (dispatch packet peripheralID).result node = .error (.uninitialized (ascii "joining")) := by
  rw [dispatch_channelAnnounce htype]
  exact result_processChannelAnnouncePacket_short (by simp [hpayload])

def IsUneventful (m : ServiceM Unit) (node : Node) : Prop :=
  ∃ node', m.outcome node = (.ok ⟨⟩, node') ∧ Silent node node'

theorem isUneventful_pure : IsUneventful (pure ()) node := ⟨node, rfl, .of_trace_eq rfl⟩

theorem isUneventful_of_succeeds {m : ServiceM Unit} (hm : Succeeds (fun _ => True) m)
    (hsilent : Respects Silent m) : IsUneventful m node := by
  obtain ⟨u, node', hout, -⟩ := hm node trivial
  have hrespects := hsilent node
  rw [exec, hout] at hrespects
  exact ⟨node', hout, hrespects⟩

theorem isUneventful_processMessagePacket (hpayload : packet.payload = []) :
    IsUneventful (processMessagePacket packet) node := by
  have hparse : parseMessagePayload packet.payload = .ok ⟨{}, some .payloadTooSmall⟩ := by
    rw [hpayload]
    rfl
  have hout := outcome_processMessagePacket node hparse
  have hrespects := respects_processMessagePacket (storeSteps_silent []).messageSteps packet node
  rw [exec, hout] at hrespects
  exact ⟨_, hout, hrespects⟩

theorem isUneventful_onNoisePacket
    {handle : Node → NoiseService → Bytes → ServiceM Unit}
    (h : ∀ service, IsForeign node packet service →
      IsUneventful (onNoisePacket packet handle) node) :
    IsUneventful (onNoisePacket packet handle) node := by
  rcases foreign_or_skipped node packet with ⟨service, hforeign⟩ | ⟨-, hskip⟩
  · exact h service hforeign
  · exact ⟨node, hskip handle, .of_trace_eq rfl⟩

theorem isUneventful_dispatch (hpayload : packet.payload = [])
    (hchannel : packet.type ≠ pktTypeChannelAnnounce) (hprompts : ¬ Prompts node packet)
    (hrefused : ¬ Refused node packet) (peripheralID : Bytes) :
    IsUneventful (dispatch packet peripheralID) node := by
  have hempty : packet.payload.isEmpty = true := by simp [hpayload]
  apply dispatch_induction (P := fun m => IsUneventful m node)
  · intro hhello
    rw [processVersionHelloPacket, if_pos hempty]
    exact isUneventful_pure
  · intro hack
    rw [processVersionAckPacket, if_pos hempty]
    exact isUneventful_pure
  · exact fun _ => isUneventful_processMessagePacket hpayload
  · exact fun htype => absurd htype hchannel
  · exact fun _ => isUneventful_of_succeeds (succeeds_processAnnouncePacket ofPeerID_true _ _)
      (respects_processAnnouncePacket (storeSteps_silent _) _)
  · exact fun _ => isUneventful_of_succeeds (succeeds_processLeavePacket ofPeerID_true _)
      (respects_processLeavePacket (storeSteps_silent _))
  · intro hinit
    refine isUneventful_onNoisePacket fun service hforeign => ?_
    have hestablished : service.hasEstablishedSession (toHex packet.senderID) = true :=
      Bool.eq_true_of_not_eq_false fun hnew =>
        hprompts ⟨service, hforeign, .inl ⟨hinit, hnew⟩⟩
    exact ⟨node, outcome_onHandshake_of_established hforeign hestablished _, .of_trace_eq rfl⟩
  · intro hresp
    refine isUneventful_onNoisePacket fun service hforeign => ?_
    cases hestablished : service.hasEstablishedSession (toHex packet.senderID) with
    | true =>
        exact ⟨node, outcome_onHandshake_of_established hforeign hestablished _, .of_trace_eq rfl⟩
    | false =>
        obtain ⟨service', -, hout⟩ :=
          outcome_processNoiseHandshakeRespPacket_of_new hforeign hestablished
        exact ⟨_, hout, .of_trace_eq rfl⟩
  · intro hencrypted
    refine isUneventful_onNoisePacket fun service hforeign => ?_
    have hestablished : service.hasEstablishedSession (toHex packet.senderID) = true :=
      Bool.eq_true_of_not_eq_false fun hnew =>
        hrefused ⟨service, hforeign, .inl ⟨hencrypted, hnew⟩⟩
    obtain ⟨service', -, hout⟩ := outcome_processNoiseEncryptedPacket hforeign hestablished
    rw [if_pos hempty] at hout
    exact ⟨_, hout, .of_trace_eq rfl⟩
  · intro hidentity
    refine isUneventful_onNoisePacket fun service hforeign => ?_
    by_cases hlt : node.data.peerID < toHex packet.senderID
    · by_cases hstatus : service.status (toHex packet.senderID) = some false
      · exact absurd ⟨service, hforeign, .inr ⟨hidentity, hlt, hstatus⟩⟩ hprompts
      · exact absurd ⟨service, hforeign, .inr ⟨hidentity, hlt, hstatus⟩⟩ hrefused
    · exact ⟨node, outcome_processNoiseIdentityAnnouncePacket_of_ge hforeign hlt,
        .of_trace_eq rfl⟩
  · exact isUneventful_pure

theorem prompts_marked : Prompts (marked node packet) packet ↔ Prompts node packet := by
  simp only [Prompts, isForeign_marked, peerID_marked]

theorem refused_marked : Refused (marked node packet) packet ↔ Refused node packet := by
  simp only [Refused, isForeign_marked, peerID_marked]

theorem silent_marked (node : Node) (packet : BitchatPacket) : Silent node (marked node packet) :=
  ⟨[.dispatched packet], rfl, by simp [IsSent]⟩

theorem not_refused_of_prompts (h : Prompts node packet) : ¬ Refused node packet := by
  rintro ⟨service', hforeign', hrefused⟩
  obtain ⟨service, hforeign, hprompts⟩ := h
  obtain rfl := Option.some.inj (hforeign.noise.symm.trans hforeign'.noise)
  rcases hprompts with ⟨htype, -⟩ | ⟨htype, -, hstatus⟩
  · rcases hrefused with ⟨htype', -⟩ | ⟨htype', -⟩
    · exact absurd (htype.symm.trans htype') (by decide)
    · exact absurd (htype.symm.trans htype') (by decide)
  · rcases hrefused with ⟨htype', -⟩ | ⟨-, -, hstatus'⟩
    · exact absurd (htype.symm.trans htype') (by decide)
    · exact hstatus' hstatus

theorem sameOthers_processPacket (packet : BitchatPacket) (peripheralID : Bytes) :
    Respects (SameOthers (toHex packet.senderID)) (processPacket packet peripheralID) := by
  refine respects_processPacket (handlerSteps_sameOthers _) (fun node => ?_) peripheralID
  rw [SameOthers, marked, BitchatData.markMessageProcessed_eq]
  exact Iff.rfl

/-- The run has not ended in an access that the language leaves undefined. -/
def IsDefined : Except Fault Unit → Prop
  | .error (.outOfBounds _) => False
  | .error (.uninitialized _) => False
  | _ => True

/-- A received packet is not relayed, and its handler sends nothing either. -/
def SendsNothing (packet : BitchatPacket) (peripheralID : Bytes)
    (station : Station (List (BitchatPacket × Bytes))) : Prop :=
  let run := (onPacketReceived callRecorder packet peripheralID).outcome station
  IsDefined run.1 ∧ run.2.network = station.network ∧ Silent station.node run.2.node

theorem relayed_iff_of_ok {peripheralID : Bytes}
    {station : Station (List (BitchatPacket × Bytes))}
    (h : (processPacket packet peripheralID).outcome station.node = (.ok ⟨⟩, node)) :
    relayed callRecorder packet node station.network = station.network ↔
      packet.ttl = 0 ∨ OnlyPeer (toHex packet.senderID) station.node.data := by
  have hothers : OnlyPeer (toHex packet.senderID) station.node.data ↔
      OnlyPeer (toHex packet.senderID) node.data := by
    have hsame := sameOthers_processPacket packet peripheralID station.node
    rwa [exec, h] at hsame
  rw [relayed_callRecorder_iff, hothers]

theorem sendsNothing_iff_of_ok {peripheralID : Bytes}
    {station : Station (List (BitchatPacket × Bytes))}
    (h : (processPacket packet peripheralID).outcome station.node = (.ok ⟨⟩, node)) :
    SendsNothing packet peripheralID station ↔
      (packet.ttl = 0 ∨ OnlyPeer (toHex packet.senderID) station.node.data) ∧
        Silent station.node node := by
  rw [SendsNothing, outcome_onPacketReceived_ok callRecorder h, ← relayed_iff_of_ok h]
  exact and_iff_right trivial

theorem sendsNothing_of_error {peripheralID : Bytes}
    {station : Station (List (BitchatPacket × Bytes))} {e : Fault}
    (h : (processPacket packet peripheralID).outcome station.node = (.error e, node)) :
    SendsNothing packet peripheralID station ↔
      IsDefined (.error e) ∧ Silent station.node node := by
  rw [SendsNothing, outcome_onPacketReceived_error callRecorder h]
  exact and_congr_right fun _ => and_iff_right rfl

/-- When nothing is sent for a packet that arrived without a payload. -/
def StaysInside (node : Node) (packet : BitchatPacket) : Prop :=
  (Passes node packet → packet.type ≠ pktTypeChannelAnnounce ∧
    (Prompts node packet → ¬ (node.connected = true ∧ KnowsItself node))) ∧
  (packet.ttl = 0 ∨ OnlyPeer (toHex packet.senderID) node.data ∨
    Passes node packet ∧ (Refused node packet ∨ Prompts node packet ∧ ¬ KnowsItself node))

theorem sendsNothing_iff_of_not_passes {station : Station (List (BitchatPacket × Bytes))}
    (h : ¬ Passes station.node packet) (peripheralID : Bytes) :
    SendsNothing packet peripheralID station ↔ StaysInside station.node packet := by
  rw [sendsNothing_iff_of_ok (outcome_processPacket_of_not_passes h peripheralID), StaysInside,
    and_iff_left (refl_of Silent _), and_iff_right fun hpass => absurd hpass h]
  simp only [h, false_and, or_false]

theorem sendsNothing_iff_of_passes {station : Station (List (BitchatPacket × Bytes))}
    (h : Passes station.node packet) (hpayload : packet.payload = []) (peripheralID : Bytes) :
    SendsNothing packet peripheralID station ↔ StaysInside station.node packet := by
  have hprocess := outcome_processPacket_of_passes h peripheralID
  have hmarked := silent_marked station.node packet
  rw [StaysInside]
  by_cases hchannel : packet.type = pktTypeChannelAnnounce
  · have hresult : (processPacket packet peripheralID).result station.node =
        .error (.uninitialized (ascii "joining")) := by
      rw [result, hprocess]
      exact result_dispatch_channelAnnounce hpayload hchannel peripheralID
    rw [sendsNothing_of_error (Prod.ext hresult rfl)]
    exact iff_of_false (fun hn => hn.1) fun hn => (hn.1 h).1 hchannel
  by_cases hprompts : Prompts station.node packet
  · obtain ⟨type, payload, node', hout, hdata, hconnected, htrace⟩ :=
      outcome_dispatch_of_prompts (prompts_marked.mpr hprompts) peripheralID
    have hrefused := not_refused_of_prompts hprompts
    have hid : node'.data.peerID = station.node.data.peerID := by rw [hdata, peerID_marked]
    cases hown : stringToVector station.node.data.peerID with
    | ok ownID =>
        have hsent := outcome_sendOwn_ok (hid ▸ hown) type payload
        have htrace' : (sentOwn node' ownID type payload).trace =
            station.node.trace ++ (.dispatched packet :: notification station.node.connected
              (.sent (ownPacketOf node' ownID type payload))) := by
          change node'.trace ++ _ = _
          rw [htrace, hconnected]
          exact List.append_assoc _ _ _
        have hknows : KnowsItself station.node := ⟨ownID, hown⟩
        rw [sendsNothing_iff_of_ok (hprocess.trans (hout.trans hsent)), silent_iff htrace']
        cases hc : station.node.connected with
        | true => simp [notification, IsSent, h, hprompts, hknows]
        | false => simp [notification, IsSent, h, hchannel, hknows, hrefused]
    | error e =>
        have hsent := outcome_sendOwn_error (hid ▸ hown) type payload
        have hknows : ¬ KnowsItself station.node := by
          rintro ⟨ownID, hok⟩
          rw [hown] at hok
          cases hok
        obtain rfl := stringToVector_error hown
        rw [sendsNothing_of_error (hprocess.trans (hout.trans hsent))]
        exact iff_of_true ⟨trivial, trans_of Silent hmarked (.of_trace_eq htrace)⟩
          ⟨fun _ => ⟨hchannel, fun _ hn => hknows hn.2⟩, .inr (.inr ⟨h, .inr ⟨hprompts, hknows⟩⟩)⟩
  by_cases hrefused : Refused station.node packet
  · obtain ⟨what, node', hout, hsilent⟩ :=
      outcome_dispatch_of_refused (refused_marked.mpr hrefused) peripheralID
    rw [sendsNothing_of_error (hprocess.trans hout)]
    exact iff_of_true ⟨trivial, trans_of Silent hmarked hsilent⟩
      ⟨fun _ => ⟨hchannel, fun hn => absurd hn hprompts⟩, .inr (.inr ⟨h, .inl hrefused⟩)⟩
  · obtain ⟨node', hout, hsilent⟩ := isUneventful_dispatch hpayload hchannel
      (mt prompts_marked.mp hprompts) (mt refused_marked.mp hrefused) peripheralID
    rw [sendsNothing_iff_of_ok (hprocess.trans hout),
      and_iff_left (trans_of Silent hmarked hsilent)]
    simp only [hprompts, hrefused, hchannel, ne_eq, not_false_eq_true, false_and, or_self,
      and_false, or_false, IsEmpty.forall_iff, and_true, implies_true, true_and]

theorem payload_of_error {lz4 : LZ4} {u : Bytes} {d : Decoded} (h : decodeFrame lz4 u = .ok d)
    (he : d.error ≠ none) : d.packet.payload = [] := by
  rcases decodeFrame_error h he with ⟨-, hp⟩ | ⟨-, -, hp⟩ | ⟨-, -, hp⟩
  · rw [hp]
  · exact congrArg (fun fields => fields.2.2.2) hp
  · exact congrArg (fun fields => fields.2.2.2) hp

/-- A packet that the decoder could not complete, or that is not valid, stays inside the node
exactly if it would not be relayed in any case or its handler throws, and its handler is not
one that answers. -/
theorem broken_packet_stays_iff (lz4 : LZ4) (x : Bytes) (d : Decoded)
    (hd : deserializePacket lz4 x = .ok d) (hbroken : d.error ≠ none ∨ d.packet.isValid = false)
    (station : Station (List (BitchatPacket × Bytes))) (peripheralID : Bytes) :
    SendsNothing d.packet peripheralID station ↔ StaysInside station.node d.packet := by
  by_cases hpass : Passes station.node d.packet
  · have herror : d.error ≠ none :=
      hbroken.resolve_right fun hinvalid => absurd hpass.1 (by simp [hinvalid])
    exact sendsNothing_iff_of_passes hpass (payload_of_error hd herror) peripheralID
  · exact sendsNothing_iff_of_not_passes hpass peripheralID

/-- Twenty-two bytes of which the last is taken for the length of the padding. -/
def noise : Bytes := List.replicate 21 0 ++ [22]

def acquaintance : BitchatPeer where
  peerID := toHex [8, 7, 6, 5, 4, 3, 2, 1]
  nickname := [0x62]

def acquainted : Station (List (BitchatPacket × Bytes)) where
  node := { startedNode with data := startedNode.data.addPeer acquaintance }
  network := []

/-- Nothing is left of the bytes, and the default packet is relayed with the TTL 6. -/
theorem noise_relayed :
    21 ≤ noise.length ∧ deserializePacket zerosLZ4 noise = .ok ⟨{}, some .packetTooShort⟩ ∧
      BitchatPacket.isValid {} = false ∧
      ((onPacketReceived callRecorder {} []).outcome acquainted).2.network =
        [({ ttl := 6 }, toHex [8, 7, 6, 5, 4, 3, 2, 1])] ∧
      ¬ SendsNothing {} [] acquainted := by
  have hnetwork : ((onPacketReceived callRecorder {} []).outcome acquainted).2.network =
      [({ ttl := 6 }, toHex [8, 7, 6, 5, 4, 3, 2, 1])] := by decide +kernel
  refine ⟨by decide, by decide +kernel, by decide, hnetwork, fun h => ?_⟩
  exact List.cons_ne_nil _ _ (hnetwork.symm.trans h.2.1)

theorem broken_packet_stays_iff_noise :
    SendsNothing {} [] acquainted ↔ StaysInside acquainted.node {} :=
  broken_packet_stays_iff zerosLZ4 noise ⟨{}, some .packetTooShort⟩ (by decide +kernel)
    (.inl (by decide)) acquainted []

end Bitchat.NetworkService
