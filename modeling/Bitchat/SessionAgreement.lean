import Bitchat.HandlerFaults
import Bitchat.HandshakeProtocol
import Bitchat.LocalCalls
import Bitchat.NetworkService
import Bitchat.PacketRoundTrip

/-!
# Whether sessions are two-sided

A session is to be the result of a handshake between two nodes. The packets of a handshake
carry no recipient, and a node that overhears the response to somebody else opens a session
with the one who sent it.
-/

namespace Bitchat.MessageService

open Effect StringHelper PacketSerializer

/-- The packets among some events, whether sent to all or to one peripheral. -/
def givenPackets (events : List Event) : List BitchatPacket :=
  events.filterMap fun event => match event with
    | .sent packet => some packet
    | .sentToPeripheral packet _ => some packet
    | _ => none

def sessionStates (node : Node) : Option (Bytes → Option Bool) :=
  node.noiseService.map NoiseService.status

/-- No session is opened or closed, and no handshake is started. -/
structure KeepsSessions (node node' : Node) : Prop where
  peerID : node'.data.peerID = node.data.peerID
  states : sessionStates node' = sessionStates node
  events : ∃ events, node'.trace = node.trace ++ events ∧
    ∀ packet ∈ givenPackets events, packet.type ≠ pktTypeNoiseHandshakeInit

theorem KeepsSessions.of_trace_eq {node node' : Node}
    (hpeer : node'.data.peerID = node.data.peerID)
    (hstates : sessionStates node' = sessionStates node) (htrace : node'.trace = node.trace) :
    KeepsSessions node node' :=
  ⟨hpeer, hstates, [], htrace.trans (List.append_nil _).symm,
    fun _ hpacket => (List.not_mem_nil hpacket).elim⟩

theorem KeepsSessions.event (node : Node) {event : Event}
    (h : ∀ packet ∈ givenPackets [event], packet.type ≠ pktTypeNoiseHandshakeInit) :
    KeepsSessions node { node with trace := node.trace ++ [event] } :=
  ⟨rfl, rfl, [event], rfl, h⟩

instance : Std.Refl KeepsSessions := ⟨fun _ => .of_trace_eq rfl rfl rfl⟩

instance : IsTrans Node KeepsSessions := by
  constructor
  intro a b c hab hbc
  obtain ⟨events, htrace, hevents⟩ := hab.events
  obtain ⟨events', htrace', hevents'⟩ := hbc.events
  refine ⟨hbc.peerID.trans hab.peerID, hbc.states.trans hab.states, events ++ events', ?_,
    fun packet hpacket => ?_⟩
  · rw [htrace', htrace, List.append_assoc]
  · rw [givenPackets, List.filterMap_append, List.mem_append] at hpacket
    exact hpacket.elim (hevents packet) (hevents' packet)

theorem plainSteps_keepsSessions (peerID : Bytes) : PlainSteps peerID KeepsSessions where
  clock _ := .of_trace_eq rfl rfl rfl
  unassigned _ := .of_trace_eq rfl rfl rfl
  event node event hevent := by
    refine .event node fun packet hpacket => ?_
    cases event with
    | sent packet => cases hevent
    | sentToPeripheral packet peripheralID => cases hevent
    | _ => exact (List.not_mem_nil hpacket).elim
  storePeer _ _ _ := .of_trace_eq rfl rfl rfl
  removePeer _ := .of_trace_eq rfl rfl rfl
  history _ _ _ := .of_trace_eq rfl rfl rfl
  ack node packet htype := by
    refine .event node fun packet' hpacket => ?_
    obtain rfl : packet' = packet := List.mem_singleton.mp hpacket
    rw [htype]
    decide

theorem localSteps_keepsSessions : LocalSteps KeepsSessions where
  clock _ := .of_trace_eq rfl rfl rfl
  event node event hevent := by
    have hinit : ∀ packet : BitchatPacket, (!decide (IsHandshake packet.type)) = true →
        packet.type ≠ pktTypeNoiseHandshakeInit := by
      intro packet hpacket htype
      have hnot : ¬ IsHandshake packet.type := by simpa using hpacket
      exact hnot (.inl htype)
    refine .event node fun packet hpacket => ?_
    cases event with
    | sent sent =>
        obtain rfl : packet = sent := List.mem_singleton.mp hpacket
        exact hinit packet hevent
    | sentToPeripheral sent peripheralID =>
        obtain rfl : packet = sent := List.mem_singleton.mp hpacket
        exact hinit packet hevent
    | _ => exact (List.not_mem_nil hpacket).elim
  channel _ _ := .of_trace_eq rfl rfl rfl
  history _ _ _ := .of_trace_eq rfl rfl rfl
  removePeer _ _ := .of_trace_eq rfl rfl rfl
  encrypted node service service' hnoise hstatus := by
    refine .of_trace_eq rfl ?_ rfl
    rw [sessionStates, sessionStates, hnoise]
    exact congrArg some hstatus

theorem keepsSessions_sendOwn {type : UInt8} (htype : type ≠ pktTypeNoiseHandshakeInit)
    (payload : Bytes) : Respects KeepsSessions (sendOwn type payload) := by
  intro node
  rw [exec]
  cases hown : stringToVector node.data.peerID with
  | error e =>
      rw [outcome_sendOwn_error hown]
      exact .of_trace_eq rfl rfl rfl
  | ok ownID =>
      rw [outcome_sendOwn_ok hown]
      refine ⟨rfl, rfl, _, rfl, fun packet hpacket => ?_⟩
      rw [notification] at hpacket
      split_ifs at hpacket
      · obtain rfl : packet = ownPacketOf node ownID type payload := List.mem_singleton.mp hpacket
        exact htype
      · exact (List.not_mem_nil hpacket).elim

theorem keepsSessions_marked (node : Node) (packet : BitchatPacket) :
    KeepsSessions node (marked node packet) :=
  ⟨peerID_marked, rfl, [.dispatched packet], rfl, fun _ hpacket => (List.not_mem_nil hpacket).elim⟩

variable {node : Node} {packet : BitchatPacket} {service : NoiseService}

/-- The packet opens a session for its sender, if there is none. -/
structure Opens (node : Node) (packet : BitchatPacket) : Prop where
  passes : Passes node packet
  handshake : IsHandshake packet.type
  foreign : toHex packet.senderID ≠ node.data.peerID

theorem keepsSessions_withSessions (hnoise : node.noiseService = some service)
    {service' : NoiseService} (hstatus : service'.status = service.status) :
    KeepsSessions node (withSessions node service') :=
  localSteps_keepsSessions.encrypted node service service' hnoise hstatus

theorem keepsSessions_of_exec {m : ServiceM Unit} {r : Except Fault Unit} {node' : Node}
    (h : m.outcome node = (r, node')) (hkeeps : KeepsSessions node node') :
    KeepsSessions node (m.exec node) := by
  rw [exec, h]
  exact hkeeps

theorem keepsSessions_processNoiseEncryptedPacket :
    KeepsSessions node ((processNoiseEncryptedPacket packet).exec node) := by
  rcases foreign_or_skipped node packet with ⟨service, hforeign⟩ | ⟨-, hskip⟩
  · cases hestablished : service.hasEstablishedSession (toHex packet.senderID) with
    | false =>
        obtain ⟨what, hout⟩ := outcome_processNoiseEncryptedPacket_error hforeign hestablished
        exact keepsSessions_of_exec hout (keepsSessions_withSessions hforeign.noise rfl)
    | true =>
        obtain ⟨service', hstatus, hout⟩ :=
          outcome_processNoiseEncryptedPacket hforeign hestablished
        have hdecrypted := keepsSessions_withSessions hforeign.noise hstatus
        split_ifs at hout
        · exact keepsSessions_of_exec hout hdecrypted
        · have hclock : KeepsSessions (withSessions node service')
              { withSessions node service' with clockReads := node.clockReads + 2 } :=
            .of_trace_eq rfl rfl rfl
          have hmessage := respects_processMessagePacket
            (plainSteps_keepsSessions []).toStoreSteps.messageSteps (decryptedPacket node packet)
            { withSessions node service' with clockReads := node.clockReads + 2 }
          rw [exec, hout]
          exact trans_of KeepsSessions (trans_of KeepsSessions hdecrypted hclock) hmessage
  · exact keepsSessions_of_exec (hskip _) (refl_of _ node)

theorem keepsSessions_processNoiseIdentityAnnouncePacket
    (hpending : ∀ service, node.noiseService = some service →
      ∀ peerID, service.status peerID ≠ some false) :
    KeepsSessions node ((processNoiseIdentityAnnouncePacket packet).exec node) := by
  rcases foreign_or_skipped node packet with ⟨service, hforeign⟩ | ⟨-, hskip⟩
  · by_cases hlt : node.data.peerID < toHex packet.senderID
    · obtain ⟨what, hout⟩ := outcome_processNoiseIdentityAnnouncePacket_error hforeign hlt
        (hpending service hforeign.noise _)
      exact keepsSessions_of_exec hout (refl_of _ node)
    · exact keepsSessions_of_exec
        (outcome_processNoiseIdentityAnnouncePacket_of_ge hforeign hlt) (refl_of _ node)
  · exact keepsSessions_of_exec (hskip _) (refl_of _ node)

theorem keepsSessions_dispatch
    (hpending : ∀ service, node.noiseService = some service →
      ∀ peerID, service.status peerID ≠ some false)
    (hown : IsHandshake packet.type → toHex packet.senderID = node.data.peerID)
    (peripheralID : Bytes) : KeepsSessions node ((dispatch packet peripheralID).exec node) := by
  have hplain := plainSteps_keepsSessions (toHex packet.senderID)
  apply dispatch_induction (P := fun m => KeepsSessions node (m.exec node))
  · exact fun _ => ((respects_pure _).ite (respects_handleVersionHello hplain _)) node
  · exact fun _ => ((respects_pure _).ite (respects_handleVersionAck hplain.toStoreSteps _)) node
  · exact fun _ => respects_processMessagePacket hplain.toStoreSteps.messageSteps packet node
  · exact fun _ => respects_processChannelAnnouncePacket hplain.toStoreSteps node
  · exact fun _ => respects_processAnnouncePacket hplain.toStoreSteps peripheralID node
  · exact fun _ => respects_processLeavePacket hplain.toStoreSteps node
  · exact fun hinit => keepsSessions_of_exec
      (outcome_onNoisePacket_of_self (hown (.inl hinit)) _) (refl_of _ node)
  · exact fun hresp => keepsSessions_of_exec
      (outcome_onNoisePacket_of_self (hown (.inr hresp)) _) (refl_of _ node)
  · exact fun _ => keepsSessions_processNoiseEncryptedPacket
  · exact fun _ => keepsSessions_processNoiseIdentityAnnouncePacket hpending
  · exact refl_of KeepsSessions node

theorem keepsSessions_processPacket (hnoise : node.noiseService = some service)
    (hpending : ∀ peerID, service.status peerID ≠ some false) (hopens : ¬ Opens node packet)
    (peripheralID : Bytes) :
    KeepsSessions node ((processPacket packet peripheralID).exec node) := by
  by_cases hpass : Passes node packet
  · have hmarked := keepsSessions_marked node packet
    have hpending' : ∀ service', (marked node packet).noiseService = some service' →
        ∀ peerID, service'.status peerID ≠ some false := by
      intro service' hnoise'
      obtain rfl := Option.some.inj (hnoise.symm.trans hnoise')
      exact hpending
    have hown : IsHandshake packet.type →
        toHex packet.senderID = (marked node packet).data.peerID := by
      intro htype
      rw [peerID_marked]
      by_contra hne
      exact hopens ⟨hpass, htype, hne⟩
    rw [exec, outcome_processPacket_of_passes hpass]
    exact trans_of KeepsSessions hmarked (keepsSessions_dispatch hpending' hown peripheralID)
  · exact keepsSessions_of_exec (outcome_processPacket_of_not_passes hpass peripheralID)
      (refl_of _ node)

/-- The node is as if it had been given an established session for `peerID`. -/
def SessionOpened (node : Node) (service : NoiseService) (peerID : Bytes) (node' : Node) : Prop :=
  ∃ service', service'.status = Function.update service.status peerID (some true) ∧
    KeepsSessions { node with noiseService := some service' } node'

theorem sessionOpened_of_established (hnoise : node.noiseService = some service) {peerID : Bytes}
    (hestablished : service.hasEstablishedSession peerID = true) :
    SessionOpened node service peerID node := by
  rw [NoiseService.hasEstablishedSession_eq, decide_eq_true_iff] at hestablished
  refine ⟨service, (Function.update_eq_self_iff.mpr hestablished.symm).symm, ?_⟩
  exact .of_trace_eq rfl (by rw [sessionStates, hnoise]; rfl) rfl

theorem sessionOpened_onHandshake (hforeign : IsForeign node packet service)
    {reply : Bytes → ServiceM Unit} (hreply : ∀ response, Respects KeepsSessions (reply response)) :
    SessionOpened node service (toHex packet.senderID) ((onHandshake packet reply).exec node) := by
  rw [exec]
  cases hestablished : service.hasEstablishedSession (toHex packet.senderID) with
  | true =>
      rw [outcome_onHandshake_of_established hforeign hestablished]
      exact sessionOpened_of_established hforeign.noise hestablished
  | false =>
      obtain ⟨response, service', -, hstatus, hout⟩ :=
        outcome_onHandshake_of_new hforeign hestablished reply
      have hsessions : KeepsSessions { node with noiseService := some service' }
          (withSessions node service') := .of_trace_eq rfl rfl rfl
      rw [hout]
      exact ⟨service', hstatus,
        trans_of KeepsSessions hsessions (hreply response (withSessions node service'))⟩

theorem sessionOpened_dispatch (hforeign : IsForeign node packet service)
    (htype : IsHandshake packet.type) (peripheralID : Bytes) :
    SessionOpened node service (toHex packet.senderID)
      ((dispatch packet peripheralID).exec node) := by
  have hsend : ∀ response, Respects KeepsSessions (sendOwn pktTypeNoiseHandshakeResp response) :=
    keepsSessions_sendOwn (by decide)
  rcases htype with htype | htype
  · rw [dispatch_handshakeInit htype, processNoiseHandshakeInitPacket_eq]
    exact sessionOpened_onHandshake hforeign fun response => (respects_pure _).ite (hsend response)
  · rw [dispatch_handshakeResp htype, processNoiseHandshakeRespPacket_eq]
    exact sessionOpened_onHandshake hforeign fun response => (hsend response).ite (respects_pure _)

theorem sessionOpened_processPacket (hnoise : node.noiseService = some service)
    (hopens : Opens node packet) (peripheralID : Bytes) :
    SessionOpened node service (toHex packet.senderID)
      ((processPacket packet peripheralID).exec node) := by
  have hforeign : IsForeign (marked node packet) packet service :=
    isForeign_marked.mpr ⟨hnoise, hopens.foreign⟩
  obtain ⟨service', hstatus, hkeeps⟩ :=
    sessionOpened_dispatch hforeign hopens.handshake peripheralID
  have hmarked : KeepsSessions { node with noiseService := some service' }
      { marked node packet with noiseService := some service' } :=
    ⟨peerID_marked, rfl, [.dispatched packet], rfl,
      fun _ hpacket => (List.not_mem_nil hpacket).elim⟩
  rw [exec, outcome_processPacket_of_passes hopens.passes]
  exact ⟨service', hstatus, trans_of KeepsSessions hmarked hkeeps⟩

/-- `air` are the packets that have been sent, as a receiver sees them. Whoever hears a
packet, it stays, so that everyone may hear it, at any time and any number of times. -/
structure Broadcast (ι : Type) where
  node : ι → Node
  air : List BitchatPacket := []

/-- The nodes hear packets, are called, change their store by themselves, and get in and out of
touch. Packets are repeated, and other participants send what they like. -/
inductive BroadcastAction (ι : Type) where
  | deliver (i : ι) (packet : BitchatPacket) (peripheralID : Bytes)
  | call (i : ι) (call : LocalCall)
  | change (i : ι) (data : BitchatData) (connected : Bool)
  | relay (packet : BitchatPacket)
  | inject (packet : BitchatPacket)

variable {ι : Type} [DecidableEq ι]

def Broadcast.perform (lz4 : LZ4) (net : Broadcast ι) (i : ι) (m : ServiceM Unit) :
    Broadcast ι where
  node := Function.update net.node i (m.exec (net.node i))
  air := net.air ++ (givenPackets (newEvents m (net.node i))).map (wireImage lz4)

def broadcast (lz4 : LZ4) : TransitionSystem (Broadcast ι) (BroadcastAction ι) where
  Enabled net action := match action with
    | .deliver _ packet _ => packet ∈ net.air
    | .call _ _ => True
    | .change i data _ => data.peerID = (net.node i).data.peerID
    | .relay packet => packet ∈ net.air
    | .inject packet => ∀ i, toHex packet.senderID ≠ (net.node i).data.peerID
  next net action := match action with
    | .deliver i packet peripheralID => net.perform lz4 i (processPacket packet peripheralID)
    | .call i call => net.perform lz4 i call.perform
    | .change i data connected =>
        { net with node := Function.update net.node i { net.node i with data, connected } }
    | .relay packet => { net with air := net.air ++ [NetworkService.relayCopy packet] }
    | .inject packet => { net with air := net.air ++ [packet] }

def hasSession (node : Node) (peerID : Bytes) : Bool :=
  match node.noiseService with
  | none => false
  | some service => (service.getSession peerID).isSome

/-- With whom a node has an established session, that node has one with it. -/
def Broadcast.TwoSided (net : Broadcast ι) : Prop :=
  ∀ i j, i ≠ j → hasEstablishedSession (net.node i) (net.node j).data.peerID = true →
    hasSession (net.node j) (net.node i).data.peerID = true

/-- A node is about to open a session because of another node's response. -/
def Overhears (net : Broadcast ι) : BroadcastAction ι → Prop
  | .deliver i packet _ => packet.type = pktTypeNoiseHandshakeResp ∧
      Opens (net.node i) packet ∧ ∃ j, toHex packet.senderID = (net.node j).data.peerID
  | _ => False

/-- No session is pending, and there is none for the given IDs. -/
structure Estranged (service : NoiseService) (strangers : Set Bytes) : Prop where
  pending : ∀ peerID, service.status peerID ≠ some false
  strangers : ∀ peerID ∈ strangers, service.status peerID = none

def Broadcast.others (net : Broadcast ι) (i : ι) : Set Bytes :=
  {peerID | ∃ j, i ≠ j ∧ (net.node j).data.peerID = peerID}

/-- No session between two of the nodes, and no handshake started by one of them. -/
structure Broadcast.Apart (net : Broadcast ι) : Prop where
  node : ∀ i, ∃ service, (net.node i).noiseService = some service ∧
    Estranged service (net.others i)
  air : ∀ packet ∈ net.air, packet.type = pktTypeNoiseHandshakeInit →
    ∀ i, toHex packet.senderID ≠ (net.node i).data.peerID

theorem hasEstablishedSession_iff (hnoise : node.noiseService = some service) (peerID : Bytes) :
    hasEstablishedSession node peerID = true ↔ service.status peerID = some true := by
  rw [hasEstablishedSession, hnoise]
  dsimp only
  rw [NoiseService.hasEstablishedSession_eq, decide_eq_true_iff]

theorem hasSession_iff (hnoise : node.noiseService = some service) (peerID : Bytes) :
    hasSession node peerID = true ↔ service.status peerID ≠ none := by
  rw [hasSession, hnoise, Ne, NoiseService.status_eq_none]
  exact Option.isSome_iff_ne_none

omit [DecidableEq ι] in
theorem twoSided_of_apart {net : Broadcast ι} (h : net.Apart) : net.TwoSided := by
  intro i j hij hestablished
  obtain ⟨service, hnoise, hestranged⟩ := h.node i
  rw [hasEstablishedSession_iff hnoise, hestranged.strangers _ ⟨j, hij, rfl⟩] at hestablished
  cases hestablished

theorem KeepsSessions.noiseService {node' : Node}
    (h : KeepsSessions { node with noiseService := some service } node') :
    ∃ service', node'.noiseService = some service' ∧ service'.status = service.status :=
  Option.map_eq_some_iff.mp h.states

theorem KeepsSessions.newEvents {m : ServiceM Unit} {node' : Node}
    (h : KeepsSessions node' (m.exec node)) (htrace : node'.trace = node.trace) :
    ∀ packet ∈ givenPackets (newEvents m node), packet.type ≠ pktTypeNoiseHandshakeInit := by
  obtain ⟨events, hevents, hinit⟩ := h.events
  rw [MessageService.newEvents, hevents, htrace, List.drop_left]
  exact hinit

omit [DecidableEq ι] in
/-- The parts of the invariant, for a state with the same IDs. -/
theorem Broadcast.Apart.of_peerID {net net' : Broadcast ι} (h : net.Apart)
    (hpeer : ∀ i, (net'.node i).data.peerID = (net.node i).data.peerID)
    (hnode : ∀ i, ∃ service, (net'.node i).noiseService = some service ∧
      Estranged service (net.others i))
    (hair : ∀ packet ∈ net'.air, packet.type = pktTypeNoiseHandshakeInit →
      packet ∈ net.air ∨ ∀ i, toHex packet.senderID ≠ (net.node i).data.peerID) :
    net'.Apart := by
  have hothers : ∀ i, net'.others i = net.others i := by
    intro i
    simp only [others, hpeer]
  refine ⟨fun i => hothers i ▸ hnode i, fun packet hpacket hinit i => ?_⟩
  rw [hpeer]
  exact (hair packet hpacket hinit).elim (fun hold => h.air packet hold hinit i) fun hnew => hnew i

theorem Broadcast.Apart.of_update {net net' : Broadcast ι} (h : net.Apart) {i : ι} {node : Node}
    (hupdate : net'.node = Function.update net.node i node)
    (hpeer : node.data.peerID = (net.node i).data.peerID)
    (hnode : ∃ service, node.noiseService = some service ∧ Estranged service (net.others i))
    (hair : ∀ packet ∈ net'.air, packet.type = pktTypeNoiseHandshakeInit → packet ∈ net.air) :
    net'.Apart := by
  refine h.of_peerID (fun j => ?_) (fun j => ?_) fun packet hpacket hinit =>
    .inl (hair packet hpacket hinit)
  · rw [hupdate]
    by_cases hj : j = i
    · subst hj
      rwa [Function.update_self]
    · rw [Function.update_of_ne hj]
  · rw [hupdate]
    by_cases hj : j = i
    · subst hj
      rwa [Function.update_self]
    · rw [Function.update_of_ne hj]
      exact h.node j

theorem apart_perform {net : Broadcast ι} (h : net.Apart) (lz4 : LZ4) {i : ι} {m : ServiceM Unit}
    (hestranged : Estranged service (net.others i))
    (hkeeps : KeepsSessions { net.node i with noiseService := some service }
      (m.exec (net.node i))) : (net.perform lz4 i m).Apart := by
  obtain ⟨service', hnoise, hstatus⟩ := hkeeps.noiseService
  have hestranged' : Estranged service' (net.others i) :=
    ⟨hstatus ▸ hestranged.pending, hstatus ▸ hestranged.strangers⟩
  refine h.of_update rfl hkeeps.peerID ⟨service', hnoise, hestranged'⟩
    fun packet hpacket hinit => ?_
  rcases List.mem_append.mp hpacket with hold | hnew
  · exact hold
  · obtain ⟨sent, hsent, rfl⟩ := List.mem_map.mp hnew
    exact absurd hinit (hkeeps.newEvents rfl sent hsent)

theorem apart_perform_of_keepsSessions {net : Broadcast ι} (h : net.Apart) (lz4 : LZ4) {i : ι}
    {m : ServiceM Unit} (hkeeps : KeepsSessions (net.node i) (m.exec (net.node i))) :
    (net.perform lz4 i m).Apart := by
  obtain ⟨service, hnoise, hestranged⟩ := h.node i
  have hsame : { net.node i with noiseService := some service } = net.node i := by rw [← hnoise]
  exact apart_perform h lz4 hestranged (hsame.symm ▸ hkeeps)

theorem estranged_update {service' : NoiseService} {strangers : Set Bytes} {peerID : Bytes}
    (h : Estranged service strangers) (hpeer : peerID ∉ strangers)
    (hstatus : service'.status = Function.update service.status peerID (some true)) :
    Estranged service' strangers := by
  constructor
  · intro id
    rw [hstatus, Function.update_apply]
    split_ifs
    · decide
    · exact h.pending id
  · intro id hid
    have hne : id ≠ peerID := by
      rintro rfl
      exact hpeer hid
    rw [hstatus, Function.update_of_ne hne]
    exact h.strangers id hid

omit [DecidableEq ι] in
theorem stranger_of_opens {net : Broadcast ι} (h : net.Apart) {i : ι} {packet : BitchatPacket}
    {peripheralID : Bytes} (hair : packet ∈ net.air) (hopens : Opens (net.node i) packet)
    (hoverhears : ¬ Overhears net (.deliver i packet peripheralID)) (j : ι) :
    toHex packet.senderID ≠ (net.node j).data.peerID := by
  rcases hopens.handshake with hinit | hresp
  · exact h.air packet hair hinit j
  · exact fun hsender => hoverhears ⟨hresp, hopens, j, hsender⟩

theorem apart_next (lz4 : LZ4) (net : Broadcast ι) (action : BroadcastAction ι)
    (henabled : (broadcast lz4).Enabled net action) (h : net.Apart)
    (hoverhears : ¬ Overhears net action) : ((broadcast lz4).next net action).Apart := by
  cases action with
  | deliver i packet peripheralID =>
      obtain ⟨service, hnoise, hestranged⟩ := h.node i
      by_cases hopens : Opens (net.node i) packet
      · have hstranger := stranger_of_opens h henabled hopens hoverhears
        have hnot : toHex packet.senderID ∉ net.others i :=
          fun ⟨j, _, hsender⟩ => hstranger j hsender.symm
        obtain ⟨service', hstatus, hkeeps⟩ :=
          sessionOpened_processPacket hnoise hopens peripheralID
        exact apart_perform h lz4 (estranged_update hestranged hnot hstatus) hkeeps
      · exact apart_perform_of_keepsSessions h lz4
          (keepsSessions_processPacket hnoise hestranged.pending hopens peripheralID)
  | call i call =>
      exact apart_perform_of_keepsSessions h lz4 (localSteps_keepsSessions.perform call _)
  | change i data connected =>
      exact h.of_update rfl henabled (h.node i) fun packet hpacket _ => hpacket
  | relay packet =>
      refine h.of_peerID (fun _ => rfl) h.node fun copy hcopy hinit => ?_
      rcases List.mem_append.mp hcopy with hold | hnew
      · exact .inl hold
      · obtain rfl := List.mem_singleton.mp hnew
        exact .inr (h.air packet henabled hinit)
  | inject packet =>
      refine h.of_peerID (fun _ => rfl) h.node fun sent hsent _ => ?_
      rcases List.mem_append.mp hsent with hold | hnew
      · exact .inl hold
      · obtain rfl := List.mem_singleton.mp hnew
        exact .inr henabled

/-- The node that overhears a response has a session that the other one does not know of. -/
theorem not_twoSided_of_overhears (lz4 : LZ4) (net : Broadcast ι) (action : BroadcastAction ι)
    (h : net.Apart) (hoverhears : Overhears net action) :
    ¬ ((broadcast lz4).next net action).TwoSided := by
  cases action with
  | deliver i packet peripheralID =>
      obtain ⟨hresp, hopens, j, hsender⟩ := hoverhears
      have hij : j ≠ i := by
        rintro rfl
        exact hopens.foreign hsender
      obtain ⟨service, hnoise, hestranged⟩ := h.node i
      obtain ⟨other, hother, hstrange⟩ := h.node j
      obtain ⟨service', hstatus, hkeeps⟩ := sessionOpened_processPacket hnoise hopens peripheralID
      obtain ⟨service'', hnoise', hstatus'⟩ := hkeeps.noiseService
      have hi : ((broadcast lz4).next net (.deliver i packet peripheralID)).node i =
          (processPacket packet peripheralID).exec (net.node i) := Function.update_self _ _ _
      have hj : ((broadcast lz4).next net (.deliver i packet peripheralID)).node j = net.node j :=
        Function.update_of_ne hij _ _
      intro htwo
      have hsession := htwo i j hij.symm
      rw [hi, hj, hasEstablishedSession_iff hnoise', hasSession_iff hother, hkeeps.peerID,
        ← hsender, hstatus', hstatus, Function.update_self] at hsession
      exact hsession rfl (hstrange.strangers _ ⟨i, hij, rfl⟩)
  | _ => exact hoverhears.elim

omit [DecidableEq ι] in
theorem apart_of_hasNoSession {net : Broadcast ι} (hnone : ∀ i, HasNoSession (net.node i))
    (hair : net.air = []) : net.Apart := by
  refine ⟨fun i => ?_, fun packet hpacket => ?_⟩
  · obtain ⟨service, hnoise, hempty⟩ := hnone i
    have hstatus : ∀ peerID, service.status peerID = none := by
      intro peerID
      rw [NoiseService.status_eq_none, NoiseService.getSession, hempty]
      exact AList.lookup_empty peerID
    refine ⟨service, hnoise, fun peerID => ?_, fun peerID _ => hstatus peerID⟩
    rw [hstatus]
    exact (Option.some_ne_none false).symm
  · rw [hair] at hpacket
    cases hpacket

/-- In a run of nodes that start without sessions, the sessions are two-sided all along
exactly if no node ever takes another one's response for an answer to itself. -/
theorem sessions_two_sided_iff (lz4 : LZ4) (net : Broadcast ι)
    (hnone : ∀ i, HasNoSession (net.node i)) (hair : net.air = [])
    (actions : List (BroadcastAction ι)) (hexec : (broadcast lz4).Execution net actions) :
    (broadcast lz4).AllStates Broadcast.TwoSided net actions ↔
      (broadcast lz4).AllSteps (fun net action => ¬ Overhears net action) net actions :=
  TransitionSystem.allStates_iff_allSteps (fun _ h => twoSided_of_apart h)
    (fun net action henabled h hoverhears => apart_next lz4 net action henabled h hoverhears)
    (fun net action _ h hoverhears => not_twoSided_of_overhears lz4 net action h hoverhears)
    hexec (apart_of_hasNoSession hnone hair)

instance [Fintype ι] (lz4 : LZ4) (net : Broadcast ι) (action : BroadcastAction ι) :
    Decidable ((broadcast lz4).Enabled net action) :=
  match action with
  | .deliver _ packet _ => inferInstanceAs (Decidable (packet ∈ net.air))
  | .call _ _ => inferInstanceAs (Decidable True)
  | .change i data _ => inferInstanceAs (Decidable (data.peerID = (net.node i).data.peerID))
  | .relay packet => inferInstanceAs (Decidable (packet ∈ net.air))
  | .inject packet =>
      inferInstanceAs (Decidable (∀ i, toHex packet.senderID ≠ (net.node i).data.peerID))

def neighbours : Broadcast Bool where
  node i := freshNode (List.replicate 8 (if i then 2 else 1)) 1700000000000000000

def strangersInit : BitchatPacket :=
  { BitchatPacket.make pktTypeNoiseHandshakeInit [1, 2, 3] 1700000000000 with
    senderID := List.replicate 8 9 }

def responseToStranger : BitchatPacket :=
  { BitchatPacket.make pktTypeNoiseHandshakeResp [4, 5, 6, 7, 7, 7] 1700000000000 with
    senderID := List.replicate 8 1 }

def overhearing : List (BroadcastAction Bool) :=
  [.inject strangersInit, .deliver false strangersInit [], .deliver true responseToStranger []]

/-- The second node has a session with the first one, which has none with the second. -/
theorem response_overheard :
    (∀ i, HasNoSession (neighbours.node i)) ∧ neighbours.air = [] ∧
      (broadcast zerosLZ4).Execution neighbours overhearing ∧
      hasEstablishedSession (((broadcast zerosLZ4).run neighbours overhearing).node true)
        (toHex (List.replicate 8 1)) = true ∧
      hasSession (((broadcast zerosLZ4).run neighbours overhearing).node false)
        (toHex (List.replicate 8 2)) = false ∧
      ¬ (broadcast zerosLZ4).AllStates Broadcast.TwoSided neighbours overhearing := by
  have hestablished : hasEstablishedSession
      (((broadcast zerosLZ4).run neighbours overhearing).node true)
      (((broadcast zerosLZ4).run neighbours overhearing).node false).data.peerID = true := by
    decide +kernel
  have hunknown : hasSession (((broadcast zerosLZ4).run neighbours overhearing).node false)
      (((broadcast zerosLZ4).run neighbours overhearing).node true).data.peerID = false := by
    decide +kernel
  refine ⟨fun i => ⟨_, rfl, rfl⟩, rfl, by decide +kernel, by decide +kernel, by decide +kernel,
    fun hall => ?_⟩
  have hknown := hall.run true false (by decide) hestablished
  exact Bool.false_ne_true (hunknown.symm.trans hknown)

theorem sessions_two_sided_iff_neighbours :
    (broadcast zerosLZ4).AllStates Broadcast.TwoSided neighbours overhearing ↔
      (broadcast zerosLZ4).AllSteps (fun net action => ¬ Overhears net action) neighbours
        overhearing :=
  sessions_two_sided_iff zerosLZ4 neighbours (fun _ => ⟨_, rfl, rfl⟩) rfl overhearing
    (by decide +kernel)

end Bitchat.MessageService
