import Bitchat.GroupMessage
import Bitchat.NodeActivity
import Bitchat.SessionAgreement
import Bitchat.VersionNegotiation

/-!
# How long a session lasts

No part of the program closes a session. A node that has none opens one for everybody whose
handshake packet it hears, and encrypts its public messages from the first one on.
-/

namespace Bitchat

open Effect StringHelper MessageService PacketSerializer CompressionHelper

theorem keepsSessions_perform {action : NodeAction}
    (h : ∀ packet peripheralID, action ≠ .receive packet peripheralID) :
    Respects KeepsSessions action.perform := by
  cases action with
  | receive packet peripheralID => exact (h packet peripheralID rfl).elim
  | call localCall => exact localSteps_keepsSessions.perform localCall
  | changeNickname nickname => exact respects_modify fun _ => .of_trace_eq rfl rfl rfl
  | announce isReady => exact localSteps_keepsSessions.announce isReady
  | announceTo peripheralID => exact localSteps_keepsSessions.announceToPeripheral peripheralID
  | cleanupStalePeers time => exact respects_modify fun _ => .of_trace_eq rfl rfl rfl
  | network connected => exact respects_modify fun _ => .of_trace_eq rfl rfl rfl

/-- A noise service all of whose sessions are established. -/
def Settled (node : Node) : Prop :=
  ∃ service, node.noiseService = some service ∧ ∀ peerID, service.status peerID ≠ some false

theorem settled_of_hasNoSession {node : Node} (h : HasNoSession node) : Settled node := by
  obtain ⟨service, hnoise, hempty⟩ := h
  refine ⟨service, hnoise, fun peerID => ?_⟩
  rw [NoiseService.status, NoiseService.getSession, hempty, AList.lookup_empty]
  simp

/-- A handshake packet of `peerID` is heard that opens a session. -/
def HearsHandshake (peerID : Bytes) (node : Node) : NodeAction → Prop
  | .receive packet _ => Opens node packet ∧ toHex packet.senderID = peerID
  | _ => False

theorem hasEstablishedSession_of_keepsSessions {node node' : Node} (h : KeepsSessions node node')
    (peerID : Bytes) :
    hasEstablishedSession node' peerID = true ↔ hasEstablishedSession node peerID = true := by
  have hstates := h.states
  rw [sessionStates, sessionStates] at hstates
  cases hnoise : node.noiseService with
  | none =>
      rw [hnoise, Option.map_none, Option.map_eq_none_iff] at hstates
      rw [hasEstablishedSession, hasEstablishedSession, hnoise, hstates]
  | some service =>
      rw [hnoise] at hstates
      obtain ⟨service', hnoise', hstatus⟩ := Option.map_eq_some_iff.mp hstates
      rw [hasEstablishedSession_iff hnoise, hasEstablishedSession_iff hnoise', hstatus]

theorem Settled.of_keepsSessions {node node' : Node} (h : Settled node)
    (hkeeps : KeepsSessions node node') : Settled node' := by
  obtain ⟨service, hnoise, hpending⟩ := h
  have hstates := hkeeps.states
  rw [sessionStates, sessionStates, hnoise] at hstates
  obtain ⟨service', hnoise', hstatus⟩ := Option.map_eq_some_iff.mp hstates
  exact ⟨service', hnoise', hstatus ▸ hpending⟩

/-- Behind an opened session: the node has a session with the sender, and all it had before. -/
theorem established_of_sessionOpened {node node' : Node} {service : NoiseService} {sender : Bytes}
    (hnoise : node.noiseService = some service) (hpending : ∀ id, service.status id ≠ some false)
    (h : SessionOpened node service sender node') :
    Settled node' ∧ ∀ peerID, hasEstablishedSession node' peerID = true ↔
      hasEstablishedSession node peerID = true ∨ sender = peerID := by
  obtain ⟨service', hstatus, hkeeps⟩ := h
  obtain ⟨service'', hnoise'', hstatus''⟩ := hkeeps.noiseService
  refine ⟨⟨service'', hnoise'', fun peerID => ?_⟩, fun peerID => ?_⟩
  · rw [hstatus'', hstatus, Function.update_apply]
    split_ifs
    · exact fun h => by cases h
    · exact hpending peerID
  · rw [hasEstablishedSession_iff hnoise'', hasEstablishedSession_iff hnoise, hstatus'', hstatus,
      Function.update_apply]
    split_ifs with hpeer
    · exact iff_of_true rfl (.inr hpeer.symm)
    · exact (or_iff_left (Ne.symm hpeer)).symm

theorem established_processPacket {node : Node} (h : Settled node) (packet : BitchatPacket)
    (peripheralID : Bytes) :
    Settled ((processPacket packet peripheralID).exec node) ∧ ∀ peerID,
      (hasEstablishedSession ((processPacket packet peripheralID).exec node) peerID = true ↔
        hasEstablishedSession node peerID = true ∨
          Opens node packet ∧ toHex packet.senderID = peerID) := by
  obtain ⟨service, hnoise, hpending⟩ := id h
  by_cases hopens : Opens node packet
  · obtain ⟨hsettled, hiff⟩ := established_of_sessionOpened hnoise hpending
      (sessionOpened_processPacket hnoise hopens peripheralID)
    refine ⟨hsettled, fun peerID => (hiff peerID).trans ?_⟩
    exact or_congr_right (and_iff_right hopens).symm
  · have hkeeps := keepsSessions_processPacket hnoise hpending hopens peripheralID
    refine ⟨h.of_keepsSessions hkeeps, fun peerID => ?_⟩
    rw [hasEstablishedSession_of_keepsSessions hkeeps, or_iff_left fun hopened => hopens hopened.1]

theorem established_next_of_quiet {node : Node} {action : NodeAction} (h : Settled node)
    (hkeeps : KeepsSessions node (nodeActivity.next node action))
    (hnone : ∀ peerID, ¬ HearsHandshake peerID node action) :
    Settled (nodeActivity.next node action) ∧ ∀ peerID,
      (hasEstablishedSession (nodeActivity.next node action) peerID = true ↔
        hasEstablishedSession node peerID = true ∨ HearsHandshake peerID node action) := by
  refine ⟨h.of_keepsSessions hkeeps, fun peerID => ?_⟩
  rw [hasEstablishedSession_of_keepsSessions hkeeps, or_iff_left (hnone peerID)]

theorem established_next {node : Node} (action : NodeAction) (h : Settled node) :
    Settled (nodeActivity.next node action) ∧ ∀ peerID,
      (hasEstablishedSession (nodeActivity.next node action) peerID = true ↔
        hasEstablishedSession node peerID = true ∨ HearsHandshake peerID node action) := by
  cases action with
  | receive packet peripheralID =>
      have hrelay : KeepsSessions ((processPacket packet peripheralID).exec node)
          (nodeActivity.next node (.receive packet peripheralID)) :=
        NetworkService.rel_receive (fun node _ _ => .event node fun _ hpacket =>
          (List.not_mem_nil hpacket).elim) packet peripheralID node
      obtain ⟨hsettled, hiff⟩ := established_processPacket h packet peripheralID
      refine ⟨hsettled.of_keepsSessions hrelay, fun peerID => ?_⟩
      rw [hasEstablishedSession_of_keepsSessions hrelay]
      exact hiff peerID
  | _ =>
      exact established_next_of_quiet h (keepsSessions_perform (fun _ _ => NodeAction.noConfusion)
        node) fun _ => id

/-- From a node whose sessions are all established on, a session is there exactly if it was
there in the beginning or a handshake packet of its peer has been heard since. -/
theorem established_run {node : Node} (h : Settled node) (actions : List NodeAction)
    (peerID : Bytes) :
    hasEstablishedSession (nodeActivity.run node actions) peerID = true ↔
      hasEstablishedSession node peerID = true ∨
        nodeActivity.SomeStep (HearsHandshake peerID) node actions :=
  TransitionSystem.run_iff_someStep (P := fun node => hasEstablishedSession node peerID = true)
    (fun _ action _ hsettled => (established_next action hsettled).2 peerID)
    (fun _ action _ hsettled => (established_next action hsettled).1)
    (execution_nodeActivity node actions) h

/-- A handshake response without content, from a sender the node knows nothing about. -/
def emptyResponse : BitchatPacket :=
  { BitchatPacket.make pktTypeNoiseHandshakeResp [0] 1700000000000 with
    senderID := List.replicate 8 7 }

theorem established_run_newcomer :
    hasEstablishedSession (nodeActivity.run newcomer [.receive emptyResponse []])
        (toHex (List.replicate 8 7)) = true ↔
      hasEstablishedSession newcomer (toHex (List.replicate 8 7)) = true ∨
        nodeActivity.SomeStep (HearsHandshake (toHex (List.replicate 8 7))) newcomer
          [.receive emptyResponse []] :=
  established_run (settled_of_hasNoSession ⟨_, rfl, rfl⟩) [.receive emptyResponse []]
    (toHex (List.replicate 8 7))

theorem getEstablishedSessionIDs_ne_nil_iff (service : NoiseService) :
    service.getEstablishedSessionIDs ≠ [] ↔
      ∃ peerID, service.hasEstablishedSession peerID = true := by
  constructor
  · intro hids
    obtain ⟨peerID, hpeer⟩ := List.exists_mem_of_ne_nil _ hids
    exact ⟨peerID, NoiseService.hasEstablishedSession_of_mem hpeer⟩
  · rintro ⟨peerID, hestablished⟩
    obtain ⟨session, hsession, hsettled⟩ := NoiseService.hasEstablishedSession_iff.mp hestablished
    have hentry := AList.mem_lookup_iff.mp (Option.mem_def.mpr hsession)
    have hmem : peerID ∈ service.getEstablishedSessionIDs :=
      List.mem_map.mpr ⟨_, List.mem_filter.mpr ⟨hentry, hsettled⟩, rfl⟩
    exact List.ne_nil_of_mem hmem

theorem hasSession_iff_exists (node : Node) :
    HasSession node ↔ ∃ peerID, hasEstablishedSession node peerID = true := by
  unfold HasSession hasEstablishedSession
  cases node.noiseService with
  | none => simp
  | some service =>
      rw [← getEstablishedSessionIDs_ne_nil_iff]
      simp

theorem sameTrace_createMessagePacket (lz4 : LZ4) (uuid : Bytes) (message : BitchatMessage) :
    Respects SameTrace (createMessagePacket lz4 uuid message) := by
  have hencrypt : ∀ payload, Respects SameTrace (encryptPayload message payload) := by
    intro payload node
    obtain ⟨type, node', hout, hcase⟩ := outcome_encryptPayload message payload node
    rw [exec, hout]
    exact (trace_of_encryptCase hcase).1
  have hclock : ∀ node : Node, SameTrace node { node with clockReads := node.clockReads + 1 } :=
    fun _ => rfl
  refine (hencrypt _).bind fun _ =>
    (respects_ownPacket hclock _ _).bind fun packet => respects_get.bind fun node => ?_
  cases node.cryptoService with
  | none => exact respects_pure _
  | some crypto => exact respects_pure _

/-- What `sendMessage` gives to the network is of the encrypted type exactly if there is a
session. The payload is that of the message itself in both cases. -/
theorem carried_sendMessage {lz4 : LZ4} {uuid content channel : Bytes} {node : Node}
    {packet : BitchatPacket} (hsent : .sent packet ∈
      newEvents (LocalCall.sendMessage lz4 uuid content channel).perform node) :
    TypeFor node packet.type ∧ packet.payload =
      compressData lz4 (makeMessagePayload uuid (messageOf node uuid content channel)) := by
  set message := messageOf node uuid content channel with hmessage
  set read : Node := { node with clockReads := node.clockReads + 1 } with hread
  have hnew : (newMessage uuid node.data.nickname content
      (if channel.isEmpty then node.data.currentChannel else channel)).outcome node =
        (.ok message, read) := rfl
  have hsame : SameTrace read ((createMessagePacket lz4 uuid message).exec read) :=
    sameTrace_createMessagePacket lz4 uuid message read
  rw [newEvents, LocalCall.perform, exec_bind_pure, exec, MessageService.sendMessage,
    outcome_bind_ok (outcome_get node)] at hsent
  dsimp only at hsent
  rw [outcome_bind_ok hnew] at hsent
  cases hcreate : (createMessagePacket lz4 uuid message).outcome read with
  | mk made node' =>
      have htrace : node'.trace = node.trace := by
        rw [exec, hcreate] at hsame
        exact hsame
      cases made with
      | error e =>
          rw [outcome_bind_error hcreate, htrace, List.drop_length] at hsent
          cases hsent
      | ok packet' =>
          have hpacket : packet = packet' := by
            rw [outcome_bind_ok hcreate, outcome_bind_ok (outcome_sendPacket _ _)] at hsent
            cases hconnected : node'.connected with
            | false =>
                rw [hconnected] at hsent
                change Event.sent packet ∈ (node'.trace ++ []).drop node.trace.length at hsent
                rw [List.append_nil, htrace, List.drop_length] at hsent
                cases hsent
            | true =>
                rw [hconnected] at hsent
                change Event.sent packet ∈
                  ((node'.trace ++ [Event.sent packet']) ++ [_]).drop node.trace.length at hsent
                rw [List.append_assoc, htrace, List.drop_left] at hsent
                simpa using hsent
          subst hpacket
          obtain ⟨senderID, type, node₁, hcase, rfl⟩ := createMessagePacket_inv hcreate
          obtain ⟨-, htype, -, hpayload, -⟩ := carried_messagePacketOf message node₁.cryptoService
            (ownPacketOf node₁ senderID type
              (compressData lz4 (makeMessagePayload uuid message)))
          refine ⟨?_, hpayload⟩
          rw [htype]
          exact (typeFor_of_encryptCase rfl hcase : TypeFor read type)

/-- From a node without sessions on, there is one exactly if a handshake packet has been heard. -/
theorem hasSession_run_iff {node : Node} (hnone : HasNoSession node)
    (actions : List NodeAction) : HasSession (nodeActivity.run node actions) ↔
      nodeActivity.SomeStep (fun node action => ∃ peerID, HearsHandshake peerID node action) node
        actions := by
  have hkeep : ∀ node action, nodeActivity.Enabled node action → Settled node →
      Settled (nodeActivity.next node action) :=
    fun _ action _ hsettled => (established_next action hsettled).1
  have hstart : ¬ HasSession node := by
    rw [hasSession_iff_exists]
    rintro ⟨peerID, hestablished⟩
    rw [not_hasEstablishedSession hnone] at hestablished
    cases hestablished
  rw [← or_iff_right (b := nodeActivity.SomeStep _ node actions) hstart]
  refine TransitionSystem.run_iff_someStep (fun _ action _ hsettled => ?_) hkeep
    (execution_nodeActivity node actions) (settled_of_hasNoSession hnone)
  rw [hasSession_iff_exists, hasSession_iff_exists, ← exists_or]
  exact exists_congr (established_next action hsettled).2

/-- From a node without sessions on, a public message is sent under the encrypted type exactly
if some handshake packet has been heard, from whomever. Its bytes are not encrypted even then. -/
theorem encrypts_iff_heard_handshake (lz4 : LZ4) (uuid content channel : Bytes) (node : Node)
    (hnone : HasNoSession node) (actions : List NodeAction) (packet : BitchatPacket)
    (hsent : .sent packet ∈ newEvents (LocalCall.sendMessage lz4 uuid content channel).perform
      (nodeActivity.run node actions)) :
    (packet.type = pktTypeNoiseEncrypted ↔
        nodeActivity.SomeStep (fun node action => ∃ peerID, HearsHandshake peerID node action)
          node actions) ∧
      (packet.type ≠ pktTypeNoiseEncrypted → packet.type = pktTypeMessage) ∧
      packet.payload = compressData lz4 (makeMessagePayload uuid
        (messageOf (nodeActivity.run node actions) uuid content channel)) := by
  obtain ⟨htype, hpayload⟩ := carried_sendMessage hsent
  have hsession := hasSession_run_iff hnone actions
  refine ⟨?_, fun hplain => ?_, hpayload⟩
  · rcases htype with ⟨htype, hnosession⟩ | ⟨htype, hsome⟩
    · refine iff_of_false ?_ (hsession.not.mp hnosession)
      rw [htype]
      decide
    · exact iff_of_true htype (hsession.mp hsome)
  · rcases htype with ⟨htype, -⟩ | ⟨htype, -⟩
    · exact htype
    · exact (hplain htype).elim

theorem encrypts_iff_heard_handshake_newcomer :
    let overheard := nodeActivity.run newcomer [.receive emptyResponse []]
    let packet := groupPacket pktTypeNoiseEncrypted overheard
    (packet.type = pktTypeNoiseEncrypted ↔
        nodeActivity.SomeStep (fun node action => ∃ peerID, HearsHandshake peerID node action)
          newcomer [.receive emptyResponse []]) ∧
      (packet.type ≠ pktTypeNoiseEncrypted → packet.type = pktTypeMessage) ∧
      packet.payload = compressData zerosLZ4 (makeMessagePayload greetingID
        (messageOf overheard greetingID (ascii "hi") (ascii "#a"))) :=
  encrypts_iff_heard_handshake zerosLZ4 greetingID (ascii "hi") (ascii "#a") newcomer
    ⟨_, rfl, rfl⟩ [.receive emptyResponse []] _ (by decide +kernel)

end Bitchat
