import Bitchat.Deduplication
import Bitchat.ServiceOutcomes
import Bitchat.TransitionSystem

/-!
# The handshake between two nodes

Two nodes broadcast to each other. Each runs `startIdentityAnnounce` once, and each packet
one of them has sent is processed once by the other, in any order. The node with the
smaller ID is to initiate the handshake with `initiateHandshake`, which wants a session to
exist; sessions are created by incoming handshake packets only. So nobody ever sends one.
-/

namespace Bitchat.MessageService

open Effect StringHelper

inductive Party where
  | left
  | right
  deriving DecidableEq, Repr

def Party.other : Party → Party
  | .left => .right
  | .right => .left

/-- `inFlight p` are the packets on their way to `p`. -/
structure Net where
  node : Party → Node
  announced : Party → Bool := fun _ => false
  inFlight : Party → List BitchatPacket := fun _ => []
  threw : Bool := false

namespace Net

def sentBy (m : ServiceM Unit) (node : Node) : List BitchatPacket :=
  ((m.exec node).trace.drop node.trace.length).filterMap fun event => match event with
    | .sent packet => some packet
    | _ => none

/-- One party runs an effect, and what it sends is on its way to the other. -/
def perform (net : Net) (party : Party) (m : ServiceM Unit) : Net where
  node := Function.update net.node party (m.exec (net.node party))
  announced := net.announced
  inFlight := Function.update net.inFlight party.other
    (net.inFlight party.other ++ sentBy m (net.node party))
  threw := net.threw || match m.result (net.node party) with
    | .ok _ => false
    | .error _ => true

end Net

inductive HandshakeAction where
  | announce (party : Party)
  | deliver (party : Party) (packet : BitchatPacket)
  deriving DecidableEq, Repr

def handshake : TransitionSystem Net HandshakeAction where
  Enabled net action := match action with
    | .announce party => net.announced party = false
    | .deliver party packet => packet ∈ net.inFlight party
  next net action := match action with
    | .announce party =>
        Net.perform { net with announced := Function.update net.announced party true } party
          startIdentityAnnounce
    | .deliver party packet =>
        Net.perform { net with
            inFlight := Function.update net.inFlight party ((net.inFlight party).erase packet) }
          party (processPacket packet [])

instance (net : Net) (action : HandshakeAction) : Decidable (handshake.Enabled net action) :=
  match action with
  | .announce party => inferInstanceAs (Decidable (net.announced party = false))
  | .deliver party packet => inferInstanceAs (Decidable (packet ∈ net.inFlight party))

/-- Both nodes have announced themselves and everything sent has been processed. -/
def Net.IsComplete (net : Net) : Prop :=
  ∀ party, net.announced party = true ∧ net.inFlight party = []

def hasEstablishedSession (node : Node) (peerID : Bytes) : Bool :=
  match node.noiseService with
  | none => false
  | some service => service.hasEstablishedSession peerID

/-- What the handshake is for: each node has an established session for the other, and no
step on the way threw. -/
def Net.IsEstablished (net : Net) : Prop :=
  (∀ party, hasEstablishedSession (net.node party) (net.node party.other).data.peerID = true) ∧
    net.threw = false

def HasNoSession (node : Node) : Prop :=
  ∃ service, node.noiseService = some service ∧ service.sessions = ∅

theorem not_hasEstablishedSession {node : Node} (h : HasNoSession node) (peerID : Bytes) :
    hasEstablishedSession node peerID = false := by
  obtain ⟨service, hservice, hempty⟩ := h
  rw [hasEstablishedSession, hservice]
  simp [NoiseService.hasEstablishedSession, NoiseService.getSession, hempty]

/-- An effect that creates no session and sends nothing but identity announces. -/
def IsQuiet (m : ServiceM Unit) (node : Node) : Prop :=
  HasNoSession (m.exec node) ∧
    ∀ packet ∈ Net.sentBy m node, packet.type = pktTypeNoiseIdentityAnnounce

theorem sentBy_eq {m : ServiceM Unit} {node : Node} {events : List Event}
    (h : (m.exec node).trace = node.trace ++ events) :
    Net.sentBy m node = events.filterMap fun event => match event with
      | .sent packet => some packet
      | _ => none := by
  rw [Net.sentBy, h, List.drop_left]

/-- It is enough to know the events that are added and that the sessions are the same. -/
theorem isQuiet_of_exec {m : ServiceM Unit} {node node' : Node} (hnode : HasNoSession node)
    (h : m.exec node = node') (events : List Event)
    (hnoise : node'.noiseService = node.noiseService) (htrace : node'.trace = node.trace ++ events)
    (hevents : ∀ packet, .sent packet ∈ events → packet.type = pktTypeNoiseIdentityAnnounce) :
    IsQuiet m node := by
  subst h
  constructor
  · obtain ⟨service, hservice, hempty⟩ := hnode
    exact ⟨service, hnoise.trans hservice, hempty⟩
  · intro packet hmem
    rw [sentBy_eq htrace, List.mem_filterMap] at hmem
    obtain ⟨event, hevent, hsent⟩ := hmem
    split at hsent
    · cases hsent
      exact hevents packet hevent
    · cases hsent

theorem isQuiet_of_exec_self {m : ServiceM Unit} {node : Node} (hnode : HasNoSession node)
    (h : m.exec node = node) : IsQuiet m node :=
  isQuiet_of_exec hnode h [] rfl (List.append_nil _).symm (by simp)

theorem isQuiet_startIdentityAnnounce {node : Node} (hnode : HasNoSession node) :
    IsQuiet startIdentityAnnounce node := by
  by_cases hservices : node.noiseService.isNone ∨ node.cryptoService.isNone
  · refine isQuiet_of_exec_self hnode ?_
    rw [exec, startIdentityAnnounce, outcome_bind_ok (outcome_get node), if_pos hservices]
    rfl
  · have hexec : startIdentityAnnounce.exec node =
        (sendOwnPacket pktTypeNoiseIdentityAnnounce node.data.peerID).exec node := by
      rw [exec, startIdentityAnnounce, outcome_bind_ok (outcome_get node), if_neg hservices]
      exact exec_bind_pure _ _ _
    cases hpeer : stringToVector node.data.peerID with
    | error e =>
        rw [exec, exec, outcome_sendOwnPacket_error hpeer] at hexec
        exact isQuiet_of_exec hnode hexec [] rfl (List.append_nil _).symm (by simp)
    | ok senderID =>
        rw [exec, exec, outcome_sendOwnPacket_ok hpeer] at hexec
        refine isQuiet_of_exec hnode hexec _ rfl rfl fun packet hmem => ?_
        unfold notification at hmem
        split at hmem
        · cases List.mem_singleton.mp hmem
          rfl
        · simp at hmem

theorem outcome_initiateHandshake_of_empty {service : NoiseService} (h : service.sessions = ∅)
    (peerID : Bytes) :
    (NoiseService.initiateHandshake peerID).outcome service =
      (.error (NoiseService.noSession peerID), service) := by
  rw [NoiseService.initiateHandshake, outcome_bind_ok (outcome_get service)]
  simp [NoiseService.getSession, h]

theorem exec_processNoiseIdentityAnnouncePacket {node : Node} (hnode : HasNoSession node)
    (packet : BitchatPacket) : (processNoiseIdentityAnnouncePacket packet).exec node = node := by
  obtain ⟨service, hservice, hempty⟩ := hnode
  have hsame : { node with noiseService := some service } = node := by rw [← hservice]
  rw [exec, processNoiseIdentityAnnouncePacket, onNoisePacket, outcome_bind_ok (outcome_get node)]
  dsimp only
  rw [hservice]
  dsimp only
  split
  · rfl
  · split
    · have hout : (withNoise service
          (NoiseService.initiateHandshake (toHex packet.senderID))).outcome node =
          (.error (NoiseService.noSession (toHex packet.senderID)), node) := by
        rw [withNoise, outcome_zoom, outcome_initiateHandshake_of_empty hempty, hsame]
      rw [outcome_bind_error hout]
    · rfl

theorem isQuiet_processPacket {node : Node} (hnode : HasNoSession node) {packet : BitchatPacket}
    (htype : packet.type = pktTypeNoiseIdentityAnnounce) (peripheralID : Bytes) :
    IsQuiet (processPacket packet peripheralID) node := by
  by_cases hpass : Passes node packet
  · have hmarked : HasNoSession (marked node packet) := hnode
    have hexec : (processPacket packet peripheralID).exec node = marked node packet := by
      rw [exec, outcome_processPacket_of_passes hpass, dispatch_identityAnnounce htype]
      exact exec_processNoiseIdentityAnnouncePacket hmarked packet
    exact isQuiet_of_exec hnode hexec [.dispatched packet] rfl rfl (by simp)
  · refine isQuiet_of_exec_self hnode ?_
    rw [exec, outcome_processPacket_of_not_passes hpass]

structure Net.NoHandshake (net : Net) : Prop where
  sessions : ∀ party, HasNoSession (net.node party)
  inFlight : ∀ party, ∀ packet ∈ net.inFlight party, packet.type = pktTypeNoiseIdentityAnnounce

theorem noHandshake_perform {net : Net} (h : net.NoHandshake) {party : Party} {m : ServiceM Unit}
    (hm : IsQuiet m (net.node party)) : (net.perform party m).NoHandshake := by
  constructor
  · intro p
    by_cases hp : p = party
    · subst hp
      simpa [Net.perform] using hm.1
    · simpa [Net.perform, hp] using h.sessions p
  · intro p packet hmem
    by_cases hp : p = party.other
    · subst hp
      simp only [Net.perform, Function.update_self, List.mem_append] at hmem
      exact hmem.elim (h.inFlight _ packet) (hm.2 packet)
    · simp only [Net.perform, Function.update_of_ne hp] at hmem
      exact h.inFlight p packet hmem

theorem noHandshake_next {net : Net} {action : HandshakeAction}
    (henabled : handshake.Enabled net action) (h : net.NoHandshake) :
    (handshake.next net action).NoHandshake := by
  cases action with
  | announce party =>
      have hnet : Net.NoHandshake
          { net with announced := Function.update net.announced party true } :=
        ⟨h.sessions, h.inFlight⟩
      exact noHandshake_perform hnet (isQuiet_startIdentityAnnounce (h.sessions party))
  | deliver party packet =>
      have hnet : Net.NoHandshake { net with
          inFlight := Function.update net.inFlight party ((net.inFlight party).erase packet) } := by
        refine ⟨h.sessions, fun p q hmem => ?_⟩
        by_cases hp : p = party
        · subst hp
          simp only [Function.update_self] at hmem
          exact h.inFlight p q (List.mem_of_mem_erase hmem)
        · simp only [Function.update_of_ne hp] at hmem
          exact h.inFlight p q hmem
      exact noHandshake_perform hnet
        (isQuiet_processPacket (h.sessions party) (h.inFlight party packet henabled) [])

/-- In no run between two nodes without sessions is the handshake ever established. -/
theorem handshake_never_established (net : Net) (hsessions : ∀ party, HasNoSession (net.node party))
    (hinFlight : ∀ party, net.inFlight party = []) (actions : List HandshakeAction)
    (hexec : handshake.Execution net actions) : ¬ (handshake.run net actions).IsEstablished := by
  have hstart : net.NoHandshake := by
    refine ⟨hsessions, fun party packet hmem => ?_⟩
    rw [hinFlight party] at hmem
    simp at hmem
  have hend := TransitionSystem.invariant_run
    (fun _ _ henabled h => noHandshake_next henabled h) hexec hstart
  intro hestablished
  have hleft := hestablished.1 .left
  rw [not_hasEstablishedSession (hend.sessions .left)] at hleft
  exact Bool.false_ne_true hleft

def freshNode (id : Bytes) (now : ℕ) : Node where
  data := { peerID := toHex id, nickname := [0x61] }
  noiseService := some { localStaticKey := Vector.replicate 32 7 }
  cryptoService := some ⟨fun _ => []⟩
  clock _ := now

def meeting : Net where
  node
    | .left => freshNode [1, 2, 3, 4, 5, 6, 7, 8] 1700000000000000000
    | .right => freshNode [8, 7, 6, 5, 4, 3, 2, 1] 1700000000001000000

def identityAnnounce (id : Bytes) (timestamp : UInt64) : BitchatPacket :=
  { BitchatPacket.make pktTypeNoiseIdentityAnnounce (toHex id) timestamp with senderID := id }

def greeting : List HandshakeAction :=
  [.announce .left, .announce .right,
    .deliver .left (identityAnnounce [8, 7, 6, 5, 4, 3, 2, 1] 1700000000001),
    .deliver .right (identityAnnounce [1, 2, 3, 4, 5, 6, 7, 8] 1700000000000)]

/-- The left node, which is to initiate the handshake, throws, and nothing is left to do. -/
theorem greeting_throws :
    handshake.Execution meeting greeting ∧ (handshake.run meeting greeting).IsComplete ∧
      (handshake.run meeting greeting).threw = true ∧
      (processPacket (identityAnnounce [8, 7, 6, 5, 4, 3, 2, 1] 1700000000001) []).result
          (meeting.node .left) =
        .error (.runtimeError (ascii "No session found for peer: 0807060504030201")) ∧
      ¬ (handshake.run meeting greeting).IsEstablished := by
  refine ⟨by decide +kernel, fun party => by cases party <;> decide +kernel, by decide +kernel,
    by decide +kernel, fun h => ?_⟩
  have hthrew : (handshake.run meeting greeting).threw = true := by decide +kernel
  exact Bool.false_ne_true (h.2.symm.trans hthrew)

theorem handshake_never_established_meeting :
    ¬ (handshake.run meeting greeting).IsEstablished :=
  handshake_never_established meeting (fun party => by cases party <;> exact ⟨_, rfl, rfl⟩)
    (fun _ => rfl) greeting (by decide +kernel)

end Bitchat.MessageService
