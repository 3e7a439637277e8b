import Bitchat.PeerNotifications

/-!
# What an announce records

An announce of an unknown sender makes its record. For a known sender it notes only when and
over which link it came: nickname and announcement stay those of the record, which a version
hello may have made with the client's version for a nickname.
-/

namespace Bitchat

open StringHelper

/-- The record behind an announce at `time`, given the one before it. -/
def announcedPeer (known : Option BitchatPeer) (peerID nickname peripheralID : Bytes)
    (time : ℤ) : BitchatPeer :=
  match known with
  | some peer =>
      { peer with
        lastSeen := time
        peripheralID := if peripheralID = [] then peer.peripheralID else peripheralID }
  | none =>
      { BitchatPeer.make peerID nickname time with
        peripheralID := peripheralID
        hasAnnounced := true }

theorem peerID_announcedPeer (data : BitchatData) (peerID : Bytes)
    (nickname peripheralID : Bytes) (time : ℤ) :
    (announcedPeer (data.getPeerInfo peerID) peerID nickname peripheralID time).peerID =
      peerID := by
  cases hpeer : data.getPeerInfo peerID with
  | none => rfl
  | some peer =>
      have hid := BitchatData.peerID_of_getPeerInfo hpeer
      exact hid

namespace MessageService

open Effect PacketSerializer

theorem exists_exec_processAnnouncePacket (node : Node) (packet : BitchatPacket)
    (peripheralID : Bytes) :
    ∃ time clockReads trace, (processAnnouncePacket packet peripheralID).exec node = { node with
      data := node.data.addPeer (announcedPeer (node.data.getPeerInfo (toHex packet.senderID))
        (toHex packet.senderID) packet.payload peripheralID time)
      clockReads := clockReads
      trace := trace } := by
  rw [exec, processAnnouncePacket, outcome_bind_ok (outcome_get node),
    outcome_bind_ok (outcome_currentTime node)]
  cases hpeer : node.data.getPeerInfo (toHex packet.senderID) with
  | some existingPeer =>
      dsimp only
      rw [outcome_modifyData]
      refine ⟨((node.clock node.clockReads / 1000000000 : ℕ) : ℤ), node.clockReads + 1,
        node.trace, ?_⟩
      cases peripheralID with
      | nil => rfl
      | cons b peripheralID => rfl
  | none =>
      dsimp only
      rw [outcome_bind_ok (outcome_currentTime _), outcome_bind_ok (outcome_modifyData _ _),
        outcome_notify]
      exact ⟨((node.clock (node.clockReads + 1) / 1000000000 : ℕ) : ℤ), _, _, rfl⟩

/-- The sender has the announced nickname and counts as announced, its channel is as before,
and so are all other records. -/
structure AnnounceRecorded (node node' : Node) (packet : BitchatPacket) : Prop where
  record : ∃ peer, node'.data.getPeerInfo (toHex packet.senderID) = some peer ∧
    peer.nickname = parseAnnouncePayload packet.payload ∧ peer.hasAnnounced = true ∧
    ∀ known, node.data.getPeerInfo (toHex packet.senderID) = some known →
      peer.channel = known.channel
  others : (node'.data.peers.filter fun peer => peer.peerID ≠ toHex packet.senderID) =
    node.data.peers.filter fun peer => peer.peerID ≠ toHex packet.senderID

/-- The sender is known already, under another nickname or without an announcement. -/
def KnownOtherwise (node : Node) (packet : BitchatPacket) : Prop :=
  ∃ peer, node.data.getPeerInfo (toHex packet.senderID) = some peer ∧
    ¬ (peer.nickname = packet.payload ∧ peer.hasAnnounced = true)

theorem announceRecorded_processAnnouncePacket_iff {node node' : Node}
    (hpeers : node'.data.peers = node.data.peers) (packet : BitchatPacket)
    (peripheralID : Bytes) :
    AnnounceRecorded node ((processAnnouncePacket packet peripheralID).exec node') packet ↔
      ¬ KnownOtherwise node packet := by
  obtain ⟨time, clockReads, trace, hexec⟩ :=
    exists_exec_processAnnouncePacket node' packet peripheralID
  have hread : node'.data.getPeerInfo (toHex packet.senderID) =
      node.data.getPeerInfo (toHex packet.senderID) := by
    rw [BitchatData.getPeerInfo_eq, hpeers, BitchatData.getPeerInfo_eq]
  have hid := peerID_announcedPeer node.data (toHex packet.senderID) packet.payload peripheralID
    time
  rw [hexec, hread]
  set record := announcedPeer (node.data.getPeerInfo (toHex packet.senderID))
    (toHex packet.senderID) packet.payload peripheralID time with hrecord
  have hstored : (node'.data.addPeer record).getPeerInfo (toHex packet.senderID) = some record := by
    rw [BitchatData.getPeerInfo_addPeer, if_pos hid]
  have hothers : ((node'.data.addPeer record).peers.filter fun peer =>
      peer.peerID ≠ toHex packet.senderID) =
        node.data.peers.filter fun peer => peer.peerID ≠ toHex packet.senderID := by
    rw [BitchatData.addPeer, BitchatData.storePeer_eq, hpeers]
    exact KeyedList.filter_store (p := fun peerID => decide (peerID ≠ toHex packet.senderID))
      (by simp [hid]) node.data.peers
  rw [KnownOtherwise]
  cases hpeer : node.data.getPeerInfo (toHex packet.senderID) with
  | none =>
      rw [hpeer] at hrecord
      refine iff_of_true ⟨⟨record, hstored, ?_, ?_, fun known hknown => ?_⟩, hothers⟩ (by simp)
      · rw [hrecord]
        rfl
      · rw [hrecord]
        rfl
      · rw [hpeer] at hknown
        cases hknown
  | some peer =>
      rw [hpeer] at hrecord
      constructor
      · rintro ⟨⟨found, hfound, hnickname, hannounced, -⟩, -⟩ ⟨known, hknown, hother⟩
        obtain rfl := Option.some.inj hknown
        obtain rfl := Option.some.inj (hstored.symm.trans hfound)
        rw [hrecord] at hnickname hannounced
        exact hother ⟨hnickname, hannounced⟩
      · intro hsame
        have hboth : peer.nickname = packet.payload ∧ peer.hasAnnounced = true :=
          not_not.mp fun hother => hsame ⟨peer, rfl, hother⟩
        refine ⟨⟨record, hstored, ?_, ?_, fun known hknown => ?_⟩, hothers⟩
        · rw [hrecord]
          exact hboth.1
        · rw [hrecord]
          exact hboth.2
        · obtain rfl := Option.some.inj (hpeer.symm.trans hknown)
          rw [hrecord]
          rfl

def RecordsAnnounce (node : Node) : PeerAction → Prop
  | .receive packet peripheralID => Passes node packet → packet.type = pktTypeAnnounce →
      AnnounceRecorded node ((processPacket packet peripheralID).exec node) packet
  | _ => True

def AnnouncesChange (node : Node) : PeerAction → Prop
  | .receive packet _ =>
      Passes node packet ∧ packet.type = pktTypeAnnounce ∧ KnownOtherwise node packet
  | _ => False

theorem peers_marked (node : Node) (packet : BitchatPacket) :
    (marked node packet).data.peers = node.data.peers := by
  rw [marked, BitchatData.markMessageProcessed_eq]

theorem recordsAnnounce_iff (node : Node) (action : PeerAction) :
    RecordsAnnounce node action ↔ ¬ AnnouncesChange node action := by
  cases action with
  | receive packet peripheralID =>
      rw [RecordsAnnounce, AnnouncesChange]
      by_cases hpass : Passes node packet
      · by_cases htype : packet.type = pktTypeAnnounce
        · rw [exec, outcome_processPacket_of_passes hpass, dispatch_announce htype, ← exec,
            announceRecorded_processAnnouncePacket_iff (peers_marked node packet)]
          simp [hpass, htype]
        · simp [htype]
      · simp [hpass]
  | disconnected peripheralID => exact iff_of_true trivial not_false
  | cleanup time => exact iff_of_true trivial not_false

/-- In a run, every announce that is dispatched is recorded as long as none meets a record of
its sender that says something else. -/
theorem announces_recorded_iff (node : Node) (actions : List PeerAction) :
    peerActivity.AllSteps RecordsAnnounce node actions ↔
      peerActivity.AllSteps (fun node action => ¬ AnnouncesChange node action) node actions := by
  have hiff : ∀ node action, peerActivity.Enabled node action → True →
      (RecordsAnnounce node action ↔ ¬ AnnouncesChange node action) :=
    fun node action _ _ => recordsAnnounce_iff node action
  exact TransitionSystem.allSteps_iff_allSteps hiff (fun _ _ _ _ => trivial)
    (TransitionSystem.execution_of_enabled (fun _ _ => trivial) node actions) trivial

def laterAnnounce : BitchatPacket :=
  { BitchatPacket.make pktTypeAnnounce (ascii "bob") 2 with
    senderID := [1, 2, 3, 4, 5, 6, 7, 8] }

/-- A peer that has said hello before keeps its client's version for a nickname. -/
theorem announce_behind_hello :
    ¬ peerActivity.AllSteps RecordsAnnounce listener
      [.receive firstHello [], .receive laterAnnounce []] := by
  intro h
  have hpasses : Passes (peerActivity.next listener (.receive firstHello [])) laterAnnounce :=
    ⟨by decide +kernel, by decide +kernel⟩
  have hknown : KnownOtherwise (peerActivity.next listener (.receive firstHello []))
      laterAnnounce := by
    refine ⟨_, rfl, ?_⟩
    decide +kernel
  exact (recordsAnnounce_iff _ _).mp h.2.1 ⟨hpasses, rfl, hknown⟩

end MessageService

end Bitchat
