import Bitchat.RepeatedRelay

/-!
# Whom a flooded packet reaches

A packet that has run its course has come to every node that is no more hops away from where
it began than its TTL allows, along peers that were known all the time, and each of these
nodes has routed it once. It comes nowhere else, and no node changes more of it than the TTL.
-/

namespace Bitchat.Mesh

open Effect MessageService NetworkService StringHelper FlushingSet

variable {ι : Type}

inductive Hops (Link : ι → ι → Prop) (i : ι) : ℕ → ι → Prop where
  | here : Hops Link i 0 i
  | next {n : ℕ} {j k : ι} (h : Hops Link i n j) (hlink : Link j k) : Hops Link i (n + 1) k

def copyAfter (packet : BitchatPacket) (n : ℕ) : BitchatPacket := relayCopy^[n] packet

theorem copyAfter_succ (packet : BitchatPacket) (n : ℕ) :
    copyAfter packet (n + 1) = relayCopy (copyAfter packet n) :=
  Function.iterate_succ_apply' relayCopy n packet

theorem copyAfter_eq (packet : BitchatPacket) (n : ℕ) :
    copyAfter packet n = { packet with ttl := (copyAfter packet n).ttl } := by
  induction n with
  | zero => rfl
  | succ n ih =>
      rw [copyAfter_succ, ih]
      rfl

theorem stamp_copyAfter (packet : BitchatPacket) (n : ℕ) :
    stamp (copyAfter packet n) = stamp packet := by
  rw [copyAfter_eq]
  rfl

theorem isValid_copyAfter (packet : BitchatPacket) (n : ℕ) :
    (copyAfter packet n).isValid = packet.isValid := by
  rw [copyAfter_eq]
  rfl

theorem ttl_copyAfter {packet : BitchatPacket} {n : ℕ} (h : n ≤ packet.ttl.toNat) :
    (copyAfter packet n).ttl.toNat + n = packet.ttl.toNat := by
  induction n with
  | zero => rfl
  | succ n ih =>
      have hcopy := ih (by omega)
      have hpos : 0 < (copyAfter packet n).ttl.toNat := by omega
      have hstep := ttl_relayCopy hpos
      rw [copyAfter_succ]
      omega

/-- `i` knows `j` as a peer that the packet is relayed to. -/
def Linked (route : Bytes → Option ι) (packet : BitchatPacket) (i j : ι) (mesh : Mesh ι) : Prop :=
  ∃ peer ∈ (mesh.node i).data.peers,
    peer.peerID ≠ toHex packet.senderID ∧ route peer.peerID = some j

instance (route : Bytes → Option ι) [DecidableEq ι] (packet : BitchatPacket) (i j : ι)
    (mesh : Mesh ι) : Decidable (Linked route packet i j mesh) :=
  inferInstanceAs (Decidable (∃ peer ∈ _, _))

theorem linked_congr {route : Bytes → Option ι} {packet packet' : BitchatPacket}
    (h : stamp packet = stamp packet') (i j : ι) (mesh : Mesh ι) :
    Linked route packet i j mesh ↔ Linked route packet' i j mesh := by
  have hsender : packet.senderID = packet'.senderID := congrArg Prod.fst h
  rw [Linked, Linked, hsender]

theorem mem_relayTargets {packet : BitchatPacket} {peers : List BitchatPeer} {peerID : Bytes} :
    peerID ∈ relayTargets packet peers ↔
      ∃ peer ∈ peers, peer.peerID = peerID ∧ peerID ≠ toHex packet.senderID := by
  rw [relayTargets, List.mem_filter, List.mem_map, decide_eq_true_eq]
  constructor
  · rintro ⟨⟨peer, hpeer, hid⟩, hne⟩
    exact ⟨peer, hpeer, hid, hne⟩
  · rintro ⟨peer, hpeer, hid, hne⟩
    exact ⟨⟨peer, hpeer, hid⟩, hne⟩

variable [DecidableEq ι] {route : Bytes → Option ι} {mesh : Mesh ι}

/-- Behind a reception the copies that were made of the packet are on their way to the peers
that the node then knows. -/
theorem mem_routed_received {i j : ι} {packet copy : BitchatPacket} {peripheralID : Bytes} :
    (j, copy) ∈ routed route (received (mesh.node i) packet peripheralID).network ↔
      performsRelay (mesh.node i) packet peripheralID = true ∧ copy = relayCopy packet ∧
        Linked route packet i j (mesh.next route (.deliver i packet peripheralID)) := by
  have hnode : (mesh.next route (.deliver i packet peripheralID)).node i =
      (processPacket packet peripheralID).exec (mesh.node i) := by
    rw [node_next_deliver, if_pos rfl]
  rw [routed, network_received, Linked, hnode]
  cases performsRelay (mesh.node i) packet peripheralID with
  | false => simp
  | true =>
      rw [if_pos rfl, List.filterMap_map, List.mem_filterMap]
      constructor
      · rintro ⟨peerID, hpeer, hroute⟩
        obtain ⟨peer, hmem, rfl, hne⟩ := mem_relayTargets.mp hpeer
        obtain ⟨k, hk, heq⟩ := Option.map_eq_some_iff.mp hroute
        cases heq
        exact ⟨rfl, rfl, peer, hmem, hne, hk⟩
      · rintro ⟨-, rfl, peer, hpeer, hne, hroute⟩
        refine ⟨peer.peerID, mem_relayTargets.mpr ⟨peer, hpeer, rfl, hne⟩, ?_⟩
        change (route peer.peerID).map _ = _
        rw [hroute]
        rfl

theorem mem_inFlight_next {action : MeshAction ι} {j : ι} {copy : BitchatPacket}
    (h : (j, copy) ∈ ((broadcasting route).next mesh action).inFlight) :
    (j, copy) ∈ mesh.inFlight ∨ action = .originate j copy ∨
      ∃ i packet peripheralID, action = .deliver i packet peripheralID ∧
        (j, copy) ∈ routed route (received (mesh.node i) packet peripheralID).network := by
  cases action with
  | change i node => exact .inl h
  | originate i packet =>
      rcases Multiset.mem_cons.mp h with heq | hold
      · cases heq
        exact .inr (.inl rfl)
      · exact .inl hold
  | deliver i packet peripheralID =>
      rcases Multiset.mem_add.mp h with hold | hnew
      · exact .inl (Multiset.mem_of_mem_erase hold)
      · exact .inr (.inr ⟨i, packet, peripheralID, rfl, Multiset.mem_coe.mp hnew⟩)

theorem mem_inFlight_of_next (route : Bytes → Option ι) (action : MeshAction ι)
    {copy : ι × BitchatPacket} (h : copy ∈ mesh.inFlight) :
    copy ∈ ((broadcasting route).next mesh action).inFlight ∨
      ∃ peripheralID, action = .deliver copy.1 copy.2 peripheralID := by
  cases action with
  | change i node => exact .inl h
  | originate i packet => exact .inl (Multiset.mem_cons_of_mem h)
  | deliver i packet peripheralID =>
      by_cases heq : copy = (i, packet)
      · subst heq
        exact .inr ⟨peripheralID, rfl⟩
      · refine .inl (Multiset.mem_add.mpr (.inl ?_))
        exact (Multiset.mem_erase_of_ne heq).mpr h

theorem delivered_of_inFlight {actions : List (MeshAction ι)} {copy : ι × BitchatPacket}
    (h : copy ∈ mesh.inFlight)
    (hend : copy ∉ ((broadcasting route).run mesh actions).inFlight) :
    ∃ before peripheralID after,
      actions = before ++ .deliver copy.1 copy.2 peripheralID :: after := by
  induction actions generalizing mesh with
  | nil => exact (hend h).elim
  | cons action actions ih =>
      rcases mem_inFlight_of_next route action h with hstill | ⟨id, rfl⟩
      · obtain ⟨before, peripheralID, after, rfl⟩ := ih hstill hend
        exact ⟨action :: before, peripheralID, after, rfl⟩
      · exact ⟨[], id, actions, rfl⟩

def Returns (s : Stamp) (mesh : Mesh ι) : MeshAction ι → Prop
  | .deliver i packet peripheralID => stamp packet = s →
      (processPacket packet peripheralID).result (mesh.node i) = .ok ⟨⟩
  | _ => True

theorem delivered_of_hops {start : Mesh ι} {actions : List (MeshAction ι)} {i : ι}
    {packet : BitchatPacket} (hstart : (i, packet) ∈ start.inFlight)
    (hend : ∀ copy ∈ ((broadcasting route).run start actions).inFlight,
      stamp copy.2 ≠ stamp packet)
    (hreturns : (broadcasting route).AllSteps (Returns (stamp packet)) start actions)
    {n : ℕ} {j : ι} (hhops : Hops (fun j k =>
      (broadcasting route).AllStates (Linked route packet j k) start actions) i n j)
    (httl : n ≤ packet.ttl.toNat) :
    ∃ before peripheralID after,
      actions = before ++ .deliver j (copyAfter packet n) peripheralID :: after := by
  induction hhops with
  | here => exact delivered_of_inFlight hstart fun hmem => hend _ hmem rfl
  | @next n j k hhops hlink ih =>
      obtain ⟨before, peripheralID, after, hsplit⟩ := ih (by omega)
      set there := (broadcasting route).run start before with hthere
      have hreturn := TransitionSystem.allSteps_iff_forall_prefix.mp hreturns before _ after hsplit
        (stamp_copyAfter packet n)
      have hleft : (copyAfter packet n).ttl > 0 := by
        refine UInt8.lt_iff_toNat_lt.mpr ?_
        have hle : n ≤ packet.ttl.toNat := by omega
        have hcopy := ttl_copyAfter hle
        change 0 < _
        omega
      have hrelay : performsRelay (there.node j) (copyAfter packet n) peripheralID = true := by
        rw [performsRelay, decide_eq_true hleft, decide_eq_true hreturn]
        rfl
      have hnext : (broadcasting route).run start
          (before ++ [.deliver j (copyAfter packet n) peripheralID]) =
            there.next route (.deliver j (copyAfter packet n) peripheralID) := by
        rw [TransitionSystem.run_append]
        rfl
      have hlinked := TransitionSystem.allStates_iff_forall_prefix.mp hlink
        (before ++ [.deliver j (copyAfter packet n) peripheralID]) after (by simp [hsplit])
      rw [hnext, linked_congr (stamp_copyAfter packet n).symm] at hlinked
      have hsent : (k, copyAfter packet (n + 1)) ∈
          (there.next route (.deliver j (copyAfter packet n) peripheralID)).inFlight := by
        refine Multiset.mem_add.mpr (.inr (Multiset.mem_coe.mpr ?_))
        exact mem_routed_received.mpr ⟨hrelay, copyAfter_succ packet n, hlinked⟩
      have hgone : (k, copyAfter packet (n + 1)) ∉ ((broadcasting route).run
          (there.next route (.deliver j (copyAfter packet n) peripheralID)) after).inFlight := by
        intro hmem
        refine hend (k, copyAfter packet (n + 1)) ?_ (stamp_copyAfter packet (n + 1))
        rw [hsplit, TransitionSystem.run_append]
        exact hmem
      obtain ⟨before', peripheralID', after', hafter⟩ := delivered_of_inFlight hsent hgone
      refine ⟨before ++ .deliver j (copyAfter packet n) peripheralID :: before', peripheralID',
        after', ?_⟩
      rw [hsplit, hafter, List.append_assoc, List.cons_append]

/-- Every key that is remembered has been routed. -/
def Recorded (node : Node) : Prop :=
  ∀ s, key s ∈ node.data.processedMessages → 1 ≤ dispatches node s

theorem stamp_eq_of_key_eq {packet : BitchatPacket} {s : Stamp}
    (h : messageID packet = key s) : stamp packet = s := by
  obtain ⟨hsender, htime⟩ := hex_underscore_decimal_inj.mp h
  exact Prod.ext hsender htime

theorem dispatches_le_processPacket (node : Node) (packet : BitchatPacket)
    (peripheralID : Bytes) (s : Stamp) :
    dispatches node s ≤ dispatches ((processPacket packet peripheralID).exec node) s := by
  classical
  rw [dispatches_processPacket]
  exact Nat.le_add_right _ _

theorem Recorded.processPacket {node : Node} (h : Recorded node) (packet : BitchatPacket)
    (peripheralID : Bytes) :
    Recorded ((MessageService.processPacket packet peripheralID).exec node) := by
  classical
  intro s hs
  by_cases hpass : Passes node packet
  · rcases Finset.mem_insert.mp (processedMessages_subset packet peripheralID node hs) with hkey | hold
    · rw [dispatches_processPacket, if_pos ⟨hpass, stamp_eq_of_key_eq hkey.symm⟩]
      exact Nat.le_add_left _ _
    · exact (h s hold).trans (dispatches_le_processPacket node packet peripheralID s)
  · rw [exec, outcome_processPacket_of_not_passes hpass] at hs ⊢
    exact h s hs

theorem Recorded.dispatches_pos {node : Node} (h : Recorded node) {packet : BitchatPacket}
    (hvalid : packet.isValid = true) (peripheralID : Bytes) :
    1 ≤ dispatches ((MessageService.processPacket packet peripheralID).exec node)
      (stamp packet) := by
  classical
  by_cases hold : messageID packet ∈ node.data.processedMessages
  · exact (h (stamp packet) hold).trans
      (dispatches_le_processPacket node packet peripheralID _)
  · rw [dispatches_processPacket, if_pos ⟨⟨hvalid, hold⟩, rfl⟩]
    exact Nat.le_add_left _ _

theorem Recorded.of_keepsMemory {node node' : Node} (h : Recorded node)
    (hkeeps : KeepsMemory node node') : Recorded node' := by
  intro s hs
  rw [hkeeps.processed] at hs
  rw [hkeeps.dispatches]
  exact h s hs

theorem recorded_next {action : MeshAction ι}
    (henabled : (broadcasting route).Enabled mesh action) (h : ∀ i, Recorded (mesh.node i))
    (i : ι) : Recorded (((broadcasting route).next mesh action).node i) := by
  cases action with
  | originate j packet => exact h i
  | change j node =>
      change Recorded (Function.update mesh.node j node i)
      rw [Function.update_apply]
      split_ifs
      · exact (h j).of_keepsMemory henabled
      · exact h i
  | deliver j packet peripheralID =>
      change Recorded ((mesh.next route (.deliver j packet peripheralID)).node i)
      rw [node_next_deliver]
      split_ifs
      · exact (h j).processPacket packet peripheralID
      · exact h i

theorem dispatches_le_run {start : Mesh ι} {actions : List (MeshAction ι)}
    (hexec : (broadcasting route).Execution start actions) (j : ι) (s : Stamp) :
    dispatches (start.node j) s ≤ dispatches (((broadcasting route).run start actions).node j) s := by
  exact TransitionSystem.le_run (fun mesh => dispatches (mesh.node j) s) (dispatches_next_le j s)
    hexec

/-- Behind the delivery of a valid packet to a new node the node has routed it, then or before. -/
theorem dispatches_pos_of_delivered {start : Mesh ι}
    (hnew : ∀ i, (start.node i).data.processedMessages = ∅ ∧ (start.node i).trace = [])
    {actions : List (MeshAction ι)} (hexec : (broadcasting route).Execution start actions) {j : ι}
    {packet : BitchatPacket} (hvalid : packet.isValid = true)
    {before after : List (MeshAction ι)} {peripheralID : Bytes}
    (hsplit : actions = before ++ .deliver j packet peripheralID :: after) :
    1 ≤ dispatches (((broadcasting route).run start actions).node j) (stamp packet) := by
  obtain ⟨hbefore, -, hafter⟩ := TransitionSystem.execution_append.mp (hsplit ▸ hexec)
  have hrecorded : ∀ k, Recorded (((broadcasting route).run start before).node k) := by
    refine TransitionSystem.invariant_run (fun _ _ henabled h => recorded_next henabled h)
      hbefore fun k s hs => ?_
    rw [(hnew k).1] at hs
    exact absurd hs (Finset.notMem_empty _)
  have hrouted := (hrecorded j).dispatches_pos hvalid peripheralID
  have hnode : (((broadcasting route).run start before).next route
      (.deliver j packet peripheralID)).node j =
        (processPacket packet peripheralID).exec (((broadcasting route).run start before).node j) := by
    rw [node_next_deliver, if_pos rfl]
  rw [hsplit, TransitionSystem.run_append]
  rw [← hnode] at hrouted
  exact hrouted.trans (dispatches_le_run hafter j (stamp packet))

theorem handles_of_delivered {start : Mesh ι}
    (hnew : ∀ i, (start.node i).data.processedMessages = ∅ ∧ (start.node i).trace = [])
    {actions : List (MeshAction ι)} (hexec : (broadcasting route).Execution start actions) {j : ι}
    {packet : BitchatPacket} (hvalid : packet.isValid = true)
    {before after : List (MeshAction ι)} {peripheralID : Bytes}
    (hsplit : actions = before ++ .deliver j packet peripheralID :: after) :
    (broadcasting route).SomeStep (Handles j (stamp packet)) start actions := by
  refine TransitionSystem.someStep_of_lt_run (fun mesh => dispatches (mesh.node j) (stamp packet))
    (fun mesh action henabled => (dispatches_lt_next_iff j _ mesh action henabled).mp) hexec ?_
  rw [dispatches_of_isNew hnew]
  exact dispatches_pos_of_delivered hnew hexec hvalid hsplit

/-- The copies of a valid packet that nobody keeps in flight any more have reached every node
within reach, no more hops away than its TTL, along peers that were known all the time, and
each of these nodes has run the handler for exactly one of them. -/
theorem flood_reaches (route : Bytes → Option ι) (start : Mesh ι)
    (hnew : ∀ i, (start.node i).data.processedMessages = ∅ ∧ (start.node i).trace = [])
    (actions : List (MeshAction ι)) (hexec : (broadcasting route).Execution start actions)
    (hfew : (arrivingStamps actions).card ≤ maxProcessedMessages) (i : ι) (packet : BitchatPacket)
    (hvalid : packet.isValid = true) (hstart : (i, packet) ∈ start.inFlight)
    (hend : ∀ copy ∈ ((broadcasting route).run start actions).inFlight,
      stamp copy.2 ≠ stamp packet)
    (hreturns : (broadcasting route).AllSteps (Returns (stamp packet)) start actions)
    (n : ℕ) (hn : n ≤ packet.ttl.toNat) (j : ι)
    (hhops : Hops (fun j k =>
      (broadcasting route).AllStates (Linked route packet j k) start actions) i n j) :
    (∃ peripheralID, .deliver j (copyAfter packet n) peripheralID ∈ actions) ∧
      (broadcasting route).SomeStep (Handles j (stamp packet)) start actions ∧
      (broadcasting route).AtMostOneStep (Handles j (stamp packet)) start actions := by
  obtain ⟨before, peripheralID, after, hsplit⟩ :=
    delivered_of_hops hstart hend hreturns hhops hn
  refine ⟨⟨peripheralID, ?_⟩, ?_, handles_atMostOnce hnew hexec hfew j (stamp packet)⟩
  · rw [hsplit]
    exact List.mem_append_right _ List.mem_cons_self
  · rw [← stamp_copyAfter packet n]
    exact handles_of_delivered hnew hexec ((isValid_copyAfter packet n).trans hvalid) hsplit

theorem returns_pingPong : (broadcasting pairRoute).AllSteps (Returns (stamp passingPacket)) pair
    pingPong := by
  refine ⟨fun _ => ?_, fun _ => ?_, fun _ => ?_, fun _ => ?_, trivial⟩
  · decide +kernel
  · decide +kernel
  · decide +kernel
  · decide +kernel

theorem linked_pair : (broadcasting pairRoute).AllStates (Linked pairRoute passingPacket false true)
    pair pingPong := by
  refine ⟨?_, ?_, ?_, ?_, (?_ : Linked pairRoute passingPacket false true _)⟩
  · decide +kernel
  · decide +kernel
  · decide +kernel
  · decide +kernel
  · decide +kernel

theorem flood_reaches_pair :
    (∃ peripheralID, .deliver true (copyAfter passingPacket 1) peripheralID ∈ pingPong) ∧
      (broadcasting pairRoute).SomeStep (Handles true (stamp passingPacket)) pair pingPong ∧
      (broadcasting pairRoute).AtMostOneStep (Handles true (stamp passingPacket)) pair pingPong :=
  flood_reaches pairRoute pair pair_isNew pingPong execution_pingPong (by decide +kernel) false
    passingPacket (by decide +kernel) (Multiset.mem_singleton_self _) (by decide +kernel)
    returns_pingPong 1 (by decide +kernel) true (.next .here linked_pair)

/-- Every copy in flight has come along as many links as it has lost of its TTL. -/
def Traced (Link : ι → ι → Prop) (i : ι) (packet : BitchatPacket) (mesh : Mesh ι) : Prop :=
  ∀ copy ∈ mesh.inFlight, stamp copy.2 = stamp packet →
    ∃ n ≤ packet.ttl.toNat, copy.2 = copyAfter packet n ∧ Hops Link i n copy.1

theorem traced_next {Link : ι → ι → Prop} {i : ι} {packet : BitchatPacket}
    {action : MeshAction ι} (henabled : (broadcasting route).Enabled mesh action)
    (honly : ∀ j p, action = .originate j p → stamp p ≠ stamp packet)
    (hlink : ∀ j k, Linked route packet j k ((broadcasting route).next mesh action) → Link j k)
    (h : Traced Link i packet mesh) :
    Traced Link i packet ((broadcasting route).next mesh action) := by
  rintro ⟨k, copy⟩ hmem hstamp
  rcases mem_inFlight_next hmem with hold | horigin | ⟨j, received, peripheralID, rfl, hsent⟩
  · exact h _ hold hstamp
  · exact (honly k copy horigin hstamp).elim
  · obtain ⟨hrelay, rfl, hlinked⟩ := mem_routed_received.mp hsent
    have hstamp' : stamp received = stamp packet := hstamp
    obtain ⟨n, hn, hcopy, hhops⟩ := h _ henabled hstamp'
    have hcopy : received = copyAfter packet n := hcopy
    subst hcopy
    have hpos := ttl_pos_of_performsRelay hrelay
    have httl := ttl_copyAfter hn
    exact ⟨n + 1, by omega, (copyAfter_succ packet n).symm,
      hhops.next (hlink j k ((linked_congr hstamp' j k _).mp hlinked))⟩

theorem traced_run {Link : ι → ι → Prop} {i : ι} {packet : BitchatPacket}
    {actions : List (MeshAction ι)} (hexec : (broadcasting route).Execution mesh actions)
    (honly : ∀ j p, .originate j p ∈ actions → stamp p ≠ stamp packet)
    (hlink : (broadcasting route).AllStates (fun mesh => ∀ j k, Linked route packet j k mesh →
      Link j k) mesh actions) (h : Traced Link i packet mesh) :
    (broadcasting route).AllStates (Traced Link i packet) mesh actions := by
  induction actions generalizing mesh with
  | nil => exact h
  | cons action actions ih =>
      refine ⟨h, ih hexec.2 (fun j p hmem => honly j p (List.mem_cons_of_mem _ hmem)) hlink.2 ?_⟩
      refine traced_next hexec.1 (fun j p heq => honly j p ?_) hlink.2.head h
      rw [heq]
      exact List.mem_cons_self

/-- A packet that began at one node comes to no node but those that are no more hops away than
its TTL, along peers that were known at some time, and it comes unchanged but for the TTL,
which tells how many hops it has made. -/
theorem flood_stays_within (route : Bytes → Option ι) (start : Mesh ι) (i : ι)
    (packet : BitchatPacket) (hstart : start.inFlight = {(i, packet)})
    (actions : List (MeshAction ι)) (hexec : (broadcasting route).Execution start actions)
    (honly : ∀ j p, .originate j p ∈ actions → stamp p ≠ stamp packet) (j : ι)
    (copy : BitchatPacket) (peripheralID : Bytes) (hcopy : .deliver j copy peripheralID ∈ actions)
    (hstamp : stamp copy = stamp packet) :
    ∃ n ≤ packet.ttl.toNat, copy = copyAfter packet n ∧
      Hops (fun j k => ¬ (broadcasting route).AllStates
        (fun mesh => ¬ Linked route packet j k mesh) start actions) i n j := by
  have hlink : (broadcasting route).AllStates (fun mesh => ∀ j k, Linked route packet j k mesh →
      ¬ (broadcasting route).AllStates (fun mesh => ¬ Linked route packet j k mesh) start actions)
      start actions := by
    refine TransitionSystem.allStates_iff_forall_prefix.mpr fun before after hsplit j k hlinked hall => ?_
    exact TransitionSystem.allStates_iff_forall_prefix.mp hall before after hsplit hlinked
  have hfirst : Traced (fun j k => ¬ (broadcasting route).AllStates
      (fun mesh => ¬ Linked route packet j k mesh) start actions) i packet start := by
    intro item hitem _
    rw [hstart, Multiset.mem_singleton] at hitem
    subst hitem
    exact ⟨0, Nat.zero_le _, rfl, .here⟩
  obtain ⟨before, after, hsplit⟩ := List.mem_iff_append.mp hcopy
  have htraced := TransitionSystem.allStates_iff_forall_prefix.mp
    (traced_run hexec honly hlink hfirst) before _ hsplit
  have hinFlight : (broadcasting route).Enabled ((broadcasting route).run start before)
      (.deliver j copy peripheralID) := by
    rw [hsplit] at hexec
    exact (TransitionSystem.execution_append.mp hexec).2.1
  exact htraced (j, copy) hinFlight hstamp

theorem flood_stays_within_pair :
    ∃ n ≤ passingPacket.ttl.toNat, relayCopy passingPacket = copyAfter passingPacket n ∧
      Hops (fun j k => ¬ (broadcasting pairRoute).AllStates
        (fun mesh => ¬ Linked pairRoute passingPacket j k mesh) pair pingPong) false n true :=
  flood_stays_within pairRoute pair false passingPacket rfl pingPong execution_pingPong
    (by simp [pingPong]) true (relayCopy passingPacket) []
    (List.mem_cons_of_mem _ List.mem_cons_self) rfl

end Bitchat.Mesh
