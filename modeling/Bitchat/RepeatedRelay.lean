import Bitchat.Mesh

/-!
# Relaying the same packet again

The message service remembers what it has processed, the network service does not ask. Over
any run of a mesh each node runs the handler of a packet once, while it relays every copy that
arrives with TTL left, but for the one whose handler throws.
-/

namespace Bitchat.Mesh

open Effect MessageService NetworkService StringHelper FlushingSet

variable {ι : Type} [DecidableEq ι]

abbrev Stamp := Bytes × UInt64

def stamp (packet : BitchatPacket) : Stamp := (packet.senderID, packet.timestamp)

def IsDispatchOf (s : Stamp) : Event → Bool
  | .dispatched packet => decide (stamp packet = s)
  | _ => false

def dispatches (node : Node) (s : Stamp) : ℕ := node.trace.countP (IsDispatchOf s)

def arrivingStamp : MeshAction ι → Option Stamp
  | .deliver _ packet _ => some (stamp packet)
  | _ => none

def arrivingStamps (actions : List (MeshAction ι)) : Finset Stamp :=
  (actions.filterMap arrivingStamp).toFinset

/-- A change that has nothing to do with received packets. -/
structure KeepsMemory (node node' : Node) : Prop where
  processed : node'.data.processedMessages = node.data.processedMessages
  dispatches : ∀ s, dispatches node' s = dispatches node s

/-- Packets of any kind come up at any node at any time, and travel. -/
def broadcasting (route : Bytes → Option ι) :
    TransitionSystem (Mesh ι) (MeshAction ι) where
  Enabled mesh action := match action with
    | .deliver i packet _ => (i, packet) ∈ mesh.inFlight
    | .change i node => KeepsMemory (mesh.node i) node
    | .originate _ _ => True
  next mesh action := mesh.next route action

instance : Std.Refl KeepsMemory := ⟨fun _ => ⟨rfl, fun _ => rfl⟩⟩

instance : IsTrans Node KeepsMemory :=
  ⟨fun _ _ _ h k => ⟨k.processed.trans h.processed, fun s =>
    (k.dispatches s).trans (h.dispatches s)⟩⟩

theorem dispatches_append (node : Node) (event : Event) (s : Stamp) :
    dispatches { node with trace := node.trace ++ [event] } s =
      dispatches node s + if IsDispatchOf s event then 1 else 0 := by
  rw [dispatches, List.countP_append, List.countP_singleton]
  rfl

theorem keepsMemory_event (node : Node) {event : Event}
    (h : ∀ s, IsDispatchOf s event = false) :
    KeepsMemory node { node with trace := node.trace ++ [event] } := by
  refine ⟨rfl, fun s => ?_⟩
  rw [dispatches_append, h s]
  rfl

theorem handlerSteps_keepsMemory (peerID : Bytes) : HandlerSteps peerID KeepsMemory where
  clock _ := ⟨rfl, fun _ => rfl⟩
  unassigned _ := ⟨rfl, fun _ => rfl⟩
  event node event hevent := by
    refine keepsMemory_event node fun s => ?_
    cases event with
    | dispatched packet => cases hevent
    | _ => rfl
  ack node _ _ := keepsMemory_event node fun _ => rfl
  storePeer _ _ _ := ⟨rfl, fun _ => rfl⟩
  removePeer _ := ⟨rfl, fun _ => rfl⟩
  history _ _ _ := ⟨rfl, fun _ => rfl⟩
  sent node _ _ := keepsMemory_event node fun _ => rfl
  noise _ _ := ⟨rfl, fun _ => rfl⟩

def key (s : Stamp) : Bytes := toHex s.1 ++ ascii "_" ++ toDecimal s.2.toNat

theorem messageID_eq_key (packet : BitchatPacket) : messageID packet = key (stamp packet) := rfl

theorem dispatches_processPacket (node : Node) (packet : BitchatPacket) (peripheralID : Bytes)
    (s : Stamp) :
    dispatches ((processPacket packet peripheralID).exec node) s =
      dispatches node s + if Passes node packet ∧ stamp packet = s then 1 else 0 := by
  by_cases hpass : Passes node packet
  · have hdispatch : Respects KeepsMemory (dispatch packet peripheralID) :=
      respects_dispatch (handlerSteps_keepsMemory _) peripheralID
    rw [exec, outcome_processPacket_of_passes hpass]
    refine ((hdispatch (marked node packet)).dispatches s).trans ?_
    change dispatches { node with trace := node.trace ++ [.dispatched packet] } s = _
    rw [dispatches_append, IsDispatchOf]
    simp [hpass]
  · rw [exec, outcome_processPacket_of_not_passes hpass]
    simp [hpass]

theorem indicator_le {S T : Finset Bytes} (h : S ⊆ T) (k : Bytes) :
    (if k ∈ S then 1 else 0) ≤ if k ∈ T then 1 else 0 := by
  by_cases hk : k ∈ S
  · rw [if_pos hk, if_pos (h hk)]
  · rw [if_neg hk]
    exact Nat.zero_le _

/-- Every key that has been routed is remembered, and nothing but `allowed` keys are. -/
structure Remembers (allowed : Finset Bytes) (node : Node) : Prop where
  subset : node.data.processedMessages ⊆ allowed
  once : ∀ s, dispatches node s ≤ if key s ∈ node.data.processedMessages then 1 else 0

theorem Remembers.of_keepsMemory {allowed : Finset Bytes} {node node' : Node}
    (h : Remembers allowed node) (hkeeps : KeepsMemory node node') : Remembers allowed node' := by
  refine ⟨?_, fun s => ?_⟩
  · rw [hkeeps.processed]
    exact h.subset
  · rw [hkeeps.processed, hkeeps.dispatches s]
    exact h.once s

theorem Remembers.processPacket {allowed : Finset Bytes} {node : Node} {packet : BitchatPacket}
    (h : Remembers allowed node) (hcard : allowed.card ≤ maxProcessedMessages)
    (hpacket : key (stamp packet) ∈ allowed) (peripheralID : Bytes) :
    Remembers allowed ((MessageService.processPacket packet peripheralID).exec node) := by
  classical
  have hsize : node.data.processedMessages.card ≤ maxProcessedMessages :=
    (Finset.card_le_card h.subset).trans hcard
  have hinsert : insert (messageID packet) node.data.processedMessages ⊆ allowed :=
    Finset.insert_subset hpacket h.subset
  have hset := processedMessages_processPacket hsize packet peripheralID
  rw [mark_of_le ((Finset.card_le_card hinsert).trans hcard)] at hset
  have hgrow : node.data.processedMessages ⊆
      ((MessageService.processPacket packet peripheralID).exec node).data.processedMessages := by
    rw [hset]
    split_ifs
    · exact Finset.subset_insert _ _
    · exact Finset.Subset.refl _
  refine ⟨?_, fun s => ?_⟩
  · rw [hset]
    split_ifs
    · exact hinsert
    · exact h.subset
  · have hold := h.once s
    rw [dispatches_processPacket]
    by_cases hnow : Passes node packet ∧ stamp packet = s
    · obtain ⟨hpass, hs⟩ := hnow
      have hkey : messageID packet = key s := by rw [messageID_eq_key, hs]
      have hnew : key s ∉ node.data.processedMessages := hkey ▸ hpass.2
      rw [if_neg hnew] at hold
      rw [if_pos ⟨hpass, hs⟩, hset, if_pos hpass.1, hkey, if_pos (Finset.mem_insert_self _ _)]
      omega
    · rw [if_neg hnow, Nat.add_zero]
      exact hold.trans (indicator_le hgrow (key s))

variable {route : Bytes → Option ι} {mesh : Mesh ι}

theorem node_next_deliver (i j : ι) (packet : BitchatPacket) (peripheralID : Bytes) :
    (mesh.next route (.deliver j packet peripheralID)).node i =
      if i = j then (processPacket packet peripheralID).exec (mesh.node j) else mesh.node i := by
  change Function.update mesh.node j (received (mesh.node j) packet peripheralID).node i = _
  rw [Function.update_apply, node_received]

def AllRemember (allowed : Finset Bytes) (mesh : Mesh ι) : Prop :=
  ∀ i, Remembers allowed (mesh.node i)

theorem allRemember_next {allowed : Finset Bytes} (hcard : allowed.card ≤ maxProcessedMessages)
    (action : MeshAction ι) (henabled : (broadcasting route).Enabled mesh action)
    (hstamp : ∀ s, arrivingStamp action = some s → key s ∈ allowed)
    (h : AllRemember allowed mesh) :
    AllRemember allowed ((broadcasting route).next mesh action) := by
  intro i
  cases action with
  | originate j packet => exact h i
  | change j node =>
      change Remembers allowed (Function.update mesh.node j node i)
      rw [Function.update_apply]
      split_ifs with hi
      · exact (h j).of_keepsMemory henabled
      · exact h i
  | deliver j packet peripheralID =>
      change Remembers allowed ((mesh.next route (.deliver j packet peripheralID)).node i)
      rw [node_next_deliver]
      split_ifs
      · exact (h j).processPacket hcard (hstamp _ rfl) peripheralID
      · exact h i

theorem dispatches_next_deliver (i j : ι) (s : Stamp) (packet : BitchatPacket)
    (peripheralID : Bytes) :
    dispatches ((mesh.next route (.deliver j packet peripheralID)).node i) s =
      dispatches (mesh.node i) s +
        if i = j ∧ Passes (mesh.node i) packet ∧ stamp packet = s then 1 else 0 := by
  rw [node_next_deliver]
  by_cases hi : i = j
  · subst hi
    rw [if_pos rfl, dispatches_processPacket]
    simp
  · rw [if_neg hi, if_neg fun h => hi h.1, Nat.add_zero]

theorem dispatches_next_change (route : Bytes → Option ι) {i j : ι} {node : Node} (s : Stamp)
    (henabled : (broadcasting route).Enabled mesh (.change j node)) :
    dispatches ((mesh.next route (.change j node)).node i) s = dispatches (mesh.node i) s := by
  change dispatches (Function.update mesh.node j node i) s = _
  rw [Function.update_apply]
  split_ifs with hi
  · rw [hi, henabled.dispatches s]
  · rfl

theorem dispatches_next_le (i : ι) (s : Stamp) (mesh : Mesh ι) (action : MeshAction ι)
    (henabled : (broadcasting route).Enabled mesh action) :
    dispatches (mesh.node i) s ≤ dispatches (((broadcasting route).next mesh action).node i) s := by
  cases action with
  | originate j packet => exact le_rfl
  | change j node => exact (dispatches_next_change route s henabled).ge
  | deliver j packet peripheralID =>
      exact (Nat.le_add_right _ _).trans (dispatches_next_deliver i j s packet peripheralID).ge

/-- A packet with this stamp reaches the node and its handler runs. -/
def Handles (i : ι) (s : Stamp) (mesh : Mesh ι) : MeshAction ι → Prop
  | .deliver j packet peripheralID => j = i ∧ stamp packet = s ∧
      IsDispatched (mesh.node i) packet peripheralID
  | _ => False

theorem dispatches_lt_next_iff (i : ι) (s : Stamp) (mesh : Mesh ι) (action : MeshAction ι)
    (henabled : (broadcasting route).Enabled mesh action) :
    dispatches (mesh.node i) s <
        dispatches (((broadcasting route).next mesh action).node i) s ↔
      Handles i s mesh action := by
  cases action with
  | originate j packet => exact iff_of_false (lt_irrefl _) id
  | change j node =>
      exact iff_of_false (dispatches_next_change route s henabled).le.not_gt id
  | deliver j packet peripheralID =>
      change _ < dispatches ((mesh.next route (.deliver j packet peripheralID)).node i) s ↔ _
      rw [dispatches_next_deliver, Handles, isDispatched_iff]
      split_ifs with h
      · exact iff_of_true (Nat.lt_succ_self _) ⟨h.1.symm, h.2.2, h.2.1⟩
      · exact iff_of_false (lt_irrefl _) fun hhandles => h ⟨hhandles.1.symm, hhandles.2.2, hhandles.2.1⟩

omit [DecidableEq ι] in
theorem dispatches_of_isNew {start : Mesh ι}
    (hnew : ∀ i, (start.node i).data.processedMessages = ∅ ∧ (start.node i).trace = []) (j : ι)
    (s : Stamp) : dispatches (start.node j) s = 0 := by
  rw [dispatches, (hnew j).2]
  rfl

theorem dispatches_le_one {start : Mesh ι}
    (hnew : ∀ i, (start.node i).data.processedMessages = ∅ ∧ (start.node i).trace = [])
    {actions : List (MeshAction ι)} (hexec : (broadcasting route).Execution start actions)
    (hfew : (arrivingStamps actions).card ≤ maxProcessedMessages) (i : ι) (s : Stamp) :
    dispatches (((broadcasting route).run start actions).node i) s ≤ 1 := by
  have hstart : AllRemember ((arrivingStamps actions).image key) start := by
    refine fun j => ⟨?_, fun t => ?_⟩
    · rw [(hnew j).1]
      exact Finset.empty_subset _
    · rw [dispatches_of_isNew hnew]
      exact Nat.zero_le _
  have hkeys : ∀ action ∈ actions, ∀ t, arrivingStamp action = some t →
      key t ∈ (arrivingStamps actions).image key := by
    intro action haction t ht
    exact Finset.mem_image_of_mem key
      (List.mem_toFinset.mpr (List.mem_filterMap.mpr ⟨action, haction, ht⟩))
  have hend := TransitionSystem.invariant_run_of_forall
    (fun _ action henabled hstamp h =>
      allRemember_next (Finset.card_image_le.trans hfew) action henabled hstamp h)
    hexec hkeys hstart
  refine ((hend i).once s).trans ?_
  split_ifs
  · exact le_rfl
  · exact Nat.zero_le 1

theorem handles_atMostOnce {start : Mesh ι}
    (hnew : ∀ i, (start.node i).data.processedMessages = ∅ ∧ (start.node i).trace = [])
    {actions : List (MeshAction ι)} (hexec : (broadcasting route).Execution start actions)
    (hfew : (arrivingStamps actions).card ≤ maxProcessedMessages) (i : ι) (s : Stamp) :
    (broadcasting route).AtMostOneStep (Handles i s) start actions :=
  TransitionSystem.atMostOneStep_of_run_le (fun mesh => dispatches (mesh.node i) s)
    (dispatches_next_le i s)
    (fun mesh action henabled => (dispatches_lt_next_iff i s mesh action henabled).mpr) hexec
    ((dispatches_le_one hnew hexec hfew i s).trans (Nat.le_add_left _ _))

/-- The handler of the packet runs and throws. -/
def Throws (node : Node) (packet : BitchatPacket) (peripheralID : Bytes) : Prop :=
  IsDispatched node packet peripheralID ∧
    (dispatch packet peripheralID).result (marked node packet) ≠ .ok ⟨⟩

instance (node : Node) (packet : BitchatPacket) (peripheralID : Bytes) :
    Decidable (Throws node packet peripheralID) :=
  inferInstanceAs (Decidable (_ ∧ _))

theorem result_processPacket_iff (node : Node) (packet : BitchatPacket) (peripheralID : Bytes) :
    (processPacket packet peripheralID).result node = .ok ⟨⟩ ↔
      ¬ Throws node packet peripheralID := by
  rw [Throws, isDispatched_iff, result]
  by_cases hpass : Passes node packet
  · rw [outcome_processPacket_of_passes hpass, and_iff_right hpass, not_not]
    rfl
  · rw [outcome_processPacket_of_not_passes hpass]
    exact iff_of_true rfl fun h => hpass h.1

/-- One copy goes to every peer but the sender, unless no TTL is left or the handler throws. -/
theorem network_received_eq (node : Node) (packet : BitchatPacket) (peripheralID : Bytes) :
    (received node packet peripheralID).network =
      if packet.ttl = 0 ∨ Throws node packet peripheralID then []
      else (relayTargets packet ((processPacket packet peripheralID).exec node).data.peers).map
        fun peerID => (relayCopy packet, peerID) := by
  have hrelay : performsRelay node packet peripheralID = true ↔
      ¬ (packet.ttl = 0 ∨ Throws node packet peripheralID) := by
    rw [performsRelay, Bool.and_eq_true, decide_eq_true_eq, decide_eq_true_eq,
      result_processPacket_iff, not_or]
    exact and_congr_left fun _ => UInt8.pos_iff_ne_zero
  rw [network_received]
  by_cases h : packet.ttl = 0 ∨ Throws node packet peripheralID
  · rw [if_pos h, if_neg fun hperforms => hrelay.mp hperforms h]
  · rw [if_neg h, if_pos (hrelay.mpr h)]

/-- What the node sends when a packet with this stamp reaches it. -/
def RelaysUnlessThrown (i : ι) (s : Stamp) (mesh : Mesh ι) : MeshAction ι → Prop
  | .deliver j packet peripheralID => j = i → stamp packet = s →
      (received (mesh.node i) packet peripheralID).network =
        if packet.ttl = 0 ∨ Throws (mesh.node i) packet peripheralID then []
        else (relayTargets packet
          ((processPacket packet peripheralID).exec (mesh.node i)).data.peers).map
            fun peerID => (relayCopy packet, peerID)
  | _ => True

theorem pair_isNew (i : Bool) :
    (pair.node i).data.processedMessages = ∅ ∧ (pair.node i).trace = [] := ⟨rfl, rfl⟩

theorem enabled_deliver (i : Bool) (mesh : Mesh Bool) (packet : BitchatPacket)
    (peripheralID : Bytes) (h : (i, packet) ∈ mesh.inFlight) :
    (broadcasting pairRoute).Enabled mesh (.deliver i packet peripheralID) := h

theorem execution_pingPong : (broadcasting pairRoute).Execution pair pingPong := by
  refine ⟨enabled_deliver _ _ _ _ ?_, enabled_deliver _ _ _ _ ?_, enabled_deliver _ _ _ _ ?_,
    enabled_deliver _ _ _ _ ?_, trivial⟩
  · decide +kernel
  · decide +kernel
  · decide +kernel
  · decide +kernel

/-- The node gives copies of a packet with this stamp to the network. -/
def Relays (i : ι) (s : Stamp) (mesh : Mesh ι) : MeshAction ι → Prop
  | .deliver j packet peripheralID => j = i ∧ stamp packet = s ∧
      (received (mesh.node i) packet peripheralID).network ≠ []
  | _ => False

end Bitchat.Mesh
