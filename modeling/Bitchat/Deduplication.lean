import Bitchat.HandlerFrame

/-!
# Duplicate suppression

A packet is routed exactly if it is valid and its key, made of the sender ID and the
timestamp, is not in the set of processed messages. Along a run of received packets that
set is a flushing set over the keys of the valid ones, which decides what a run loses and
which duplicates it lets through.
-/

namespace Bitchat.MessageService

open Effect StringHelper FlushingSet PacketSerializer

/-- Neither rendering has an underscore, so the separator shows where the first one ends. -/
theorem hex_underscore_decimal_inj {s₁ s₂ : Bytes} {t₁ t₂ : UInt64} :
    toHex s₁ ++ ascii "_" ++ toDecimal t₁.toNat = toHex s₂ ++ ascii "_" ++ toDecimal t₂.toNat ↔
      s₁ = s₂ ∧ t₁ = t₂ := by
  constructor
  · intro h
    simp only [List.append_assoc] at h
    obtain ⟨hsender, -, htime⟩ := (List.append_cons_inj_of_notMem
      (underscore_notMem_toHex s₁) (underscore_notMem_toDecimal t₁.toNat)).mp h
    exact ⟨toHex_injective hsender, UInt64.toNat_inj.mp (toDecimal_injective htime)⟩
  · rintro ⟨rfl, rfl⟩
    rfl

theorem messageID_inj (p q : BitchatPacket) :
    messageID p = messageID q ↔ p.senderID = q.senderID ∧ p.timestamp = q.timestamp :=
  hex_underscore_decimal_inj

theorem shouldProcessPacket_iff (data : BitchatData) (packet : BitchatPacket) :
    shouldProcessPacket data packet = true ↔ messageID packet ∉ data.processedMessages := by
  simp [shouldProcessPacket, BitchatData.wasMessageProcessed]

theorem shouldProcessPacket_eq_false_iff (data : BitchatData) (packet : BitchatPacket) :
    shouldProcessPacket data packet = false ↔ messageID packet ∈ data.processedMessages := by
  rw [← Bool.not_eq_true, shouldProcessPacket_iff, not_not]

/-- The node when the routing starts. -/
def marked (node : Node) (packet : BitchatPacket) : Node :=
  { node with
    data := node.data.markMessageProcessed (messageID packet)
    trace := node.trace ++ [.dispatched packet] }

/-- A packet that may be routed. -/
def Passes (node : Node) (packet : BitchatPacket) : Prop :=
  packet.isValid = true ∧ messageID packet ∉ node.data.processedMessages

instance (node : Node) (packet : BitchatPacket) : Decidable (Passes node packet) :=
  inferInstanceAs (Decidable (_ ∧ _))

/-- The handler of the packet's type runs on the marked node: what it returns and does is what
`processPacket` returns and does. -/
def IsDispatched (node : Node) (packet : BitchatPacket) (peripheralID : Bytes) : Prop :=
  (processPacket packet peripheralID).outcome node =
    (dispatch packet peripheralID).outcome (marked node packet)

theorem outcome_processPacket_of_passes {node : Node} {packet : BitchatPacket}
    (h : Passes node packet) (peripheralID : Bytes) :
    (processPacket packet peripheralID).outcome node =
      (dispatch packet peripheralID).outcome (marked node packet) := by
  have hnew := (shouldProcessPacket_iff node.data packet).mpr h.2
  rw [processPacket, h.1, if_neg (by simp), outcome_bind_ok (outcome_get node), hnew,
    if_neg (by simp)]
  rfl

theorem outcome_processPacket_of_not_passes {node : Node} {packet : BitchatPacket}
    (h : ¬ Passes node packet) (peripheralID : Bytes) :
    (processPacket packet peripheralID).outcome node = (.ok ⟨⟩, node) := by
  rw [processPacket]
  cases hv : packet.isValid with
  | false => rfl
  | true =>
      have hold : messageID packet ∈ node.data.processedMessages := by
        by_contra hnew
        exact h ⟨hv, hnew⟩
      have hskip := (shouldProcessPacket_eq_false_iff node.data packet).mpr hold
      rw [if_neg (by simp), outcome_bind_ok (outcome_get node), hskip]
      rfl

theorem respects_processPacket_of_dispatch {R : Node → Node → Prop} [Std.Refl R] [IsTrans Node R]
    {packet : BitchatPacket} {peripheralID : Bytes}
    (h : Respects R (dispatch packet peripheralID))
    (hmarked : ∀ node, R node (marked node packet)) :
    Respects R (processPacket packet peripheralID) := by
  intro node
  by_cases hpass : Passes node packet
  · rw [exec, outcome_processPacket_of_passes hpass]
    exact trans_of R (hmarked node) (h (marked node packet))
  · rw [exec, outcome_processPacket_of_not_passes hpass]
    exact refl_of R node

theorem respects_processPacket {R : Node → Node → Prop} [Std.Refl R] [IsTrans Node R]
    {packet : BitchatPacket} (h : HandlerSteps (toHex packet.senderID) R)
    (hmarked : ∀ node, R node (marked node packet)) (peripheralID : Bytes) :
    Respects R (processPacket packet peripheralID) :=
  respects_processPacket_of_dispatch (respects_dispatch h peripheralID) hmarked

/-- The routing is noted before the handler runs, so a node that is as it was has not run it. -/
theorem isDispatched_iff (node : Node) (packet : BitchatPacket) (peripheralID : Bytes) :
    IsDispatched node packet peripheralID ↔ Passes node packet := by
  by_cases h : Passes node packet
  · exact iff_of_true (outcome_processPacket_of_passes h peripheralID) h
  · refine iff_of_false (fun hsame => ?_) h
    have hnode : node = (dispatch packet peripheralID).exec (marked node packet) := by
      rw [IsDispatched, outcome_processPacket_of_not_passes h] at hsame
      exact congrArg Prod.snd hsame
    have hlen := (handlerFrame_dispatch packet peripheralID (marked node packet)).trace.length_le
    rw [← hnode] at hlen
    simp [marked] at hlen

instance (node : Node) (packet : BitchatPacket) (peripheralID : Bytes) :
    Decidable (IsDispatched node packet peripheralID) :=
  decidable_of_iff _ (isDispatched_iff node packet peripheralID).symm

theorem processedMessages_processPacket {node : Node}
    (hcard : node.data.processedMessages.card ≤ maxProcessedMessages) (packet : BitchatPacket)
    (peripheralID : Bytes) :
    ((processPacket packet peripheralID).exec node).data.processedMessages =
      if packet.isValid then
        mark maxProcessedMessages node.data.processedMessages (messageID packet)
      else node.data.processedMessages := by
  by_cases h : Passes node packet
  · have hframe := handlerFrame_dispatch packet peripheralID (marked node packet)
    obtain ⟨-, -, -, hset⟩ := hframe.settings
    rw [exec, outcome_processPacket_of_passes h, if_pos h.1]
    refine hset.trans ?_
    rw [marked, BitchatData.markMessageProcessed_eq]
  · rw [exec, outcome_processPacket_of_not_passes h]
    split_ifs with hv
    · have hold : messageID packet ∈ node.data.processedMessages := by
        by_contra hnew
        exact h ⟨hv, hnew⟩
      rw [mark_of_le (by rwa [Finset.insert_eq_of_mem hold]), Finset.insert_eq_of_mem hold]
    · rfl

abbrev Arrival := BitchatPacket × Bytes

/-- A handler that throws ends its own packet only. -/
def processAll (arrivals : List Arrival) (node : Node) : Node :=
  arrivals.foldl (fun node arrival => (processPacket arrival.1 arrival.2).exec node) node

def arrivalKey (arrival : Arrival) : Option Bytes :=
  if arrival.1.isValid then some (messageID arrival.1) else none

def keys (arrivals : List Arrival) : List Bytes := arrivals.filterMap arrivalKey

theorem processAll_append (as bs : List Arrival) (node : Node) :
    processAll (as ++ bs) node = processAll bs (processAll as node) := List.foldl_append

theorem processAll_concat (as : List Arrival) (arrival : Arrival) (node : Node) :
    processAll (as ++ [arrival]) node =
      (processPacket arrival.1 arrival.2).exec (processAll as node) :=
  processAll_append as [arrival] node

theorem processedMessages_processAll (arrivals : List Arrival) {node : Node}
    (hcard : node.data.processedMessages.card ≤ maxProcessedMessages) :
    (processAll arrivals node).data.processedMessages =
      markAll maxProcessedMessages node.data.processedMessages (keys arrivals) := by
  induction arrivals generalizing node with
  | nil => rfl
  | cons arrival arrivals ih =>
      have hstep := processedMessages_processPacket hcard arrival.1 arrival.2
      change (processAll arrivals
        ((processPacket arrival.1 arrival.2).exec node)).data.processedMessages = _
      rw [keys, List.filterMap_cons, arrivalKey]
      cases hv : arrival.1.isValid with
      | false =>
          rw [hv] at hstep
          rw [ih (by rw [hstep]; exact hcard), hstep]
          rfl
      | true =>
          rw [hv] at hstep
          rw [ih (by rw [hstep]; exact card_mark_le), hstep]
          rfl

theorem processedMessages_subset (packet : BitchatPacket) (peripheralID : Bytes) (node : Node) :
    ((processPacket packet peripheralID).exec node).data.processedMessages ⊆
      insert (messageID packet) node.data.processedMessages := by
  by_cases h : Passes node packet
  · obtain ⟨-, -, -, hset⟩ := (handlerFrame_dispatch packet peripheralID
      (marked node packet)).settings
    rw [exec, outcome_processPacket_of_passes h]
    refine (Finset.Subset.antisymm_iff.mp hset).1.trans ?_
    rw [marked, BitchatData.markMessageProcessed_eq]
    exact mark_subset
  · rw [exec, outcome_processPacket_of_not_passes h]
    exact Finset.subset_insert _ _

theorem mem_processedMessages_processAll {arrivals : List Arrival} {node : Node} {k : Bytes}
    (h : k ∈ (processAll arrivals node).data.processedMessages) :
    k ∈ node.data.processedMessages ∨ ∃ arrival ∈ arrivals, messageID arrival.1 = k := by
  induction arrivals generalizing node with
  | nil => exact .inl h
  | cons arrival arrivals ih =>
      rcases ih h with hold | ⟨later, hmem, heq⟩
      · rcases Finset.mem_insert.mp (processedMessages_subset _ _ _ hold) with heq | hold
        · exact .inr ⟨arrival, List.mem_cons_self, heq.symm⟩
        · exact .inl hold
      · exact .inr ⟨later, List.mem_cons_of_mem _ hmem, heq⟩

def SameStamp (p q : BitchatPacket) : Prop := p.senderID = q.senderID ∧ p.timestamp = q.timestamp

/-- A valid packet with the stamp of `packet` has arrived, and from the last such arrival on
the set of keys has not overflowed. -/
def Remembered (node : Node) (arrivals : List Arrival) (packet : BitchatPacket) : Prop :=
  ∃ as last bs, arrivals = as ++ last :: bs ∧ last.1.isValid = true ∧
    SameStamp last.1 packet ∧
    (∀ later ∈ bs, later.1.isValid = true → ¬ SameStamp later.1 packet) ∧
    (insert (messageID packet) (processAll as node).data.processedMessages ∪
      (keys bs).toFinset).card ≤ maxProcessedMessages

theorem arrivalKey_eq_some {arrival : Arrival} {packet : BitchatPacket} :
    arrivalKey arrival = some (messageID packet) ↔
      arrival.1.isValid = true ∧ SameStamp arrival.1 packet := by
  unfold arrivalKey
  split_ifs with hv
  · rw [Option.some_inj, messageID_inj]
    exact ⟨fun h => ⟨hv, h⟩, fun h => h.2⟩
  · simp [hv]

theorem mem_keys {arrivals : List Arrival} {packet : BitchatPacket} :
    messageID packet ∈ keys arrivals ↔
      ∃ arrival ∈ arrivals, arrival.1.isValid = true ∧ SameStamp arrival.1 packet := by
  simp only [keys, List.mem_filterMap, arrivalKey_eq_some]

theorem notMem_keys {arrivals : List Arrival} {packet : BitchatPacket} :
    messageID packet ∉ keys arrivals ↔
      ∀ arrival ∈ arrivals, arrival.1.isValid = true → ¬ SameStamp arrival.1 packet := by
  rw [mem_keys]
  push Not
  rfl

theorem remembered_iff_of_mem {node : Node} {arrivals : List Arrival} {packet : BitchatPacket}
    (hcard : node.data.processedMessages.card ≤ maxProcessedMessages)
    (hmem : messageID packet ∈ keys arrivals) :
    messageID packet ∈ (processAll arrivals node).data.processedMessages ↔
      Remembered node arrivals packet := by
  rw [processedMessages_processAll arrivals hcard, mem_markAll_iff_of_mem hmem]
  constructor
  · rintro ⟨as, bs, hsplit, hbs, hle⟩
    obtain ⟨before, rest, rfl, rfl, hrest⟩ := List.filterMap_eq_append_iff.mp hsplit
    obtain ⟨skipped, last, after, rfl, hskipped, hlast, rfl⟩ := List.filterMap_eq_cons_iff.mp hrest
    obtain ⟨hv, hstamp⟩ := arrivalKey_eq_some.mp hlast
    refine ⟨before ++ skipped, last, after, by simp, hv, hstamp, notMem_keys.mp hbs, ?_⟩
    have hkeys : keys (before ++ skipped) = keys before := by
      rw [keys, List.filterMap_append, List.filterMap_eq_nil_iff.mpr hskipped, List.append_nil]
      rfl
    rw [processedMessages_processAll _ hcard, hkeys]
    exact hle
  · rintro ⟨before, last, after, rfl, hv, hstamp, hlater, hle⟩
    refine ⟨keys before, keys after, ?_, notMem_keys.mpr hlater, ?_⟩
    · rw [keys, List.filterMap_append, List.filterMap_cons, arrivalKey_eq_some.mpr ⟨hv, hstamp⟩]
      rfl
    · rwa [processedMessages_processAll before hcard] at hle

theorem remembered_iff_of_empty {node : Node} (hempty : node.data.processedMessages = ∅)
    (arrivals : List Arrival) (packet : BitchatPacket) :
    messageID packet ∈ (processAll arrivals node).data.processedMessages ↔
      Remembered node arrivals packet := by
  have hcard : node.data.processedMessages.card ≤ maxProcessedMessages := by simp [hempty]
  by_cases hmem : messageID packet ∈ keys arrivals
  · exact remembered_iff_of_mem hcard hmem
  · refine iff_of_false ?_ ?_
    · rw [processedMessages_processAll arrivals hcard, hempty]
      exact notMem_markAll_empty hmem
    · rintro ⟨as, last, bs, rfl, hv, hstamp, -, -⟩
      exact hmem (mem_keys.mpr ⟨last, by simp, hv, hstamp⟩)

def identity (packet : BitchatPacket) : UInt8 × Bytes × UInt64 × Bytes × Bytes :=
  (packet.type, packet.senderID, packet.timestamp, packet.recipientID, packet.payload)

/-- The packet differs from everything that arrived before. -/
def Fresh (before : List Arrival) (packet : BitchatPacket) : Prop :=
  ∀ earlier ∈ before, identity earlier.1 ≠ identity packet

/-- Every packet that is fresh when it arrives is routed. -/
def LosesNothing (node : Node) (arrivals : List Arrival) : Prop :=
  ∀ before arrival after, arrivals = before ++ arrival :: after → Fresh before arrival.1 →
    IsDispatched (processAll before node) arrival.1 arrival.2

/-- A run loses exactly the fresh packets that share their sender and timestamp with a packet
that is still remembered. -/
theorem losesNothing_iff (node : Node) (hempty : node.data.processedMessages = ∅)
    (arrivals : List Arrival) (hvalid : ∀ arrival ∈ arrivals, arrival.1.isValid = true) :
    LosesNothing node arrivals ↔
      ∀ before arrival after, arrivals = before ++ arrival :: after → Fresh before arrival.1 →
        ¬ Remembered node before arrival.1 := by
  have hstep : ∀ before arrival after, arrivals = before ++ arrival :: after →
      (IsDispatched (processAll before node) arrival.1 arrival.2 ↔
        ¬ Remembered node before arrival.1) := by
    rintro before arrival after rfl
    have hv := hvalid arrival (by simp)
    rw [isDispatched_iff, ← remembered_iff_of_empty hempty]
    exact and_iff_right hv
  constructor
  · intro h before arrival after hsplit hfresh
    exact (hstep before arrival after hsplit).mp (h before arrival after hsplit hfresh)
  · intro h before arrival after hsplit hfresh
    exact (hstep before arrival after hsplit).mpr (h before arrival after hsplit hfresh)

def announcer : Node where
  data := { peerID := toHex [1, 2, 3, 4, 5, 6, 7, 8], nickname := [0x61] }
  clock _ := 1700000000000000000

def listener : Node where
  data := { peerID := toHex [8, 7, 6, 5, 4, 3, 2, 1], nickname := [0x62] }
  clock _ := 1700000000000000000

/-- The packets a node has sent, as the decoder at the other end returns them. -/
def received (node : Node) : List Arrival :=
  node.trace.filterMap fun event => match event with
    | .sent packet => some ({ packet with senderID := resize packet.senderID 8 }, [])
    | _ => none

/-- The two announces of `joinChannel` have no sender ID and the same timestamp, so the
receiver takes the second for a copy of the first. -/
theorem joinChannel_announce_lost :
    let announces := received ((joinChannel [0x23, 0x61]).exec announcer)
    (∀ arrival ∈ announces, arrival.1.isValid = true) ∧
      listener.data.processedMessages = ∅ ∧ ¬ LosesNothing listener announces := by
  have hsplit : received ((joinChannel [0x23, 0x61]).exec announcer) =
      [({ type := pktTypeChannelAnnounce, timestamp := 1700000000000, payloadLength := 2,
          senderID := List.replicate 8 0, payload := [0, 0] }, [])] ++
      ({ type := pktTypeChannelAnnounce, timestamp := 1700000000000, payloadLength := 4,
          senderID := List.replicate 8 0, payload := [1, 2, 0x23, 0x61] }, []) :: [] := by
    decide +kernel
  refine ⟨by decide +kernel, rfl, fun h => ?_⟩
  have hdispatched := h _ _ _ hsplit (by unfold Fresh; decide)
  revert hdispatched
  decide +kernel

/-- A hello, and an announce of the same sender in the next millisecond. -/
def greetings : List Arrival :=
  [({ BitchatPacket.make pktTypeVersionHello [] 1 with senderID := [9] }, [1]),
    ({ BitchatPacket.make pktTypeAnnounce [0x61] 2 with senderID := [9] }, [1])]

theorem losesNothing_iff_greetings :
    LosesNothing listener greetings ↔
      ∀ before arrival after, greetings = before ++ arrival :: after → Fresh before arrival.1 →
        ¬ Remembered listener before arrival.1 :=
  losesNothing_iff listener rfl greetings (by decide)

/-- A packet that arrives twice is routed twice unless it was already remembered at its first
arrival or still is at its second. -/
theorem not_dispatched_twice_iff (node : Node) (hempty : node.data.processedMessages = ∅)
    (before between : List Arrival) (packet : BitchatPacket) (hvalid : packet.isValid = true)
    (first second : Bytes) :
    ¬ (IsDispatched (processAll before node) packet first ∧
        IsDispatched (processAll (before ++ (packet, first) :: between) node) packet second) ↔
      Remembered node before packet ∨
        Remembered (processAll before node) ((packet, first) :: between) packet := by
  have hcard : (processAll before node).data.processedMessages.card ≤ maxProcessedMessages := by
    rw [processedMessages_processAll before (by simp [hempty])]
    exact card_markAll_le (by simp [hempty]) _
  have hmem : messageID packet ∈ keys ((packet, first) :: between) :=
    mem_keys.mpr ⟨(packet, first), List.mem_cons_self, hvalid, rfl, rfl⟩
  rw [isDispatched_iff, isDispatched_iff, processAll_append, ← remembered_iff_of_empty hempty,
    ← remembered_iff_of_mem hcard hmem, Passes, Passes]
  simp only [hvalid, true_and]
  tauto

def filler (k : ℕ) : BitchatPacket := BitchatPacket.make pktTypeLeave [] (UInt64.ofNat (k + 1))

def fillers : List Arrival := (List.range 1000).map fun k => (filler k, [])

theorem filler_timestamp_toNat {k : ℕ} (hk : k < 2000) : (filler k).timestamp.toNat = k + 1 := by
  change (UInt64.ofNat (k + 1)).toNat = k + 1
  rw [UInt64.toNat_ofNat', Nat.mod_eq_of_lt (by omega)]

theorem isValid_filler {k : ℕ} (hk : k < 2000) : (filler k).isValid = true := by
  refine (BitchatPacket.isValid_iff _).mpr ⟨rfl, rfl, fun h => ?_⟩
  have htime := filler_timestamp_toNat hk
  rw [h] at htime
  simp at htime

theorem filler_inj {j k : ℕ} (hj : j < 2000) (hk : k < 2000)
    (h : messageID (filler j) = messageID (filler k)) : j = k := by
  have htime := congrArg UInt64.toNat ((messageID_inj _ _).mp h).2
  rw [filler_timestamp_toNat hj, filler_timestamp_toNat hk] at htime
  omega

theorem keys_fillers : keys fillers = (List.range 1000).map fun k => messageID (filler k) := by
  rw [keys, fillers, List.filterMap_map, ← List.filterMap_eq_map]
  refine List.filterMap_congr fun k hk => ?_
  have hlt : k < 1000 := List.mem_range.mp hk
  simp [arrivalKey, isValid_filler (show k < 2000 by omega)]

theorem card_keys_fillers : (keys fillers).toFinset.card = 1000 := by
  have hnodup : ((List.range 1000).map fun k => messageID (filler k)).Nodup := by
    refine List.Nodup.map_on (fun j hj k hk h => ?_) List.nodup_range
    exact filler_inj (by have := List.mem_range.mp hj; omega)
      (by have := List.mem_range.mp hk; omega) h
  rw [keys_fillers, List.toFinset_card_of_nodup hnodup, List.length_map, List.length_range]

/-- The packet that fills the set beyond its limit is forgotten at once: its copy, the very
next packet, is routed again. -/
theorem duplicate_dispatched_twice :
    ¬ ∀ (node : Node) (before between : List Arrival) (packet : BitchatPacket)
      (first second : Bytes), node.data.processedMessages = ∅ → packet.isValid = true →
      (between.filter fun arrival => messageID arrival.1 ≠ messageID packet).length <
        maxProcessedMessages →
      ¬ (IsDispatched (processAll before node) packet first ∧
        IsDispatched (processAll (before ++ (packet, first) :: between) node) packet second) := by
  intro h
  have hset : (processAll fillers listener).data.processedMessages = (keys fillers).toFinset := by
    rw [processedMessages_processAll fillers (by decide), markAll_of_le]
    · exact Finset.empty_union _
    · change (∅ ∪ (keys fillers).toFinset).card ≤ _
      rw [Finset.empty_union, card_keys_fillers]
      exact le_rfl
  have hnew : messageID (filler 1000) ∉ (keys fillers).toFinset := by
    rw [keys_fillers, List.mem_toFinset, List.mem_map]
    rintro ⟨k, hk, he⟩
    have hlt : k < 1000 := List.mem_range.mp hk
    have := filler_inj (by omega) (by omega) he
    omega
  have hv : (filler 1000).isValid = true := isValid_filler (by omega)
  have hflush : (processAll (fillers ++ [(filler 1000, [])]) listener).data.processedMessages
      = ∅ := by
    have hfull : (processAll fillers listener).data.processedMessages.card ≤ 1000 := by
      rw [hset, card_keys_fillers]
    rw [processAll_concat, processedMessages_processPacket hfull, hv, if_pos rfl, hset,
      mark_of_lt]
    rw [Finset.card_insert_of_notMem hnew, card_keys_fillers]
    exact Nat.lt_succ_self 1000
  refine h listener fillers [] (filler 1000) [] [] rfl hv (by decide) ⟨?_, ?_⟩
  · exact (isDispatched_iff _ _ _).mpr ⟨hv, by rwa [hset]⟩
  · exact (isDispatched_iff _ _ _).mpr ⟨hv, by rw [hflush]; exact Finset.notMem_empty _⟩

theorem not_dispatched_twice_iff_single :
    ¬ (IsDispatched (processAll [] listener) (filler 0) [] ∧
        IsDispatched (processAll ([] ++ (filler 0, []) :: []) listener) (filler 0) []) ↔
      Remembered listener [] (filler 0) ∨
        Remembered (processAll [] listener) ((filler 0, []) :: []) (filler 0) :=
  not_dispatched_twice_iff listener rfl [] [] (filler 0) (by decide) [] []

end Bitchat.MessageService
