import Bitchat.LocalCalls
import Bitchat.MessageHistory
import Bitchat.PeerTable
import Bitchat.RacingDeliveries
import Bitchat.ThreadPool

/-!
# What the set of processed messages remembers

Every operation of the store is atomic. Whatever the threads of a node do, the store sees one
operation after the other, in an order that nobody fixes. In all these runs a packet is
rejected if one with its sender ID and timestamp has been marked since the set of processed
messages was last emptied.
-/

namespace Bitchat

/-- The operations that change the store. What is marked is the key of a packet. -/
inductive StoreOperation where
  | setPeerID (peerID : Bytes)
  | setNickname (nickname : Bytes)
  | setPeers (peers : List BitchatPeer)
  | peer (operation : PeerOperation)
  | history (operation : HistoryOperation)
  | mark (packet : BitchatPacket)
  | clearProcessed
  | cleanupProcessed (maxProcessedSize : ℕ)

namespace MessageService

open Effect StringHelper FlushingSet Thread Mesh

def store : TransitionSystem BitchatData StoreOperation where
  Enabled _ _ := True
  next data
    | .setPeerID peerID => data.setPeerID peerID
    | .setNickname nickname => data.setNickname nickname
    | .setPeers peers => data.setPeers peers
    | .peer operation => data.performPeer operation
    | .history operation => data.performHistory operation
    | .mark packet => data.markMessageProcessed (messageID packet)
    | .clearProcessed => data.clearProcessedMessages
    | .cleanupProcessed maxProcessedSize => data.cleanupOldProcessedMessages maxProcessedSize

/-- The operation clears the set of processed messages. -/
def Empties (data : BitchatData) : StoreOperation → Prop
  | .mark packet =>
      maxProcessedMessages < (insert (messageID packet) data.processedMessages).card
  | .clearProcessed => True
  | .cleanupProcessed maxProcessedSize => maxProcessedSize < data.processedMessages.card
  | _ => False

/-- A packet with the sender ID and the timestamp of `packet` is marked. -/
def Marks (packet : BitchatPacket) : StoreOperation → Prop
  | .mark marked => SameStamp marked packet
  | _ => False

/-- A packet like `packet` has been marked, and neither that mark nor an operation behind it
has emptied the set. -/
def MarkedSinceEmptied (data : BitchatData) (operations : List StoreOperation)
    (packet : BitchatPacket) : Prop :=
  store.Since (Marks packet) (fun data operation => ¬ Empties data operation) data operations

theorem processedMessages_performPeer (data : BitchatData) (operation : PeerOperation) :
    (data.performPeer operation).processedMessages = data.processedMessages := by
  cases operation with
  | add peer => rfl
  | update peer => rfl
  | remove peerID => rfl
  | cleanup time => rfl

theorem processedMessages_performHistory (data : BitchatData) (operation : HistoryOperation) :
    (data.performHistory operation).processedMessages = data.processedMessages := by
  cases operation with
  | add message channel => rfl
  | setCurrentChannel channel => rfl
  | clear channel => rfl
  | clearAll => rfl
  | cleanup maxHistorySize => rfl

theorem mem_cleanupOldProcessedMessages_iff (data : BitchatData) (maxProcessedSize : ℕ)
    (k : Bytes) :
    k ∈ (data.cleanupOldProcessedMessages maxProcessedSize).processedMessages ↔
      ¬ maxProcessedSize < data.processedMessages.card ∧ k ∈ data.processedMessages := by
  rw [BitchatData.cleanupOldProcessedMessages]
  split_ifs with hcard
  · exact iff_of_false (Finset.notMem_empty k) fun h => h.1 hcard
  · exact (and_iff_right hcard).symm

/-- A key is in the set behind an operation if the operation does not empty the set and the
key was there before or is the one that is marked. -/
theorem mem_processedMessages_next (data : BitchatData) (operation : StoreOperation)
    (packet : BitchatPacket) :
    messageID packet ∈ (store.next data operation).processedMessages ↔
      ¬ Empties data operation ∧
        (messageID packet ∈ data.processedMessages ∨ Marks packet operation) := by
  have hkeeps : ∀ {data' : BitchatData}, data'.processedMessages = data.processedMessages →
      (messageID packet ∈ data'.processedMessages ↔
        ¬ False ∧ (messageID packet ∈ data.processedMessages ∨ False)) := by
    intro data' h
    rw [h, not_false_iff, true_and, or_false]
  cases operation with
  | setPeerID peerID => exact hkeeps rfl
  | setNickname nickname => exact hkeeps rfl
  | setPeers peers => exact hkeeps rfl
  | peer operation => exact hkeeps (processedMessages_performPeer data operation)
  | history operation => exact hkeeps (processedMessages_performHistory data operation)
  | mark marked =>
      have hstamp : messageID packet = messageID marked ↔ SameStamp marked packet :=
        eq_comm.trans (messageID_inj marked packet)
      change _ ∈ (data.markMessageProcessed (messageID marked)).processedMessages ↔
        ¬ maxProcessedMessages < (insert (messageID marked) data.processedMessages).card ∧
          (_ ∨ SameStamp marked packet)
      rw [BitchatData.markMessageProcessed_eq, mem_mark_iff, hstamp]
  | clearProcessed => exact iff_of_false (Finset.notMem_empty _) fun h => h.1 trivial
  | cleanupProcessed maxProcessedSize =>
      refine (mem_cleanupOldProcessedMessages_iff data maxProcessedSize _).trans ?_
      exact and_congr_right fun _ => (or_iff_left id).symm

theorem execution_store (data : BitchatData) (operations : List StoreOperation) :
    store.Execution data operations :=
  TransitionSystem.execution_of_enabled (fun _ _ => trivial) data operations

theorem mem_processedMessages_run {data : BitchatData} (hempty : data.processedMessages = ∅)
    (operations : List StoreOperation) (packet : BitchatPacket) :
    messageID packet ∈ (store.run data operations).processedMessages ↔
      MarkedSinceEmptied data operations packet := by
  have hrun := TransitionSystem.run_iff_since
    (P := fun data : BitchatData => messageID packet ∈ data.processedMessages)
    (fun data operation _ => mem_processedMessages_next data operation packet)
    (execution_store data operations)
  refine hrun.trans (or_iff_right fun h => ?_)
  rw [hempty] at h
  exact Finset.notMem_empty _ h.1

/-- The key tells the sender IDs and the timestamps apart, so that from the empty set on a
packet is rejected exactly if one with its sender ID and timestamp has been marked since the
set was last emptied. -/
theorem rejected_iff_marked_since_emptied :
    (∀ (s₁ s₂ : Bytes) (t₁ t₂ : UInt64),
      toHex s₁ ++ ascii "_" ++ toDecimal t₁.toNat = toHex s₂ ++ ascii "_" ++ toDecimal t₂.toNat ↔
        s₁ = s₂ ∧ t₁ = t₂) ∧
      ∀ data : BitchatData, data.processedMessages = ∅ →
        ∀ (operations : List StoreOperation) (packet : BitchatPacket),
          shouldProcessPacket (store.run data operations) packet = false ↔
            MarkedSinceEmptied data operations packet := by
  refine ⟨fun _ _ _ _ => hex_underscore_decimal_inj, fun data hempty operations packet => ?_⟩
  rw [shouldProcessPacket_eq_false_iff]
  exact mem_processedMessages_run hempty operations packet

/-- A packet is rejected behind its mark, and no longer once the set has been cleared. -/
theorem passingPacket_rejected_until_cleared :
    MarkedSinceEmptied listener.data [.mark passingPacket] passingPacket ∧
      ¬ MarkedSinceEmptied listener.data [.mark passingPacket, .clearProcessed]
        passingPacket := by
  have hrejected := rejected_iff_marked_since_emptied.2 listener.data rfl
  refine ⟨(hrejected _ _).mp ?_, fun h => absurd ((hrejected _ _).mpr h) ?_⟩
  · decide +kernel
  · decide +kernel

/-- The operations of a node that marks only packets of one kind. -/
def MarksOnly (Kind : BitchatPacket → Prop) : StoreOperation → Prop
  | .mark packet => Kind packet
  | .clearProcessed => False
  | .cleanupProcessed _ => False
  | _ => True

/-- What has become of the store are operations of such a node. -/
def Operates (Kind : BitchatPacket → Prop) (node node' : Node) : Prop :=
  store.Reaches (MarksOnly Kind) node.data node'.data

variable {Kind : BitchatPacket → Prop} {packet : BitchatPacket} {node : Node}

instance : Std.Refl (Operates Kind) := ⟨fun node => refl_of (store.Reaches _) node.data⟩

instance : IsTrans Node (Operates Kind) := ⟨fun _ _ _ h k => trans_of (store.Reaches _) h k⟩

theorem operates_next {node' : Node} (operation : StoreOperation)
    (hkind : MarksOnly Kind operation) (h : node'.data = store.next node.data operation) :
    Operates Kind node node' := by
  rw [Operates, h]
  exact TransitionSystem.reaches_next hkind trivial

theorem handlerSteps_operates (peerID : Bytes) : HandlerSteps peerID (Operates Kind) where
  clock node := refl_of (Operates Kind) node
  unassigned node := refl_of (Operates Kind) node
  event node _ _ := refl_of (Operates Kind) node
  ack node _ _ := refl_of (Operates Kind) node
  storePeer _ peer _ := operates_next (.peer (.add peer)) trivial rfl
  removePeer _ := operates_next (.peer (.remove peerID)) trivial rfl
  history _ message channel := operates_next (.history (.add message channel)) trivial rfl
  sent node _ _ := refl_of (Operates Kind) node
  noise node _ := refl_of (Operates Kind) node

theorem localSteps_operates : LocalSteps (Operates Kind) where
  clock node := refl_of (Operates Kind) node
  event node _ _ := refl_of (Operates Kind) node
  channel _ channel := operates_next (.history (.setCurrentChannel channel)) trivial rfl
  history _ message channel := operates_next (.history (.add message channel)) trivial rfl
  removePeer _ peerID := operates_next (.peer (.remove peerID)) trivial rfl
  encrypted node _ _ _ _ := refl_of (Operates Kind) node

theorem steps_delivery (hkind : Kind packet) (peripheralID : Bytes) :
    (delivery packet peripheralID).Steps (Operates Kind) := by
  have hdispatching : (dispatching packet peripheralID).Steps (Operates Kind) := by
    refine fun node => ⟨?_, trivial⟩
    have hhandler : Respects (Operates Kind) (dispatch packet peripheralID) :=
      respects_dispatch (handlerSteps_operates _) peripheralID
    exact ((respects_emit fun node => refl_of (Operates Kind) node).bind fun _ => hhandler) node
  have hmarking : (marking packet peripheralID).Steps (Operates Kind) :=
    fun node => ⟨operates_next (.mark packet) hkind rfl, hdispatching⟩
  rw [delivery]
  split_ifs with hinvalid
  · trivial
  · refine fun node => ⟨refl_of (Operates Kind) node, ?_⟩
    rw [lookedUp]
    split_ifs with hold
    · trivial
    · exact hmarking

/-- The threads of a node: deliveries of packets of one kind, and calls of the user. -/
def IsNodeThread (Kind : BitchatPacket → Prop) (t : Thread Node) : Prop :=
  (∃ packet peripheralID, Kind packet ∧ t = delivery packet peripheralID) ∨
    ∃ call : LocalCall, t = .step call.perform.exec fun _ => .done

theorem steps_of_isNodeThread (t : Thread Node) (h : IsNodeThread Kind t) :
    t.Steps (Operates Kind) := by
  rcases h with ⟨packet, peripheralID, hkind, rfl⟩ | ⟨call, rfl⟩
  · exact steps_delivery hkind peripheralID
  · exact fun node => ⟨localSteps_operates.perform call node, trivial⟩

/-- However many threads receive packets at the same time, from the empty set on no packet is
rejected but one whose sender ID and timestamp are those of a packet that was delivered. -/
theorem delivered_of_rejected {actions : List (PoolAction Node)}
    (hempty : node.data.processedMessages = ∅)
    (hexec : (ThreadPool.scheduling (IsNodeThread Kind)).Execution { state := node } actions)
    (hrejected : shouldProcessPacket
      ((ThreadPool.scheduling (IsNodeThread Kind)).run { state := node } actions).state.data
        packet = false) : ∃ delivered, Kind delivered ∧ SameStamp delivered packet := by
  obtain ⟨operations, hkind, -, hrun⟩ :=
    (ThreadPool.respects_run steps_of_isNodeThread hexec).state
  rw [shouldProcessPacket_eq_false_iff, ← hrun, mem_processedMessages_run hempty] at hrejected
  obtain ⟨before, operation, after, rfl, hmarks, -⟩ := hrejected
  have hoperation := hkind operation (by simp)
  cases operation with
  | mark delivered => exact ⟨delivered, hoperation, hmarks⟩
  | _ => exact hmarks.elim

end MessageService

end Bitchat
