import Bitchat.Interleaving
import Bitchat.RepeatedRelay

/-!
# Two deliveries of one packet

Every connection has its own reader thread, so two copies of a packet can be processed at
the same time. Looking the key up and marking it are two steps, each of them atomic, and
between them the other thread can look the same key up.
-/

namespace Bitchat.MessageService

open Effect Thread Mesh

section Delivery

variable (packet : BitchatPacket) (peripheralID : Bytes)

/-- The last step: the handler of the packet's type runs. -/
def runHandler : Node → Node :=
  (do
    emit (.dispatched packet)
    dispatch packet peripheralID : ServiceM Unit).exec

def dispatching : Thread Node := .step (runHandler packet peripheralID) fun _ => .done

def marking : Thread Node := .step (markPacketProcessed packet).exec fun _ =>
  dispatching packet peripheralID

/-- What follows the look-up. -/
def lookedUp (node : Node) : Thread Node :=
  if !shouldProcessPacket node.data packet then .done else marking packet peripheralID

/-- `processPacket` as its steps: the key is looked up, then marked, then the packet is
routed. -/
def delivery : Thread Node :=
  if !packet.isValid then .done else .step id (lookedUp packet peripheralID)

theorem run_delivery (node : Node) :
    (delivery packet peripheralID).run node = (processPacket packet peripheralID).exec node := by
  rw [delivery, processPacket]
  split_ifs with hinvalid
  · rfl
  · rw [exec, outcome_bind_ok (outcome_get node), run, id, lookedUp]
    split_ifs
    · rfl
    · rfl

end Delivery

open Classical in
/-- How often the handler of the packet's type is run by the steps. -/
noncomputable def handlerRuns (packet : BitchatPacket) (acts : List (Node → Node)) : ℕ :=
  acts.countP fun act => ∃ peripheralID, act = runHandler packet peripheralID

variable {packet : BitchatPacket} {peripheralID peripheralID' : Bytes} {node node' : Node}
  {schedule : List Side}

theorem keepsMemory_runHandler (packet : BitchatPacket) (peripheralID : Bytes) (node : Node) :
    KeepsMemory { node with trace := node.trace ++ [.dispatched packet] }
      (runHandler packet peripheralID node) := by
  rw [runHandler, exec, outcome_bind_ok (outcome_emit _ node)]
  exact respects_dispatch (handlerSteps_keepsMemory _) peripheralID _

theorem dispatches_runHandler (packet : BitchatPacket) (peripheralID : Bytes) (node : Node) :
    dispatches (runHandler packet peripheralID node) (stamp packet) =
      dispatches node (stamp packet) + 1 := by
  rw [(keepsMemory_runHandler packet peripheralID node).dispatches, dispatches_append, IsDispatchOf,
    decide_eq_true rfl, if_pos rfl]

theorem adds_dispatching (P : Finset Bytes → Prop) :
    Adds (fun node => P node.data.processedMessages) (fun node => dispatches node (stamp packet))
      (dispatching packet peripheralID) 1 := by
  intro node hnode
  refine ⟨?_, 1, 0, rfl, dispatches_runHandler packet peripheralID node, rfl⟩
  dsimp only
  rwa [(keepsMemory_runHandler packet peripheralID node).processed]

theorem adds_marking :
    Adds (fun _ => True) (fun node => dispatches node (stamp packet))
      (marking packet peripheralID) 1 := by
  intro node _
  exact ⟨trivial, 0, 1, rfl, rfl, adds_dispatching fun _ => True⟩

theorem adds_delivery :
    Adds (fun node => messageID packet ∈ node.data.processedMessages)
      (fun node => dispatches node (stamp packet)) (delivery packet peripheralID) 0 := by
  rw [delivery]
  split_ifs with hinvalid
  · exact rfl
  · intro node hnode
    have hold : lookedUp packet peripheralID node = .done := by
      rw [lookedUp, (shouldProcessPacket_eq_false_iff _ _).mpr hnode]
      rfl
    refine ⟨hnode, 0, 0, rfl, rfl, ?_⟩
    rw [hold]
    exact rfl

theorem lookedUp_of_new (hnew : messageID packet ∉ node.data.processedMessages) :
    lookedUp packet peripheralID node = marking packet peripheralID := by
  rw [lookedUp, (shouldProcessPacket_iff _ _).mpr hnew]
  rfl

theorem mem_processedMessages_mark
    (hroom : node.data.processedMessages.card < maxProcessedMessages) :
    messageID packet ∈
      ((markPacketProcessed packet).exec node).data.processedMessages := by
  change messageID packet ∈ (node.data.markMessageProcessed (messageID packet)).processedMessages
  rw [BitchatData.markMessageProcessed_eq, FlushingSet.mark_of_le]
  · exact Finset.mem_insert_self _ _
  · exact (Finset.card_insert_le _ _).trans hroom

theorem delivery_of_valid (hvalid : packet.isValid = true) : delivery packet peripheralID =
    .step id (lookedUp packet peripheralID) := by
  rw [delivery, hvalid]
  rfl

theorem dispatches_of_left_first (hvalid : packet.isValid = true)
    (hnew : messageID packet ∉ node.data.processedMessages)
    (hroom : node.data.processedMessages.card < maxProcessedMessages)
    (h : Interleaves (.left :: schedule) (delivery packet peripheralID)
      (delivery packet peripheralID') node node') :
    (∃ rest, schedule = .left :: rest) ∧
        dispatches node' (stamp packet) = dispatches node (stamp packet) + 1 ∨
      (∃ rest, schedule = .right :: rest) ∧
        dispatches node' (stamp packet) = dispatches node (stamp packet) + 2 := by
  rw [delivery_of_valid hvalid, delivery_of_valid hvalid, interleaves_left_iff,
    lookedUp_of_new hnew, marking] at h
  rcases h.first_step with ⟨rest, rfl, hrest⟩ | ⟨rest, rfl, hrest⟩
  · refine .inl ⟨⟨rest, rfl⟩, ?_⟩
    rw [← delivery_of_valid hvalid] at hrest
    exact hrest.add (adds_dispatching fun processed => messageID packet ∈ processed)
      adds_delivery (mem_processedMessages_mark hroom)
  · refine .inr ⟨⟨rest, rfl⟩, ?_⟩
    rw [id, lookedUp_of_new hnew, id] at hrest
    exact hrest.add adds_marking adds_marking trivial

/-- The trace shows whether one delivery was over with the look-up when the other began. -/
theorem dispatches_once_iff (hvalid : packet.isValid = true)
    (hnew : messageID packet ∉ node.data.processedMessages)
    (hroom : node.data.processedMessages.card < maxProcessedMessages)
    (h : Interleaves schedule (delivery packet peripheralID) (delivery packet peripheralID')
      node node') :
    dispatches node' (stamp packet) = dispatches node (stamp packet) + 1 ↔
      ∃ side rest, schedule = side :: side :: rest := by
  have hstart := h
  rw [delivery_of_valid hvalid, delivery_of_valid hvalid] at hstart
  rcases hstart.first_step with ⟨rest, rfl, -⟩ | ⟨rest, rfl, -⟩
  · rcases dispatches_of_left_first hvalid hnew hroom h with ⟨⟨rest, rfl⟩, hcount⟩ |
      ⟨⟨rest, rfl⟩, hcount⟩
    · exact iff_of_true hcount ⟨_, _, rfl⟩
    · refine iff_of_false (by omega) ?_
      rintro ⟨side, rest', hsame⟩
      cases hsame
  · rcases dispatches_of_left_first hvalid hnew hroom h.swap with ⟨⟨rest, hrest⟩, hcount⟩ |
      ⟨⟨rest, hrest⟩, hcount⟩
    · obtain ⟨side, rest, rfl, hside, -⟩ := List.map_eq_cons_iff.mp hrest
      cases side with
      | left => cases hside
      | right => exact iff_of_true hcount ⟨_, _, rfl⟩
    · obtain ⟨side, rest, rfl, hside, -⟩ := List.map_eq_cons_iff.mp hrest
      refine iff_of_false (by omega) ?_
      rintro ⟨side', rest', hsame⟩
      cases hsame
      cases hside

/-- A step that does not run the handler leaves no dispatch in the trace. -/
def Counted (packet : BitchatPacket) (act : Node → Node) : Prop :=
  (∃ peripheralID, act = runHandler packet peripheralID) ∨
    ∀ node, dispatches (act node) (stamp packet) = dispatches node (stamp packet)

theorem does_delivery (packet : BitchatPacket) (peripheralID : Bytes) :
    Does (Counted packet) (delivery packet peripheralID) := by
  rw [delivery]
  split_ifs
  · exact trivial
  · refine ⟨.inr fun _ => rfl, fun node => ?_⟩
    rw [lookedUp]
    split_ifs
    · exact trivial
    · exact ⟨.inr fun _ => rfl, fun _ => ⟨.inl ⟨peripheralID, rfl⟩, fun _ => trivial⟩⟩

theorem dispatches_eq_add_handlerRuns
    (h : Interleaves schedule (delivery packet peripheralID) (delivery packet peripheralID')
      node node') :
    dispatches node' (stamp packet) = dispatches node (stamp packet) + handlerRuns packet
      (steps schedule (delivery packet peripheralID) (delivery packet peripheralID') node) := by
  classical
  have hcounted := h.forall_mem_steps (does_delivery packet peripheralID)
    (does_delivery packet peripheralID')
  rw [h.eq_foldl_steps, handlerRuns]
  refine foldl_eq_add_countP (fun node => dispatches node (stamp packet))
    (fun act hact there => ?_) node
  by_cases hrun : ∃ peripheralID, act = runHandler packet peripheralID
  · rw [decide_eq_true hrun, if_pos rfl]
    obtain ⟨anywhere, rfl⟩ := hrun
    exact dispatches_runHandler packet anywhere there
  · rw [decide_eq_false hrun]
    exact (hcounted act hact).resolve_left hrun there

/-- Of a packet that is delivered twice at the same time the handler runs once exactly if the
delivery that makes the first step makes the second one too, and so marks the key before the
other delivery looks it up. -/
theorem handled_once_iff (packet : BitchatPacket) (peripheralID peripheralID' : Bytes)
    (node node' : Node) (schedule : List Side) (hvalid : packet.isValid = true)
    (hnew : messageID packet ∉ node.data.processedMessages)
    (hroom : node.data.processedMessages.card < maxProcessedMessages)
    (h : Interleaves schedule (delivery packet peripheralID) (delivery packet peripheralID')
      node node') :
    handlerRuns packet (steps schedule (delivery packet peripheralID)
        (delivery packet peripheralID') node) = 1 ↔
      ∃ side rest, schedule = side :: side :: rest := by
  rw [← dispatches_once_iff hvalid hnew hroom h, dispatches_eq_add_handlerRuns h,
    Nat.add_left_cancel_iff]

theorem exists_interleaves_overlapping (hvalid : packet.isValid = true)
    (hnew : messageID packet ∉ node.data.processedMessages) :
    ∃ node', Interleaves [.left, .right, .left, .left, .right, .right]
      (delivery packet peripheralID) (delivery packet peripheralID') node node' := by
  simp only [delivery_of_valid hvalid, interleaves_left_iff, interleaves_right_iff, id,
    lookedUp_of_new hnew, marking, dispatching]
  exact ⟨_, .done _⟩

theorem passingPacket_handled_twice :
    let schedule := [.left, .right, .left, .left, .right, .right]
    ∃ node', passingPacket.isValid = true ∧
      messageID passingPacket ∉ listener.data.processedMessages ∧
      listener.data.processedMessages.card < maxProcessedMessages ∧
      Interleaves schedule (delivery passingPacket [1]) (delivery passingPacket [2]) listener
        node' ∧
      handlerRuns passingPacket (steps schedule (delivery passingPacket [1])
        (delivery passingPacket [2]) listener) = 2 := by
  have hvalid : passingPacket.isValid = true := by decide
  have hnew : messageID passingPacket ∉ listener.data.processedMessages := by decide
  obtain ⟨node', h⟩ := exists_interleaves_overlapping hvalid hnew
  refine ⟨node', hvalid, hnew, by decide, h, ?_⟩
  have hruns := dispatches_eq_add_handlerRuns h
  rcases dispatches_of_left_first hvalid hnew (by decide) h with ⟨⟨rest, hrest⟩, -⟩ | ⟨-, hcount⟩
  · cases hrest
  · omega

theorem passingPacket_handled_once_iff : ∃ schedule node',
    Interleaves schedule (delivery passingPacket [1]) (delivery passingPacket [2]) listener
      node' ∧
    (handlerRuns passingPacket (steps schedule (delivery passingPacket [1])
        (delivery passingPacket [2]) listener) = 1 ↔
      ∃ side rest, schedule = side :: side :: rest) := by
  obtain ⟨schedule, h⟩ := exists_serial (delivery passingPacket [1]) (delivery passingPacket [2])
    listener
  exact ⟨schedule, _, h, handled_once_iff passingPacket [1] [2] listener _ schedule (by decide)
    (by decide) (by decide) h⟩

end Bitchat.MessageService
