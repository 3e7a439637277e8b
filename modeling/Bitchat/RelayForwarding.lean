import Bitchat.RelaySketch

/-!
# What the relay forwards

Over every run of the sketch: which packets pass the deduplicator, in which order they leave
the queue, which of them get lost, and what is written to other devices.
-/

namespace Bitchat.RelaySketch

open ByteCursor Effect BoundedHistory

section Outcomes

variable (links : Bytes → Link) (sha256 : Bytes → Bytes) (s : Sketch)

def writesTo (addrs : List Bytes) (data : Bytes) : List (Bytes × Bytes) :=
  (addrs.filter fun addr => links addr = .writable).map fun addr => (addr, data)

/-- The connection gets as far as a characteristic that can be written. -/
def Opens (link : Link) : Prop := link = .failing ∨ link = .writable

instance (link : Link) : Decidable (Opens link) := inferInstanceAs (Decidable (_ ∨ _))

theorem outcome_writeValue (addr data : Bytes) :
    (writeValue (links addr) addr data).outcome s =
      (.ok ⟨⟩, { s with written := s.written ++ writesTo links [addr] data }) := by
  unfold writeValue writesTo
  by_cases h : links addr = .writable
  · simp only [h, if_true, decide_true, List.filter_cons_of_pos, List.filter_nil, List.map_cons,
      List.map_nil]
    rfl
  · rw [if_neg h, List.filter_cons_of_neg (by simpa using h), List.filter_nil, List.map_nil,
      List.append_nil]
    rfl

theorem writesTo_cons (addr : Bytes) (addrs : List Bytes) (data : Bytes) :
    writesTo links (addr :: addrs) data = writesTo links [addr] data ++ writesTo links addrs data := by
  rw [writesTo, writesTo, writesTo, ← List.map_append, ← List.filter_append, List.singleton_append]

theorem writesTo_eq_nil {addr : Bytes} (h : links addr ≠ .writable) (data : Bytes) :
    writesTo links [addr] data = [] := by
  simp [writesTo, h]

/-- Unless the relay is to do something about a missing service, a connection amounts to what
is done with the characteristic. -/
theorem outcome_connectTo (link : Link) (m : SketchM Unit) :
    (connectTo link (pure ()) m).outcome s = if Opens link then m.outcome s else (.ok ⟨⟩, s) := by
  cases link with
  | unreachable => rfl
  | noService => rfl
  | notWritable => rfl
  | failing => rw [if_pos (.inl rfl), connectTo]
  | writable => rw [if_pos (.inr rfl), connectTo]

theorem outcome_connectTo_writeValue (addr data : Bytes) :
    (connectTo (links addr) (pure ()) (writeValue (links addr) addr data)).outcome s =
      (.ok ⟨⟩, { s with written := s.written ++ writesTo links [addr] data }) := by
  rw [outcome_connectTo, outcome_writeValue]
  split_ifs with hopens
  · rfl
  · rw [writesTo_eq_nil links fun h => hopens (.inr h), List.append_nil]

theorem outcome_ackLoop_ok {rx ack : Bytes} (hack : makeVersionAckPacket rx = .ok ack)
    (addrs : List Bytes) :
    (ackLoop links rx addrs).outcome s =
      (.ok ⟨⟩, { s with written := s.written ++ writesTo links addrs ack }) := by
  induction addrs generalizing s with
  | nil => simp [ackLoop, writesTo]; rfl
  | cons addr addrs ih =>
      have hfirst := outcome_connectTo_writeValue links s addr ack
      rw [ackLoop, hack, writesTo_cons, ← List.append_assoc]
      exact (outcome_bind_ok hfirst _).trans (ih _)

theorem outcome_ackLoop_error {rx : Bytes} {e : OutOfBounds}
    (hack : makeVersionAckPacket rx = .error e) (addrs : List Bytes) :
    (ackLoop links rx addrs).outcome s =
      if ∃ addr ∈ addrs, Opens (links addr) then (.error (.outOfBounds e), s) else (.ok ⟨⟩, s) := by
  induction addrs with
  | nil => simp [ackLoop]; rfl
  | cons addr addrs ih =>
      rw [ackLoop, hack]
      by_cases hopens : Opens (links addr)
      · rw [if_pos ⟨addr, List.mem_cons_self, hopens⟩]
        refine outcome_bind_error ?_ _
        rw [outcome_connectTo, if_pos hopens]
        rfl
      · have hfirst : (connectTo (links addr) (pure ()) (do
            let ack ← (throw (Fault.outOfBounds e) : SketchM Bytes)
            writeValue (links addr) addr ack)).outcome s = (.ok ⟨⟩, s) := by
          rw [outcome_connectTo, if_neg hopens]
        rw [outcome_bind_ok hfirst, ih]
        simp [hopens]

/-- Devices without the service are removed, those with a characteristic get the packet. -/
theorem outcome_relayLoop (payload : Bytes) (addrs : List Bytes) :
    (relayLoop links payload addrs).outcome s =
      (.ok ⟨⟩, { s with
        written := s.written ++ writesTo links addrs payload
        peerRegistry := s.peerRegistry.filter fun peer =>
          ¬ (peer ∈ addrs ∧ links peer = .noService) }) := by
  induction addrs generalizing s with
  | nil => simp [relayLoop, writesTo]; rfl
  | cons addr addrs ih =>
      rw [relayLoop, writesTo_cons]
      by_cases hnone : links addr = .noService
      · have hfirst : (connectTo (links addr) (remove addr)
            (writeValue (links addr) addr payload)).outcome s = (.ok ⟨⟩, { s with
              peerRegistry := s.peerRegistry.filter fun peer => peer ≠ addr }) := by
          rw [hnone]
          rfl
        have hfilter : (s.peerRegistry.filter fun peer => peer ≠ addr).filter (fun peer =>
            ¬ (peer ∈ addrs ∧ links peer = .noService)) =
              s.peerRegistry.filter fun peer =>
                ¬ (peer ∈ addr :: addrs ∧ links peer = .noService) := by
          rw [List.filter_filter]
          refine List.filter_congr fun peer _ => ?_
          by_cases hpeer : peer = addr
          · simp [hpeer, hnone]
          · simp [hpeer]
        rw [outcome_bind_ok hfirst, ih, hfilter, writesTo_eq_nil links (by simp [hnone]),
          List.nil_append]
      · have hfirst : (connectTo (links addr) (remove addr)
            (writeValue (links addr) addr payload)).outcome s =
              (.ok ⟨⟩, { s with written := s.written ++ writesTo links [addr] payload }) := by
          rw [← outcome_connectTo_writeValue]
          cases hlink : links addr with
          | noService => exact (hnone hlink).elim
          | _ => rfl
        have hfilter : (s.peerRegistry.filter fun peer =>
            ¬ (peer ∈ addrs ∧ links peer = .noService)) =
              s.peerRegistry.filter fun peer =>
                ¬ (peer ∈ addr :: addrs ∧ links peer = .noService) := by
          refine List.filter_congr fun peer _ => ?_
          by_cases hpeer : peer = addr
          · simp [hpeer, hnone]
          · simp [hpeer]
        rw [outcome_bind_ok hfirst, ih, hfilter, List.append_assoc]

def accept (packet : RelayPacket) : Sketch :=
  { s with
    deduplicator := enter processedIdHistory s.deduplicator packet.packetId
    accepted := s.accepted ++ [packet] }

/-- What is written to the relay and is not thrown away at once. -/
def Fresh (rx : Bytes) : Prop := rx ≠ [] ∧ (identify sha256 rx).packetId ∉ s.deduplicator

instance (rx : Bytes) : Decidable (Fresh sha256 s rx) := inferInstanceAs (Decidable (_ ∧ _))

theorem outcome_onWrite (rx : Bytes) :
    (onWrite links sha256 rx).outcome s =
      if Fresh sha256 s rx then
        if HasType typeVersionHello rx then
          (ackLoop links rx s.peerRegistry).outcome (accept s (identify sha256 rx))
        else if HasType typeVersionAck rx then (.ok ⟨⟩, accept s (identify sha256 rx))
        else (.ok ⟨⟩, { accept s (identify sha256 rx) with
          packetQueue := enter maxQueueSize s.packetQueue (identify sha256 rx) })
      else (.ok ⟨⟩, s) := by
  unfold onWrite
  by_cases hempty : rx = []
  · rw [if_pos (by simp [hempty]), if_neg fun h => h.1 hempty]
    rfl
  rw [if_neg (by simpa using hempty)]
  by_cases hknown : (identify sha256 rx).packetId ∈ s.deduplicator
  · have hdup : (isDuplicate (identify sha256 rx)).outcome s = (.ok true, s) := by
      rw [isDuplicate, outcome_bind_ok (outcome_get s), if_pos hknown]
      rfl
    rw [outcome_bind_ok hdup, if_neg (c := Fresh sha256 s rx) fun h => h.2 hknown]
    rfl
  · have hnew : (isDuplicate (identify sha256 rx)).outcome s =
        (.ok false, accept s (identify sha256 rx)) := by
      rw [isDuplicate, outcome_bind_ok (outcome_get s), if_neg hknown]
      rfl
    rw [outcome_bind_ok hnew, if_pos (c := Fresh sha256 s rx) ⟨hempty, hknown⟩,
      if_neg Bool.false_ne_true]
    split_ifs
    · rfl
    · rfl
    · rfl

theorem outcome_loop :
    (loop links).outcome s = match s.packetQueue with
      | [] => (.ok ⟨⟩, s)
      | packet :: rest => (.ok ⟨⟩, { s with
          packetQueue := rest
          taken := s.taken ++ [packet]
          written := s.written ++ writesTo links s.peerRegistry packet.payload
          peerRegistry := s.peerRegistry.filter fun peer => links peer ≠ .noService }) := by
  cases hqueue : s.packetQueue with
  | nil =>
      have hpop : pop.outcome s = (.ok none, s) := by
        rw [pop, outcome_bind_ok (outcome_get s), hqueue]
        rfl
      rw [loop, outcome_bind_ok hpop]
      rfl
  | cons packet rest =>
      have hpop : pop.outcome s = (.ok (some packet),
          { s with packetQueue := rest, taken := s.taken ++ [packet] }) := by
        rw [pop, outcome_bind_ok (outcome_get s), hqueue]
        rfl
      have hfilter : (s.peerRegistry.filter fun peer =>
          ¬ (peer ∈ s.peerRegistry ∧ links peer = .noService)) =
            s.peerRegistry.filter fun peer => links peer ≠ .noService :=
        List.filter_congr fun peer hpeer => by simp [hpeer]
      rw [loop, outcome_bind_ok hpop]
      change (relayLoop links packet.payload s.peerRegistry).outcome _ = _
      rw [outcome_relayLoop, hfilter]

theorem outcome_add (now : UInt64) (addr : Bytes) :
    (add links now addr).outcome s =
      if addr ∈ s.peerRegistry then (.ok ⟨⟩, s)
      else (.ok ⟨⟩, { s with
        peerRegistry := s.peerRegistry ++ [addr]
        written := s.written ++ writesTo links [addr] (makeVersionHelloPacket now) }) := by
  rw [add, outcome_bind_ok (outcome_get s)]
  split_ifs
  · rfl
  · exact outcome_connectTo_writeValue links _ addr _

end Outcomes

def Carried (packet : RelayPacket) : Prop :=
  ¬ HasType typeVersionHello packet.payload ∧ ¬ HasType typeVersionAck packet.payload

instance (packet : RelayPacket) : Decidable (Carried packet) :=
  inferInstanceAs (Decidable (_ ∧ _))

def carried (s : Sketch) : List RelayPacket := s.accepted.filter Carried

def Greets (s : Sketch) (data : Bytes) : Prop :=
  (∃ now, data = makeVersionHelloPacket now) ∨
    ∃ packet ∈ s.accepted, HasType typeVersionHello packet.payload ∧
      makeVersionAckPacket packet.payload = .ok data

structure SketchInvariant (sha256 : Bytes → Bytes) (s : Sketch) : Prop where
  filters : Filters processedIdHistory s.deduplicator (s.accepted.map RelayPacket.packetId)
  queues : Queues maxQueueSize s.packetQueue s.taken (carried s)
  peers : s.peerRegistry.Nodup
  identified : ∀ packet ∈ s.accepted, packet = identify sha256 packet.payload
  written : ∀ write ∈ s.written,
    (∃ packet ∈ s.taken, write.2 = packet.payload) ∨ Greets s write.2

variable {sha256 : Bytes → Bytes} {links : Bytes → Link} {s s' : Sketch} {rx : Bytes}

theorem sketchInvariant_new : SketchInvariant sha256 {} where
  filters := filters_nil
  queues := queues_nil
  peers := List.nodup_nil
  identified := by simp
  written := by simp

theorem data_of_mem_writesTo {addrs : List Bytes} {data : Bytes} {write : Bytes × Bytes}
    (h : write ∈ writesTo links addrs data) : write.2 = data := by
  obtain ⟨addr, -, rfl⟩ := List.mem_map.mp h
  rfl

theorem Greets.accept {data : Bytes} (h : Greets s data) (packet : RelayPacket) :
    Greets (accept s packet) data := by
  rcases h with hhello | ⟨origin, horigin, hack⟩
  · exact .inl hhello
  · exact .inr ⟨origin, List.mem_append_left _ horigin, hack⟩

theorem SketchInvariant.filters_accept (h : SketchInvariant sha256 s) (hfresh : Fresh sha256 s rx) :
    Filters processedIdHistory (accept s (identify sha256 rx)).deduplicator
      ((accept s (identify sha256 rx)).accepted.map RelayPacket.packetId) := by
  have hfilters := h.filters.enter (by decide) hfresh.2
  rwa [accept, List.map_append]

theorem SketchInvariant.identified_accept (h : SketchInvariant sha256 s) (rx : Bytes) :
    ∀ packet ∈ (accept s (identify sha256 rx)).accepted,
      packet = identify sha256 packet.payload := by
  intro packet hpacket
  rcases List.mem_append.mp hpacket with hold | hnew
  · exact h.identified packet hold
  · rw [List.mem_singleton.mp hnew]
    rfl

theorem carried_accept (s : Sketch) (packet : RelayPacket) :
    carried (accept s packet) = carried s ++ if Carried packet then [packet] else [] := by
  rw [carried, accept, List.filter_append, carried]
  congr 1
  split_ifs with h
  · rw [List.filter_cons_of_pos (by simpa using h), List.filter_nil]
  · rw [List.filter_cons_of_neg (by simpa using h), List.filter_nil]

theorem SketchInvariant.noted (h : SketchInvariant sha256 s) (hfresh : Fresh sha256 s rx)
    (hcarried : ¬ Carried (identify sha256 rx)) :
    SketchInvariant sha256 (accept s (identify sha256 rx)) where
  filters := h.filters_accept hfresh
  queues := by
    rw [carried_accept, if_neg hcarried, List.append_nil]
    exact h.queues
  peers := h.peers
  identified := h.identified_accept rx
  written write hwrite := (h.written write hwrite).imp_right fun hgreets => hgreets.accept _

theorem SketchInvariant.written_append (h : SketchInvariant sha256 s)
    {writes : List (Bytes × Bytes)} (hwrites : ∀ write ∈ writes,
      (∃ packet ∈ s.taken, write.2 = packet.payload) ∨ Greets s write.2) :
    SketchInvariant sha256 { s with written := s.written ++ writes } where
  filters := h.filters
  queues := h.queues
  peers := h.peers
  identified := h.identified
  written write hwrite := by
    rcases List.mem_append.mp hwrite with hold | hnew
    · exact h.written write hold
    · exact hwrites write hnew

theorem sketchInvariant_onWrite (h : SketchInvariant sha256 s) (rx : Bytes)
    (hok : (onWrite links sha256 rx).result s = .ok ⟨⟩) :
    SketchInvariant sha256 ((onWrite links sha256 rx).exec s) := by
  rw [result, outcome_onWrite] at hok
  rw [exec, outcome_onWrite]
  split_ifs at hok ⊢ with hfresh hhello hack
  · have hnoted := h.noted hfresh fun hc => hc.1 hhello
    cases hmade : makeVersionAckPacket rx with
    | ok data =>
        rw [outcome_ackLoop_ok links _ hmade]
        refine hnoted.written_append fun write hwrite => .inr (.inr ?_)
        refine ⟨identify sha256 rx, List.mem_append_right _ (List.mem_singleton_self _), hhello, ?_⟩
        rw [data_of_mem_writesTo hwrite]
        exact hmade
    | error e =>
        rw [outcome_ackLoop_error links _ hmade] at hok ⊢
        split_ifs at hok ⊢
        exact hnoted
  · exact h.noted hfresh fun hc => hc.2 hack
  · refine ⟨h.filters_accept hfresh, ?_, h.peers, h.identified_accept rx, fun write hwrite => ?_⟩
    · change Queues _ _ _ (carried (accept s (identify sha256 rx)))
      rw [carried_accept, if_pos (c := Carried _) ⟨hhello, hack⟩]
      exact h.queues.push (by decide) _
    · exact (h.written write hwrite).imp_right fun hgreets => hgreets.accept _
  · exact h

theorem sketchInvariant_loop (h : SketchInvariant sha256 s) (links : Bytes → Link) :
    SketchInvariant sha256 ((loop links).exec s) := by
  rw [exec, outcome_loop]
  cases hqueue : s.packetQueue with
  | nil => exact h
  | cons packet rest =>
      refine ⟨h.filters, ?_, h.peers.filter _, h.identified, fun write hwrite => ?_⟩
      · have hqueues := h.queues
        rw [hqueue] at hqueues
        exact hqueues.pop
      · rcases List.mem_append.mp hwrite with hold | hnew
        · refine (h.written write hold).imp_left ?_
          rintro ⟨origin, horigin, hdata⟩
          exact ⟨origin, List.mem_append_left _ horigin, hdata⟩
        · exact .inl ⟨packet, List.mem_append_right _ (List.mem_singleton_self _),
            data_of_mem_writesTo hnew⟩

theorem sketchInvariant_add (h : SketchInvariant sha256 s) (links : Bytes → Link) (now : UInt64)
    (addr : Bytes) : SketchInvariant sha256 ((add links now addr).exec s) := by
  rw [exec, outcome_add]
  split_ifs with hknown
  · exact h
  · refine ⟨h.filters, h.queues, ?_, h.identified, fun write hwrite => ?_⟩
    · rw [List.nodup_append]
      refine ⟨h.peers, List.nodup_singleton addr, fun a ha b hb hab => hknown ?_⟩
      rwa [← List.mem_singleton.mp hb, ← hab]
    · rcases List.mem_append.mp hwrite with hold | hnew
      · exact h.written write hold
      · exact .inr (.inl ⟨now, data_of_mem_writesTo hnew⟩)

theorem sketchInvariant_next (action : SketchAction)
    (henabled : (relaying sha256).Enabled s action) (h : SketchInvariant sha256 s) :
    SketchInvariant sha256 ((relaying sha256).next s action) := by
  cases action with
  | write links rx => exact sketchInvariant_onWrite h rx henabled
  | loop links => exact sketchInvariant_loop h links
  | discover links now addr => exact sketchInvariant_add h links now addr

def received (actions : List SketchAction) : List Bytes :=
  actions.filterMap fun action => match action with
    | .write _ rx => some rx
    | _ => none

theorem accepted_ackLoop (rx : Bytes) (addrs : List Bytes) (s : Sketch) :
    ((ackLoop links rx addrs).exec s).accepted = s.accepted := by
  rw [exec]
  cases hmade : makeVersionAckPacket rx with
  | ok data => rw [outcome_ackLoop_ok links s hmade]
  | error e =>
      rw [outcome_ackLoop_error links s hmade]
      split_ifs
      · rfl
      · rfl

theorem accepted_onWrite (rx : Bytes) (s : Sketch) :
    ((onWrite links sha256 rx).exec s).accepted =
      s.accepted ++ if Fresh sha256 s rx then [identify sha256 rx] else [] := by
  rw [exec, outcome_onWrite]
  split_ifs
  · exact accepted_ackLoop rx _ _
  · rfl
  · rfl
  · exact (List.append_nil _).symm

def passing (sha256 : Bytes → Bytes) (s : Sketch) : SketchAction → List RelayPacket
  | .write _ rx => if Fresh sha256 s rx then [identify sha256 rx] else []
  | .loop _ => []
  | .discover _ _ _ => []

theorem accepted_next (s : Sketch) (action : SketchAction) :
    ((relaying sha256).next s action).accepted = s.accepted ++ passing sha256 s action := by
  cases action with
  | write links rx => exact accepted_onWrite rx s
  | loop links =>
      change ((loop links).exec s).accepted = _
      rw [exec, outcome_loop, passing, List.append_nil]
      cases s.packetQueue with
      | nil => rfl
      | cons packet rest => rfl
  | discover links now addr =>
      change ((add links now addr).exec s).accepted = _
      rw [exec, outcome_add, passing, List.append_nil]
      split_ifs
      · rfl
      · rfl

theorem passing_sublist (s : Sketch) (action : SketchAction) (actions : List SketchAction) :
    List.Sublist ((passing sha256 s action).map RelayPacket.payload ++ received actions)
      (received (action :: actions)) := by
  cases action with
  | write links rx =>
      change List.Sublist ((if Fresh sha256 s rx then _ else _ : List RelayPacket).map _ ++ _)
        (rx :: received actions)
      split_ifs
      · exact List.Sublist.refl _
      · exact List.sublist_cons_self rx _
  | loop links => exact List.Sublist.refl _
  | discover links now addr => exact List.Sublist.refl _

theorem accepted_sublist (s : Sketch) (actions : List SketchAction) :
    List.Sublist (((relaying sha256).run s actions).accepted.map RelayPacket.payload)
      (s.accepted.map RelayPacket.payload ++ received actions) := by
  induction actions generalizing s with
  | nil => simp [TransitionSystem.run, received]
  | cons action actions ih =>
      refine (ih ((relaying sha256).next s action)).trans ?_
      rw [accepted_next, List.map_append, List.append_assoc]
      exact (List.Sublist.refl _).append (passing_sublist s action actions)

theorem accepted_subset (s : Sketch) (actions : List SketchAction) :
    s.accepted ⊆ ((relaying sha256).run s actions).accepted := by
  induction actions generalizing s with
  | nil => exact List.Subset.refl _
  | cons action actions ih =>
      refine List.Subset.trans ?_ (ih ((relaying sha256).next s action))
      rw [accepted_next]
      exact List.subset_append_left _ _

theorem mem_accepted_onWrite (h : SketchInvariant sha256 s) (hrx : rx ≠ []) :
    (identify sha256 rx).packetId ∈
      ((onWrite links sha256 rx).exec s).accepted.map RelayPacket.packetId := by
  rw [accepted_onWrite, List.map_append, List.mem_append]
  by_cases hknown : (identify sha256 rx).packetId ∈ s.deduplicator
  · exact .inl (h.filters.subset hknown)
  · rw [if_pos (c := Fresh sha256 s rx) ⟨hrx, hknown⟩]
    exact .inr (List.mem_singleton_self _)

theorem mem_accepted_of_received {actions : List SketchAction} (h : SketchInvariant sha256 s)
    (hexec : (relaying sha256).Execution s actions) (hreceived : rx ∈ received actions)
    (hrx : rx ≠ []) : (identify sha256 rx).packetId ∈
      ((relaying sha256).run s actions).accepted.map RelayPacket.packetId := by
  induction actions generalizing s with
  | nil => simp [received] at hreceived
  | cons action actions ih =>
      have hrest : rx ∈ received actions → (identify sha256 rx).packetId ∈
          ((relaying sha256).run s (action :: actions)).accepted.map RelayPacket.packetId :=
        ih (sketchInvariant_next action hexec.1 h) hexec.2
      cases action with
      | write links rx' =>
          rcases List.mem_cons.mp hreceived with rfl | hlater
          · exact List.map_subset _ (accepted_subset _ actions) (mem_accepted_onWrite h hrx)
          · exact hrest hlater
      | loop links => exact hrest hreceived
      | discover links now addr => exact hrest hreceived

theorem sketchInvariant_run {actions : List SketchAction}
    (hexec : (relaying sha256).Execution {} actions) :
    SketchInvariant sha256 ((relaying sha256).run {} actions) :=
  TransitionSystem.invariant_run (fun _ action henabled h => sketchInvariant_next action henabled h)
    hexec sketchInvariant_new

/-- A device is found, two packets come in, the first one once more, and one is passed on. -/
def shortRun : List SketchAction :=
  [.discover (fun _ => .writable) 5 [1], .write (fun _ => .writable) [1, 4, 7],
    .write (fun _ => .writable) [1, 3, 7], .write (fun _ => .writable) [1, 4, 7],
    .loop fun _ => .writable]

theorem execution_shortRun : (relaying id).Execution {} shortRun := by decide +kernel

/-- In every run the packets leave the relay unchanged and in the order in which they came
in, those among them that are neither hello nor acknowledgement; whatever else is written to
another device is a greeting of the sketch. -/
theorem forwards_in_order (sha256 : Bytes → Bytes) (actions : List SketchAction)
    (hexec : (relaying sha256).Execution {} actions) :
    List.Sublist ((((relaying sha256).run {} actions).taken ++
        ((relaying sha256).run {} actions).packetQueue).map RelayPacket.payload)
        (received actions) ∧
      (∀ packet ∈ ((relaying sha256).run {} actions).taken ++
        ((relaying sha256).run {} actions).packetQueue, Carried packet) ∧
      ((relaying sha256).run {} actions).packetQueue.length ≤ maxQueueSize ∧
      ((relaying sha256).run {} actions).peerRegistry.Nodup ∧
      ∀ write ∈ ((relaying sha256).run {} actions).written,
        (∃ packet ∈ ((relaying sha256).run {} actions).taken, write.2 = packet.payload) ∨
          Greets ((relaying sha256).run {} actions) write.2 := by
  have h := sketchInvariant_run hexec
  refine ⟨?_, fun packet hpacket => ?_, h.queues.length_le, h.peers, h.written⟩
  · exact ((h.queues.sublist.trans List.filter_sublist).map _).trans (accepted_sublist {} actions)
  · have hcarried := h.queues.sublist.subset hpacket
    exact of_decide_eq_true (List.mem_filter.mp hcarried).2

theorem forwards_in_order_shortRun :
    List.Sublist ((((relaying id).run {} shortRun).taken ++
        ((relaying id).run {} shortRun).packetQueue).map RelayPacket.payload)
        [[1, 4, 7], [1, 3, 7], [1, 4, 7]] ∧
      ∀ write ∈ ((relaying id).run {} shortRun).written,
        (∃ packet ∈ ((relaying id).run {} shortRun).taken, write.2 = packet.payload) ∨
          Greets ((relaying id).run {} shortRun) write.2 := by
  obtain ⟨hsublist, -, -, -, hwritten⟩ := forwards_in_order id shortRun execution_shortRun
  exact ⟨hsublist, hwritten⟩

theorem toFinset_accepted_subset {actions : List SketchAction}
    (hexec : (relaying sha256).Execution {} actions) :
    (((relaying sha256).run {} actions).accepted.map RelayPacket.packetId).toFinset ⊆
      ((received actions).map fun rx => (identify sha256 rx).packetId).toFinset := by
  intro id hid
  obtain ⟨packet, hpacket, rfl⟩ := List.mem_map.mp (List.mem_toFinset.mp hid)
  have hreceived : packet.payload ∈ received actions :=
    (accepted_sublist {} actions).subset (List.mem_map_of_mem hpacket)
  rw [(sketchInvariant_run hexec).identified packet hpacket]
  exact List.mem_toFinset.mpr (List.mem_map_of_mem hreceived)

/-- In every run a packet passes the deduplicator unless its hash is one of the last 128 that did,
so that 129 hashes in a row are different ones. If the packets that reach the device have no more
than 128 different hashes, each of these passes exactly once. -/
theorem passes_unless_recent (sha256 : Bytes → Bytes) (actions : List SketchAction)
    (hexec : (relaying sha256).Execution {} actions) :
    (∀ links rx, ((onWrite links sha256 rx).exec ((relaying sha256).run {} actions)).accepted =
        ((relaying sha256).run {} actions).accepted ++ [identify sha256 rx] ↔
      rx ≠ [] ∧ (identify sha256 rx).packetId ∉
        (((relaying sha256).run {} actions).accepted.map RelayPacket.packetId).rtake
          processedIdHistory) ∧
    (∀ window, window <:+:
        ((relaying sha256).run {} actions).accepted.map RelayPacket.packetId →
      window.length ≤ processedIdHistory + 1 → window.Nodup) ∧
    (((received actions).map fun rx => (identify sha256 rx).packetId).toFinset.card ≤
        processedIdHistory →
      (((relaying sha256).run {} actions).accepted.map RelayPacket.packetId).Nodup ∧
        ∀ rx ∈ received actions, rx ≠ [] → (identify sha256 rx).packetId ∈
          ((relaying sha256).run {} actions).accepted.map RelayPacket.packetId) := by
  have h := sketchInvariant_run hexec
  refine ⟨fun links rx => ?_, h.filters.spread, fun hfew => ⟨?_, fun rx hreceived hrx => ?_⟩⟩
  · rw [accepted_onWrite, List.append_right_inj, ← h.filters.latest]
    change _ ↔ Fresh sha256 _ rx
    split_ifs with hfresh
    · exact iff_of_true rfl hfresh
    · exact iff_of_false (by simp) hfresh
  · exact h.filters.nodup_passed ((Finset.card_le_card (toFinset_accepted_subset hexec)).trans hfew)
  · exact mem_accepted_of_received sketchInvariant_new hexec hreceived hrx

theorem passes_unless_recent_shortRun :
    (((relaying id).run {} shortRun).accepted.map RelayPacket.packetId).Nodup := by
  obtain ⟨-, -, hfew⟩ := passes_unless_recent id shortRun execution_shortRun
  exact (hfew (by decide +kernel)).1

/-- A packet is put into a queue that is full. -/
def Overflows (sha256 : Bytes → Bytes) (s : Sketch) : SketchAction → Prop
  | .write _ rx =>
      (Fresh sha256 s rx ∧ Carried (identify sha256 rx)) ∧ maxQueueSize ≤ s.packetQueue.length
  | .loop _ => False
  | .discover _ _ _ => False

/-- Every packet that has been put into the queue has left it or waits in it. -/
def Complete (s : Sketch) : Prop := s.taken ++ s.packetQueue = carried s

theorem exec_onWrite_of_carried (hfresh : Fresh sha256 s rx)
    (hcarried : Carried (identify sha256 rx)) :
    (onWrite links sha256 rx).exec s = { accept s (identify sha256 rx) with
      packetQueue := enter maxQueueSize s.packetQueue (identify sha256 rx) } := by
  have hhello : ¬ HasType typeVersionHello rx := hcarried.1
  have hack : ¬ HasType typeVersionAck rx := hcarried.2
  rw [exec, outcome_onWrite, if_pos hfresh, if_neg hhello, if_neg hack]

theorem waiting_ackLoop (rx : Bytes) (addrs : List Bytes) (s : Sketch) :
    ((ackLoop links rx addrs).exec s).taken = s.taken ∧
      ((ackLoop links rx addrs).exec s).packetQueue = s.packetQueue := by
  rw [exec]
  cases hmade : makeVersionAckPacket rx with
  | ok data =>
      rw [outcome_ackLoop_ok links s hmade]
      exact ⟨rfl, rfl⟩
  | error e =>
      rw [outcome_ackLoop_error links s hmade]
      split_ifs
      · exact ⟨rfl, rfl⟩
      · exact ⟨rfl, rfl⟩

theorem complete_onWrite_of_not (h : ¬ (Fresh sha256 s rx ∧ Carried (identify sha256 rx))) :
    Complete ((onWrite links sha256 rx).exec s) ↔ Complete s := by
  have hcarried : carried ((onWrite links sha256 rx).exec s) = carried s := by
    rw [carried, accepted_onWrite, List.filter_append, carried]
    split_ifs with hfresh
    · rw [List.filter_cons_of_neg (by simpa using fun hc => h ⟨hfresh, hc⟩), List.filter_nil,
        List.append_nil]
    · exact List.append_nil _
  have hwaiting : ((onWrite links sha256 rx).exec s).taken = s.taken ∧
      ((onWrite links sha256 rx).exec s).packetQueue = s.packetQueue := by
    rw [exec, outcome_onWrite]
    split_ifs with hfresh hhello hack
    · exact waiting_ackLoop rx _ _
    · exact ⟨rfl, rfl⟩
    · exact (h ⟨hfresh, hhello, hack⟩).elim
    · exact ⟨rfl, rfl⟩
  rw [Complete, Complete, hcarried, hwaiting.1, hwaiting.2]

theorem complete_next_iff (action : SketchAction) (h : Complete s) :
    Complete ((relaying sha256).next s action) ↔ ¬ Overflows sha256 s action := by
  cases action with
  | write links rx =>
      change Complete ((onWrite links sha256 rx).exec s) ↔ _
      by_cases hput : Fresh sha256 s rx ∧ Carried (identify sha256 rx)
      · rw [exec_onWrite_of_carried hput.1 hput.2, Overflows, and_iff_right hput, not_le]
        change s.taken ++ enter _ _ _ = carried (accept s _) ↔ _
        rw [carried_accept, if_pos hput.2]
        exact append_enter_eq_iff h (by decide)
      · rw [complete_onWrite_of_not hput, Overflows]
        exact iff_of_true h fun hover => hput hover.1
  | loop links =>
      refine iff_of_true ?_ id
      change Complete ((loop links).exec s)
      rw [exec, outcome_loop]
      cases hqueue : s.packetQueue with
      | nil => exact h
      | cons packet rest =>
          rw [Complete, hqueue] at h
          change (s.taken ++ [packet]) ++ rest = carried s
          rw [← h, List.append_assoc, List.singleton_append]
  | discover links now addr =>
      refine iff_of_true ?_ id
      change Complete ((add links now addr).exec s)
      rw [exec, outcome_add]
      split_ifs
      · exact h
      · exact h

/-- Throughout a run nothing is lost exactly if no packet comes in while 32 others wait. -/
theorem loses_nothing_iff (sha256 : Bytes → Bytes) (actions : List SketchAction)
    (hexec : (relaying sha256).Execution {} actions) :
    (relaying sha256).AllStates Complete {} actions ↔
      (relaying sha256).AllSteps (fun s action => ¬ Overflows sha256 s action) {} actions :=
  TransitionSystem.allStates_iff_allSteps (fun _ (h : Complete _) => h)
    (fun _ action _ h hkeep => (complete_next_iff action h).mpr hkeep)
    (fun _ action _ h hbreak hcomplete => (complete_next_iff action h).mp hcomplete hbreak)
    hexec rfl

theorem loses_nothing_iff_shortRun :
    (relaying id).AllStates Complete {} shortRun ↔
      (relaying id).AllSteps (fun s action => ¬ Overflows id s action) {} shortRun :=
  loses_nothing_iff id shortRun execution_shortRun

theorem copyBytes_ok {n offset : ℕ} (h : offset + n ≤ rx.length) (out : Bytes) :
    (copyBytes rx n out).run offset = .ok (out ++ (rx.drop offset).take n, offset + n) := by
  induction n generalizing offset out with
  | zero =>
      rw [List.take_zero, List.append_nil]
      rfl
  | succ n ih =>
      have hlt : offset < rx.length := by omega
      have hrest : offset + 1 + n ≤ rx.length := by omega
      rw [copyBytes, run_bind_of_run (next_run rx hlt), ih hrest, List.drop_eq_getElem_cons hlt,
        List.take_succ_cons, List.append_assoc, List.singleton_append, Nat.add_right_comm,
        Nat.add_assoc]

theorem copyBytes_error {n offset : ℕ} (hle : offset ≤ rx.length) (h : rx.length < offset + n)
    (out : Bytes) : (copyBytes rx n out).run offset = .error ⟨rx.length, rx.length⟩ := by
  induction n generalizing offset out with
  | zero => omega
  | succ n ih =>
      rcases Nat.lt_or_ge offset rx.length with hlt | hge
      · rw [copyBytes, run_bind_of_run (next_run rx hlt)]
        exact ih hlt (by omega) _
      · obtain rfl : offset = rx.length := by omega
        exact run_bind_of_error (next_run_error rx hge) _

theorem makeVersionAckPacket_ok (h : 11 ≤ rx.length) : makeVersionAckPacket rx =
    .ok ([version, typeVersionAck, ttl] ++ (rx.drop 3).take 8 ++ [0] ++ [0, 0] ++ senderID) := by
  have hcopy : (copyBytes rx 8 [version, typeVersionAck, ttl]).run 3 = _ := copyBytes_ok h _
  rw [makeVersionAckPacket, StateT.run'_eq, hcopy]
  rfl

theorem makeVersionAckPacket_error (hlong : 3 ≤ rx.length) (h : rx.length < 11) :
    makeVersionAckPacket rx = .error ⟨rx.length, rx.length⟩ := by
  have hcopy : (copyBytes rx 8 [version, typeVersionAck, ttl]).run 3 = _ :=
    copyBytes_error hlong h _
  rw [makeVersionAckPacket, StateT.run'_eq, hcopy]
  rfl

/-- In any state, a write makes the relay read behind its buffer exactly if it is a new hello of
three to ten bytes and some device known to the relay can be reached. -/
theorem onWrite_out_of_bounds_iff (links : Bytes → Link) (sha256 : Bytes → Bytes) (s : Sketch)
    (rx : Bytes) :
    (onWrite links sha256 rx).result s ≠ .ok ⟨⟩ ↔
      Fresh sha256 s rx ∧ HasType typeVersionHello rx ∧ rx.length ≤ 10 ∧
        ∃ addr ∈ s.peerRegistry, Opens (links addr) := by
  rw [result, outcome_onWrite]
  split_ifs with hfresh hhello hack
  · rcases Nat.lt_or_ge rx.length 11 with hshort | hlong
    · rw [outcome_ackLoop_error links _ (makeVersionAckPacket_error hhello.1 hshort)]
      have hle : rx.length ≤ 10 := by omega
      split_ifs with hopens
      · exact iff_of_true (by simp) ⟨hfresh, hhello, hle, hopens⟩
      · exact iff_of_false (by simp) fun h => hopens h.2.2.2
    · rw [outcome_ackLoop_ok links _ (makeVersionAckPacket_ok hlong)]
      exact iff_of_false (by simp) fun h => by omega
  · exact iff_of_false (by simp) fun h => hhello h.2.1
  · exact iff_of_false (by simp) fun h => hhello h.2.1
  · exact iff_of_false (by simp) fun h => hfresh h.1

end Bitchat.RelaySketch
