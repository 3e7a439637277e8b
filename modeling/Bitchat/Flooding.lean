import Bitchat.Mesh

/-!
# Flooding comes to an end

One packet travels through a mesh in which nobody knows more than `d` peers. The TTL is the
rank of a copy, so the copies are bounded in number, and in every run that delivers what is
in flight they run out. What else the nodes do in the meantime is left open.
-/

namespace Bitchat

open Branching NetworkService

variable {ι : Type} [DecidableEq ι]

namespace Mesh

/-- Only copies of the packet are in flight, and no peer list ever exceeds `d` entries. -/
def flooding (route : Bytes → Option ι) (d : ℕ) : TransitionSystem (Mesh ι) (MeshAction ι) where
  Enabled mesh action := (match action with
    | .deliver i packet _ => (i, packet) ∈ mesh.inFlight
    | .change _ _ => True
    | .originate _ _ => False) ∧ ∀ i, ((mesh.next route action).node i).data.peers.length ≤ d
  next mesh action := mesh.next route action

def IsDeliver : MeshAction ι → Bool
  | .deliver _ _ _ => true
  | _ => false

def ttl (item : ι × BitchatPacket) : ℕ := item.2.ttl.toNat

variable {route : Bytes → Option ι} {d : ℕ} {mesh : Mesh ι}

/-- What one delivery makes of the copies in flight. -/
structure Replaces (d : ℕ) (mesh : Mesh ι) (i : ι) (packet : BitchatPacket)
    (offspring : Multiset (ι × BitchatPacket)) (n : ℕ) : Prop where
  card : offspring.card ≤ n
  bound : n ≤ d
  pos : 0 < n → 0 < packet.ttl.toNat
  rank : ∀ item ∈ offspring, ttl item < packet.ttl.toNat

theorem replaces_deliver {i : ι} {packet : BitchatPacket} {peripheralID : Bytes}
    (h : (flooding route d).Enabled mesh (.deliver i packet peripheralID)) :
    Replaces d mesh i packet
      (routed route (received (mesh.node i) packet peripheralID).network)
      (received (mesh.node i) packet peripheralID).network.length := by
  have hnode : ((mesh.next route (.deliver i packet peripheralID)).node i) =
      (received (mesh.node i) packet peripheralID).node := Function.update_self ..
  constructor
  · exact length_routed_le route _
  · exact (length_received_le _ _ _).trans (hnode ▸ h.2 i)
  · intro hpos
    obtain ⟨call, hcall⟩ := List.exists_mem_of_length_pos hpos
    have httl := ttl_of_mem_received hcall
    omega
  · intro item hitem
    obtain ⟨call, hcall, heq⟩ := mem_routed (Multiset.mem_coe.mp hitem)
    have httl := ttl_of_mem_received hcall
    rw [ttl, ← heq]
    omega

structure FloodInvariant (d : ℕ) (packet : BitchatPacket) (mesh : Mesh ι) : Prop where
  count : mesh.copies.length + weight ttl d mesh.inFlight ≤ descendants d packet.ttl.toNat
  inFlight : ∀ item ∈ mesh.inFlight,
    item.2 = packet ∨ ∃ parent, (parent, item.2) ∈ mesh.copies
  copies : ∀ copy ∈ mesh.copies, copy.2.ttl.toNat + 1 = copy.1.ttl.toNat ∧
    copy.2.ttl.toNat + 1 ≤ packet.ttl.toNat

omit [DecidableEq ι] in
theorem FloodInvariant.ttl_le {packet : BitchatPacket} (h : FloodInvariant d packet mesh)
    {item : ι × BitchatPacket} (hitem : item ∈ mesh.inFlight) : ttl item ≤ packet.ttl.toNat := by
  rcases h.inFlight item hitem with heq | ⟨parent, hcopy⟩
  · rw [ttl, heq]
  · have hle := (h.copies _ hcopy).2
    exact (Nat.le_succ _).trans hle

theorem floodInvariant_next {packet : BitchatPacket} (action : MeshAction ι)
    (henabled : (flooding route d).Enabled mesh action) (h : FloodInvariant d packet mesh) :
    FloodInvariant d packet ((flooding route d).next mesh action) := by
  cases action with
  | originate i p => exact henabled.1.elim
  | change i node => exact ⟨h.count, h.inFlight, h.copies⟩
  | deliver i p peripheralID =>
      have hmem : (i, p) ∈ mesh.inFlight := henabled.1
      have hreplaces := replaces_deliver henabled
      have hweight := weight_replace ttl d hmem hreplaces.card hreplaces.bound hreplaces.pos
        hreplaces.rank
      have httl : p.ttl.toNat ≤ packet.ttl.toNat := h.ttl_le hmem
      refine ⟨?_, fun item hitem => ?_, fun copy hcopy => ?_⟩
      · have hcount := h.count
        change (mesh.copies ++ _).length + weight ttl d (mesh.inFlight.erase (i, p) + _) ≤ _
        rw [List.length_append, List.length_map]
        omega
      · rcases Multiset.mem_add.mp hitem with hold | hnew
        · rcases h.inFlight item (Multiset.mem_of_mem_erase hold) with heq | ⟨parent, hcopy⟩
          · exact .inl heq
          · exact .inr ⟨parent, List.mem_append_left _ hcopy⟩
        · obtain ⟨call, hcall, heq⟩ := mem_routed (Multiset.mem_coe.mp hnew)
          refine .inr ⟨p, List.mem_append_right _ (List.mem_map.mpr ⟨call, hcall, ?_⟩)⟩
          rw [heq]
      · rcases List.mem_append.mp hcopy with hold | hnew
        · exact h.copies copy hold
        · obtain ⟨call, hcall, rfl⟩ := List.mem_map.mp hnew
          have hstep := ttl_of_mem_received hcall
          exact ⟨hstep, hstep.le.trans httl⟩

theorem size_next_le (mesh : Mesh ι) (action : MeshAction ι)
    (henabled : (flooding route d).Enabled mesh action) :
    size ttl d ((flooding route d).next mesh action).inFlight ≤ size ttl d mesh.inFlight ∧
      (IsDeliver action = true →
        size ttl d ((flooding route d).next mesh action).inFlight <
          size ttl d mesh.inFlight) := by
  cases action with
  | originate i p => exact henabled.1.elim
  | change i node => exact ⟨le_rfl, fun h => by cases h⟩
  | deliver i p peripheralID =>
      have hreplaces := replaces_deliver henabled
      have hsize := size_replace ttl d henabled.1 hreplaces.card hreplaces.bound hreplaces.pos
        hreplaces.rank
      exact ⟨hsize.le, fun _ => hsize⟩

/-- One packet with TTL `t` gives rise to at most `d + d ^ 2 + ... + d ^ t` copies. Each has a
TTL one below that of the packet it was made from, no delivery is left after so many, and a
run that goes on delivering what is in flight gets to an end. -/
theorem flooding_terminates (route : Bytes → Option ι) (d : ℕ) (start : Mesh ι) (i : ι)
    (packet : BitchatPacket) (hinFlight : start.inFlight = {(i, packet)})
    (hcopies : start.copies = []) :
    (∀ actions, (flooding route d).Execution start actions →
      ((flooding route d).run start actions).copies.length ≤
          ∑ k ∈ Finset.range packet.ttl.toNat, d ^ (k + 1) ∧
        (∀ copy ∈ ((flooding route d).run start actions).copies,
          copy.2.ttl.toNat + 1 = copy.1.ttl.toNat ∧
            copy.2.ttl.toNat ≤ packet.ttl.toNat - 1) ∧
        (∀ item ∈ ((flooding route d).run start actions).inFlight, item.2 = packet ∨
          ∃ parent, (parent, item.2) ∈ ((flooding route d).run start actions).copies) ∧
        actions.countP IsDeliver ≤ 1 + ∑ k ∈ Finset.range packet.ttl.toNat, d ^ (k + 1)) ∧
    ∀ f, (flooding route d).InfiniteExecution start f →
      (∀ n, ((flooding route d).stateAt start f n).inFlight ≠ 0 →
        ∃ m ≥ n, IsDeliver (f m) = true) →
      ∃ n, ((flooding route d).stateAt start f n).inFlight = 0 := by
  have hstart : FloodInvariant d packet start := by
    refine ⟨?_, fun item hitem => ?_, fun copy hcopy => ?_⟩
    · rw [hcopies, hinFlight, weight_singleton, List.length_nil, Nat.zero_add]
      rfl
    · rw [hinFlight, Multiset.mem_singleton] at hitem
      exact .inl (by rw [hitem])
    · rw [hcopies] at hcopy
      simp at hcopy
  constructor
  · intro actions hexec
    have hend := TransitionSystem.invariant_run
      (fun _ action henabled h => floodInvariant_next action henabled h) hexec hstart
    have hdeliveries := TransitionSystem.countP_progress_le
      (fun mesh => size ttl d mesh.inFlight) IsDeliver
      (fun mesh action henabled => (size_next_le mesh action henabled).1)
      (fun mesh action henabled => (size_next_le mesh action henabled).2) hexec
    have hsize : size ttl d start.inFlight = descendants d packet.ttl.toNat + 1 := by
      rw [hinFlight, size_singleton]
      rfl
    have hcount := hend.count
    rw [← descendants_eq_sum]
    refine ⟨by omega, fun copy hcopy => ?_, hend.inFlight, ?_⟩
    · obtain ⟨hparent, hle⟩ := hend.copies copy hcopy
      exact ⟨hparent, by omega⟩
    · omega
  · intro f hexec hfair
    exact TransitionSystem.eventually_done (fun mesh => size ttl d mesh.inFlight) IsDeliver
      (fun mesh => mesh.inFlight = 0)
      (fun mesh action henabled => (size_next_le mesh action henabled).1)
      (fun mesh action henabled => (size_next_le mesh action henabled).2) hexec hfair

instance [Fintype ι] (mesh : Mesh ι) (action : MeshAction ι) :
    Decidable ((flooding route d).Enabled mesh action) :=
  match action with
  | .deliver i packet peripheralID => inferInstanceAs (Decidable ((i, packet) ∈ mesh.inFlight ∧
      ∀ j, ((mesh.next route (.deliver i packet peripheralID)).node j).data.peers.length ≤ d))
  | .change i node => inferInstanceAs (Decidable (True ∧
      ∀ j, ((mesh.next route (.change i node)).node j).data.peers.length ≤ d))
  | .originate i packet => inferInstanceAs (Decidable (False ∧
      ∀ j, ((mesh.next route (.originate i packet)).node j).data.peers.length ≤ d))

/-- The packet goes to and fro, and then the first node is left as it is. -/
def pingPongOnly (n : ℕ) : MeshAction Bool := pingPong.getD n (.change false (pairNode false))

theorem pingPongOnly_of_le {n : ℕ} (h : 4 ≤ n) :
    pingPongOnly n = .change false (pairNode false) := by
  rw [pingPongOnly, List.getD_eq_getElem?_getD, List.getElem?_eq_none h, Option.getD_none]

theorem enabled_pingPongOnly (n : ℕ) : (flooding pairRoute 1).Enabled
    ((flooding pairRoute 1).stateAt pair pingPongOnly n) (pingPongOnly n) := by
  induction n with
  | zero => decide +kernel
  | succ n ih =>
      rcases Nat.lt_or_ge n 3 with hlt | hge
      · interval_cases n
        · decide +kernel
        · decide +kernel
        · decide +kernel
      · rw [pingPongOnly_of_le (by omega), TransitionSystem.stateAt_succ]
        refine ⟨trivial, fun i => ?_⟩
        cases i with
        | false => exact le_rfl
        | true => exact ih.2 true

theorem inFlight_pingPongOnly {n : ℕ} (h : 4 ≤ n) :
    ((flooding pairRoute 1).stateAt pair pingPongOnly n).inFlight = 0 := by
  induction n, h using Nat.le_induction with
  | base => decide +kernel
  | succ n hn ih =>
      rw [TransitionSystem.stateAt_succ, pingPongOnly_of_le hn]
      exact ih

theorem flooding_terminates_pair :
    (((flooding pairRoute 1).run pair pingPong).copies.length ≤ 3 ∧
      pingPong.countP IsDeliver ≤ 4) ∧
    ∃ n, ((flooding pairRoute 1).stateAt pair pingPongOnly n).inFlight = 0 := by
  have hinfinite := TransitionSystem.infiniteExecution_of_enabled enabled_pingPongOnly
  obtain ⟨hfinite, hends⟩ := flooding_terminates pairRoute 1 pair false passingPacket rfl rfl
  obtain ⟨hcopies, -, -, hdeliveries⟩ := hfinite pingPong (hinfinite 4)
  refine ⟨⟨hcopies, hdeliveries⟩, hends pingPongOnly hinfinite fun n hbusy => ⟨n, le_rfl, ?_⟩⟩
  have hlt : n < 4 := by
    by_contra hge
    exact hbusy (inFlight_pingPongOnly (by omega))
  interval_cases n
  · rfl
  · rfl
  · rfl
  · rfl

end Mesh

end Bitchat
