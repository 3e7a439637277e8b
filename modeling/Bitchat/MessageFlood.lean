import Bitchat.EndToEnd
import Bitchat.FloodCoverage

/-!
# A message for everybody

A chat message that floods a mesh is read by every node within reach exactly once, and as it
was written. Whether it is then kept and shown is up to the node that reads it.
-/

namespace Bitchat.Mesh

open Effect MessageService NetworkService StringHelper PacketSerializer

/-- A message that its own format leaves as it is. -/
structure Plain (message : BitchatMessage) : Prop where
  fits : FitsFormat message
  content : message.content.length ≤ 65535
  encryptedContent : message.encryptedContent = []

structure CarriesMessage (uuid : Bytes) (message : BitchatMessage) (packet : BitchatPacket) :
    Prop where
  type : packet.type = pktTypeMessage
  payload : packet.payload = makeMessagePayload uuid message

section CarriesMessage

variable {uuid : Bytes} {message : BitchatMessage} {packet : BitchatPacket} {node : Node}

theorem CarriesMessage.copyAfter (h : CarriesMessage uuid message packet) (n : ℕ) :
    CarriesMessage uuid message (copyAfter packet n) := by
  rw [copyAfter_eq]
  exact ⟨h.type, h.payload⟩

theorem CarriesMessage.parse (h : CarriesMessage uuid message packet) (hplain : Plain message) :
    parseMessagePayload packet.payload = .ok ⟨message, none⟩ := by
  have hfits := hplain.fits
  have hsame := (transmitted_eq_self_iff hfits hplain.content).mpr hplain.encryptedContent
  rw [h.payload, parseMessagePayload_of_made,
    readMessage_makeMessagePayload uuid hfits.id_ne_nil hfits.isEncrypted hfits.mentions, hsame]

theorem CarriesMessage.outcome (h : CarriesMessage uuid message packet)
    (hpass : Passes node packet) (peripheralID : Bytes) :
    (processPacket packet peripheralID).outcome node =
      (processMessagePacket packet).outcome (marked node packet) := by
  rw [outcome_processPacket_of_passes hpass, dispatch_message h.type]

theorem CarriesMessage.result (h : CarriesMessage uuid message packet) (hplain : Plain message)
    (node : Node) (peripheralID : Bytes) :
    (processPacket packet peripheralID).result node = .ok ⟨⟩ := by
  by_cases hpass : Passes node packet
  · rw [Effect.result, h.outcome hpass, outcome_processMessagePacket _ (h.parse hplain)]
  · rw [Effect.result, outcome_processPacket_of_not_passes hpass]

theorem receptionTrace_marked (node : Node) (packet : BitchatPacket) (message : BitchatMessage) :
    receptionTrace (marked node packet) packet message = receptionTrace node packet message := by
  rw [marked, BitchatData.markMessageProcessed_eq]
  rfl

theorem CarriesMessage.newEvents (h : CarriesMessage uuid message packet) (hplain : Plain message)
    (hpass : Passes node packet) (peripheralID : Bytes) :
    newEvents (processPacket packet peripheralID) node =
      .dispatched packet :: .parsed message :: receptionTrace node packet message := by
  have htrace := trace_processMessagePacket (marked node packet) (h.parse hplain)
  rw [MessageService.newEvents, exec, h.outcome hpass]
  change ((processMessagePacket packet).exec (marked node packet)).trace.drop _ = _
  rw [htrace, receptionTrace_marked, marked, List.append_assoc, List.drop_left]
  rfl

end CarriesMessage

variable {ι : Type} [DecidableEq ι] {route : Bytes → Option ι} {start : Mesh ι}
  {actions : List (MeshAction ι)}

/-- Copies that come to the node leave it as it is. -/
def Ignores (j : ι) (s : Stamp) (mesh : Mesh ι) : MeshAction ι → Prop
  | .deliver i packet peripheralID => i = j → stamp packet = s →
      (processPacket packet peripheralID).exec (mesh.node j) = mesh.node j
  | _ => True

omit [DecidableEq ι] in
theorem ignores_of_not_handles {mesh : Mesh ι} {action : MeshAction ι} {j : ι} {s : Stamp}
    (h : ¬ Handles j s mesh action) : Ignores j s mesh action := by
  cases action with
  | change i node => exact trivial
  | originate i packet => exact trivial
  | deliver i packet peripheralID =>
      rintro rfl hstamp
      have hpass : ¬ Passes (mesh.node i) packet := fun hpass =>
        h ⟨rfl, hstamp, (isDispatched_iff _ _ _).mpr hpass⟩
      rw [exec, outcome_processPacket_of_not_passes hpass]

omit [DecidableEq ι] in
theorem passes_of_handles {mesh : Mesh ι} {action : MeshAction ι} {j : ι} {s : Stamp}
    (h : Handles j s mesh action) : ∃ packet peripheralID,
      action = .deliver j packet peripheralID ∧ stamp packet = s ∧ Passes (mesh.node j) packet := by
  cases action with
  | originate i packet => exact h.elim
  | change i node => exact h.elim
  | deliver i packet peripheralID =>
      obtain ⟨rfl, hstamp, hdispatched⟩ := h
      exact ⟨packet, peripheralID, rfl, hstamp, (isDispatched_iff _ _ _).mp hdispatched⟩

theorem allSteps_ignores {j : ι} {s : Stamp}
    (h : (broadcasting route).AllSteps (fun mesh action => ¬ Handles j s mesh action) start
      actions) : (broadcasting route).AllSteps (Ignores j s) start actions := by
  rw [TransitionSystem.allSteps_iff_forall_prefix] at h ⊢
  exact fun before action after hsplit => ignores_of_not_handles (h before action after hsplit)

theorem returns_of_carries {uuid : Bytes} {message : BitchatMessage} {packet : BitchatPacket}
    (hcarries : CarriesMessage uuid message packet) (hplain : Plain message)
    {Link : ι → ι → Prop} {i : ι} (hexec : (broadcasting route).Execution start actions)
    (htraced : (broadcasting route).AllStates (Traced Link i packet) start actions) :
    (broadcasting route).AllSteps (Returns (stamp packet)) start actions := by
  rw [TransitionSystem.allSteps_iff_forall_prefix]
  intro before action after hsplit
  rw [hsplit] at hexec
  obtain ⟨-, henabled, -⟩ := TransitionSystem.execution_append.mp hexec
  have hcopies := TransitionSystem.allStates_iff_forall_prefix.mp htraced before _ hsplit
  cases action with
  | change j node => exact trivial
  | originate j p => exact trivial
  | deliver j copy peripheralID =>
      intro hstamp
      obtain ⟨n, -, hcopy, -⟩ := hcopies (j, copy) henabled hstamp
      have hcopy : copy = copyAfter packet n := hcopy
      rw [hcopy]
      exact (hcarries.copyAfter n).result hplain _ peripheralID

def chatPacket : BitchatPacket :=
  { BitchatPacket.make pktTypeMessage (makeMessagePayload [] shortMessage) 1 with
    ttl := 1, senderID := List.replicate 8 9 }

def chatPair : Mesh Bool := { pair with inFlight := {(false, chatPacket)} }

def passedOn : List (MeshAction Bool) :=
  [.deliver false chatPacket [], .deliver true (copyAfter chatPacket 1) []]

theorem execution_passedOn : (broadcasting pairRoute).Execution chatPair passedOn := by
  refine ⟨enabled_deliver _ _ _ _ ?_, enabled_deliver _ _ _ _ ?_, trivial⟩
  · exact Multiset.mem_singleton_self _
  · decide +kernel

theorem plain_shortMessage : Plain shortMessage where
  fits := by constructor <;> decide
  content := by decide
  encryptedContent := rfl

theorem linked_chatPair :
    (broadcasting pairRoute).AllStates (Linked pairRoute chatPacket false true) chatPair
      passedOn := by
  refine ⟨?_, ?_, (?_ : Linked pairRoute chatPacket false true _)⟩
  · decide +kernel
  · decide +kernel
  · decide +kernel

end Bitchat.Mesh
