import Bitchat.PacketSerializer

/-!
# What the length of a frame tells

Frames are padded to the smallest block that has room for them and for 16 more bytes, so
that the sizes on the air do not tell the frames of a block apart. The padding is counted
in one byte: a frame that lies more than 255 bytes below its block goes out as it is.
-/

namespace Bitchat.PacketSerializer

open MessagePadding

/-- The smallest block for a frame of `n` bytes. -/
structure SmallestBlock (n b : ℕ) : Prop where
  mem : b ∈ blockSizes
  fits : n + 16 ≤ b
  least : ∀ c ∈ blockSizes, n + 16 ≤ c → b ≤ c

def emitted (dis : ℕ → UInt8) (data : Bytes) : Bytes :=
  pad dis data (optimalBlockSize data.length)

theorem serializePacket_eq_emitted (lz4 : LZ4) (dis : ℕ → UInt8) (packet : BitchatPacket) :
    serializePacket lz4 dis packet = emitted dis (serializeFrame lz4 packet) := rfl

theorem SmallestBlock.optimalBlockSize_eq {n b : ℕ} (h : SmallestBlock n b) :
    optimalBlockSize n = b := by
  have hmem : b = 256 ∨ b = 512 ∨ b = 1024 ∨ b = 2048 := by
    simpa [blockSizes] using h.mem
  have hfits := h.fits
  have h256 := h.least 256 (by simp [blockSizes])
  have h512 := h.least 512 (by simp [blockSizes])
  have h1024 := h.least 1024 (by simp [blockSizes])
  rw [MessagePadding.optimalBlockSize_eq]
  split_ifs with h₁ h₂ h₃ h₄
  · omega
  · omega
  · omega
  · omega
  · omega

theorem emitted_of_not_appends (dis : ℕ → UInt8) {data : Bytes} (h : ¬ PadAppends data.length) :
    emitted dis data = data :=
  pad_of_not_appends dis fun hn => h ((padAppends_iff data.length).mpr hn)

theorem length_emitted (dis : ℕ → UInt8) (data : Bytes) : (emitted dis data).length =
    if PadAppends data.length then optimalBlockSize data.length else data.length := by
  rw [emitted]
  split_ifs with h
  · obtain ⟨hlo, hhi⟩ := (padAppends_iff data.length).mp h
    exact length_pad_of_appends dis hlo hhi
  · exact congrArg List.length (emitted_of_not_appends dis h)

theorem SmallestBlock.length_emitted_eq_iff {data : Bytes} {b : ℕ}
    (h : SmallestBlock data.length b) (dis : ℕ → UInt8) :
    (emitted dis data).length = b ↔ PadAppends data.length := by
  have hfits := h.fits
  rw [length_emitted, h.optimalBlockSize_eq]
  split_ifs with hpad
  · exact iff_of_true rfl hpad
  · exact iff_of_false (by omega) hpad

/-- Two frames of one block fill it exactly if both lengths are ones that get padding. A frame
that gets none goes out as it is, so that the two sizes are then the same only if they were so
before. -/
theorem padding_hides_length_iff (dis₁ dis₂ : ℕ → UInt8) {data₁ data₂ : Bytes} {b : ℕ}
    (h₁ : SmallestBlock data₁.length b) (h₂ : SmallestBlock data₂.length b) :
    ((emitted dis₁ data₁).length = b ∧ (emitted dis₂ data₂).length = b ↔
      PadAppends data₁.length ∧ PadAppends data₂.length) ∧
    (¬ PadAppends data₁.length → emitted dis₁ data₁ = data₁) ∧
    (¬ PadAppends data₂.length → emitted dis₂ data₂ = data₂) ∧
    ((emitted dis₁ data₁).length = (emitted dis₂ data₂).length ↔
      PadAppends data₁.length ∧ PadAppends data₂.length ∨ data₁.length = data₂.length) := by
  have hfits₁ := h₁.fits
  have hfits₂ := h₂.fits
  refine ⟨and_congr (h₁.length_emitted_eq_iff dis₁) (h₂.length_emitted_eq_iff dis₂),
    emitted_of_not_appends dis₁, emitted_of_not_appends dis₂, ?_⟩
  rw [length_emitted, length_emitted, h₁.optimalBlockSize_eq, h₂.optimalBlockSize_eq]
  by_cases hpad₁ : PadAppends data₁.length
  · by_cases hpad₂ : PadAppends data₂.length
    · rw [if_pos hpad₁, if_pos hpad₂]
      exact iff_of_true rfl (.inl ⟨hpad₁, hpad₂⟩)
    · have hne : data₁.length ≠ data₂.length := fun h => hpad₂ (h ▸ hpad₁)
      rw [if_pos hpad₁, if_neg hpad₂]
      exact iff_of_false (by omega) (not_or.mpr ⟨fun h => hpad₂ h.2, hne⟩)
  · rw [if_neg hpad₁]
    split_ifs with hpad₂
    · have hne : data₁.length ≠ data₂.length := fun h => hpad₁ (h ▸ hpad₂)
      exact iff_of_false (by omega) (not_or.mpr ⟨fun h => hpad₁ h.1, hne⟩)
    · exact ⟨.inr, fun h => h.resolve_left fun hpad => hpad₁ hpad.1⟩

theorem padding_hides_257_from_496 :
    (emitted (fun _ => 0) (List.replicate 257 0)).length = 512 ∧
      (emitted (fun _ => 0) (List.replicate 496 0)).length = 512 := by
  have h₁ : SmallestBlock (List.replicate 257 (0 : UInt8)).length 512 := by
    rw [List.length_replicate]
    exact ⟨by decide, by decide, by decide⟩
  have h₂ : SmallestBlock (List.replicate 496 (0 : UInt8)).length 512 := by
    rw [List.length_replicate]
    exact ⟨by decide, by decide, by decide⟩
  refine (padding_hides_length_iff (fun _ => 0) (fun _ => 0) h₁ h₂).1.mpr ?_
  rw [List.length_replicate, List.length_replicate]
  decide

/-- Packets with 219 and 235 bytes of payload belong to the block of 512 bytes and are sent
with 241 and 512. -/
theorem block_not_filled :
    let packet (n : ℕ) := BitchatPacket.make pktTypeMessage ((List.range n).map noise) 0
    SmallestBlock (serializeFrame .storing (packet 219)).length 512 ∧
      SmallestBlock (serializeFrame .storing (packet 235)).length 512 ∧
      (serializePacket .storing (fun _ => 0) (packet 219)).length = 241 ∧
      (serializePacket .storing (fun _ => 0) (packet 235)).length = 512 := by
  intro packet
  have h₁ : (serializeFrame .storing (packet 219)).length = 241 := by decide +kernel
  have h₂ : (serializeFrame .storing (packet 235)).length = 257 := by decide +kernel
  rw [serializePacket_eq_emitted, serializePacket_eq_emitted, length_emitted, length_emitted,
    h₁, h₂]
  refine ⟨⟨by decide, by decide, by decide⟩, ⟨by decide, by decide, by decide⟩, ?_⟩
  rw [if_neg (by decide), if_pos (by decide)]
  exact ⟨rfl, by decide⟩

end Bitchat.PacketSerializer
