import Bitchat.StringHelper

/-!
# Block padding

`dis` supplies the random bytes: byte `i` of the padding is `dis i`. Whether `pad` has
appended anything depends only on the length of the data, and `unpad` sees only its
last byte; the layer loses nothing exactly where the two agree.
-/

namespace Bitchat.MessagePadding

def blockSizes : List ℕ := [256, 512, 1024, 2048]

def pad (dis : ℕ → UInt8) (data : Bytes) (targetSize : ℕ) : Bytes :=
  if data.length ≥ targetSize then data
  else
    let paddingNeeded := targetSize - data.length
    if paddingNeeded > 255 then data
    else
      let randomBytes := (List.range (paddingNeeded - 1)).map dis
      data ++ randomBytes ++ [UInt8.ofNat paddingNeeded]

def unpad (data : Bytes) : Bytes :=
  match data.getLast? with
  | none => data
  | some paddingLength =>
      if paddingLength = 0 ∨ paddingLength.toNat > data.length then data
      else data.take (data.length - paddingLength.toNat)

def optimalBlockSize (dataSize : ℕ) : ℕ :=
  let totalSize := dataSize + 16
  match blockSizes.find? (fun blockSize => totalSize ≤ blockSize) with
  | some blockSize => blockSize
  | none => dataSize

/-- The lengths whose distance to their block fits into the padding byte. -/
def PadAppends (n : ℕ) : Prop :=
  (1 ≤ n ∧ n ≤ 240) ∨ (257 ≤ n ∧ n ≤ 496) ∨ (769 ≤ n ∧ n ≤ 1008) ∨ (1793 ≤ n ∧ n ≤ 2032)

instance (n : ℕ) : Decidable (PadAppends n) := inferInstanceAs (Decidable (_ ∨ _))

theorem optimalBlockSize_eq (n : ℕ) :
    optimalBlockSize n = if n ≤ 240 then 256 else if n ≤ 496 then 512
      else if n ≤ 1008 then 1024 else if n ≤ 2032 then 2048 else n := by
  by_cases h₁ : n ≤ 240
  · simp [optimalBlockSize, blockSizes, show n + 16 ≤ 256 by omega, h₁]
  by_cases h₂ : n ≤ 496
  · simp [optimalBlockSize, blockSizes, show ¬ n + 16 ≤ 256 by omega,
      show n + 16 ≤ 512 by omega, h₁, h₂]
  by_cases h₃ : n ≤ 1008
  · simp [optimalBlockSize, blockSizes, show ¬ n + 16 ≤ 256 by omega,
      show ¬ n + 16 ≤ 512 by omega, show n + 16 ≤ 1024 by omega, h₁, h₂, h₃]
  by_cases h₄ : n ≤ 2032
  · simp [optimalBlockSize, blockSizes, show ¬ n + 16 ≤ 256 by omega,
      show ¬ n + 16 ≤ 512 by omega, show ¬ n + 16 ≤ 1024 by omega,
      show n + 16 ≤ 2048 by omega, h₁, h₂, h₃, h₄]
  · simp [optimalBlockSize, blockSizes, show ¬ n + 16 ≤ 256 by omega,
      show ¬ n + 16 ≤ 512 by omega, show ¬ n + 16 ≤ 1024 by omega,
      show ¬ n + 16 ≤ 2048 by omega, h₁, h₂, h₃, h₄]

theorem padAppends_iff (n : ℕ) :
    PadAppends n ↔ n + 1 ≤ optimalBlockSize n ∧ optimalBlockSize n ≤ n + 255 := by
  rw [optimalBlockSize_eq, PadAppends]
  split_ifs <;> omega

theorem pad_of_appends (dis : ℕ → UInt8) {data : Bytes} {n : ℕ}
    (hlo : data.length + 1 ≤ n) (hhi : n ≤ data.length + 255) :
    pad dis data n = data ++ (List.range (n - data.length - 1)).map dis ++
      [UInt8.ofNat (n - data.length)] := by
  rw [pad, if_neg (by omega)]
  exact if_neg (by omega)

theorem pad_of_not_appends (dis : ℕ → UInt8) {data : Bytes} {n : ℕ}
    (h : ¬ (data.length + 1 ≤ n ∧ n ≤ data.length + 255)) : pad dis data n = data := by
  unfold pad
  split_ifs with hge
  · rfl
  · exact if_pos (by omega)

theorem length_pad_of_appends (dis : ℕ → UInt8) {data : Bytes} {n : ℕ}
    (hlo : data.length + 1 ≤ n) (hhi : n ≤ data.length + 255) : (pad dis data n).length = n := by
  rw [pad_of_appends dis hlo hhi]
  simp only [List.length_append, List.length_map, List.length_range, List.length_singleton]
  omega

@[simp] theorem unpad_nil : unpad [] = [] := rfl

theorem toNat_ne_zero {b : UInt8} (h : b ≠ 0) : b.toNat ≠ 0 := fun hz => h (UInt8.toNat_inj.mp hz)

theorem unpad_concat (data : Bytes) (b : UInt8) :
    unpad (data ++ [b]) = if b = 0 ∨ b.toNat > data.length + 1 then data ++ [b]
      else data.take (data.length + 1 - b.toNat) := by
  have hlast : (data ++ [b]).getLast? = some b := by simp
  simp only [unpad, hlast, List.length_append, List.length_singleton]
  split_ifs with hb
  · rfl
  · have hpos := toNat_ne_zero (not_or.mp hb).1
    rw [List.take_append_of_le_length (by omega)]

theorem unpad_concat_of_toNat {data : Bytes} {b : UInt8} {n : ℕ} (hb : b.toNat = n) (hpos : 0 < n)
    (hle : n ≤ data.length + 1) : unpad (data ++ [b]) = data.take (data.length + 1 - n) := by
  subst hb
  have hne : b ≠ 0 := by
    rintro rfl
    exact absurd hpos (by decide)
  rw [unpad_concat, if_neg (not_or.mpr ⟨hne, Nat.not_lt.mpr hle⟩)]

theorem unpad_eq_take (data : Bytes) : ∃ k ≤ data.length, unpad data = data.take k := by
  induction data using List.reverseRecOn with
  | nil => exact ⟨0, le_rfl, rfl⟩
  | append_singleton data b _ =>
      rw [unpad_concat]
      split_ifs with hb
      · exact ⟨(data ++ [b]).length, le_rfl, (List.take_length).symm⟩
      · have hpos := toNat_ne_zero (not_or.mp hb).1
        refine ⟨data.length + 1 - b.toNat, by simp, ?_⟩
        rw [List.take_append_of_le_length (by omega)]

theorem unpad_pad (dis : ℕ → UInt8) {data : Bytes} {n : ℕ}
    (hlo : data.length + 1 ≤ n) (hhi : n ≤ data.length + 255) : unpad (pad dis data n) = data := by
  have hlen := length_pad_of_appends dis hlo hhi
  rw [pad_of_appends dis hlo hhi] at hlen ⊢
  have hb : (UInt8.ofNat (n - data.length)).toNat = n - data.length := by
    rw [UInt8.toNat_ofNat', Nat.mod_eq_of_lt (by simp; omega)]
  rw [List.length_append, List.length_singleton] at hlen
  rw [unpad_concat_of_toNat hb (by omega) (by omega), hlen,
    show n - (n - data.length) = data.length by omega, List.take_left]

/-- The unpadded data survives `unpad` exactly when its last byte cannot be taken for a
padding length. -/
theorem unpad_eq_self_iff (data : Bytes) :
    unpad data = data ↔ ∀ b ∈ data.getLast?, b = 0 ∨ data.length < b.toNat := by
  induction data using List.reverseRecOn with
  | nil => simp
  | append_singleton data b _ =>
      rw [unpad_concat]
      simp only [List.getLast?_append, List.getLast?_singleton, Option.some_or, Option.mem_def,
        Option.some.injEq, forall_eq', List.length_append, List.length_singleton]
      constructor
      · intro h
        by_contra hb
        rw [if_neg hb] at h
        have hpos := toNat_ne_zero (not_or.mp hb).1
        have hl := congrArg List.length h
        simp only [List.length_take, List.length_append, List.length_singleton] at hl
        omega
      · intro hb
        exact if_pos hb

/-- Padding to the block of `data` and removing it gives `data` back exactly when bytes
were appended, or when the last byte of `data` is zero or larger than its length. The
random bytes play no part. -/
theorem unpad_pad_optimalBlockSize_iff (dis : ℕ → UInt8) (data : Bytes) :
    unpad (pad dis data (optimalBlockSize data.length)) = data ↔
      PadAppends data.length ∨ ∀ b ∈ data.getLast?, b = 0 ∨ data.length < b.toNat := by
  by_cases h : PadAppends data.length
  · obtain ⟨hlo, hhi⟩ := (padAppends_iff data.length).mp h
    exact iff_of_true (unpad_pad dis hlo hhi) (Or.inl h)
  · rw [pad_of_not_appends dis (fun hn => h ((padAppends_iff data.length).mpr hn)),
      unpad_eq_self_iff]
    exact ⟨Or.inr, fun hor => hor.resolve_left h⟩

/-- A frame of 241 bytes is sent unpadded, and its own last byte is then cut off. -/
theorem unpad_pad_ne_self :
    unpad (pad (fun _ => 0) (List.replicate 241 1) (optimalBlockSize 241)) ≠
      List.replicate 241 1 := by
  have hlen : (List.replicate 241 (1 : UInt8)).length = 241 := List.length_replicate
  rw [pad_of_not_appends _ (by rw [hlen]; decide), Ne, unpad_eq_self_iff, hlen]
  intro h
  rcases h 1 (by simp) with h | h
  · exact absurd h (by decide)
  · exact absurd h (by decide)

end Bitchat.MessagePadding
