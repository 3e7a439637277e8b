import Bitchat.StringHelper

/-!
# Hexadecimal strings and the bytes they denote

`toHex` and `stringToVector` undo each other on strings of lowercase digits. What
`stringToVector` accepts is inherited from `std::stoi` on pieces of two characters:
`AcceptedPair` is the exact condition on such a piece, and it is weaker than being
hexadecimal.
-/

namespace Bitchat.StringHelper

def lowerHexDigits : Bytes := ascii "0123456789abcdef"

def IsLowerHex (s : Bytes) : Prop := ∀ c ∈ s, c ∈ lowerHexDigits

instance (s : Bytes) : Decidable (IsLowerHex s) := List.decidableBAll _ s

def IsHex (s : Bytes) : Prop := ∀ c ∈ s, (hexValue c).isSome

instance (s : Bytes) : Decidable (IsHex s) := List.decidableBAll _ s

def denotedBytes : Bytes → Bytes
  | a :: b :: s =>
      UInt8.ofNat ((hexValue a).getD 0 * 16 + (hexValue b).getD 0) :: denotedBytes s
  | _ => []

theorem IsHex.of_cons_cons {a b : UInt8} {s : Bytes} (h : IsHex (a :: b :: s)) :
    (hexValue a).isSome ∧ (hexValue b).isSome ∧ IsHex s :=
  ⟨h a (by simp), h b (by simp), fun c hc => h c (by simp [hc])⟩

theorem IsLowerHex.of_cons_cons {a b : UInt8} {s : Bytes} (h : IsLowerHex (a :: b :: s)) :
    a ∈ lowerHexDigits ∧ b ∈ lowerHexDigits ∧ IsLowerHex s :=
  ⟨h a (by simp), h b (by simp), fun c hc => h c (by simp [hc])⟩

theorem hexDigit_mem_lowerHexDigits {n : UInt8} (hn : n < 16) : hexDigit n ∈ lowerHexDigits := by
  have hall : ∀ k < 16, hexDigit (UInt8.ofNat k) ∈ lowerHexDigits := by decide
  have hk := hall n.toNat (UInt8.lt_iff_toNat_lt.mp hn)
  rwa [UInt8.ofNat_toNat] at hk

theorem isLowerHex_toHex (data : Bytes) : IsLowerHex (toHex data) := by
  induction data with
  | nil =>
      intro c hc
      cases hc
  | cons b data ih =>
      intro c hc
      rw [toHex_cons, List.mem_cons, List.mem_cons] at hc
      rcases hc with rfl | rfl | hc
      · exact hexDigit_mem_lowerHexDigits (high_digit_lt b)
      · exact hexDigit_mem_lowerHexDigits (low_digit_lt b)
      · exact ih c hc

theorem toHex_denoted_pair {a b : UInt8} (ha : a ∈ lowerHexDigits) (hb : b ∈ lowerHexDigits) :
    toHex [UInt8.ofNat ((hexValue a).getD 0 * 16 + (hexValue b).getD 0)] = [a, b] := by
  have hall : lowerHexDigits.all (fun a => lowerHexDigits.all fun b => decide
      (toHex [UInt8.ofNat ((hexValue a).getD 0 * 16 + (hexValue b).getD 0)] = [a, b])) = true := by
    decide +kernel
  exact of_decide_eq_true (List.all_eq_true.mp (List.all_eq_true.mp hall a ha) b hb)

theorem toHex_denotedBytes {s : Bytes} (heven : s.length % 2 = 0) (hs : IsLowerHex s) :
    toHex (denotedBytes s) = s := by
  induction s using List.twoStepInduction with
  | nil => rfl
  | singleton a => simp at heven
  | cons_cons a b s ih =>
      obtain ⟨ha, hb, hrest⟩ := hs.of_cons_cons
      rw [List.length_cons, List.length_cons] at heven
      have hpair := congrArg (· ++ s) (toHex_denoted_pair ha hb)
      rw [denotedBytes, toHex_cons, ih (by omega) hrest]
      exact hpair

/-- Peer IDs survive the way into text and back, and text of lowercase digits the way into
bytes and back. -/
theorem hex_round_trip (v s : Bytes) :
    (stringToVector (toHex v) = .ok v ∧ (toHex v).length = 2 * v.length ∧
        IsLowerHex (toHex v)) ∧
      (s.length % 2 = 0 → IsLowerHex s → ∃ w, stringToVector s = .ok w ∧ toHex w = s) := by
  refine ⟨⟨stringToVector_toHex v, length_toHex v, isLowerHex_toHex v⟩, fun heven hs => ?_⟩
  have hback := toHex_denotedBytes heven hs
  have hread := stringToVector_toHex (denotedBytes s)
  rw [hback] at hread
  exact ⟨denotedBytes s, hread, hback⟩

theorem hex_round_trip_ab01 : ∃ w, stringToVector (ascii "ab01") = .ok w ∧
    toHex w = ascii "ab01" :=
  (hex_round_trip [] (ascii "ab01")).2 (by decide) (by decide +kernel)

/-- A digit first, or a digit behind a blank or a sign. -/
def AcceptedPair (a b : UInt8) : Prop :=
  (hexValue a).isSome ∨ (isSpace a ∨ a = 0x2B ∨ a = 0x2D) ∧ (hexValue b).isSome

instance (a b : UInt8) : Decidable (AcceptedPair a b) := by
  unfold AcceptedPair
  infer_instance

def pairs : Bytes → List (UInt8 × UInt8)
  | a :: b :: s => (a, b) :: pairs s
  | _ => []

theorem stoi16_ok_iff (str : Bytes) :
    (∃ value, stoi16 str = .ok value) ↔
      hexDigits (stripHexMark (stripSign (str.dropWhile isSpace)).2) ≠ [] := by
  rw [stoi16]
  dsimp only
  cases hexDigits (stripHexMark (stripSign (str.dropWhile isSpace)).2) with
  | nil => simp
  | cons d ds => simp

theorem hexDigits_ne_nil_iff (c : UInt8) (s : Bytes) :
    hexDigits (c :: s) ≠ [] ↔ (hexValue c).isSome := by
  rw [hexDigits]
  cases hexValue c with
  | none => simp
  | some d => simp

theorem stripHexMark_of_short {s : Bytes} (hs : s.length ≤ 2) : stripHexMark s = s := by
  unfold stripHexMark
  split
  · next x d s => simp at hs
  · rfl

theorem stripSign_of_ordinary {c : UInt8} (hplus : c ≠ 0x2B) (hminus : c ≠ 0x2D) (s : Bytes) :
    stripSign (c :: s) = (false, c :: s) := by
  unfold stripSign
  split
  · next he => exact absurd (List.cons.inj he).1 hplus
  · next he => exact absurd (List.cons.inj he).1 hminus
  · rfl

theorem isSome_hexValue_ordinary {c : UInt8} (h : (hexValue c).isSome) :
    isSpace c = false ∧ c ≠ 0x2B ∧ c ≠ 0x2D := by
  obtain ⟨d, hd⟩ := Option.isSome_iff_exists.mp h
  obtain ⟨hspace, hplus, hminus, -⟩ := ordinary_of_hexValue hd
  exact ⟨hspace, hplus, hminus⟩

theorem hexDigits_stripSign_singleton (c : UInt8) :
    hexDigits (stripSign [c]).2 ≠ [] ↔ (hexValue c).isSome := by
  by_cases hplus : c = 0x2B
  · subst hplus
    decide
  by_cases hminus : c = 0x2D
  · subst hminus
    decide
  rw [stripSign_of_ordinary hplus hminus, hexDigits_ne_nil_iff]

theorem length_stripSign_le (s : Bytes) : (stripSign s).2.length ≤ s.length := by
  unfold stripSign
  split <;> simp

theorem stoi16_pair_ok_iff (a b : UInt8) :
    (∃ value, stoi16 [a, b] = .ok value) ↔ AcceptedPair a b := by
  have hshort : (stripSign ([a, b].dropWhile isSpace)).2.length ≤ 2 :=
    (length_stripSign_le _).trans (List.dropWhile_suffix _).length_le
  rw [stoi16_ok_iff, stripHexMark_of_short hshort, AcceptedPair]
  by_cases ha : (hexValue a).isSome
  · obtain ⟨hspace, hplus, hminus⟩ := isSome_hexValue_ordinary ha
    rw [List.dropWhile_cons_of_neg (by simp [hspace]), stripSign_of_ordinary hplus hminus,
      hexDigits_ne_nil_iff]
    exact ⟨.inl, fun _ => ha⟩
  rw [or_iff_right ha]
  by_cases hspace : isSpace a
  · rw [List.dropWhile_cons_of_pos hspace, and_iff_right (.inl hspace)]
    by_cases hb : isSpace b
    · rw [List.dropWhile_cons_of_pos hb]
      apply iff_of_false (by decide)
      intro hdigit
      rw [(isSome_hexValue_ordinary hdigit).1] at hb
      cases hb
    · rw [List.dropWhile_cons_of_neg hb, hexDigits_stripSign_singleton]
  rw [List.dropWhile_cons_of_neg hspace]
  by_cases hsign : a = 0x2B ∨ a = 0x2D
  · rw [and_iff_right (.inr hsign)]
    rcases hsign with rfl | rfl
    · exact hexDigits_ne_nil_iff b []
    · exact hexDigits_ne_nil_iff b []
  · obtain ⟨hplus, hminus⟩ := not_or.mp hsign
    rw [stripSign_of_ordinary hplus hminus, hexDigits_ne_nil_iff]
    exact iff_of_false ha fun h => h.1.elim hspace hsign

theorem bytesOfPairs_ok_iff (s : Bytes) :
    (∃ v, bytesOfPairs s = .ok v) ↔ ∀ p ∈ pairs s, AcceptedPair p.1 p.2 := by
  induction s using List.twoStepInduction with
  | nil => exact iff_of_true ⟨_, rfl⟩ (by simp [pairs])
  | singleton a => exact iff_of_true ⟨_, rfl⟩ (by simp [pairs])
  | cons_cons a b s ih =>
      rw [bytesOfPairs, pairs, List.forall_mem_cons, ← ih, ← stoi16_pair_ok_iff]
      cases hvalue : stoi16 [a, b] with
      | error e =>
          refine iff_of_false ?_ fun h => by simp at h
          rintro ⟨v, h⟩
          cases h
      | ok value =>
          cases hrest : bytesOfPairs s with
          | error e =>
              refine iff_of_false ?_ fun h => by simp at h
              rintro ⟨v, h⟩
              cases h
          | ok rest => exact iff_of_true ⟨_, rfl⟩ ⟨⟨_, rfl⟩, ⟨_, rfl⟩⟩

theorem ofInt_natCast (n : ℕ) : UInt8.ofInt (n : ℤ) = UInt8.ofNat n := by
  have hmod : ((n : ℤ) % 2 ^ 8).toNat = n % 2 ^ 8 := by omega
  rw [UInt8.ofInt, hmod]
  exact UInt8.toNat_inj.mp (by simp)

theorem IsHex.stoi16_cons_cons {a b : UInt8} {s : Bytes} (h : IsHex (a :: b :: s)) :
    ∃ value, stoi16 [a, b] = .ok value ∧
      denotedBytes (a :: b :: s) = UInt8.ofInt value :: denotedBytes s := by
  obtain ⟨ha, hb, -⟩ := h.of_cons_cons
  obtain ⟨x, hx⟩ := Option.isSome_iff_exists.mp ha
  obtain ⟨y, hy⟩ := Option.isSome_iff_exists.mp hb
  refine ⟨_, stoi16_pair hx hy, ?_⟩
  rw [denotedBytes, hx, hy, ofInt_natCast]
  rfl

theorem bytesOfPairs_hex {s : Bytes} (h : IsHex s) : bytesOfPairs s = .ok (denotedBytes s) := by
  induction s using List.twoStepInduction with
  | nil => rfl
  | singleton a => rfl
  | cons_cons a b s ih =>
      obtain ⟨value, hvalue, hdenoted⟩ := h.stoi16_cons_cons
      rw [bytesOfPairs, hvalue, ih h.of_cons_cons.2.2, hdenoted]
      rfl

end Bitchat.StringHelper
