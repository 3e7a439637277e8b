import Bitchat.ByteCursor

/-!
# Byte strings, faults and the string helpers

Both `std::vector<uint8_t>` and `std::string` are byte lists. A `Fault` is what can go wrong
in a call: an exception, an access behind the end of a buffer, or the use of a variable that
has no value. The helpers are those of `string_helper.cpp`; `stoi16` is `std::stoi` with
base 16.
-/

namespace Bitchat

open ByteCursor

abbrev Bytes := List UInt8

/-- Named once, so that every module decides membership in a list of strings alike. -/
instance : LawfulBEq Bytes := inferInstance

inductive Fault where
  | outOfBounds (access : OutOfBounds)
  | uninitialized (name : Bytes)
  | invalidArgument (what : Bytes)
  | runtimeError (what : Bytes)
  deriving DecidableEq, Repr

theorem forall_byte {p : UInt8 → Prop} (h : ∀ k < 256, p (UInt8.ofNat k)) (b : UInt8) : p b := by
  have hb := h b.toNat b.toNat_lt
  rwa [UInt8.ofNat_toNat] at hb

/-- The bytes of a string literal of the source. -/
def ascii (s : String) : Bytes := s.toList.map fun c => UInt8.ofNat c.toNat

/-- `std::to_string` of an unsigned integer. -/
def toDecimal (n : ℕ) : Bytes := (Nat.toDigits 10 n).map fun c => UInt8.ofNat c.toNat

namespace StringHelper

def hexDigit (n : UInt8) : UInt8 := if n < 10 then 0x30 + n else 0x57 + n

def toHex (data : Bytes) : Bytes :=
  data.flatMap fun (byte : UInt8) => [hexDigit (byte >>> 4), hexDigit (byte &&& 0x0F)]

def isSpace (c : UInt8) : Bool := c == 0x20 || (0x09 ≤ c && c ≤ 0x0D)

def hexValue (c : UInt8) : Option ℕ :=
  if 0x30 ≤ c ∧ c ≤ 0x39 then some (c.toNat - 0x30)
  else if 0x41 ≤ c ∧ c ≤ 0x46 then some (c.toNat - 0x37)
  else if 0x61 ≤ c ∧ c ≤ 0x66 then some (c.toNat - 0x57)
  else none

def stripSign : Bytes → Bool × Bytes
  | 0x2B :: s => (false, s)
  | 0x2D :: s => (true, s)
  | s => (false, s)

/-- `0x` counts as a prefix only in front of a digit. -/
def stripHexMark : Bytes → Bytes
  | 0x30 :: x :: d :: s =>
      if (x == 0x78 || x == 0x58) && (hexValue d).isSome then d :: s else 0x30 :: x :: d :: s
  | s => s

/-- The digits up to the first character that is none. -/
def hexDigits : Bytes → List ℕ
  | [] => []
  | c :: s => match hexValue c with
    | some d => d :: hexDigits s
    | none => []

/-- `std::stoi(str, nullptr, 16)` on the short strings it is given here, where its result
never leaves the range of `int`. Without a digit it throws `std::invalid_argument`. -/
def stoi16 (str : Bytes) : Except Fault ℤ :=
  let (negative, s) := stripSign (str.dropWhile isSpace)
  match hexDigits (stripHexMark s) with
  | [] => .error (.invalidArgument (ascii "stoi"))
  | ds =>
      let value : ℕ := ds.foldl (fun acc d => acc * 16 + d) 0
      .ok (if negative then -(value : ℤ) else value)

/-- One byte from every two characters. -/
def bytesOfPairs : Bytes → Except Fault Bytes
  | a :: b :: s => do
      let value ← stoi16 [a, b]
      let rest ← bytesOfPairs s
      pure (UInt8.ofInt value :: rest)
  | _ => pure []

def stringToVector (str : Bytes) : Except Fault Bytes :=
  if str.length % 2 ≠ 0 then .ok [] else bytesOfPairs str

theorem hexValue_hexDigit {n : UInt8} (hn : n < 16) : hexValue (hexDigit n) = some n.toNat := by
  have hall : ∀ k < 16, hexValue (hexDigit (UInt8.ofNat k)) = some k := by decide
  have hk := hall n.toNat (UInt8.lt_iff_toNat_lt.mp hn)
  rwa [UInt8.ofNat_toNat] at hk

theorem high_digit_toNat (b : UInt8) : (b >>> 4).toNat = b.toNat / 16 := by
  rw [UInt8.toNat_shiftRight]
  exact Nat.shiftRight_eq_div_pow b.toNat 4

theorem high_digit_lt (b : UInt8) : b >>> 4 < 16 := by
  have hb : b.toNat < 256 := b.toNat_lt
  rw [UInt8.lt_iff_toNat_lt, high_digit_toNat]
  change b.toNat / 16 < 16
  omega

theorem low_digit_toNat (b : UInt8) : (b &&& 0x0F).toNat = b.toNat % 16 := by
  rw [UInt8.toNat_and]
  exact Nat.and_two_pow_sub_one_eq_mod b.toNat 4

theorem low_digit_lt (b : UInt8) : b &&& 0x0F < 16 := by
  rw [UInt8.lt_iff_toNat_lt, low_digit_toNat]
  exact Nat.mod_lt _ (by decide)

theorem ordinary_of_hexValue {c : UInt8} {d : ℕ} (h : hexValue c = some d) :
    isSpace c = false ∧ c ≠ 0x2B ∧ c ≠ 0x2D ∧ c ≠ 0x78 ∧ c ≠ 0x58 := by
  have hall : ∀ b : UInt8, (hexValue b).isSome →
      isSpace b = false ∧ b ≠ 0x2B ∧ b ≠ 0x2D ∧ b ≠ 0x78 ∧ b ≠ 0x58 :=
    forall_byte (by decide +kernel)
  exact hall c (h ▸ rfl)

theorem stripSign_of_hexValue {c : UInt8} {d : ℕ} (h : hexValue c = some d) (s : Bytes) :
    stripSign ((c :: s).dropWhile isSpace) = (false, c :: s) := by
  obtain ⟨hs, hp, hm, _⟩ := ordinary_of_hexValue h
  rw [List.dropWhile_cons_of_neg (by simp [hs])]
  unfold stripSign
  split
  · next he => exact absurd (List.cons.inj he).1 hp
  · next he => exact absurd (List.cons.inj he).1 hm
  · rfl

theorem stoi16_pair {a b : UInt8} {x y : ℕ} (ha : hexValue a = some x) (hb : hexValue b = some y) :
    stoi16 [a, b] = .ok (x * 16 + y : ℕ) := by
  have hmark : stripHexMark [a, b] = [a, b] := by
    unfold stripHexMark
    split
    · next he => simp at he
    · rfl
  simp only [stoi16, stripSign_of_hexValue ha, hmark, hexDigits, ha, hb]
  simp

theorem stoi16_hexDigits (b : UInt8) :
    stoi16 [hexDigit (b >>> 4), hexDigit (b &&& 0x0F)] = .ok (b.toNat : ℤ) := by
  rw [stoi16_pair (hexValue_hexDigit (high_digit_lt b)) (hexValue_hexDigit (low_digit_lt b)),
    high_digit_toNat, low_digit_toNat, Nat.mul_comm, Nat.div_add_mod]

theorem ofInt_toNat (b : UInt8) : UInt8.ofInt (b.toNat : ℤ) = b := by
  have hb : b.toNat < 256 := b.toNat_lt
  have hmod : ((b.toNat : ℤ) % 2 ^ 8).toNat = b.toNat := by omega
  rw [UInt8.ofInt, hmod, UInt8.ofNat_toNat]

@[simp] theorem toHex_nil : toHex [] = [] := rfl

@[simp] theorem toHex_cons (b : UInt8) (data : Bytes) :
    toHex (b :: data) = hexDigit (b >>> 4) :: hexDigit (b &&& 0x0F) :: toHex data := rfl

@[simp] theorem length_toHex (data : Bytes) : (toHex data).length = 2 * data.length := by
  induction data with
  | nil => rfl
  | cons b data ih => simp only [toHex_cons, List.length_cons, ih]; omega

theorem bytesOfPairs_toHex (data : Bytes) : bytesOfPairs (toHex data) = .ok data := by
  induction data with
  | nil => rfl
  | cons b data ih =>
      rw [toHex_cons, bytesOfPairs, stoi16_hexDigits, ih]
      exact congrArg (fun byte => Except.ok (byte :: data)) (ofInt_toNat b)

theorem stringToVector_toHex (data : Bytes) : stringToVector (toHex data) = .ok data := by
  rw [stringToVector, if_neg (by simp), bytesOfPairs_toHex]

theorem stoi16_error {str : Bytes} {e : Fault} (h : stoi16 str = .error e) :
    e = .invalidArgument (ascii "stoi") := by
  rw [stoi16] at h
  dsimp only at h
  split at h
  · cases h
    rfl
  · cases h

theorem bytesOfPairs_error {str : Bytes} {e : Fault} (h : bytesOfPairs str = .error e) :
    e = .invalidArgument (ascii "stoi") := by
  induction str using bytesOfPairs.induct with
  | case1 a b s ih =>
      rw [bytesOfPairs] at h
      cases hvalue : stoi16 [a, b] with
      | error e' =>
          rw [hvalue] at h
          cases h
          exact stoi16_error hvalue
      | ok value =>
          cases hrest : bytesOfPairs s with
          | error e' =>
              rw [hvalue, hrest] at h
              cases h
              exact ih hrest
          | ok rest =>
              rw [hvalue, hrest] at h
              cases h
  | case2 s hs =>
      unfold bytesOfPairs at h
      split at h
      · exact absurd rfl (hs _ _ _)
      · cases h

theorem stringToVector_error {str : Bytes} {e : Fault} (h : stringToVector str = .error e) :
    e = .invalidArgument (ascii "stoi") := by
  rw [stringToVector] at h
  split at h
  · cases h
  · exact bytesOfPairs_error h

theorem toHex_injective : Function.Injective toHex := by
  intro s t h
  have he := congrArg stringToVector h
  rw [stringToVector_toHex, stringToVector_toHex] at he
  exact Except.ok.inj he

theorem exists_hexValue_of_mem_toHex {c : UInt8} {data : Bytes} (h : c ∈ toHex data) :
    ∃ d, hexValue c = some d := by
  induction data with
  | nil => simp at h
  | cons b data ih =>
      rw [toHex_cons, List.mem_cons, List.mem_cons] at h
      rcases h with rfl | rfl | h
      · exact ⟨_, hexValue_hexDigit (high_digit_lt b)⟩
      · exact ⟨_, hexValue_hexDigit (low_digit_lt b)⟩
      · exact ih h

end StringHelper

theorem toNat_of_isDigit {c : Char} (hc : c.isDigit) : c.toNat ≤ 57 := by
  simp only [Char.isDigit, Bool.and_eq_true, decide_eq_true_eq] at hc
  exact UInt32.le_iff_toNat_le.mp hc.2

theorem toNat_digit_byte {c : Char} (hc : c.isDigit) :
    (UInt8.ofNat c.toNat).toNat = c.toNat := by
  have hle := toNat_of_isDigit hc
  rw [UInt8.toNat_ofNat', Nat.mod_eq_of_lt (by omega)]

theorem toNat_le_of_mem_toDecimal {b : UInt8} {n : ℕ} (h : b ∈ toDecimal n) :
    b.toNat ≤ 57 := by
  obtain ⟨c, hc, rfl⟩ := List.mem_map.mp h
  have hdigit := Nat.isDigit_of_mem_toDigits (by decide) le_rfl hc
  rw [toNat_digit_byte hdigit]
  exact toNat_of_isDigit hdigit

theorem toDecimal_injective : Function.Injective toDecimal := by
  intro m n h
  have hread : ∀ k : ℕ, (toDecimal k).map (fun b => Char.ofNat b.toNat) = Nat.toDigits 10 k := by
    intro k
    rw [toDecimal, List.map_map]
    refine (List.map_congr_left fun c hc => ?_).trans (List.map_id _)
    have hdigit := Nat.isDigit_of_mem_toDigits (by decide) le_rfl hc
    change Char.ofNat (UInt8.ofNat c.toNat).toNat = c
    rw [toNat_digit_byte hdigit, Char.ofNat_toNat]
  have hd : Nat.toDigits 10 m = Nat.toDigits 10 n := by rw [← hread m, h, hread n]
  calc
    m = Nat.ofDigitChars 10 (Nat.toDigits 10 m) 0 := Nat.ofDigitChars_ten_toDigits.symm
    _ = n := by rw [hd]; exact Nat.ofDigitChars_ten_toDigits

theorem underscore_notMem_toHex (data : Bytes) : 0x5F ∉ StringHelper.toHex data := by
  intro h
  obtain ⟨d, hd⟩ := StringHelper.exists_hexValue_of_mem_toHex h
  exact absurd hd (by simp [StringHelper.hexValue])

theorem underscore_notMem_toDecimal (n : ℕ) : 0x5F ∉ toDecimal n :=
  fun h => absurd (toNat_le_of_mem_toDecimal h) (by decide)

end Bitchat
