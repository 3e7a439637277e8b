import Mathlib.Data.Nat.ModEq
import Mathlib.Tactic

/-!
# Big-endian numerals over bytes

`ofBytes` reads a byte list as a base-256 numeral, most significant byte first,
and `toBytes n` writes the low `n` digits of a number. Both are total, and a
field that is read back holds the number up to the width of the field.
-/

namespace BigEndian

def ofBytes (bs : List UInt8) : ℕ := bs.foldl (fun acc b => acc * 256 + b.toNat) 0

def toBytes : ℕ → ℕ → List UInt8
  | 0, _ => []
  | n + 1, v => toBytes n (v / 256) ++ [UInt8.ofNat v]

@[simp] theorem ofBytes_nil : ofBytes [] = 0 := rfl

@[simp] theorem ofBytes_concat (bs : List UInt8) (b : UInt8) :
    ofBytes (bs ++ [b]) = ofBytes bs * 256 + b.toNat := by
  simp [ofBytes]

@[simp] theorem length_toBytes (n v : ℕ) : (toBytes n v).length = n := by
  induction n generalizing v with
  | zero => rfl
  | succ n ih => simp [toBytes, ih]

theorem ofBytes_lt (bs : List UInt8) : ofBytes bs < 256 ^ bs.length := by
  induction bs using List.reverseRecOn with
  | nil => simp
  | append_singleton bs b ih =>
      have hb : b.toNat < 256 := b.toNat_lt
      rw [ofBytes_concat, List.length_append, List.length_singleton, pow_succ]
      omega

theorem ofBytes_toBytes (n v : ℕ) : ofBytes (toBytes n v) = v % 256 ^ n := by
  induction n generalizing v with
  | zero => simp [toBytes, Nat.mod_one]
  | succ n ih =>
      rw [toBytes, ofBytes_concat, ih, pow_succ', Nat.mod_mul]
      have hb : (UInt8.ofNat v).toNat = v % 256 := by simp
      rw [hb]
      ring

end BigEndian
