import Mathlib.Algebra.Order.BigOperators.Group.Multiset
import Mathlib.Tactic

/-!
# Items that multiply

Every item has a rank. An item can be replaced by at most `d` items of smaller rank. Then
at most `d + d ^ 2 + ... + d ^ r` items come from one of rank `r`, and there is an end to
the replacements.
-/

namespace Branching

/-- The number of items that can come from one of the given rank. -/
def descendants (d : ℕ) : ℕ → ℕ
  | 0 => 0
  | r + 1 => d * (1 + descendants d r)

theorem descendants_eq_sum (d r : ℕ) :
    descendants d r = ∑ k ∈ Finset.range r, d ^ (k + 1) := by
  induction r with
  | zero => rfl
  | succ r ih =>
      rw [descendants, ih, Finset.sum_range_succ', Nat.mul_add, Nat.mul_one, Finset.mul_sum,
        Nat.add_comm]
      simp only [pow_succ', Nat.zero_add, pow_zero, Nat.mul_one]

theorem descendants_mono (d : ℕ) : Monotone (descendants d) := by
  refine monotone_nat_of_le_succ fun r => ?_
  rw [descendants_eq_sum, descendants_eq_sum, Finset.sum_range_succ]
  exact Nat.le_add_right _ _

variable {α : Type} (rank : α → ℕ) (d : ℕ)

def weight (items : Multiset α) : ℕ := (items.map fun a => descendants d (rank a)).sum

def size (items : Multiset α) : ℕ := weight rank d items + items.card

@[simp] theorem weight_cons (a : α) (items : Multiset α) :
    weight rank d (a ::ₘ items) = descendants d (rank a) + weight rank d items := by
  simp [weight]

@[simp] theorem weight_add (items items' : Multiset α) :
    weight rank d (items + items') = weight rank d items + weight rank d items' := by
  simp [weight]

theorem weight_singleton (a : α) : weight rank d {a} = descendants d (rank a) := by
  simp [weight]

theorem size_singleton (a : α) : size rank d {a} = descendants d (rank a) + 1 := by
  rw [size, weight_singleton, Multiset.card_singleton]

theorem weight_le_card_mul {items : Multiset α} {r : ℕ} (h : ∀ b ∈ items, rank b ≤ r) :
    weight rank d items ≤ items.card * descendants d r := by
  have hle : ∀ n ∈ items.map fun a => descendants d (rank a), n ≤ descendants d r := by
    intro n hn
    obtain ⟨b, hb, rfl⟩ := Multiset.mem_map.mp hn
    exact descendants_mono d (h b hb)
  have hsum := Multiset.sum_le_card_nsmul _ _ hle
  rwa [Multiset.card_map, smul_eq_mul] at hsum

variable [DecidableEq α]

/-- What a replacement adds and what can still come from it was already counted. Some of
the `n` new items may be lost on the spot. -/
theorem weight_replace {items offspring : Multiset α} {a : α} {n : ℕ} (ha : a ∈ items)
    (hcard : offspring.card ≤ n) (hn : n ≤ d) (hpos : 0 < n → 0 < rank a)
    (hrank : ∀ b ∈ offspring, rank b < rank a) :
    weight rank d (items.erase a + offspring) + n ≤ weight rank d items := by
  have hsplit : weight rank d items =
      descendants d (rank a) + weight rank d (items.erase a) := by
    rw [← weight_cons, Multiset.cons_erase ha]
  rw [weight_add, hsplit]
  cases hr : rank a with
  | zero =>
      have hzero : n = 0 := by omega
      have hempty : offspring = 0 := Multiset.card_eq_zero.mp (by omega)
      subst hzero hempty
      simp [weight]
  | succ r =>
      have hweight := weight_le_card_mul rank d (r := r) fun b hb => by
        have hlt := hrank b hb
        omega
      have hmul : n * (1 + descendants d r) ≤ d * (1 + descendants d r) :=
        Nat.mul_le_mul_right _ hn
      have hmul' : offspring.card * descendants d r ≤ n * descendants d r :=
        Nat.mul_le_mul_right _ hcard
      rw [descendants]
      rw [Nat.mul_add, Nat.mul_one] at hmul
      omega

theorem size_replace {items offspring : Multiset α} {a : α} {n : ℕ} (ha : a ∈ items)
    (hcard : offspring.card ≤ n) (hn : n ≤ d) (hpos : 0 < n → 0 < rank a)
    (hrank : ∀ b ∈ offspring, rank b < rank a) :
    size rank d (items.erase a + offspring) < size rank d items := by
  have hweight := weight_replace rank d ha hcard hn hpos hrank
  have herase := Multiset.card_erase_add_one ha
  rw [size, size, Multiset.card_add]
  omega

end Branching
