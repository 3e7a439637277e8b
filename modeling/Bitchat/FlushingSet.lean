import Mathlib.Data.Finset.Card
import Mathlib.Tactic

/-!
# Sets that are emptied when they overflow

A set of bounded capacity takes one key after the other. The key that would exceed the
capacity empties the set and is lost with the rest. A key that is marked once stays in
the set exactly as long as it and everything marked since fit beside the old contents.
-/

namespace FlushingSet

variable {α : Type} [DecidableEq α] {cap : ℕ} {S : Finset α} {k : α} {ks : List α}

def mark (cap : ℕ) (S : Finset α) (k : α) : Finset α :=
  if cap < (insert k S).card then ∅ else insert k S

def markAll (cap : ℕ) (S : Finset α) (ks : List α) : Finset α := ks.foldl (mark cap) S

@[simp] theorem markAll_nil : markAll cap S [] = S := rfl

@[simp] theorem markAll_cons : markAll cap S (k :: ks) = markAll cap (mark cap S k) ks := rfl

theorem markAll_append (as bs : List α) :
    markAll cap S (as ++ bs) = markAll cap (markAll cap S as) bs := List.foldl_append

theorem mark_of_lt (h : cap < (insert k S).card) : mark cap S k = ∅ := if_pos h

theorem mark_of_le (h : (insert k S).card ≤ cap) : mark cap S k = insert k S :=
  if_neg (by omega)

/-- After a mark, a key is in the set if the mark did not empty it and the key was there
before or is the one that is marked. -/
theorem mem_mark_iff {j : α} :
    j ∈ mark cap S k ↔ ¬ cap < (insert k S).card ∧ (j ∈ S ∨ j = k) := by
  rcases Nat.lt_or_ge cap (insert k S).card with hk | hk
  · rw [mark_of_lt hk]
    exact iff_of_false (Finset.notMem_empty j) fun h => h.1 hk
  · rw [mark_of_le hk, Finset.mem_insert, or_comm]
    exact (and_iff_right (by omega)).symm

theorem mark_subset : mark cap S k ⊆ insert k S := by
  unfold mark
  split_ifs
  · exact Finset.empty_subset _
  · exact Finset.Subset.refl _

theorem union_toFinset_cons : S ∪ (k :: ks).toFinset = insert k S ∪ ks.toFinset := by
  rw [List.toFinset_cons, Finset.union_insert, Finset.insert_union]

theorem markAll_subset (S : Finset α) (ks : List α) :
    markAll cap S ks ⊆ S ∪ ks.toFinset := by
  induction ks generalizing S with
  | nil => simp
  | cons k ks ih =>
      rw [markAll_cons, union_toFinset_cons]
      exact (ih _).trans (Finset.union_subset_union_left mark_subset)

theorem markAll_of_le (h : (S ∪ ks.toFinset).card ≤ cap) :
    markAll cap S ks = S ∪ ks.toFinset := by
  induction ks generalizing S with
  | nil => simp
  | cons k ks ih =>
      rw [union_toFinset_cons] at h ⊢
      have hk : (insert k S).card ≤ cap :=
        (Finset.card_le_card Finset.subset_union_left).trans h
      rw [markAll_cons, mark_of_le hk, ih h]

theorem card_mark_le : (mark cap S k).card ≤ cap := by
  unfold mark
  split_ifs with h
  · simp
  · omega

theorem card_markAll_le (hS : S.card ≤ cap) (ks : List α) : (markAll cap S ks).card ≤ cap := by
  induction ks generalizing S with
  | nil => exact hS
  | cons k ks ih => exact ih card_mark_le

theorem notMem_markAll_empty (hks : k ∉ ks) : k ∉ markAll cap ∅ ks := by
  intro hmem
  simpa [hks] using markAll_subset ∅ ks hmem

theorem notMem_markAll_mark {j : α} (hj : cap < (insert j S).card) (hks : k ∉ ks) :
    k ∉ markAll cap (mark cap S j) ks ∧ ¬ (insert j S ∪ ks.toFinset).card ≤ cap := by
  have hsub : (insert j S).card ≤ (insert j S ∪ ks.toFinset).card :=
    Finset.card_le_card Finset.subset_union_left
  rw [mark_of_lt hj]
  exact ⟨notMem_markAll_empty hks, by omega⟩

theorem mem_markAll_iff (hS : S.card ≤ cap) (hk : k ∈ S) (hks : k ∉ ks) :
    k ∈ markAll cap S ks ↔ (S ∪ ks.toFinset).card ≤ cap := by
  induction ks generalizing S with
  | nil => simp [hS, hk]
  | cons j ks ih =>
      have hrest : k ∉ ks := fun hmem => hks (List.mem_cons_of_mem j hmem)
      rw [union_toFinset_cons, markAll_cons]
      rcases Nat.lt_or_ge cap (insert j S).card with hj | hj
      · obtain ⟨hout, hlarge⟩ := notMem_markAll_mark hj hrest
        exact iff_of_false hout hlarge
      · rw [mark_of_le hj]
        exact ih hj (Finset.mem_insert_of_mem hk) hrest

/-- The key marked first is still there exactly if the set has not overflowed since. -/
theorem mem_markAll_cons_iff (hks : k ∉ ks) :
    k ∈ markAll cap S (k :: ks) ↔ (insert k S ∪ ks.toFinset).card ≤ cap := by
  rw [markAll_cons]
  rcases Nat.lt_or_ge cap (insert k S).card with hk | hk
  · obtain ⟨hout, hlarge⟩ := notMem_markAll_mark hk hks
    exact iff_of_false hout hlarge
  · rw [mark_of_le hk]
    exact mem_markAll_iff hk (Finset.mem_insert_self k S) hks

omit [DecidableEq α] in
theorem exists_last_occurrence (hk : k ∈ ks) : ∃ as bs, ks = as ++ k :: bs ∧ k ∉ bs := by
  obtain ⟨bs, as, hsplit, hbs⟩ := List.eq_append_cons_of_mem (List.mem_reverse.mpr hk)
  refine ⟨as.reverse, bs.reverse, ?_, fun hmem => hbs (List.mem_reverse.mp hmem)⟩
  rw [← List.reverse_reverse ks, hsplit]
  simp

/-- A marked key is remembered exactly if the set has not overflowed since it was marked
for the last time. -/
theorem mem_markAll_iff_of_mem (hk : k ∈ ks) :
    k ∈ markAll cap S ks ↔ ∃ as bs, ks = as ++ k :: bs ∧ k ∉ bs ∧
      (insert k (markAll cap S as) ∪ bs.toFinset).card ≤ cap := by
  constructor
  · intro hmem
    obtain ⟨as, bs, rfl, hbs⟩ := exists_last_occurrence hk
    rw [markAll_append, mem_markAll_cons_iff hbs] at hmem
    exact ⟨as, bs, rfl, hbs, hmem⟩
  · rintro ⟨as, bs, rfl, hbs, hcard⟩
    rw [markAll_append, mem_markAll_cons_iff hbs]
    exact hcard

end FlushingSet
