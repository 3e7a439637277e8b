import Mathlib.Data.Finset.Card
import Mathlib.Data.List.AList

/-!
# Fibres of a finite map

The keys of a finite map at whose records a view has a given value, and how they change when
a record is stored.
-/

namespace MapFibre

variable {κ β ν : Type} [DecidableEq κ] [DecidableEq ν] {view : β → ν}

def fibre (view : β → ν) (m : AList fun _ : κ => β) (v : ν) : Finset κ :=
  m.keys.toFinset.filter fun k => (m.lookup k).any fun b => view b = v

variable {m : AList fun _ : κ => β} {k : κ} {b : β} {v : ν}

theorem mem_fibre : k ∈ fibre view m v ↔ ∃ b, m.lookup k = some b ∧ view b = v := by
  rw [fibre, Finset.mem_filter, List.mem_toFinset, ← AList.mem_keys, ← AList.lookup_isSome]
  cases hlookup : m.lookup k with
  | none => simp
  | some b => simp

theorem fibre_insert : fibre view (m.insert k b) v =
    if view b = v then insert k (fibre view m v) else (fibre view m v).erase k := by
  ext k'
  by_cases hk : k' = k
  · subst hk
    split_ifs with hv
    · simp [mem_fibre, hv]
    · simp [mem_fibre, hv]
  · split_ifs
    · simp [mem_fibre, hk]
    · simp [mem_fibre, hk]

/-- A record that looks the same as the one before changes no fibre. -/
theorem fibre_insert_of_view_eq {a : β} (hlookup : m.lookup k = some a) (hview : view a = view b) :
    fibre view (m.insert k b) v = fibre view m v := by
  rw [fibre_insert]
  split_ifs with hv
  · exact Finset.insert_eq_of_mem (mem_fibre.mpr ⟨a, hlookup, hview.trans hv⟩)
  · refine Finset.erase_eq_of_notMem fun hmem => ?_
    obtain ⟨a', ha', hv'⟩ := mem_fibre.mp hmem
    obtain rfl : a = a' := Option.some_inj.mp (hlookup.symm.trans ha')
    exact hv (hview.symm.trans hv')

theorem notMem_fibre_of_lookup_eq_none (hlookup : m.lookup k = none) : k ∉ fibre view m v := by
  intro hmem
  obtain ⟨a, ha, -⟩ := mem_fibre.mp hmem
  rw [hlookup] at ha
  cases ha

theorem card_fibre_insert_of_new (hlookup : m.lookup k = none) :
    (fibre view (m.insert k b) v).card =
      (fibre view m v).card + if view b = v then 1 else 0 := by
  have hnew : k ∉ fibre view m v := notMem_fibre_of_lookup_eq_none hlookup
  rw [fibre_insert]
  split_ifs
  · exact Finset.card_insert_of_notMem hnew
  · rw [Finset.erase_eq_of_notMem hnew, Nat.add_zero]

theorem card_fibre_pos {a : β} (hlookup : m.lookup k = some a) :
    0 < (fibre view m (view a)).card :=
  Finset.card_pos.mpr ⟨k, mem_fibre.mpr ⟨a, hlookup, rfl⟩⟩

/-- A record that looks different moves its key from one fibre to the other. -/
theorem card_fibre_insert_of_moved {a : β} (hlookup : m.lookup k = some a)
    (hview : view a ≠ view b) :
    (fibre view (m.insert k b) v).card =
      if view b = v then (fibre view m v).card + 1
      else if view a = v then (fibre view m v).card - 1 else (fibre view m v).card := by
  have hmem : k ∈ fibre view m v ↔ view a = v := by
    rw [mem_fibre, hlookup]
    simp
  rw [fibre_insert]
  split_ifs with hb ha
  · exact Finset.card_insert_of_notMem fun h => hview ((hmem.mp h).trans hb.symm)
  · exact Finset.card_erase_of_mem (hmem.mpr ha)
  · rw [Finset.erase_eq_of_notMem fun h => ha (hmem.mp h)]

end MapFibre
