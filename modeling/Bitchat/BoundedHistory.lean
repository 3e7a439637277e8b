import Mathlib.Data.List.DropRight
import Mathlib.Data.List.Infix
import Mathlib.Tactic

/-!
# Lists that keep the latest entries

A list of bounded length takes one entry after the other and drops the oldest one when it is
full. Two uses of it: a filter that lets an entry pass unless it is among the latest that
passed, and a queue that loses what has waited for too long.
-/

namespace BoundedHistory

variable {α : Type} {cap : ℕ} {x : α}

def enter (cap : ℕ) (entries : List α) (x : α) : List α :=
  (if cap ≤ entries.length then entries.drop 1 else entries) ++ [x]

theorem length_enter_le {entries : List α} (hcap : 0 < cap) (h : entries.length ≤ cap) :
    (enter cap entries x).length ≤ cap := by
  unfold enter
  split_ifs
  · rw [List.length_append, List.length_drop, List.length_singleton]
    omega
  · rw [List.length_append, List.length_singleton]
    omega

theorem enter_rtake (hcap : 0 < cap) (past : List α) (x : α) :
    enter cap (past.rtake cap) x = (past ++ [x]).rtake cap := by
  have hlength : (past.rtake cap).length = min cap past.length := by
    rw [List.rtake, List.length_drop]
    omega
  unfold enter
  rw [hlength]
  split_ifs with hfull
  · rw [List.rtake, List.rtake, List.drop_drop, List.length_append, List.length_singleton,
      List.drop_append_of_le_length (by omega)]
    congr 2
    omega
  · have hall : past.rtake cap = past := by
      rw [List.rtake, Nat.sub_eq_zero_of_le (by omega), List.drop_zero]
    rw [hall, List.rtake, List.length_append, List.length_singleton,
      Nat.sub_eq_zero_of_le (by omega), List.drop_zero]

/-- The filter knows the latest of the entries that have passed. -/
structure Filters (cap : ℕ) (known passed : List α) : Prop where
  latest : known = passed.rtake cap
  spread : ∀ window, window <:+: passed → window.length ≤ cap + 1 → window.Nodup

section Filters

variable {known passed : List α}

theorem filters_nil : Filters cap ([] : List α) [] := by
  refine ⟨by simp, fun window hwindow _ => ?_⟩
  rw [List.infix_nil.mp hwindow]
  exact List.nodup_nil

theorem Filters.subset (h : Filters cap known passed) : known ⊆ passed := by
  rw [h.latest]
  exact List.drop_subset _ _

theorem Filters.length_le (h : Filters cap known passed) : known.length ≤ cap := by
  rw [h.latest, List.rtake, List.length_drop]
  omega

/-- A new window is an old one, or it ends with the new entry, which the filter did not
know. -/
theorem Filters.enter (h : Filters cap known passed) (hcap : 0 < cap) (hx : x ∉ known) :
    Filters cap (enter cap known x) (passed ++ [x]) := by
  refine ⟨by rw [h.latest, enter_rtake hcap], fun window hwindow hlength => ?_⟩
  rcases List.infix_concat_iff.mp hwindow with hsuffix | hold
  · rcases List.suffix_concat_iff.mp hsuffix with rfl | ⟨rest, rfl, hrest⟩
    · exact List.nodup_nil
    · rw [List.length_append, List.length_singleton] at hlength
      have hknown : rest <:+ known := by
        rw [h.latest]
        refine List.suffix_of_suffix_length_le hrest (List.drop_suffix _ _) ?_
        have hle := hrest.length_le
        rw [List.rtake, List.length_drop]
        omega
      rw [List.nodup_append]
      refine ⟨h.spread rest hrest.isInfix (by omega), List.nodup_singleton x, ?_⟩
      intro a ha b hb hab
      rw [List.mem_singleton] at hb
      exact hx (hknown.subset (hb ▸ hab ▸ ha))
  · exact h.spread window hold hlength

/-- As long as the filter can know all entries there are, none of them passes twice. -/
theorem Filters.nodup_passed [DecidableEq α] (h : Filters cap known passed)
    (hfew : passed.toFinset.card ≤ cap) : passed.Nodup := by
  refine h.spread passed List.infix_rfl ?_
  by_contra hlong
  have hwindow := h.spread (passed.take (cap + 1)) (List.take_prefix _ _).isInfix
    (List.length_take_le _ _)
  have hcard := List.toFinset_card_of_nodup hwindow
  rw [List.length_take, Nat.min_eq_left (by omega)] at hcard
  have hsub : (passed.take (cap + 1)).toFinset ⊆ passed.toFinset := by
    intro a ha
    rw [List.mem_toFinset] at ha ⊢
    exact List.mem_of_mem_take ha
  have hle := Finset.card_le_card hsub
  omega

end Filters

/-- What has been taken out of the queue and what waits in it, in the order in which it was
put in. -/
structure Queues (cap : ℕ) (waiting taken entered : List α) : Prop where
  sublist : List.Sublist (taken ++ waiting) entered
  suffix : waiting <:+ entered
  length_le : waiting.length ≤ cap

section Queues

variable {waiting taken entered : List α}

theorem queues_nil : Queues cap ([] : List α) [] [] :=
  ⟨List.Sublist.refl _, List.suffix_rfl, Nat.zero_le _⟩

theorem enter_suffix (hsuffix : waiting <:+ entered) :
    enter cap waiting x <:+ entered ++ [x] := by
  have hkept : (if cap ≤ waiting.length then waiting.drop 1 else waiting) <:+ waiting := by
    split_ifs
    · exact List.drop_suffix _ _
    · exact List.suffix_rfl
  exact (List.suffix_append_inj_of_length_eq rfl).mpr ⟨hkept.trans hsuffix, rfl⟩

theorem Queues.push (h : Queues cap waiting taken entered) (hcap : 0 < cap) (x : α) :
    Queues cap (enter cap waiting x) taken (entered ++ [x]) := by
  refine ⟨?_, enter_suffix h.suffix, length_enter_le hcap h.length_le⟩
  have hkept : List.Sublist (if cap ≤ waiting.length then waiting.drop 1 else waiting) waiting := by
    split_ifs
    · exact List.drop_sublist _ _
    · exact List.Sublist.refl _
  unfold enter
  rw [← List.append_assoc]
  exact (((List.Sublist.refl taken).append hkept).trans h.sublist).append (List.Sublist.refl [x])

theorem Queues.pop (h : Queues cap (x :: waiting) taken entered) :
    Queues cap waiting (taken ++ [x]) entered := by
  refine ⟨?_, (List.suffix_cons x waiting).trans h.suffix, ?_⟩
  · rw [List.append_assoc]
    exact h.sublist
  · exact (Nat.le_succ _).trans h.length_le

theorem append_enter_eq_iff (hall : taken ++ waiting = entered) (hcap : 0 < cap) :
    taken ++ enter cap waiting x = entered ++ [x] ↔ waiting.length < cap := by
  unfold enter
  split_ifs with hfull
  · refine iff_of_false (fun heq => ?_) (by omega)
    have hlength := congrArg List.length heq
    rw [← hall] at hlength
    simp only [List.length_append, List.length_drop, List.length_singleton] at hlength
    omega
  · refine iff_of_true ?_ (by omega)
    rw [← hall, List.append_assoc]

end Queues

end BoundedHistory
