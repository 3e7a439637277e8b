import Mathlib.Data.Set.Card
import Mathlib.Tactic

/-!
# Keyed lists

A list of records with a key, as a table of records: storing overwrites the first record of
the same key or appends, and finding returns the first record of a key. A list without
repeated keys represents a partial map, and the operations of the list are those of the map.
-/

namespace KeyedList

variable {α κ : Type} [DecidableEq κ] (key : α → κ)

def store (a : α) : List α → List α
  | [] => [a]
  | b :: l => if key b = key a then a :: l else b :: store a l

def find (k : κ) (l : List α) : Option α := l.find? fun a => key a = k

def remove (k : κ) (l : List α) : List α := l.filter fun a => key a ≠ k

variable {key}

theorem find_cons_self {a : α} {k : κ} (h : key a = k) (l : List α) :
    find key k (a :: l) = some a := List.find?_cons_of_pos (by simpa using h)

theorem find_cons_of_ne {a : α} {k : κ} (h : key a ≠ k) (l : List α) :
    find key k (a :: l) = find key k l := List.find?_cons_of_neg (by simpa using h)

theorem key_of_find {k : κ} {l : List α} {a : α} (h : find key k l = some a) : key a = k := by
  simpa using List.find?_some h

theorem find_eq_none_iff {k : κ} {l : List α} : find key k l = none ↔ k ∉ l.map key := by
  simp [find]

theorem isSome_find_iff {k : κ} {l : List α} : (find key k l).isSome = true ↔ k ∈ l.map key := by
  rw [← not_iff_not, ← find_eq_none_iff, Bool.not_eq_true, Option.isSome_eq_false_iff,
    Option.isNone_iff_eq_none]

/-- A record is overwritten in its place, so the keys stay, or one is added at the end. -/
theorem map_key_store (a : α) (l : List α) :
    (store key a l).map key =
      if key a ∈ l.map key then l.map key else l.map key ++ [key a] := by
  induction l with
  | nil => rfl
  | cons b l ih =>
      rw [store]
      by_cases hb : key b = key a
      · rw [if_pos hb, if_pos (by simp [hb]), List.map_cons, List.map_cons, hb]
      · have hmem : key a ∈ (b :: l).map key ↔ key a ∈ l.map key := by
          rw [List.map_cons, List.mem_cons, or_iff_right (Ne.symm hb)]
        rw [if_neg hb, List.map_cons, ih, if_congr hmem rfl rfl, List.map_cons]
        split_ifs
        · rfl
        · rfl

/-- A stored record is found under its key, and nothing else is found otherwise than before. -/
theorem find_store (a : α) (k : κ) (l : List α) :
    find key k (store key a l) = if key a = k then some a else find key k l := by
  induction l with
  | nil =>
      rw [store]
      split_ifs with ha
      · exact find_cons_self ha []
      · exact find_cons_of_ne ha []
  | cons b l ih =>
      rw [store]
      by_cases hb : key b = key a
      · rw [if_pos hb]
        split_ifs with ha
        · exact find_cons_self ha l
        · rw [find_cons_of_ne ha, find_cons_of_ne (hb.trans_ne ha)]
      · rw [if_neg hb]
        by_cases hk : key b = k
        · rw [if_neg fun ha => hb (hk.trans ha.symm), find_cons_self hk, find_cons_self hk]
        · rw [find_cons_of_ne hk, ih, find_cons_of_ne hk]

theorem find_remove (removed k : κ) (l : List α) :
    find key k (remove key removed l) = if k = removed then none else find key k l := by
  split_ifs with hk
  · rw [find_eq_none_iff, remove]
    simp [hk]
  · rw [find, remove, find, List.find?_filter]
    refine List.find?_congr fun a _ => ?_
    by_cases ha : key a = k
    · simp [ha, hk]
    · simp [ha]

/-- Without repeated keys, the record of a key is found in a part of the list if it is there. -/
theorem find_filter {l : List α} (h : (l.map key).Nodup) (p : α → Bool) (k : κ) :
    find key k (l.filter p) = (find key k l).filter p := by
  induction l with
  | nil => rfl
  | cons a l ih =>
      rw [List.map_cons, List.nodup_cons] at h
      by_cases ha : key a = k
      · rw [find_cons_self ha, List.filter_cons]
        split_ifs with hp
        · rw [find_cons_self ha, Option.filter_some, if_pos hp]
        · have hnone : find key k l = none := find_eq_none_iff.mpr (ha ▸ h.1)
          rw [ih h.2, hnone, Option.filter_some, if_neg hp]
          rfl
      · rw [find_cons_of_ne ha, List.filter_cons]
        split_ifs
        · rw [find_cons_of_ne ha, ih h.2]
        · exact ih h.2

theorem mem_of_mem_store {a b : α} {l : List α} (h : b ∈ store key a l) : b = a ∨ b ∈ l := by
  induction l with
  | nil => exact .inl (List.mem_singleton.mp h)
  | cons c l ih =>
      rw [store] at h
      split_ifs at h with hc
      · exact (List.mem_cons.mp h).imp_right (List.mem_cons_of_mem _)
      · rcases List.mem_cons.mp h with rfl | hrest
        · exact .inr List.mem_cons_self
        · exact (ih hrest).imp_right (List.mem_cons_of_mem _)

/-- Storing changes nothing if the record is there already. -/
theorem store_eq_self_iff {a b : α} {l : List α} (h : find key (key a) l = some b) :
    store key a l = l ↔ a = b := by
  induction l with
  | nil => cases h
  | cons c l ih =>
      rw [store]
      by_cases hc : key c = key a
      · rw [find_cons_self hc] at h
        rw [if_pos hc, List.cons.injEq, and_iff_left rfl, Option.some.inj h]
      · rw [find_cons_of_ne hc] at h
        rw [if_neg hc, List.cons_inj_right, ih h]

theorem mem_store_self (a : α) (l : List α) : a ∈ store key a l := by
  induction l with
  | nil => exact List.mem_singleton_self a
  | cons b l ih =>
      rw [store]
      split_ifs
      · exact List.mem_cons_self
      · exact List.mem_cons_of_mem _ ih

theorem nodup_store {a : α} {l : List α} (h : (l.map key).Nodup) :
    ((store key a l).map key).Nodup := by
  rw [map_key_store]
  split_ifs with ha
  · exact h
  · exact List.nodup_append'.mpr ⟨h, List.nodup_singleton _,
      List.disjoint_singleton.mpr ha⟩

omit [DecidableEq κ] in
theorem nodup_filter {l : List α} (h : (l.map key).Nodup) (p : α → Bool) :
    ((l.filter p).map key).Nodup := h.sublist (List.filter_sublist.map key)

theorem find_of_mem {l : List α} (h : (l.map key).Nodup) {a : α} (ha : a ∈ l) :
    find key (key a) l = some a := by
  induction l with
  | nil => cases ha
  | cons b l ih =>
      rw [List.map_cons, List.nodup_cons] at h
      rcases List.mem_cons.mp ha with rfl | ha
      · exact find_cons_self rfl l
      · have hne : key b ≠ key a := fun heq => h.1 (heq ▸ List.mem_map_of_mem ha)
        rw [find_cons_of_ne hne, ih h.2 ha]

/-- The records of other keys stay as they are and in their order. -/
theorem filter_store {p : κ → Bool} {a : α} (h : p (key a) = false) (l : List α) :
    (store key a l).filter (fun b => p (key b)) = l.filter fun b => p (key b) := by
  induction l with
  | nil => rw [store, List.filter_cons_of_neg (by simp [h])]
  | cons b l ih =>
      rw [store]
      split_ifs with hb
      · rw [List.filter_cons_of_neg (by simp [h]), List.filter_cons_of_neg (by simp [hb, h])]
      · rw [List.filter_cons, ih, List.filter_cons]

theorem mem_store_of_ne {a b : α} {l : List α} (h : b ∈ l) (hne : key b ≠ key a) :
    b ∈ store key a l := by
  have hfilter : (store key a l).filter (fun b => decide (key b ≠ key a)) =
      l.filter fun b => decide (key b ≠ key a) :=
    filter_store (p := fun k => decide (k ≠ key a)) (by simp) l
  have hmem : b ∈ l.filter fun b => decide (key b ≠ key a) := by simp [h, hne]
  rw [← hfilter] at hmem
  exact List.mem_of_mem_filter hmem

theorem filter_remove {p : κ → Bool} {removed : κ} (h : p removed = false) (l : List α) :
    (remove key removed l).filter (fun b => p (key b)) = l.filter fun b => p (key b) := by
  rw [remove, List.filter_filter]
  refine List.filter_congr fun a _ => ?_
  by_cases ha : key a = removed
  · simp [ha, h]
  · simp [ha]

variable (key)

structure Represents (l : List α) (table : κ → Option α) : Prop where
  distinct : (l.map key).Nodup
  find : ∀ k, find key k l = table k

variable {key} {l : List α} {table : κ → Option α}

theorem represents_nil : Represents key [] fun _ => none := ⟨List.nodup_nil, fun _ => rfl⟩

theorem Represents.store (h : Represents key l table) (a : α) :
    Represents key (store key a l) (Function.update table (key a) (some a)) := by
  refine ⟨nodup_store h.distinct, fun k => ?_⟩
  rw [find_store, h.find, Function.update_apply, if_congr eq_comm rfl rfl]

theorem Represents.remove (h : Represents key l table) (removed : κ) :
    Represents key (remove key removed l) (Function.update table removed none) := by
  refine ⟨nodup_filter h.distinct _, fun k => ?_⟩
  rw [find_remove, h.find, Function.update_apply]

theorem Represents.filter (h : Represents key l table) (p : α → Bool) :
    Represents key (l.filter p) fun k => (table k).filter p := by
  refine ⟨nodup_filter h.distinct p, fun k => ?_⟩
  rw [find_filter h.distinct, h.find]

theorem Represents.length (h : Represents key l table) :
    l.length = {k | (table k).isSome = true}.ncard := by
  have hkeys : {k | (table k).isSome = true} = ((l.map key).toFinset : Set κ) := by
    ext k
    change (table k).isSome = true ↔ k ∈ (l.map key).toFinset
    rw [← h.find, isSome_find_iff, List.mem_toFinset]
  rw [hkeys, Set.ncard_coe_finset, List.toFinset_card_of_nodup h.distinct, List.length_map]

section Map

variable {β : Type} {key' : β → κ} {f : α → β} (hf : ∀ a, key' (f a) = key a)
include hf

theorem map_store (a : α) (l : List α) :
    (store key a l).map f = store key' (f a) (l.map f) := by
  induction l with
  | nil => rfl
  | cons b l ih =>
      rw [store, List.map_cons, store, hf, hf]
      split_ifs
      · rfl
      · rw [List.map_cons, ih]

theorem map_remove (k : κ) (l : List α) : (remove key k l).map f = remove key' k (l.map f) := by
  rw [remove, remove, List.filter_map]
  refine congrArg (List.map f) (List.filter_congr fun a _ => ?_)
  rw [Function.comp_apply, hf]

theorem map_find (k : κ) (l : List α) : (find key k l).map f = find key' k (l.map f) := by
  rw [find, find, List.find?_map]
  refine congrArg (Option.map f) (List.find?_congr fun a _ => ?_)
  rw [Function.comp_apply, hf]

end Map

section Change

variable (key)

inductive Change (α : Type) where
  | keep
  | put (a : α)
  | drop

def Change.apply (k : κ) : Change α → List α → List α
  | keep, l => l
  | put a, l => store key a l
  | drop, l => remove key k l

def Change.Under (k : κ) : Change α → Prop
  | keep => True
  | put a => key a = k
  | drop => True

variable {key} {a b : α} {k k' : κ}

theorem store_store (h : key a = key b) (l : List α) :
    store key b (store key a l) = store key b l := by
  induction l with
  | nil => simp [store, h]
  | cons c l ih =>
      rw [store, store]
      by_cases hc : key c = key a
      · rw [if_pos hc, if_pos (hc.trans h), store, if_pos h]
      · rw [if_neg hc, if_neg (h ▸ hc), store, if_neg (h ▸ hc), ih]

theorem remove_remove (k : κ) (l : List α) :
    remove key k (remove key k l) = remove key k l := by
  rw [remove, remove, List.filter_filter]
  simp

theorem find_store_self (h : key a = k) (l : List α) : find key k (store key a l) = some a := by
  rw [find_store, if_pos h]

theorem find_remove_self (k : κ) (l : List α) : find key k (remove key k l) = none := by
  rw [find_remove, if_pos rfl]

theorem store_eq_iff (h : key a = key b) {l : List α} :
    store key a l = store key b l ↔ a = b := by
  constructor
  · intro heq
    have hfind := congrArg (find key (key b)) heq
    rw [find_store_self h, find_store_self rfl] at hfind
    exact Option.some_inj.mp hfind
  · exact congrArg fun a => store key a l

theorem store_ne_remove (h : key a = k) (l l' : List α) : store key a l ≠ remove key k l' := by
  intro heq
  have hfind := congrArg (find key k) heq
  rw [find_store_self h, find_remove_self] at hfind
  cases hfind

theorem find_apply_of_ne {change : Change α} (h : change.Under key k) (hne : k ≠ k')
    (l : List α) : find key k' (change.apply key k l) = find key k' l := by
  cases change with
  | keep => rfl
  | put a =>
      have ha : key a = k := h
      rw [Change.apply, find_store, if_neg (ha.trans_ne hne)]
  | drop => rw [Change.apply, find_remove, if_neg hne.symm]

end Change

end KeyedList
