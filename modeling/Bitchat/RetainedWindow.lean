import Mathlib.Order.Bounds.Basic
import Mathlib.Tactic

/-!
# Retained windows

Entries are filed one after the other, and from time to time the oldest ones are dropped
until at most a given number is left. What is left then is the longest suffix of what was
filed that all of these limits allow.
-/

inductive WindowEvent (α : Type) where
  | file (entry : α)
  | limit (size : ℕ)

namespace RetainedWindow

open WindowEvent

variable {α : Type}

def filed (events : List (WindowEvent α)) : List α :=
  events.filterMap fun event => match event with
    | file entry => some entry
    | limit _ => none

def keep (window : List α) : WindowEvent α → List α
  | file entry => window ++ [entry]
  | limit size => window.drop (window.length - size)

def retained (events : List (WindowEvent α)) : List α := events.foldl keep []

/-- The window can begin at `start`: whenever a limit was set, there were no more entries
from there on. -/
def Allows (events : List (WindowEvent α)) (start : ℕ) : Prop :=
  ∀ before size after, events = before ++ limit size :: after →
    (filed before).length ≤ start + size

variable {events : List (WindowEvent α)} {start : ℕ}

theorem filed_append_file (entry : α) :
    filed (events ++ [file entry]) = filed events ++ [entry] := by
  simp [filed]

theorem filed_append_limit (size : ℕ) : filed (events ++ [limit size]) = filed events := by
  simp [filed]

theorem retained_append (event : WindowEvent α) :
    retained (events ++ [event]) = keep (retained events) event := by
  rw [retained, List.foldl_append]
  rfl

/-- A split of a list at an element is at its last element or before. -/
theorem append_singleton_eq_iff {β : Type} {l before after : List β} {a b : β} :
    l ++ [a] = before ++ b :: after ↔
      (after = [] ∧ l = before ∧ a = b) ∨
        ∃ rest, after = rest ++ [a] ∧ l = before ++ b :: rest := by
  constructor
  · intro h
    rcases List.eq_nil_or_concat' after with rfl | ⟨rest, last, rfl⟩
    · obtain ⟨hl, ha⟩ := List.append_inj' h rfl
      exact .inl ⟨rfl, hl, by simpa using ha⟩
    · have hsplit : l ++ [a] = (before ++ b :: rest) ++ [last] := by simpa using h
      obtain ⟨hl, ha⟩ := List.append_inj' hsplit rfl
      obtain rfl : a = last := by simpa using ha
      exact .inr ⟨rest, rfl, hl⟩
  · rintro (⟨rfl, rfl, rfl⟩ | ⟨rest, rfl, rfl⟩)
    · rfl
    · simp

theorem allows_append_file (entry : α) :
    Allows (events ++ [file entry]) start ↔ Allows events start := by
  constructor
  · intro h before size after hsplit
    exact h before size (after ++ [file entry])
      (append_singleton_eq_iff.mpr (.inr ⟨_, rfl, hsplit⟩))
  · intro h before size after hsplit
    rcases append_singleton_eq_iff.mp hsplit with ⟨-, -, hlast⟩ | ⟨rest, -, hrest⟩
    · cases hlast
    · exact h before size rest hrest

theorem allows_append_limit (size : ℕ) : Allows (events ++ [limit size]) start ↔
    Allows events start ∧ (filed events).length ≤ start + size := by
  constructor
  · intro h
    refine ⟨fun before size' after hsplit => ?_, ?_⟩
    · exact h before size' (after ++ [limit size])
        (append_singleton_eq_iff.mpr (.inr ⟨_, rfl, hsplit⟩))
    · exact h events size [] rfl
  · rintro ⟨h, hnow⟩ before size' after hsplit
    rcases append_singleton_eq_iff.mp hsplit with ⟨-, rfl, hlast⟩ | ⟨rest, -, hrest⟩
    · cases hlast
      exact hnow
    · exact h before size' rest hrest

theorem Allows.mono {start' : ℕ} (h : Allows events start) (hle : start ≤ start') :
    Allows events start' := by
  intro before size after hsplit
  have hstart := h before size after hsplit
  omega

theorem exists_retained_eq_drop (events : List (WindowEvent α)) :
    ∃ start, IsLeast {start | Allows events start} start ∧ start ≤ (filed events).length ∧
      retained events = (filed events).drop start := by
  induction events using List.reverseRecOn with
  | nil =>
      refine ⟨0, ⟨fun before size after hsplit => ?_, fun start _ => Nat.zero_le start⟩, le_rfl,
        rfl⟩
      simp at hsplit
  | append_singleton events event ih =>
      obtain ⟨start, ⟨hallows, hleast⟩, hle, hretained⟩ := ih
      rw [retained_append, hretained]
      cases event with
      | file entry =>
          rw [filed_append_file]
          refine ⟨start, ⟨(allows_append_file entry).mpr hallows, fun start' h => ?_⟩, ?_, ?_⟩
          · exact hleast ((allows_append_file entry).mp h)
          · rw [List.length_append]
            omega
          · rw [keep, List.drop_append_of_le_length hle]
      | limit size =>
          rw [filed_append_limit]
          refine ⟨max start ((filed events).length - size), ⟨?_, fun start' h => ?_⟩, ?_, ?_⟩
          · refine (allows_append_limit size).mpr ⟨hallows.mono (Nat.le_max_left _ _), ?_⟩
            omega
          · obtain ⟨hstart, hnow⟩ := (allows_append_limit size).mp h
            have hfirst := hleast hstart
            omega
          · omega
          · rw [keep, List.drop_drop, List.length_drop]
            congr 1
            omega

end RetainedWindow
