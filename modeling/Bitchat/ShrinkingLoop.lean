import Mathlib.Tactic

/-!
# Loops that shrink their state

A `while` loop whose body may break off (`done`), go on (`yield`) or fail, together with the
size that every further iteration makes smaller. Such a loop runs without fuel, and what its
body preserves holds behind it.
-/

structure ShrinkingLoop (ε σ : Type) where
  Continues : σ → Prop
  decideContinues : DecidablePred Continues
  body : σ → Except ε (ForInStep σ)
  size : σ → ℕ
  size_lt : ∀ {s s'}, Continues s → body s = .ok (.yield s') → size s' < size s

namespace ShrinkingLoop

variable {ε σ : Type} (loop : ShrinkingLoop ε σ)

def run (s : σ) : Except ε σ :=
  haveI := loop.decideContinues
  if hc : loop.Continues s then
    match hb : loop.body s with
    | .error e => .error e
    | .ok (.done s') => .ok s'
    | .ok (.yield s') =>
        have := loop.size_lt hc hb
        run s'
  else .ok s
termination_by loop.size s

variable {loop} {s s' : σ}

theorem run_of_not_continues (h : ¬ loop.Continues s) : loop.run s = .ok s := by
  rw [run, dif_neg h]

theorem run_of_done (hc : loop.Continues s) (hb : loop.body s = .ok (.done s')) :
    loop.run s = .ok s' := by
  rw [run, dif_pos hc]
  split
  · next h => cases hb.symm.trans h
  · next h => cases hb.symm.trans h; rfl
  · next h => cases hb.symm.trans h

theorem run_of_yield (hc : loop.Continues s) (hb : loop.body s = .ok (.yield s')) :
    loop.run s = loop.run s' := by
  rw [run, dif_pos hc]
  split
  · next h => cases hb.symm.trans h
  · next h => cases hb.symm.trans h
  · next h => cases hb.symm.trans h; rfl

theorem run_of_error {e : ε} (hc : loop.Continues s) (hb : loop.body s = .error e) :
    loop.run s = .error e := by
  rw [run, dif_pos hc]
  split
  · next h => cases hb.symm.trans h; rfl
  · next h => cases hb.symm.trans h
  · next h => cases hb.symm.trans h

/-- Induction along the iterations that go on. -/
theorem yield_induction (loop : ShrinkingLoop ε σ) {motive : σ → Prop}
    (step : ∀ s, (∀ s', loop.Continues s → loop.body s = .ok (.yield s') → motive s') → motive s)
    (s : σ) : motive s := by
  induction hn : loop.size s using Nat.strong_induction_on generalizing s with
  | _ n ih => exact step s fun s' hc hb => ih _ (hn ▸ loop.size_lt hc hb) s' rfl

/-- What holds at each of the two exits of a loop holds behind it. -/
theorem run_exit (Inv Post : σ → Prop)
    (hyield : ∀ s s', Inv s → loop.Continues s → loop.body s = .ok (.yield s') → Inv s')
    (hdone : ∀ s s', Inv s → loop.Continues s → loop.body s = .ok (.done s') → Post s')
    (hstop : ∀ s, Inv s → ¬ loop.Continues s → Post s)
    (hinv : Inv s) (h : loop.run s = .ok s') : Post s' := by
  induction s using loop.yield_induction with
  | step s ih =>
    by_cases hc : loop.Continues s
    · cases hb : loop.body s with
      | error e => rw [run_of_error hc hb] at h; cases h
      | ok step =>
        cases step with
        | done t =>
            rw [run_of_done hc hb] at h
            cases h
            exact hdone s _ hinv hc hb
        | yield t =>
            rw [run_of_yield hc hb] at h
            exact ih t hc hb (hyield s t hinv hc hb) h
    · rw [run_of_not_continues hc] at h
      cases h
      exact hstop _ hinv hc

/-- An invariant that the body keeps, whether it goes on or breaks off. -/
theorem run_invariant (Inv : σ → Prop)
    (hyield : ∀ s s', Inv s → loop.Continues s → loop.body s = .ok (.yield s') → Inv s')
    (hdone : ∀ s s', Inv s → loop.Continues s → loop.body s = .ok (.done s') → Inv s')
    (hinv : Inv s) (h : loop.run s = .ok s') : Inv s' :=
  run_exit Inv Inv hyield hdone (fun _ hinv _ => hinv) hinv h

theorem run_ok (loop : ShrinkingLoop ε σ)
    (hbody : ∀ s, loop.Continues s → ∃ step, loop.body s = .ok step) (s : σ) :
    ∃ s', loop.run s = .ok s' := by
  induction s using loop.yield_induction with
  | step s ih =>
    by_cases hc : loop.Continues s
    · obtain ⟨step, hb⟩ := hbody s hc
      cases step with
      | done t => exact ⟨t, run_of_done hc hb⟩
      | yield t =>
          rw [run_of_yield hc hb]
          exact ih t hc hb
    · exact ⟨s, run_of_not_continues hc⟩

/-- A loop whose iterations follow those of another one ends where the other one does. -/
theorem run_simulates {τ : Type} (loop' : ShrinkingLoop ε τ) (R : σ → τ → Prop)
    (hcontinues : ∀ s t, R s t → (loop.Continues s ↔ loop'.Continues t))
    (hyield : ∀ s t s', R s t → loop.body s = .ok (.yield s') →
      ∃ t', loop'.body t = .ok (.yield t') ∧ R s' t')
    (hdone : ∀ s t s', R s t → loop.body s = .ok (.done s') →
      ∃ t', loop'.body t = .ok (.done t') ∧ R s' t')
    {t : τ} (hr : R s t) (h : loop.run s = .ok s') : ∃ t', loop'.run t = .ok t' ∧ R s' t' := by
  induction s using loop.yield_induction generalizing t with
  | step s ih =>
    by_cases hc : loop.Continues s
    · have hc' := (hcontinues s t hr).mp hc
      cases hb : loop.body s with
      | error e => rw [run_of_error hc hb] at h; cases h
      | ok step =>
        cases step with
        | done u =>
            obtain ⟨t', hb', hr'⟩ := hdone s t u hr hb
            rw [run_of_done hc hb] at h
            cases h
            exact ⟨t', run_of_done hc' hb', hr'⟩
        | yield u =>
            obtain ⟨t', hb', hr'⟩ := hyield s t u hr hb
            rw [run_of_yield hc hb] at h
            rw [run_of_yield hc' hb']
            exact ih u hc hb hr' h
    · have hc' := fun hc' => hc ((hcontinues s t hr).mpr hc')
      rw [run_of_not_continues hc] at h
      cases h
      exact ⟨t, run_of_not_continues hc', hr⟩

/-- The body is run `n` times, and then the loop is over with this result. -/
inductive Ends (loop : ShrinkingLoop ε σ) : ℕ → σ → Except ε σ → Prop where
  | stop {s : σ} (hc : ¬ loop.Continues s) : Ends loop 0 s (.ok s)
  | fail {s : σ} {e : ε} (hc : loop.Continues s) (hb : loop.body s = .error e) :
      Ends loop 1 s (.error e)
  | done {s s' : σ} (hc : loop.Continues s) (hb : loop.body s = .ok (.done s')) :
      Ends loop 1 s (.ok s')
  | yield {n : ℕ} {s s' : σ} {r : Except ε σ} (hc : loop.Continues s)
      (hb : loop.body s = .ok (.yield s')) (hrest : Ends loop n s' r) : Ends loop (n + 1) s r

theorem ends_run (loop : ShrinkingLoop ε σ) (s : σ) :
    ∃ n ≤ loop.size s + 1, loop.Ends n s (loop.run s) := by
  induction s using loop.yield_induction with
  | step s ih =>
    by_cases hc : loop.Continues s
    · cases hb : loop.body s with
      | error e =>
          rw [run_of_error hc hb]
          exact ⟨1, Nat.le_add_left _ _, .fail hc hb⟩
      | ok step =>
        cases step with
        | done t =>
            rw [run_of_done hc hb]
            exact ⟨1, Nat.le_add_left _ _, .done hc hb⟩
        | yield t =>
            obtain ⟨n, hn, hrest⟩ := ih t hc hb
            have hless := loop.size_lt hc hb
            rw [run_of_yield hc hb]
            exact ⟨n + 1, by omega, .yield hc hb hrest⟩
    · rw [run_of_not_continues hc]
      exact ⟨0, Nat.zero_le _, .stop hc⟩

end ShrinkingLoop

/-- What every step keeps, with a view to the rest of the list, holds at the end of a fold
that does not fail. -/
theorem Except.foldlM_invariant {ε σ α : Type} {step : σ → α → Except ε σ}
    (Inv : List α → σ → Prop)
    (hstep : ∀ a l s s', Inv (a :: l) s → step s a = .ok s' → Inv l s') {l : List α} {s s' : σ}
    (hinv : Inv l s) (h : l.foldlM step s = .ok s') : Inv [] s' := by
  induction l generalizing s with
  | nil =>
      cases h
      exact hinv
  | cons a l ih =>
      rw [List.foldlM_cons] at h
      cases hs : step s a with
      | error e => rw [hs] at h; cases h
      | ok t =>
          rw [hs] at h
          exact ih (hstep a l s t hinv hs) h
