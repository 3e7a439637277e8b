import Mathlib.Tactic

/-!
# Effects that may fail

An `Effect` changes a state and returns a value or fails; a failure keeps the changes made
before it. `Respects R m` states that a run of `m`, failed or not, takes every state to one
that is related to it by `R`. For a preorder `R` the rule of sequencing makes this a property
of the parts, so that what a long action leaves alone is read off from its steps.
-/

abbrev Effect (ε σ α : Type) := ExceptT ε (StateM σ) α

namespace Effect

variable {ε σ τ α β : Type}

def outcome (m : Effect ε σ α) (s : σ) : Except ε α × σ := m.run.run s

def result (m : Effect ε σ α) (s : σ) : Except ε α := (m.outcome s).1

def exec (m : Effect ε σ α) (s : σ) : σ := (m.outcome s).2

theorem ext {m m' : Effect ε σ α} (h : ∀ s, m.outcome s = m'.outcome s) : m = m' :=
  ExceptT.ext (funext h)

def zoom (get : σ → τ) (put : τ → σ → σ) (m : Effect ε τ α) : Effect ε σ α :=
  ExceptT.mk fun s => ((m.outcome (get s)).1, put (m.outcome (get s)).2 s)

@[simp] theorem outcome_throw (e : ε) (s : σ) :
    outcome (throw e : Effect ε σ α) s = (.error e, s) := rfl

@[simp] theorem outcome_get (s : σ) : outcome (get : Effect ε σ σ) s = (.ok s, s) := rfl

@[simp] theorem outcome_zoom (get : σ → τ) (put : τ → σ → σ) (m : Effect ε τ α) (s : σ) :
    (zoom get put m).outcome s = ((m.outcome (get s)).1, put (m.outcome (get s)).2 s) := rfl

/-- The rest of a sequence runs on what its first part returned, unless that failed. -/
theorem outcome_bind (m : Effect ε σ α) (k : α → Effect ε σ β) (s : σ) :
    (m >>= k).outcome s = match m.outcome s with
      | (.ok a, s') => (k a).outcome s'
      | (.error e, s') => (.error e, s') := by
  change (ExceptT.bindCont k (m.outcome s).1).run (m.outcome s).2 = _
  rcases m.outcome s with ⟨_ | _, _⟩ <;> rfl

theorem outcome_bind_ok {m : Effect ε σ α} {s s' : σ} {a : α} (h : m.outcome s = (.ok a, s'))
    (k : α → Effect ε σ β) : (m >>= k).outcome s = (k a).outcome s' := by
  rw [outcome_bind, h]

theorem outcome_bind_error {m : Effect ε σ α} {s s' : σ} {e : ε}
    (h : m.outcome s = (.error e, s')) (k : α → Effect ε σ β) :
    (m >>= k).outcome s = (.error e, s') := by
  rw [outcome_bind, h]

theorem outcome_bind_inv {m : Effect ε σ α} {k : α → Effect ε σ β} {s s'' : σ} {b : β}
    (h : (m >>= k).outcome s = (.ok b, s'')) :
    ∃ a s', m.outcome s = (.ok a, s') ∧ (k a).outcome s' = (.ok b, s'') := by
  cases hm : m.outcome s with
  | mk r s' =>
      cases r with
      | error e =>
          rw [outcome_bind_error hm] at h
          cases h
      | ok a =>
          rw [outcome_bind_ok hm] at h
          exact ⟨a, s', rfl, h⟩

theorem exec_bind_pure (m : Effect ε σ α) (b : β) (s : σ) :
    (m >>= fun _ => pure b).exec s = m.exec s := by
  rw [exec, exec, outcome_bind]
  rcases m.outcome s with ⟨_ | _, _⟩ <;> rfl

def Respects (R : σ → σ → Prop) (m : Effect ε σ α) : Prop := ∀ s, R s (m.exec s)

variable {R : σ → σ → Prop}

theorem respects_pure [Std.Refl R] (a : α) : Respects R (pure a : Effect ε σ α) :=
  fun s => refl_of R s

theorem respects_throw [Std.Refl R] (e : ε) : Respects R (throw e : Effect ε σ α) :=
  fun s => refl_of R s

theorem respects_get [Std.Refl R] : Respects R (get : Effect ε σ σ) := fun s => refl_of R s

theorem respects_modify {f : σ → σ} (h : ∀ s, R s (f s)) :
    Respects R (modify f : Effect ε σ PUnit) := h

theorem respects_zoom {get : σ → τ} {put : τ → σ → σ} (m : Effect ε τ α)
    (h : ∀ s t, R s (put t s)) : Respects R (zoom get put m) := fun s => h s _

/-- The rest of a sequence need only respect the relation on what its first part can return. -/
theorem Respects.bind_of [IsTrans σ R] {m : Effect ε σ α} {k : α → Effect ε σ β}
    (hm : Respects R m)
    (hk : ∀ s a s', m.outcome s = (.ok a, s') → R s' ((k a).exec s')) : Respects R (m >>= k) := by
  intro s
  have hs := hm s
  rw [exec] at hs ⊢
  cases hout : m.outcome s with
  | mk r s' =>
      rw [hout] at hs
      cases r with
      | error e => rwa [outcome_bind_error hout]
      | ok a =>
          rw [outcome_bind_ok hout]
          exact trans_of R hs (hk s a s' hout)

theorem Respects.bind [IsTrans σ R] {m : Effect ε σ α} {k : α → Effect ε σ β}
    (hm : Respects R m) (hk : ∀ a, Respects R (k a)) : Respects R (m >>= k) :=
  hm.bind_of fun _ a s' _ => hk a s'

/-- The rest of a sequence leads on from where its first part ended, or is not run at all. -/
theorem Respects.exec_bind [Std.Refl R] {k : α → Effect ε σ β} (hk : ∀ a, Respects R (k a))
    (m : Effect ε σ α) (s : σ) : R (m.exec s) ((m >>= k).exec s) := by
  rw [exec, exec]
  cases hout : m.outcome s with
  | mk r s' =>
      cases r with
      | error e =>
          rw [outcome_bind_error hout]
          exact refl_of R s'
      | ok a =>
          rw [outcome_bind_ok hout]
          exact hk a s'

theorem Respects.zoom {R' : τ → τ → Prop} {get : σ → τ} {put : τ → σ → σ} {m : Effect ε τ α}
    (hm : Respects R' m) (h : ∀ s t, R' (get s) t → R s (put t s)) :
    Respects R (zoom get put m) := fun s => h s _ (hm (get s))

theorem Respects.ite {m m' : Effect ε σ α} {c : Prop} [Decidable c] (hm : Respects R m)
    (hm' : Respects R m') : Respects R (if c then m else m') := by
  split
  · exact hm
  · exact hm'

/-- From every state with `P` the effect returns, in a state that has `P` again. -/
def Succeeds (P : σ → Prop) (m : Effect ε σ α) : Prop :=
  ∀ s, P s → ∃ a s', m.outcome s = (.ok a, s') ∧ P s'

variable {P : σ → Prop}

theorem succeeds_pure (a : α) : Succeeds P (pure a : Effect ε σ α) := fun s hs => ⟨a, s, rfl, hs⟩

theorem succeeds_get : Succeeds P (get : Effect ε σ σ) := fun s hs => ⟨s, s, rfl, hs⟩

theorem succeeds_modify {f : σ → σ} (h : ∀ s, P s → P (f s)) :
    Succeeds P (modify f : Effect ε σ PUnit) := fun s hs => ⟨⟨⟩, f s, rfl, h s hs⟩

theorem Succeeds.bind {m : Effect ε σ α} {k : α → Effect ε σ β} (hm : Succeeds P m)
    (hk : ∀ a, Succeeds P (k a)) : Succeeds P (m >>= k) := by
  intro s hs
  obtain ⟨a, s', hout, hs'⟩ := hm s hs
  rw [outcome_bind_ok hout]
  exact hk a s' hs'

theorem Succeeds.ite {m m' : Effect ε σ α} {c : Prop} [Decidable c] (hm : Succeeds P m)
    (hm' : Succeeds P m') : Succeeds P (if c then m else m') := by
  split
  · exact hm
  · exact hm'

theorem Succeeds.result {m : Effect ε σ PUnit} (h : Succeeds P m) {s : σ} (hs : P s) :
    m.result s = .ok ⟨⟩ := by
  obtain ⟨a, s', hout, -⟩ := h s hs
  rw [Effect.result, hout]

end Effect
