import Bitchat.Effect

/-!
# Two runs of effects

Two effects are `Related` if, from states that a relation holds of, they return the same value or
fail with the same error, in states that it holds of again. An effect that is related to itself
cannot tell related states apart.
-/

namespace Effect

variable {ε σ τ α β : Type}

def Related (R : σ → σ → Prop) (m m' : Effect ε σ α) : Prop :=
  ∀ s s', R s s' → m.result s = m'.result s' ∧ R (m.exec s) (m'.exec s')

variable {R : σ → σ → Prop}

theorem related_pure (a : α) : Related R (pure a : Effect ε σ α) (pure a) :=
  fun _ _ h => ⟨rfl, h⟩

theorem related_throw (e : ε) : Related R (throw e : Effect ε σ α) (throw e) :=
  fun _ _ h => ⟨rfl, h⟩

theorem related_modify {f f' : σ → σ} (h : ∀ s s', R s s' → R (f s) (f' s')) :
    Related R (modify f : Effect ε σ PUnit) (modify f') := fun s s' hs => ⟨rfl, h s s' hs⟩

theorem Related.bind {m m' : Effect ε σ α} {k k' : α → Effect ε σ β} (hm : Related R m m')
    (hk : ∀ a, Related R (k a) (k' a)) : Related R (m >>= k) (m' >>= k') := by
  intro s s' hs
  obtain ⟨hresult, hexec⟩ := hm s s' hs
  cases hout : m.outcome s with
  | mk r t =>
      cases hout' : m'.outcome s' with
      | mk r' t' =>
          rw [result, result, hout, hout'] at hresult
          rw [exec, exec, hout, hout'] at hexec
          obtain rfl : r = r' := hresult
          cases r with
          | error e =>
              rw [result, result, exec, exec, outcome_bind_error hout, outcome_bind_error hout']
              exact ⟨rfl, hexec⟩
          | ok a =>
              rw [result, result, exec, exec, outcome_bind_ok hout, outcome_bind_ok hout']
              exact hk a t t' hexec

/-- What follows may use the state, as far as the relation tells about it. -/
theorem related_get_bind {k k' : σ → Effect ε σ β}
    (h : ∀ s s', R s s' → Related R (k s) (k' s')) : Related R (get >>= k) (get >>= k') := by
  intro s s' hs
  rw [result, result, exec, exec, outcome_bind_ok (outcome_get s), outcome_bind_ok (outcome_get s')]
  exact h s s' hs s s' hs

theorem Related.ite {m m' n n' : Effect ε σ α} {c : Prop} [Decidable c] (hm : Related R m m')
    (hn : Related R n n') : Related R (if c then m else n) (if c then m' else n') := by
  split
  · exact hm
  · exact hn

theorem related_zoom {get : σ → τ} {put : τ → σ → σ} (m : Effect ε τ α)
    (hget : ∀ s s', R s s' → get s = get s')
    (hput : ∀ s s' t, R s s' → R (put t s) (put t s')) :
    Related R (zoom get put m) (zoom get put m) := by
  intro s s' hs
  rw [result, result, exec, exec, outcome_zoom, outcome_zoom, hget s s' hs]
  exact ⟨rfl, hput s s' _ hs⟩

end Effect
