import Mathlib.Tactic

/-!
# Reading a buffer through a moving offset

A `Reader` runs over a fixed buffer with the offset as its state. Every access is
checked against the size of the buffer, and an access outside it ends the run with
the offending index. `Decodes m enc x` says that `m`, started where `enc` begins,
returns `x` and stops where `enc` ends, whatever surrounds `enc` in the buffer.
-/

namespace ByteCursor

variable {β α γ : Type}

structure OutOfBounds where
  index : ℕ
  size : ℕ
  deriving DecidableEq, Repr

abbrev Reader (α : Type) := StateT ℕ (Except OutOfBounds) α

/-- The element at the offset, which moves on by one. -/
def next (data : List β) : Reader β := fun offset =>
  if h : offset < data.length then .ok (data[offset], offset + 1)
  else .error ⟨offset, data.length⟩

def range (data : List β) (first last : ℕ) : Except OutOfBounds (List β) :=
  if last ≤ data.length then .ok ((data.drop first).take (last - first))
  else .error ⟨last, data.length⟩

/-- A copy of the next `n` elements; the offset moves behind them. -/
def block (data : List β) (n : ℕ) : Reader (List β) := fun offset =>
  match range data offset (offset + n) with
  | .ok s => .ok (s, offset + n)
  | .error e => .error e

def fromEnd (data : List β) (n : ℕ) : Except OutOfBounds ℕ :=
  if n ≤ data.length then .ok (data.length - n) else .error ⟨n, data.length⟩

theorem next_run (data : List β) {offset : ℕ} (h : offset < data.length) :
    (next data).run offset = .ok (data[offset], offset + 1) := dif_pos h

theorem range_ok (data : List β) {first last : ℕ} (h : last ≤ data.length) :
    range data first last = .ok ((data.drop first).take (last - first)) := if_pos h

theorem block_run (data : List β) {n offset : ℕ} (h : offset + n ≤ data.length) :
    (block data n).run offset = .ok ((data.drop offset).take n, offset + n) := by
  change (match range data offset (offset + n) with
    | .ok s => Except.ok (s, offset + n)
    | .error e => .error e) = _
  rw [range_ok data h, Nat.add_sub_cancel_left]

theorem block_run_error (data : List β) {n offset : ℕ} (h : data.length < offset + n) :
    (block data n).run offset = .error ⟨offset + n, data.length⟩ := by
  change (match range data offset (offset + n) with
    | .ok s => Except.ok (s, offset + n)
    | .error e => .error e) = _
  rw [range, if_neg (by omega)]

theorem next_ok {data : List β} {offset offset' : ℕ} {b : β}
    (h : (next data).run offset = .ok (b, offset')) :
    offset' = offset + 1 ∧ offset' ≤ data.length := by
  by_cases hlt : offset < data.length
  · rw [next_run data hlt] at h
    cases h
    exact ⟨rfl, hlt⟩
  · exact absurd (h.symm.trans (dif_neg hlt)) (by simp)

theorem block_ok {data s : List β} {n offset offset' : ℕ}
    (h : (block data n).run offset = .ok (s, offset')) :
    offset' = offset + n ∧ offset' ≤ data.length := by
  by_cases hle : offset + n ≤ data.length
  · rw [block_run data hle] at h
    cases h
    exact ⟨rfl, hle⟩
  · rw [block_run_error data (by omega)] at h
    cases h

theorem length_of_block {data s : List β} {n offset offset' : ℕ}
    (h : (block data n).run offset = .ok (s, offset')) : s.length = n := by
  obtain ⟨-, hle⟩ := block_ok h
  have hoffset := (block_ok h).1
  rw [block_run data (by omega)] at h
  cases h
  rw [List.length_take, List.length_drop]
  omega

theorem run_bind_ok {m : Reader α} {k : α → Reader γ} {offset : ℕ} {r : γ × ℕ}
    (h : (m >>= k).run offset = .ok r) :
    ∃ a offset', m.run offset = .ok (a, offset') ∧ (k a).run offset' = .ok r := by
  rw [StateT.run_bind] at h
  cases hm : m.run offset with
  | error e => rw [hm] at h; cases h
  | ok x => rw [hm] at h; exact ⟨x.1, x.2, rfl, h⟩

def Decodes (m : List β → Reader α) (enc : List β) (x : α) : Prop :=
  ∀ before after : List β,
    (m (before ++ enc ++ after)).run before.length = .ok (x, before.length + enc.length)

theorem Decodes.pure (x : α) : Decodes (fun _ : List β => pure x) [] x := fun _ _ => rfl

theorem Decodes.bind {m : List β → Reader α} {k : α → List β → Reader γ} {enc enc' : List β}
    {x : α} {y : γ} (hm : Decodes m enc x) (hk : Decodes (k x) enc' y) :
    Decodes (fun data => m data >>= fun a => k a data) (enc ++ enc') y := by
  intro before after
  have h₁ := hm before (enc' ++ after)
  have h₂ := hk (before ++ enc) after
  simp only [List.append_assoc, List.length_append] at h₁ h₂ ⊢
  rw [StateT.run_bind, h₁]
  change (k x _).run _ = _
  rw [h₂, Nat.add_assoc]

/-- The encoding may be given in another form than the one the rules produce. -/
theorem Decodes.congr {m : List β → Reader α} {enc enc' : List β} {x : α}
    (h : Decodes m enc x) (he : enc = enc') : Decodes m enc' x := he ▸ h

theorem decodes_next (b : β) : Decodes next [b] b := by
  intro before after
  rw [next_run _ (by simp)]
  simp

theorem decodes_block {s : List β} {n : ℕ} (hn : s.length = n) :
    Decodes (fun data => block data n) s s := by
  intro before after
  rw [block_run _ (by simp [hn]), ← hn]
  simp

theorem Decodes.map {m : List β → Reader α} {enc : List β} {x : α} (f : α → γ)
    (hm : Decodes m enc x) : Decodes (fun data => f <$> m data) enc (f x) := by
  intro before after
  rw [StateT.run_map, hm before after]
  rfl

theorem Decodes.ite_pos {m m' : List β → Reader α} {enc : List β} {x : α} {c : Prop} [Decidable c]
    (hc : c) (hm : Decodes m enc x) :
    Decodes (fun data => if c then m data else m' data) enc x := by
  simpa only [if_pos hc] using hm

theorem Decodes.ite_neg {m m' : List β → Reader α} {enc : List β} {x : α} {c : Prop} [Decidable c]
    (hc : ¬ c) (hm : Decodes m' enc x) :
    Decodes (fun data => if c then m data else m' data) enc x := by
  simpa only [if_neg hc] using hm

/-- A test of the offset against the buffer that every position of the segment passes. -/
theorem Decodes.get_ite_pos {m m' : List β → Reader α} {enc : List β} {x : α}
    {c : ℕ → List β → Prop} [∀ offset data, Decidable (c offset data)]
    (hc : ∀ before after, c before.length (before ++ enc ++ after)) (hm : Decodes m enc x) :
    Decodes (fun data => do
      let offset ← get
      if c offset data then m data else m' data) enc x := by
  intro before after
  rw [StateT.run_bind]
  change (if c before.length _ then m _ else m' _).run _ = _
  rw [if_pos (hc before after)]
  exact hm before after

theorem Decodes.get_ite_neg {m m' : List β → Reader α} {enc : List β} {x : α}
    {c : ℕ → List β → Prop} [∀ offset data, Decidable (c offset data)]
    (hc : ∀ before after, ¬ c before.length (before ++ enc ++ after)) (hm : Decodes m' enc x) :
    Decodes (fun data => do
      let offset ← get
      if c offset data then m data else m' data) enc x := by
  intro before after
  rw [StateT.run_bind]
  change (if c before.length _ then m _ else m' _).run _ = _
  rw [if_neg (hc before after)]
  exact hm before after

/-- A segment that fills the whole buffer is read from its start to its end. -/
theorem Decodes.run_zero {m : List β → Reader α} {enc : List β} {x : α} (h : Decodes m enc x)
    (after : List β) : (m (enc ++ after)).run 0 = .ok (x, enc.length) := by
  simpa using h [] after

theorem run_bind_of_run {m : Reader α} {offset offset' : ℕ} {a : α}
    (h : m.run offset = .ok (a, offset')) (k : α → Reader γ) :
    (m >>= k).run offset = (k a).run offset' := by
  rw [StateT.run_bind, h]
  rfl

theorem run_bind_of_error {m : Reader α} {offset : ℕ} {e : OutOfBounds}
    (h : m.run offset = .error e) (k : α → Reader γ) : (m >>= k).run offset = .error e := by
  rw [StateT.run_bind, h]
  rfl

theorem next_run_error (data : List β) {offset : ℕ} (h : data.length ≤ offset) :
    (next data).run offset = .error ⟨offset, data.length⟩ := dif_neg (by omega)

/-- Started at `offset`, the reader returns and stops inside `data` or at its end. -/
def InBounds (data : List β) (m : Reader α) (offset : ℕ) : Prop :=
  ∃ a offset', m.run offset = .ok (a, offset') ∧ offset' ≤ data.length

variable {data : List β} {m m' : Reader α} {k : α → Reader γ} {offset : ℕ}

theorem InBounds.pure (a : α) (h : offset ≤ data.length) :
    InBounds data (Pure.pure a : Reader α) offset := ⟨a, offset, rfl, h⟩

theorem InBounds.bind (hm : InBounds data m offset)
    (hk : ∀ a offset', offset' ≤ data.length → InBounds data (k a) offset') :
    InBounds data (m >>= k) offset := by
  obtain ⟨a, offset', hrun, hle⟩ := hm
  obtain ⟨b, offset'', hrun', hle'⟩ := hk a offset' hle
  exact ⟨b, offset'', (run_bind_of_run hrun k).trans hrun', hle'⟩

theorem InBounds.bind_of_run {offset' : ℕ} {a : α} (hrun : m.run offset = .ok (a, offset'))
    (hk : InBounds data (k a) offset') : InBounds data (m >>= k) offset := by
  obtain ⟨b, offset'', hrun', hle⟩ := hk
  exact ⟨b, offset'', (run_bind_of_run hrun k).trans hrun', hle⟩

theorem InBounds.get_bind {k : ℕ → Reader γ} (hk : InBounds data (k offset) offset) :
    InBounds data (get >>= k) offset := hk

theorem InBounds.ite {c : Prop} [Decidable c] (hm : c → InBounds data m offset)
    (hm' : ¬ c → InBounds data m' offset) : InBounds data (if c then m else m') offset := by
  split
  · next h => exact hm h
  · next h => exact hm' h

theorem inBounds_next (h : offset < data.length) : InBounds data (next data) offset :=
  ⟨_, _, next_run data h, h⟩

theorem inBounds_block {n : ℕ} (h : offset + n ≤ data.length) :
    InBounds data (block data n) offset := ⟨_, _, block_run data h, h⟩

theorem InBounds.exists_run' (h : InBounds data m offset) : ∃ a, m.run' offset = .ok a := by
  obtain ⟨a, offset', hrun, -⟩ := h
  exact ⟨a, by rw [StateT.run'_eq, hrun]; rfl⟩

theorem run'_ok {a : α} (h : m.run' offset = .ok a) :
    ∃ offset', m.run offset = .ok (a, offset') := by
  rw [StateT.run'_eq] at h
  cases hm : m.run offset with
  | error e =>
      rw [hm] at h
      cases h
  | ok x =>
      rw [hm] at h
      cases h
      exact ⟨x.2, rfl⟩

theorem run'_error {e : OutOfBounds} (h : m.run offset = .error e) :
    m.run' offset = .error e := by
  rw [StateT.run'_eq, h]
  rfl

end ByteCursor
