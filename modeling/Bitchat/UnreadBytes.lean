import Bitchat.ByteCursor

/-!
# Readers as functions of what is left

`Reads m s x t` says that `m`, started where only `s` is left of the buffer, returns `x` and
leaves `t`, whatever stands in front. It speaks about every continuation of a buffer, where
`Decodes` speaks about one segment that is read completely.
-/

namespace ByteCursor

variable {β α γ : Type} {m m' : List β → Reader α} {k : α → List β → Reader γ}
  {s t u : List β} {x : α} {y : γ}

def Reads (m : List β → Reader α) (s : List β) (x : α) (t : List β) : Prop :=
  ∃ consumed, s = consumed ++ t ∧ ∀ before : List β,
    (m (before ++ s)).run before.length = .ok (x, before.length + consumed.length)

theorem Reads.pure (x : α) (s : List β) : Reads (fun _ => Pure.pure x) s x s :=
  ⟨[], rfl, fun _ => rfl⟩

theorem Reads.bind (hm : Reads m s x t) (hk : Reads (k x) t y u) :
    Reads (fun data => m data >>= fun a => k a data) s y u := by
  obtain ⟨consumed, rfl, hrun⟩ := hm
  obtain ⟨consumed', rfl, hrun'⟩ := hk
  refine ⟨consumed ++ consumed', (List.append_assoc _ _ _).symm, fun before => ?_⟩
  have hnext := hrun' (before ++ consumed)
  rw [List.append_assoc, List.length_append] at hnext
  rw [run_bind_of_run (hrun before), hnext, List.length_append, Nat.add_assoc]

theorem Reads.map (f : α → γ) (hm : Reads m s x t) :
    Reads (fun data => f <$> m data) s (f x) t := by
  obtain ⟨consumed, hs, hrun⟩ := hm
  refine ⟨consumed, hs, fun before => ?_⟩
  rw [StateT.run_map, hrun before]
  rfl

theorem Reads.get_ite_pos {c : ℕ → List β → Prop} [∀ offset data, Decidable (c offset data)]
    (hc : ∀ before : List β, c before.length (before ++ s)) (hm : Reads m s x t) :
    Reads (fun data => do
      let offset ← get
      if c offset data then m data else m' data) s x t := by
  obtain ⟨consumed, hs, hrun⟩ := hm
  refine ⟨consumed, hs, fun before => ?_⟩
  rw [StateT.run_bind]
  change (if c before.length _ then m _ else m' _).run _ = _
  rw [if_pos (hc before)]
  exact hrun before

theorem Reads.get_ite_neg {c : ℕ → List β → Prop} [∀ offset data, Decidable (c offset data)]
    (hc : ∀ before : List β, ¬ c before.length (before ++ s)) (hm : Reads m' s x t) :
    Reads (fun data => do
      let offset ← get
      if c offset data then m data else m' data) s x t := by
  obtain ⟨consumed, hs, hrun⟩ := hm
  refine ⟨consumed, hs, fun before => ?_⟩
  rw [StateT.run_bind]
  change (if c before.length _ then m _ else m' _).run _ = _
  rw [if_neg (hc before)]
  exact hrun before

theorem reads_next (b : β) (s : List β) : Reads next (b :: s) b s := by
  refine ⟨[b], rfl, fun before => ?_⟩
  rw [next_run _ (by simp)]
  simp

theorem reads_block {n : ℕ} (hn : n ≤ s.length) :
    Reads (fun data => block data n) s (s.take n) (s.drop n) := by
  refine ⟨s.take n, (List.take_append_drop n s).symm, fun before => ?_⟩
  rw [block_run _ (by rw [List.length_append]; omega), List.drop_left, List.length_take_of_le hn]

theorem Decodes.reads {enc : List β} (h : Decodes m enc x) (t : List β) :
    Reads m (enc ++ t) x t :=
  ⟨enc, rfl, fun before => by rw [← List.append_assoc, h before t]⟩

theorem Reads.run_drop {data : List β} {n : ℕ} (hn : n ≤ data.length)
    (h : Reads m (data.drop n) x t) :
    (m data).run n = .ok (x, data.length - t.length) := by
  obtain ⟨consumed, hdrop, hrun⟩ := h
  have hfront := hrun (data.take n)
  rw [List.take_append_drop, List.length_take_of_le hn] at hfront
  have hlen := congrArg List.length hdrop
  rw [List.length_drop, List.length_append] at hlen
  rw [hfront, show n + consumed.length = data.length - t.length by omega]

theorem Reads.run'_zero (h : Reads m s x t) : (m s).run' 0 = .ok x := by
  obtain ⟨consumed, -, hrun⟩ := h
  have hstart : (m s).run 0 = .ok (x, ([] : List β).length + consumed.length) := hrun []
  rw [StateT.run'_eq, hstart]
  rfl

def Between (data : List β) (first last : ℕ) (s : List β) : Prop :=
  data.drop first = s ++ data.drop last

theorem Between.nil (data : List β) (first : ℕ) : Between data first first [] := rfl

theorem Between.append {data : List β} {first middle last : ℕ} {s t : List β}
    (hs : Between data first middle s) (ht : Between data middle last t) :
    Between data first last (s ++ t) := by
  rw [Between, hs, ht, List.append_assoc]

theorem between_of_next {data : List β} {first last : ℕ} {b : β}
    (h : (next data).run first = .ok (b, last)) : Between data first last [b] := by
  by_cases hlt : first < data.length
  · rw [next_run data hlt] at h
    cases h
    exact List.drop_eq_getElem_cons hlt
  · rw [next_run_error data (Nat.le_of_not_lt hlt)] at h
    cases h

theorem between_of_block {data s : List β} {n first last : ℕ}
    (h : (block data n).run first = .ok (s, last)) : Between data first last s := by
  obtain ⟨hlast, hle⟩ := block_ok h
  rw [block_run data (by omega)] at h
  cases h
  rw [Between, ← List.drop_drop, List.take_append_drop]

end ByteCursor
