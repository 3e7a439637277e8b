import Mathlib.Tactic

/-!
# Transition systems

A system says which actions a state admits and where each leads. An execution is a list of
actions, each of them admitted where it is taken. What holds at the start and is kept by
every admitted action holds behind every execution. What one kind of action brings about and
another kind ends holds behind an execution if it was brought about since it last ended.
-/

structure TransitionSystem (σ α : Type) where
  Enabled : σ → α → Prop
  next : σ → α → σ

namespace TransitionSystem

variable {σ α : Type} (sys : TransitionSystem σ α)

def run (s : σ) (actions : List α) : σ := actions.foldl sys.next s

def Execution : σ → List α → Prop
  | _, [] => True
  | s, a :: actions => sys.Enabled s a ∧ Execution (sys.next s a) actions

def decideExecution [∀ s a, Decidable (sys.Enabled s a)] :
    (s : σ) → (actions : List α) → Decidable (sys.Execution s actions)
  | _, [] => .isTrue trivial
  | s, a :: actions =>
      @instDecidableAnd _ _ _ (decideExecution (sys.next s a) actions)

instance [∀ s a, Decidable (sys.Enabled s a)] (s : σ) (actions : List α) :
    Decidable (sys.Execution s actions) := decideExecution sys s actions

/-- `P` holds in every state of the run, the first and the last one included. -/
def AllStates (P : σ → Prop) : σ → List α → Prop
  | s, [] => P s
  | s, a :: actions => P s ∧ AllStates P (sys.next s a) actions

/-- `Q` holds of every action of the run in the state it is taken in. -/
def AllSteps (Q : σ → α → Prop) : σ → List α → Prop
  | _, [] => True
  | s, a :: actions => Q s a ∧ AllSteps Q (sys.next s a) actions

/-- `Q` holds of some action of the run in the state it is taken in. -/
def SomeStep (Q : σ → α → Prop) : σ → List α → Prop
  | _, [] => False
  | s, a :: actions => Q s a ∨ SomeStep Q (sys.next s a) actions

/-- Behind an action of which `Q` holds there is no other. -/
def AtMostOneStep (Q : σ → α → Prop) : σ → List α → Prop
  | _, [] => True
  | s, a :: actions => (Q s a → sys.AllSteps (fun s a => ¬ Q s a) (sys.next s a) actions) ∧
      AtMostOneStep Q (sys.next s a) actions

variable {sys}

theorem AllStates.head {P : σ → Prop} {s : σ} {actions : List α}
    (h : sys.AllStates P s actions) : P s := by
  cases actions with
  | nil => exact h
  | cons a actions => exact h.1

theorem AllStates.run {P : σ → Prop} {s : σ} {actions : List α}
    (h : sys.AllStates P s actions) : P (sys.run s actions) := by
  induction actions generalizing s with
  | nil => exact h
  | cons a actions ih => exact ih h.2

theorem invariant_run {Inv : σ → Prop} (hstep : ∀ s a, sys.Enabled s a → Inv s → Inv (sys.next s a))
    {s : σ} {actions : List α} (hexec : sys.Execution s actions) (hs : Inv s) :
    Inv (sys.run s actions) := by
  induction actions generalizing s with
  | nil => exact hs
  | cons a actions ih => exact ih hexec.2 (hstep s a hexec.1 hs)

/-- An invariant that only actions of some kind need to keep. -/
theorem invariant_run_of_forall {Inv : σ → Prop} {Kind : α → Prop}
    (hstep : ∀ s a, sys.Enabled s a → Kind a → Inv s → Inv (sys.next s a))
    {s : σ} {actions : List α} (hexec : sys.Execution s actions)
    (hkind : ∀ a ∈ actions, Kind a) (hs : Inv s) : Inv (sys.run s actions) := by
  induction actions generalizing s with
  | nil => exact hs
  | cons a actions ih =>
      obtain ⟨ha, hrest⟩ := List.forall_mem_cons.mp hkind
      exact ih hexec.2 hrest (hstep s a hexec.1 ha hs)

/-- A property that an invariant implies, where one kind of step breaks the property at once
and all other steps keep the invariant. -/
theorem allStates_iff_allSteps {Inv P : σ → Prop} {Breaks : σ → α → Prop}
    (hP : ∀ s, Inv s → P s)
    (hkeep : ∀ s a, sys.Enabled s a → Inv s → ¬ Breaks s a → Inv (sys.next s a))
    (hbreak : ∀ s a, sys.Enabled s a → Inv s → Breaks s a → ¬ P (sys.next s a))
    {s : σ} {actions : List α} (hexec : sys.Execution s actions) (hs : Inv s) :
    sys.AllStates P s actions ↔ sys.AllSteps (fun s a => ¬ Breaks s a) s actions := by
  induction actions generalizing s with
  | nil => exact iff_of_true (hP s hs) trivial
  | cons a actions ih =>
      by_cases ha : Breaks s a
      · refine iff_of_false (fun h => ?_) fun h => h.1 ha
        exact hbreak s a hexec.1 hs ha h.2.head
      · have hrest := ih hexec.2 (hkeep s a hexec.1 hs ha)
        exact ⟨fun h => ⟨ha, hrest.mp h.2⟩, fun h => ⟨hP s hs, hrest.mpr h.2⟩⟩

/-- What some kind of step brings about and no step ends has come about in a run exactly if
there was such a step. -/
theorem run_iff_someStep {Inv P : σ → Prop} {Q : σ → α → Prop}
    (hstep : ∀ s a, sys.Enabled s a → Inv s → (P (sys.next s a) ↔ P s ∨ Q s a))
    (hkeep : ∀ s a, sys.Enabled s a → Inv s → Inv (sys.next s a))
    {s : σ} {actions : List α} (hexec : sys.Execution s actions) (hs : Inv s) :
    P (sys.run s actions) ↔ P s ∨ sys.SomeStep Q s actions := by
  induction actions generalizing s with
  | nil => exact (or_iff_left id).symm
  | cons a actions ih =>
      change P (sys.run (sys.next s a) actions) ↔ P s ∨ Q s a ∨ sys.SomeStep Q (sys.next s a) actions
      rw [ih hexec.2 (hkeep s a hexec.1 hs), hstep s a hexec.1 hs, or_assoc]

theorem execution_of_enabled (h : ∀ s a, sys.Enabled s a) (s : σ) (actions : List α) :
    sys.Execution s actions := by
  induction actions generalizing s with
  | nil => exact trivial
  | cons a actions ih => exact ⟨h s a, ih _⟩

theorem allStates_iff_forall_prefix {P : σ → Prop} {s : σ} {actions : List α} :
    sys.AllStates P s actions ↔
      ∀ before after, actions = before ++ after → P (sys.run s before) := by
  induction actions generalizing s with
  | nil =>
      refine ⟨fun h before after hsplit => ?_, fun h => h [] [] rfl⟩
      rw [(List.append_eq_nil_iff.mp hsplit.symm).1]
      exact h
  | cons a actions ih =>
      refine ⟨fun h before after hsplit => ?_, fun h => ⟨h [] _ rfl, ih.mpr ?_⟩⟩
      · cases before with
        | nil => exact h.1
        | cons b before =>
            obtain ⟨rfl, hrest⟩ := List.cons.inj hsplit
            exact ih.mp h.2 before after hrest
      · rintro before after rfl
        exact h (a :: before) after rfl

theorem allSteps_iff_forall_prefix {Q : σ → α → Prop} {s : σ} {actions : List α} :
    sys.AllSteps Q s actions ↔
      ∀ before a after, actions = before ++ a :: after → Q (sys.run s before) a := by
  induction actions generalizing s with
  | nil =>
      refine iff_of_true trivial fun before a after hsplit => ?_
      cases (List.append_eq_nil_iff.mp hsplit.symm).2
  | cons a actions ih =>
      refine ⟨fun h before b after hsplit => ?_, fun h => ⟨h [] a _ rfl, ih.mpr ?_⟩⟩
      · cases before with
        | nil =>
            obtain ⟨rfl, -⟩ := List.cons.inj hsplit
            exact h.1
        | cons c before =>
            obtain ⟨rfl, hrest⟩ := List.cons.inj hsplit
            exact ih.mp h.2 before b after hrest
      · rintro before b after rfl
        exact h (a :: before) b after rfl

theorem someStep_iff_exists_prefix {Q : σ → α → Prop} {s : σ} {actions : List α} :
    sys.SomeStep Q s actions ↔
      ∃ before a after, actions = before ++ a :: after ∧ Q (sys.run s before) a := by
  induction actions generalizing s with
  | nil => simp [SomeStep]
  | cons a actions ih =>
      constructor
      · rintro (hfirst | hlater)
        · exact ⟨[], a, actions, rfl, hfirst⟩
        · obtain ⟨before, b, after, rfl, hb⟩ := ih.mp hlater
          exact ⟨a :: before, b, after, rfl, hb⟩
      · rintro ⟨before, b, after, hsplit, hb⟩
        cases before with
        | nil =>
            cases hsplit
            exact .inl hb
        | cons c before =>
            cases hsplit
            exact .inr (ih.mpr ⟨before, b, after, rfl, hb⟩)

theorem AtMostOneStep.others {Q : σ → α → Prop} {s : σ} {before after : List α} {a : α}
    (h : sys.AtMostOneStep Q s (before ++ a :: after)) (ha : Q (sys.run s before) a) :
    sys.AllSteps (fun s a => ¬ Q s a) s before ∧
      sys.AllSteps (fun s a => ¬ Q s a) (sys.run s (before ++ [a])) after := by
  induction before generalizing s with
  | nil => exact ⟨trivial, h.1 ha⟩
  | cons b before ih =>
      obtain ⟨hbefore, hafter⟩ := ih h.2 ha
      refine ⟨⟨fun hb => ?_, hbefore⟩, hafter⟩
      exact allSteps_iff_forall_prefix.mp (h.1 hb) before a after rfl ha

theorem allSteps_const {Q : α → Prop} {s : σ} {actions : List α} :
    sys.AllSteps (fun _ a => Q a) s actions ↔ ∀ a ∈ actions, Q a := by
  induction actions generalizing s with
  | nil => exact iff_of_true trivial fun a ha => (List.not_mem_nil ha).elim
  | cons a actions ih => exact (and_congr_right fun _ => ih).trans List.forall_mem_cons.symm

/-- Two properties of a step that agree as long as an invariant holds. -/
theorem allSteps_iff_allSteps {Inv : σ → Prop} {Q Q' : σ → α → Prop}
    (hiff : ∀ s a, sys.Enabled s a → Inv s → (Q s a ↔ Q' s a))
    (hkeep : ∀ s a, sys.Enabled s a → Inv s → Inv (sys.next s a)) {s : σ} {actions : List α}
    (hexec : sys.Execution s actions) (hs : Inv s) :
    sys.AllSteps Q s actions ↔ sys.AllSteps Q' s actions := by
  induction actions generalizing s with
  | nil => exact Iff.rfl
  | cons a actions ih =>
      exact and_congr (hiff s a hexec.1 hs) (ih hexec.2 (hkeep s a hexec.1 hs))

/-- A relation to the states of another system that every action keeps on both sides. -/
theorem simulation_run {τ : Type} {sys' : TransitionSystem τ α} {R : σ → τ → Prop}
    (hstep : ∀ s t a, sys.Enabled s a → R s t → R (sys.next s a) (sys'.next t a))
    {s : σ} {t : τ} {actions : List α} (hexec : sys.Execution s actions) (h : R s t) :
    R (sys.run s actions) (sys'.run t actions) := by
  induction actions generalizing s t with
  | nil => exact h
  | cons a actions ih => exact ih hexec.2 (hstep s t a hexec.1 h)

/-- The same for two lists of actions that are related one by one. -/
theorem run_forall₂ {τ β : Type} {sys' : TransitionSystem τ β} {R : σ → τ → Prop}
    {Q : α → β → Prop}
    (hstep : ∀ s t a b, R s t → Q a b → R (sys.next s a) (sys'.next t b))
    {s : σ} {t : τ} {actions : List α} {actions' : List β} (hactions : List.Forall₂ Q actions actions')
    (h : R s t) : R (sys.run s actions) (sys'.run t actions') := by
  induction hactions generalizing s t with
  | nil => exact h
  | cons hfirst _ ih => exact ih (hstep s t _ _ h hfirst)

/-- The number of actions that decrease a measure is bounded by it. -/
theorem countP_progress_le (μ : σ → ℕ) (progress : α → Bool)
    (hle : ∀ s a, sys.Enabled s a → μ (sys.next s a) ≤ μ s)
    (hlt : ∀ s a, sys.Enabled s a → progress a = true → μ (sys.next s a) < μ s)
    {s : σ} {actions : List α} (hexec : sys.Execution s actions) :
    actions.countP progress + μ (sys.run s actions) ≤ μ s := by
  induction actions generalizing s with
  | nil => exact (Nat.zero_add _).le
  | cons a actions ih =>
      have hrest := ih hexec.2
      have hstep := hle s a hexec.1
      change _ + μ (sys.run (sys.next s a) actions) ≤ _
      rw [List.countP_cons]
      split
      · next hprogress =>
        have hdrop := hlt s a hexec.1 hprogress
        omega
      · omega

section Growth

variable {Q : σ → α → Prop} {s : σ} {actions : List α} (f : σ → ℕ)

theorem le_run (hgrows : ∀ s a, sys.Enabled s a → f s ≤ f (sys.next s a))
    (hexec : sys.Execution s actions) : f s ≤ f (sys.run s actions) := by
  induction actions generalizing s with
  | nil => exact le_rfl
  | cons a actions ih => exact (hgrows s a hexec.1).trans (ih hexec.2)

/-- Where a quantity has not grown, none of the actions was taken that make it grow. -/
theorem allSteps_not_of_run_le (hgrows : ∀ s a, sys.Enabled s a → f s ≤ f (sys.next s a))
    (hmore : ∀ s a, sys.Enabled s a → Q s a → f s < f (sys.next s a))
    (hexec : sys.Execution s actions) (h : f (sys.run s actions) ≤ f s) :
    sys.AllSteps (fun s a => ¬ Q s a) s actions := by
  induction actions generalizing s with
  | nil => exact trivial
  | cons a actions ih =>
      have hrest := le_run f hgrows hexec.2
      refine ⟨fun hQ => ?_, ih hexec.2 (h.trans (hgrows s a hexec.1))⟩
      exact absurd ((hmore s a hexec.1 hQ).trans_le (hrest.trans h)) (lt_irrefl _)

theorem atMostOneStep_of_run_le (hgrows : ∀ s a, sys.Enabled s a → f s ≤ f (sys.next s a))
    (hmore : ∀ s a, sys.Enabled s a → Q s a → f s < f (sys.next s a))
    (hexec : sys.Execution s actions) (h : f (sys.run s actions) ≤ f s + 1) :
    sys.AtMostOneStep Q s actions := by
  induction actions generalizing s with
  | nil => exact trivial
  | cons a actions ih =>
      refine ⟨fun hQ => ?_, ih hexec.2 (h.trans (Nat.add_le_add_right (hgrows s a hexec.1) 1))⟩
      exact allSteps_not_of_run_le f hgrows hmore hexec.2
        (h.trans (Nat.succ_le_of_lt (hmore s a hexec.1 hQ)))

/-- Where it has grown, one of the actions was taken that alone can make it grow. -/
theorem someStep_of_lt_run (honly : ∀ s a, sys.Enabled s a → f s < f (sys.next s a) → Q s a)
    (hexec : sys.Execution s actions) (h : f s < f (sys.run s actions)) :
    sys.SomeStep Q s actions := by
  induction actions generalizing s with
  | nil => exact absurd h (lt_irrefl _)
  | cons a actions ih =>
      by_cases hfirst : f s < f (sys.next s a)
      · exact .inl (honly s a hexec.1 hfirst)
      · exact .inr (ih hexec.2 ((Nat.not_lt.mp hfirst).trans_lt h))

end Growth

theorem run_append (s : σ) (as bs : List α) :
    sys.run s (as ++ bs) = sys.run (sys.run s as) bs := List.foldl_append

theorem execution_append {s : σ} {as bs : List α} :
    sys.Execution s (as ++ bs) ↔ sys.Execution s as ∧ sys.Execution (sys.run s as) bs := by
  induction as generalizing s with
  | nil => exact (iff_of_eq (true_and _)).symm
  | cons a as ih => exact (and_congr_right fun _ => ih).trans and_assoc.symm

theorem not_mem_of_never_enabled {Settled : σ → Prop} {a : α}
    (hkeep : ∀ s b, sys.Enabled s b → Settled s → Settled (sys.next s b))
    (hnever : ∀ s, Settled s → ¬ sys.Enabled s a) {s : σ} {actions : List α}
    (hexec : sys.Execution s actions) (hs : Settled s) : a ∉ actions := by
  induction actions generalizing s with
  | nil => exact List.not_mem_nil
  | cons b actions ih =>
      rintro (_ | ⟨_, hmem⟩)
      · exact hnever s hs hexec.1
      · exact ih hexec.2 (hkeep s b hexec.1 hs) hmem

/-- An action that leads to where it is never enabled again occurs once at most. -/
theorem count_le_one [DecidableEq α] {Inv Settled : σ → Prop} {a : α}
    (hinv : ∀ s b, sys.Enabled s b → Inv s → Inv (sys.next s b))
    (hsettle : ∀ s, sys.Enabled s a → Inv s → Settled (sys.next s a))
    (hkeep : ∀ s b, sys.Enabled s b → Settled s → Settled (sys.next s b))
    (hnever : ∀ s, Settled s → ¬ sys.Enabled s a) {s : σ} {actions : List α}
    (hexec : sys.Execution s actions) (hs : Inv s) : actions.count a ≤ 1 := by
  induction actions generalizing s with
  | nil => exact Nat.zero_le 1
  | cons b actions ih =>
      by_cases hb : b = a
      · subst hb
        have hnone := not_mem_of_never_enabled hkeep hnever hexec.2 (hsettle s hexec.1 hs)
        rw [List.count_cons_self, List.count_eq_zero_of_not_mem hnone]
      · rw [List.count_cons_of_ne hb]
        exact ih hexec.2 (hinv s b hexec.1 hs)

variable (sys) in
/-- Actions of one kind lead from a state to another. -/
def Reaches (Kind : α → Prop) (s s' : σ) : Prop :=
  ∃ actions, (∀ a ∈ actions, Kind a) ∧ sys.Execution s actions ∧ sys.run s actions = s'

section Reaches

variable {Kind : α → Prop}

theorem reaches_next {s : σ} {a : α} (hkind : Kind a) (henabled : sys.Enabled s a) :
    sys.Reaches Kind s (sys.next s a) :=
  ⟨[a], List.forall_mem_singleton.mpr hkind, ⟨henabled, trivial⟩, rfl⟩

instance : Std.Refl (sys.Reaches Kind) := ⟨fun _ => ⟨[], by simp, trivial, rfl⟩⟩

instance : IsTrans σ (sys.Reaches Kind) where
  trans := by
    rintro s _ _ ⟨as, has, hexec, rfl⟩ ⟨bs, hbs, hexec', rfl⟩
    refine ⟨as ++ bs, fun a ha => ?_, execution_append.mpr ⟨hexec, hexec'⟩, run_append s as bs⟩
    rcases List.mem_append.mp ha with ha | ha
    · exact has a ha
    · exact hbs a ha

end Reaches

section SinceStep

variable (sys) in
/-- There has been a step that `Sets`, and every step from it on is one that `Keeps`. -/
def SinceStep (Sets Keeps : σ → α → Prop) (s : σ) (actions : List α) : Prop :=
  ∃ before a after, actions = before ++ a :: after ∧ Sets (sys.run s before) a ∧
    sys.AllSteps Keeps (sys.run s before) (a :: after)

variable {Inv P : σ → Prop} {Sets Keeps : σ → α → Prop} {s : σ} {a : α} {actions : List α}

theorem not_sinceStep_nil : ¬ sys.SinceStep Sets Keeps s [] := by
  rintro ⟨before, a, after, hsplit, -⟩
  simp at hsplit

theorem sinceStep_cons_iff : sys.SinceStep Sets Keeps s (a :: actions) ↔
    Sets s a ∧ sys.AllSteps Keeps s (a :: actions) ∨
      sys.SinceStep Sets Keeps (sys.next s a) actions := by
  constructor
  · rintro ⟨before, b, after, hsplit, hsets, hkeeps⟩
    cases before with
    | nil =>
        cases hsplit
        exact .inl ⟨hsets, hkeeps⟩
    | cons c before =>
        cases hsplit
        exact .inr ⟨before, b, after, rfl, hsets, hkeeps⟩
  · rintro (⟨hsets, hkeeps⟩ | ⟨before, b, after, rfl, hsets, hkeeps⟩)
    · exact ⟨[], a, actions, rfl, hsets, hkeeps⟩
    · exact ⟨a :: before, b, after, rfl, hsets, hkeeps⟩

/-- What one kind of step brings about, and every step keeps but those of another kind, holds
behind a run if it has been brought about since the last step that did not keep it. -/
theorem run_iff_sinceStep
    (hstep : ∀ s a, sys.Enabled s a → Inv s → (P (sys.next s a) ↔ Keeps s a ∧ (P s ∨ Sets s a)))
    (hkeep : ∀ s a, sys.Enabled s a → Inv s → Inv (sys.next s a))
    (hexec : sys.Execution s actions) (hs : Inv s) :
    P (sys.run s actions) ↔
      P s ∧ sys.AllSteps Keeps s actions ∨ sys.SinceStep Sets Keeps s actions := by
  induction actions generalizing s with
  | nil => simp [not_sinceStep_nil, AllSteps, run]
  | cons a actions ih =>
      change P (sys.run (sys.next s a) actions) ↔ _
      rw [ih hexec.2 (hkeep s a hexec.1 hs), hstep s a hexec.1 hs, sinceStep_cons_iff, AllSteps]
      tauto

end SinceStep

variable (sys) in
/-- There has been an action of the kind `Sets`, and every step from it on is one that
`Keeps`. -/
def Since (Sets : α → Prop) (Keeps : σ → α → Prop) (s : σ) (actions : List α) : Prop :=
  ∃ before a after, actions = before ++ a :: after ∧ Sets a ∧
    sys.AllSteps Keeps (sys.run s before) (a :: after)

/-- The same where the kind of the action alone decides what it brings about. -/
theorem run_iff_since {P : σ → Prop} {Sets : α → Prop} {Keeps : σ → α → Prop} {s : σ}
    {actions : List α}
    (hstep : ∀ s a, sys.Enabled s a → (P (sys.next s a) ↔ Keeps s a ∧ (P s ∨ Sets a)))
    (hexec : sys.Execution s actions) :
    P (sys.run s actions) ↔
      P s ∧ sys.AllSteps Keeps s actions ∨ sys.Since Sets Keeps s actions := by
  have hinv : ∀ s a, sys.Enabled s a → True →
      (P (sys.next s a) ↔ Keeps s a ∧ (P s ∨ Sets a)) := fun s a h _ => hstep s a h
  exact run_iff_sinceStep hinv (fun _ _ _ h => h) hexec trivial

variable (sys)

/-- The first `n` actions of an infinite sequence. -/
def firstActions (f : ℕ → α) (n : ℕ) : List α := (List.range n).map f

/-- The state before action number `n`. -/
def stateAt (s : σ) (f : ℕ → α) (n : ℕ) : σ := sys.run s (firstActions f n)

def InfiniteExecution (s : σ) (f : ℕ → α) : Prop := ∀ n, sys.Execution s (firstActions f n)

variable {sys}

theorem firstActions_succ (f : ℕ → α) (n : ℕ) :
    firstActions f (n + 1) = firstActions f n ++ [f n] := by
  rw [firstActions, List.range_succ, List.map_append]
  rfl

theorem stateAt_succ (s : σ) (f : ℕ → α) (n : ℕ) :
    sys.stateAt s f (n + 1) = sys.next (sys.stateAt s f n) (f n) := by
  rw [stateAt, firstActions_succ, run_append]
  rfl

theorem enabled_stateAt {s : σ} {f : ℕ → α} (h : sys.InfiniteExecution s f) (n : ℕ) :
    sys.Enabled (sys.stateAt s f n) (f n) := by
  have hexec := h (n + 1)
  rw [firstActions_succ, execution_append] at hexec
  exact hexec.2.1

theorem infiniteExecution_of_enabled {s : σ} {f : ℕ → α}
    (h : ∀ n, sys.Enabled (sys.stateAt s f n) (f n)) : sys.InfiniteExecution s f := by
  intro n
  induction n with
  | zero => exact trivial
  | succ n ih =>
      rw [firstActions_succ, execution_append]
      exact ⟨ih, h n, trivial⟩

/-- A measure that no action increases and that every progress decreases is used up, if
there is progress as long as the run is not done. -/
theorem eventually_done (μ : σ → ℕ) (progress : α → Bool) (Done : σ → Prop)
    (hle : ∀ s a, sys.Enabled s a → μ (sys.next s a) ≤ μ s)
    (hlt : ∀ s a, sys.Enabled s a → progress a = true → μ (sys.next s a) < μ s)
    {s : σ} {f : ℕ → α} (hexec : sys.InfiniteExecution s f)
    (hfair : ∀ n, ¬ Done (sys.stateAt s f n) → ∃ m ≥ n, progress (f m) = true) :
    ∃ n, Done (sys.stateAt s f n) := by
  have hmono : Antitone fun n => μ (sys.stateAt s f n) := by
    refine antitone_nat_of_succ_le fun n => ?_
    rw [stateAt_succ]
    exact hle _ _ (enabled_stateAt hexec n)
  have hdrop : ∀ n, ¬ Done (sys.stateAt s f n) →
      ∃ m, μ (sys.stateAt s f m) < μ (sys.stateAt s f n) := by
    intro n hdone
    obtain ⟨m, hm, hprogress⟩ := hfair n hdone
    refine ⟨m + 1, ?_⟩
    rw [stateAt_succ]
    exact (hlt _ _ (enabled_stateAt hexec m) hprogress).trans_le (hmono hm)
  have hbound : ∀ k n, μ (sys.stateAt s f n) ≤ k → ∃ n, Done (sys.stateAt s f n) := by
    intro k
    induction k with
    | zero =>
        intro n hn
        by_contra hnone
        obtain ⟨m, hm⟩ := hdrop n fun hdone => hnone ⟨n, hdone⟩
        omega
    | succ k ih =>
        intro n hn
        by_cases hdone : Done (sys.stateAt s f n)
        · exact ⟨n, hdone⟩
        · obtain ⟨m, hm⟩ := hdrop n hdone
          exact ih m (by omega)
  exact hbound _ 0 le_rfl

end TransitionSystem
