import Mathlib.Tactic

/-!
# Interleavings of two threads

A thread is a sequence of atomic steps on a shared state; what it does next may depend on
the state that its step was taken in. Two threads run by turns, in the order of a schedule,
until both are done. Three things are read off a schedule: which steps are executed, how much
a quantity grows when each step's share is known, and where two threads end that each read
once and then write.
-/

inductive Thread (σ : Type) where
  | done
  | step (act : σ → σ) (next : σ → Thread σ)

inductive Side where
  | left
  | right
  deriving DecidableEq, Repr

namespace Side

def swap : Side → Side
  | left => right
  | right => left

end Side

namespace Thread

variable {σ ρ ρ' : Type}

def run : Thread σ → σ → σ
  | done, s => s
  | step act next, s => (next s).run (act s)

inductive Interleaves : List Side → Thread σ → Thread σ → σ → σ → Prop where
  | done (s : σ) : Interleaves [] done done s s
  | left {schedule : List Side} {act : σ → σ} {next : σ → Thread σ} {u : Thread σ} {s s' : σ}
      (h : Interleaves schedule (next s) u (act s) s') :
      Interleaves (.left :: schedule) (step act next) u s s'
  | right {schedule : List Side} {act : σ → σ} {next : σ → Thread σ} {t : Thread σ} {s s' : σ}
      (h : Interleaves schedule t (next s) (act s) s') :
      Interleaves (.right :: schedule) t (step act next) s s'

theorem Interleaves.swap {schedule : List Side} {t u : Thread σ} {s s' : σ}
    (h : Interleaves schedule t u s s') : Interleaves (schedule.map Side.swap) u t s s' := by
  induction h with
  | done s => exact .done s
  | left h ih => exact .right ih
  | right h ih => exact .left ih

/-- The second thread can wait until the first one is done. -/
theorem exists_serial (t u : Thread σ) (s : σ) :
    ∃ schedule, Interleaves schedule t u s (u.run (t.run s)) := by
  induction t generalizing s with
  | done =>
      induction u generalizing s with
      | done => exact ⟨[], .done s⟩
      | step act next ih =>
          obtain ⟨schedule, h⟩ := ih s (act s)
          exact ⟨.right :: schedule, .right h⟩
  | step act next ih =>
      obtain ⟨schedule, h⟩ := ih s (act s)
      exact ⟨.left :: schedule, .left h⟩

section Inversion

variable {schedule : List Side} {act act' : σ → σ} {next next' : σ → Thread σ} {t : Thread σ}
  {s s' : σ}

theorem interleaves_left_iff : Interleaves (.left :: schedule) (step act next) t s s' ↔
    Interleaves schedule (next s) t (act s) s' := by
  constructor
  · intro h
    cases h with
    | left h => exact h
  · exact .left

theorem interleaves_right_iff : Interleaves (.right :: schedule) t (step act next) s s' ↔
    Interleaves schedule t (next s) (act s) s' := by
  constructor
  · intro h
    cases h with
    | right h => exact h
  · exact .right

/-- Next to a thread that is done, the other one runs alone. -/
theorem eq_run_of_interleaves_done (h : Interleaves schedule t done s s') : s' = t.run s := by
  generalize hu : (done : Thread σ) = u at h
  induction h with
  | done s => rfl
  | left h ih => exact ih hu
  | right h ih => cases hu

theorem eq_run_of_done_interleaves (h : Interleaves schedule done t s s') : s' = t.run s :=
  eq_run_of_interleaves_done h.swap

/-- One of two threads that are not done makes the first step. -/
theorem Interleaves.first_step (h : Interleaves schedule (step act next) (step act' next') s s') :
    (∃ rest, schedule = .left :: rest ∧ Interleaves rest (next s) (step act' next') (act s) s') ∨
      ∃ rest, schedule = .right :: rest ∧
        Interleaves rest (step act next) (next' s) (act' s) s' := by
  cases h with
  | left h => exact .inl ⟨_, rfl, h⟩
  | right h => exact .inr ⟨_, rfl, h⟩

end Inversion

/-- As long as the invariant holds, which its own steps keep, the thread adds `n` to `f`. -/
def Adds (Inv : σ → Prop) (f : σ → ℕ) : Thread σ → ℕ → Prop
  | done, n => n = 0
  | step act next, n => ∀ s, Inv s → Inv (act s) ∧
      ∃ k m, n = k + m ∧ f (act s) = f s + k ∧ Adds Inv f (next s) m

/-- Two threads add what each of them adds, in whatever order they run. -/
theorem Interleaves.add {Inv : σ → Prop} {f : σ → ℕ} {schedule : List Side} {t u : Thread σ}
    {s s' : σ} (h : Interleaves schedule t u s s') {n m : ℕ} (ht : Adds Inv f t n)
    (hu : Adds Inv f u m) (hs : Inv s) : f s' = f s + n + m := by
  induction h generalizing n m with
  | done s =>
      have hn : n = 0 := ht
      have hm : m = 0 := hu
      omega
  | left h ih =>
      obtain ⟨hact, k, rest, rfl, hk, hnext⟩ := ht _ hs
      have hrest := ih hnext hu hact
      omega
  | right h ih =>
      obtain ⟨hact, k, rest, rfl, hk, hnext⟩ := hu _ hs
      have hrest := ih ht hnext hact
      omega

def steps : List Side → Thread σ → Thread σ → σ → List (σ → σ)
  | .left :: schedule, step act next, u, s => act :: steps schedule (next s) u (act s)
  | .right :: schedule, t, step act next, s => act :: steps schedule t (next s) (act s)
  | _, _, _, _ => []

theorem Interleaves.eq_foldl_steps {schedule : List Side} {t u : Thread σ} {s s' : σ}
    (h : Interleaves schedule t u s s') :
    s' = (steps schedule t u s).foldl (fun s act => act s) s := by
  induction h with
  | done s => rfl
  | left h ih => exact ih
  | right h ih =>
      rw [steps]
      exact ih

def Does (P : (σ → σ) → Prop) : Thread σ → Prop
  | done => True
  | step act next => P act ∧ ∀ s, Does P (next s)

theorem Interleaves.forall_mem_steps {P : (σ → σ) → Prop} {schedule : List Side}
    {t u : Thread σ} {s s' : σ} (h : Interleaves schedule t u s s') (ht : Does P t)
    (hu : Does P u) : ∀ act ∈ steps schedule t u s, P act := by
  induction h with
  | done s => exact fun act hact => (List.not_mem_nil hact).elim
  | left h ih =>
      rw [steps]
      exact List.forall_mem_cons.mpr ⟨ht.1, ih (ht.2 _) hu⟩
  | right h ih =>
      rw [steps]
      exact List.forall_mem_cons.mpr ⟨hu.1, ih ht (hu.2 _)⟩

/-- A quantity that goes up by one with each step that is counted, and with no other. -/
theorem foldl_eq_add_countP (f : σ → ℕ) {counted : (σ → σ) → Bool} {acts : List (σ → σ)}
    (h : ∀ act ∈ acts, ∀ s, f (act s) = f s + if counted act then 1 else 0) (s : σ) :
    f (acts.foldl (fun s act => act s) s) = f s + acts.countP counted := by
  induction acts generalizing s with
  | nil => rfl
  | cons act acts ih =>
      have hfirst := h act List.mem_cons_self s
      rw [List.foldl_cons, ih (fun a ha => h a (List.mem_cons_of_mem _ ha)), hfirst,
        List.countP_cons]
      omega

def readWrite (read : σ → ρ) (write : ρ → σ → σ) : Thread σ :=
  step id fun s => step (write (read s)) fun _ => done

theorem run_readWrite (read : σ → ρ) (write : ρ → σ → σ) (s : σ) :
    (readWrite read write).run s = write (read s) s := rfl

theorem not_serial (side : Side) (rest : List Side) :
    ¬ ∃ side' rest', side :: side.swap :: rest = side' :: side' :: rest' := by
  rintro ⟨side', rest', h⟩
  cases side with
  | left => cases h
  | right => cases h

theorem last_steps_cases {act act' : σ → σ} {schedule : List Side} {s s' : σ}
    (h : Interleaves schedule (step act fun _ => done) (step act' fun _ => done) s s') :
    schedule = [.left, .right] ∧ s' = act' (act s) ∨
      schedule = [.right, .left] ∧ s' = act (act' s) := by
  rcases h.first_step with ⟨rest, rfl, hrest⟩ | ⟨rest, rfl, hrest⟩
  · cases hrest with
    | right hdone =>
        cases hdone
        exact .inl ⟨rfl, rfl⟩
  · cases hrest with
    | left hdone =>
        cases hdone
        exact .inr ⟨rfl, rfl⟩

/-- Two threads that read and write once run one after the other, or both read before one
of them writes. Then what the last one writes rests on what it read in the beginning. -/
theorem readWrite_cases {read : σ → ρ} {write : ρ → σ → σ} {read' : σ → ρ'}
    {write' : ρ' → σ → σ} {schedule : List Side} {s s' : σ}
    (h : Interleaves schedule (readWrite read write) (readWrite read' write') s s') :
    (∃ rest, schedule = .left :: .left :: rest ∧
        s' = (readWrite read' write').run ((readWrite read write).run s)) ∨
      (∃ rest, schedule = .right :: .right :: rest ∧
        s' = (readWrite read write).run ((readWrite read' write').run s)) ∨
      (∃ side, schedule = [side, side.swap, .left, .right] ∧
        s' = write' (read' s) (write (read s) s)) ∨
      ∃ side, schedule = [side, side.swap, .right, .left] ∧
        s' = write (read s) (write' (read' s) s) := by
  rcases h.first_step with ⟨rest, rfl, h₁⟩ | ⟨rest, rfl, h₁⟩
  · rcases h₁.first_step with ⟨rest, rfl, h₂⟩ | ⟨rest, rfl, h₂⟩
    · exact .inl ⟨rest, rfl, eq_run_of_done_interleaves h₂⟩
    · rcases last_steps_cases h₂ with ⟨rfl, hs⟩ | ⟨rfl, hs⟩
      · exact .inr (.inr (.inl ⟨.left, rfl, hs⟩))
      · exact .inr (.inr (.inr ⟨.left, rfl, hs⟩))
  · rcases h₁.first_step with ⟨rest, rfl, h₂⟩ | ⟨rest, rfl, h₂⟩
    · rcases last_steps_cases h₂ with ⟨rfl, hs⟩ | ⟨rfl, hs⟩
      · exact .inr (.inr (.inl ⟨.right, rfl, hs⟩))
      · exact .inr (.inr (.inr ⟨.right, rfl, hs⟩))
    · exact .inr (.inl ⟨rest, rfl, eq_run_of_interleaves_done h₂⟩)

end Thread
