import Bitchat.Interleaving
import Bitchat.TransitionSystem

/-!
# Pools of threads

Any number of threads run on one state. A thread can be started at any time, and at any time
one of the threads makes its next step. What every step of every thread respects relates the
first state of the pool to the last one.
-/

structure ThreadPool (σ : Type) where
  state : σ
  threads : List (Thread σ) := []

inductive PoolAction (σ : Type) where
  | start (t : Thread σ)
  | step (i : ℕ)

variable {σ : Type}

/-- Every step of the thread respects the relation, whatever state it is taken in. -/
def Thread.Steps (R : σ → σ → Prop) : Thread σ → Prop
  | done => True
  | step act next => ∀ s, R s (act s) ∧ (next s).Steps R

namespace ThreadPool

/-- A thread that is done, or was never started, makes no step. -/
def stepThread (pool : ThreadPool σ) (i : ℕ) : ThreadPool σ :=
  match pool.threads[i]? with
  | some (.step act next) =>
      { state := act pool.state, threads := pool.threads.set i (next pool.state) }
  | _ => pool

/-- The runs of a pool in which only threads of one kind are started. -/
def scheduling (Kind : Thread σ → Prop) : TransitionSystem (ThreadPool σ) (PoolAction σ) where
  Enabled _ action := match action with
    | .start t => Kind t
    | .step _ => True
  next pool action := match action with
    | .start t => { pool with threads := pool.threads ++ [t] }
    | .step i => pool.stepThread i

/-- Since `s` only such steps have been made, and only such steps are to come. -/
structure Respects (R : σ → σ → Prop) (s : σ) (pool : ThreadPool σ) : Prop where
  state : R s pool.state
  threads : ∀ t ∈ pool.threads, t.Steps R

variable {R : σ → σ → Prop} [IsTrans σ R] {Kind : Thread σ → Prop} {s : σ} {pool : ThreadPool σ}

theorem Respects.stepThread (h : pool.Respects R s) (i : ℕ) :
    (pool.stepThread i).Respects R s := by
  unfold ThreadPool.stepThread
  split
  · next act next hi =>
      obtain ⟨hact, hnext⟩ := h.threads _ (List.mem_of_getElem? hi) pool.state
      refine ⟨trans_of R h.state hact, fun t ht => ?_⟩
      rcases List.mem_or_eq_of_mem_set ht with hold | rfl
      · exact h.threads t hold
      · exact hnext
  · exact h

theorem respects_run [Std.Refl R] (hkind : ∀ t, Kind t → t.Steps R)
    {actions : List (PoolAction σ)}
    (hexec : (scheduling Kind).Execution { state := s } actions) :
    ((scheduling Kind).run { state := s } actions).Respects R s := by
  refine TransitionSystem.invariant_run (fun pool action henabled h => ?_) hexec
    ⟨refl_of R s, by simp⟩
  cases action with
  | start t =>
      refine ⟨h.state, fun u hu => ?_⟩
      rcases List.mem_append.mp hu with hu | hu
      · exact h.threads u hu
      · exact List.mem_singleton.mp hu ▸ hkind t henabled
  | step i => exact h.stepThread i

end ThreadPool
