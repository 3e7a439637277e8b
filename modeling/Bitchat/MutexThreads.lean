import Bitchat.TransitionSystem

/-!
# Threads that share a mutex

The mutex is not recursive: a thread that locks it while holding it waits for itself, and so
do all others then. Two results are read off the code of the threads. What the mutex protects
can be seen through the conditions that hold of it while the mutex is free, and behind a
second `lock` of the holder nothing needs to be shown, since nothing is reached. Threads that
lock only what they do not hold can always run to their ends.
-/

inductive LockingThread (σ : Type) where
  | done
  | act (act : σ → σ) (next : σ → LockingThread σ)
  | lock (next : LockingThread σ)
  | unlock (next : LockingThread σ)
  | spawn (t next : LockingThread σ)

/-- `owner` is the place of the thread that holds the mutex. -/
structure MutexPool (σ : Type) where
  state : σ
  owner : Option ℕ := none
  threads : List (LockingThread σ)

namespace MutexPool

variable {σ π : Type}

/-- The thread at the place `i` can make its next step. Only the holder may unlock. -/
def CanStep (pool : MutexPool σ) (i : ℕ) : Prop :=
  match pool.threads[i]? with
  | some (.act _ _) => True
  | some (.lock _) => pool.owner = none
  | some (.unlock _) => pool.owner = some i
  | some (.spawn _ _) => True
  | _ => False

def step (pool : MutexPool σ) (i : ℕ) : MutexPool σ :=
  match pool.threads[i]? with
  | some (.act act next) =>
      { pool with state := act pool.state, threads := pool.threads.set i (next pool.state) }
  | some (.lock next) => { pool with owner := some i, threads := pool.threads.set i next }
  | some (.unlock next) => { pool with owner := none, threads := pool.threads.set i next }
  | some (.spawn t next) => { pool with threads := pool.threads.set i next ++ [t] }
  | _ => pool

/-- An action is the place of the thread whose turn it is. -/
def scheduling (σ : Type) : TransitionSystem (MutexPool σ) ℕ where
  Enabled := CanStep
  next := step

instance (pool : MutexPool σ) (i : ℕ) : Decidable ((scheduling σ).Enabled pool i) := by
  unfold scheduling CanStep
  dsimp only
  split <;> infer_instance

def AllDone (pool : MutexPool σ) : Prop := ∀ t ∈ pool.threads, t = .done

theorem step_cases {pool : MutexPool σ} {i : ℕ} (h : pool.CanStep i) :
    (∃ act next, pool.threads[i]? = some (.act act next) ∧ pool.step i =
        { pool with state := act pool.state, threads := pool.threads.set i (next pool.state) }) ∨
      (∃ next, pool.threads[i]? = some (.lock next) ∧ pool.owner = none ∧
        pool.step i = { pool with owner := some i, threads := pool.threads.set i next }) ∨
      (∃ next, pool.threads[i]? = some (.unlock next) ∧ pool.owner = some i ∧
        pool.step i = { pool with owner := none, threads := pool.threads.set i next }) ∨
      ∃ t next, pool.threads[i]? = some (.spawn t next) ∧
        pool.step i = { pool with threads := pool.threads.set i next ++ [t] } := by
  unfold CanStep at h
  unfold step
  cases hi : pool.threads[i]? with
  | none =>
      rw [hi] at h
      exact h.elim
  | some t =>
      rw [hi] at h
      cases t with
      | done => exact h.elim
      | act act next => exact .inl ⟨act, next, rfl, rfl⟩
      | lock next => exact .inr (.inl ⟨next, rfl, h, rfl⟩)
      | unlock next => exact .inr (.inr (.inl ⟨next, rfl, h, rfl⟩))
      | spawn t next => exact .inr (.inr (.inr ⟨t, next, rfl, rfl⟩))

/-- The threads behind a step: the one whose turn it was, the others, and a new one. -/
theorem getElem?_set_append {ts new : List (LockingThread σ)} {i j : ℕ}
    {next t : LockingThread σ} (h : (ts.set i next ++ new)[j]? = some t) :
    j = i ∧ t = next ∨ j ≠ i ∧ ts[j]? = some t ∨ ts.length ≤ j ∧ t ∈ new := by
  rcases Nat.lt_or_ge j (ts.set i next).length with hj | hj
  · rw [List.getElem?_append_left hj] at h
    rw [List.getElem?_set] at h
    split_ifs at h with hij hlen
    · exact .inl ⟨hij.symm, (Option.some.inj h).symm⟩
    · exact .inr (.inl ⟨Ne.symm hij, h⟩)
  · rw [List.getElem?_append_right hj] at h
    rw [List.length_set] at hj
    exact .inr (.inr ⟨hj, List.mem_of_getElem? h⟩)

end MutexPool

section Protected

variable {σ π : Type} (view : σ → π) (Free Always : π → Prop)

namespace LockingThread

/-- The code of a thread respects `Free`, which holds of the protected part while the mutex is
free, and keeps `Always`. Without the mutex a thread leaves that part alone. With the mutex it
knows `P` of it, if `held` is `P`. At the end of the thread `post` is known. -/
def Keeps : Prop → Option (π → Prop) → LockingThread σ → Prop
  | post, _, done => post
  | post, none, act f next => (∀ s, view (f s) = view s) ∧ ∀ s, Keeps post none (next s)
  | post, some P, act f next => ∀ s, P (view s) →
      Always (view (f s)) ∧ Keeps post (some fun v => view (f s) = v) (next s)
  | post, none, lock next => Keeps post (some Free) next
  | _, some _, lock _ => True
  | _, none, unlock _ => False
  | post, some P, unlock next => (∀ v, P v → Free v) ∧ Keeps post none next
  | post, held, spawn t next => Keeps True none t ∧ Keeps post held next

variable {view Free Always}

theorem Keeps.mono {post post' : Prop} (h : post → post') {held : Option (π → Prop)}
    {t : LockingThread σ} (ht : Keeps view Free Always post held t) :
    Keeps view Free Always post' held t := by
  induction t generalizing held with
  | done => exact h ht
  | act f next ih =>
      cases held with
      | none => exact ⟨ht.1, fun s => ih s (ht.2 s)⟩
      | some P => exact fun s hs => ⟨(ht s hs).1, ih s (ht s hs).2⟩
  | lock next ih =>
      cases held with
      | none => exact ih (show Keeps view Free Always post (some Free) next from ht)
      | some P => exact trivial
  | unlock next ih =>
      cases held with
      | none => exact ht
      | some P => exact ⟨ht.1, ih ht.2⟩
  | spawn t next iht ih =>
      cases held with
      | none => exact ⟨ht.1, ih ht.2⟩
      | some P => exact ⟨ht.1, ih ht.2⟩

end LockingThread

open LockingThread

variable {view Free Always}

namespace MutexPool

/-- The thread at the place `i` keeps the conditions from where it stands. -/
def Stands (view : σ → π) (Free Always : π → Prop) (post : Prop) (pool : MutexPool σ) (i : ℕ)
    (t : LockingThread σ) : Prop :=
  pool.owner ≠ some i ∧ Keeps view Free Always post none t ∨
    ∃ P, pool.owner = some i ∧ P (view pool.state) ∧ Keeps view Free Always post (some P) t

/-- All threads keep the conditions. `post i` is what is known at the end of the thread at
`i`. -/
structure Kept (view : σ → π) (Free Always : π → Prop) (post : ℕ → Prop) (pool : MutexPool σ) :
    Prop where
  always : Always (view pool.state)
  free : pool.owner = none → Free (view pool.state)
  owner : ∀ i, pool.owner = some i → i < pool.threads.length
  threads : ∀ i t, pool.threads[i]? = some t → Stands view Free Always (post i) pool i t
  later : ∀ i, pool.threads.length ≤ i → post i

variable {post : ℕ → Prop} {pool : MutexPool σ}

/-- What a step must respect: the thread whose turn it is, the others, and the new ones. -/
theorem Kept.of_step {pool' : MutexPool σ} {i : ℕ} {next : LockingThread σ}
    {new : List (LockingThread σ)} (h : pool.Kept view Free Always post)
    (hthreads : pool'.threads = pool.threads.set i next ++ new)
    (halways : Always (view pool'.state)) (hfree : pool'.owner = none → Free (view pool'.state))
    (howner : ∀ j, pool'.owner = some j → j < pool.threads.length)
    (hnext : pool'.Stands view Free Always (post i) i next)
    (hothers : ∀ j t, j ≠ i → pool.Stands view Free Always (post j) j t →
      pool'.Stands view Free Always (post j) j t)
    (hnew : ∀ t ∈ new, Keeps view Free Always True none t) :
    pool'.Kept view Free Always post := by
  have hlen : pool.threads.length ≤ pool'.threads.length := by
    rw [hthreads, List.length_append, List.length_set]
    exact Nat.le_add_right _ _
  refine ⟨halways, hfree, fun j hj => (howner j hj).trans_le hlen, fun j t hj => ?_,
    fun j hj => h.later j (hlen.trans hj)⟩
  rw [hthreads] at hj
  rcases getElem?_set_append hj with ⟨rfl, rfl⟩ | ⟨hij, hold⟩ | ⟨hj, ht⟩
  · exact hnext
  · exact hothers j t hij (h.threads j t hold)
  · refine .inl ⟨fun hheld => ?_, (hnew t ht).mono fun _ => h.later j hj⟩
    exact absurd (howner j hheld) hj.not_gt

theorem Kept.act {i : ℕ} {f : σ → σ} {next : σ → LockingThread σ}
    (h : pool.Kept view Free Always post) (hi : pool.threads[i]? = some (.act f next)) :
    Kept view Free Always post
      { pool with state := f pool.state, threads := pool.threads.set i (next pool.state) } := by
  rcases h.threads i _ hi with ⟨howner, hview, hnext⟩ | ⟨P, howner, hP, hkeeps⟩
  · have hview : view (f pool.state) = view pool.state := hview _
    refine h.of_step (List.append_nil _).symm (hview ▸ h.always) (fun hfree => hview ▸ h.free hfree)
      h.owner (.inl ⟨howner, hnext _⟩) (fun j t hij hj => ?_) (by simp)
    exact hj.imp id fun ⟨P, hheld, hP, hkeeps⟩ => ⟨P, hheld, hview ▸ hP, hkeeps⟩
  · obtain ⟨halways, hnext⟩ := hkeeps pool.state hP
    refine h.of_step (List.append_nil _).symm halways (fun hfree => ?_) h.owner
      (.inr ⟨_, howner, rfl, hnext⟩) (fun j t hij hj => ?_) (by simp)
    · cases howner.symm.trans hfree
    · rcases hj with hj | ⟨P', hheld, -⟩
      · exact .inl hj
      · exact (hij (Option.some.inj (hheld.symm.trans howner))).elim

theorem Kept.lock {i : ℕ} {next : LockingThread σ} (h : pool.Kept view Free Always post)
    (hi : pool.threads[i]? = some (.lock next)) (howner : pool.owner = none) :
    Kept view Free Always post
      { pool with owner := some i, threads := pool.threads.set i next } := by
  rcases h.threads i _ hi with ⟨-, hnext⟩ | ⟨P, hheld, -⟩
  · refine h.of_step (List.append_nil _).symm h.always (fun hfree => ?_) (fun j hj => ?_)
      (.inr ⟨Free, rfl, h.free howner, hnext⟩) (fun j t hij hj => ?_) (by simp)
    · cases hfree
    · cases hj
      exact (List.getElem?_eq_some_iff.mp hi).1
    · rcases hj with ⟨-, hkeeps⟩ | ⟨P, hheld, -⟩
      · exact .inl ⟨fun hheld => hij (Option.some.inj hheld).symm, hkeeps⟩
      · cases howner.symm.trans hheld
  · cases howner.symm.trans hheld

theorem Kept.unlock {i : ℕ} {next : LockingThread σ} (h : pool.Kept view Free Always post)
    (hi : pool.threads[i]? = some (.unlock next)) (howner : pool.owner = some i) :
    Kept view Free Always post
      { pool with owner := none, threads := pool.threads.set i next } := by
  rcases h.threads i _ hi with ⟨hother, -⟩ | ⟨P, -, hP, hfree, hnext⟩
  · exact (hother howner).elim
  · refine h.of_step (List.append_nil _).symm h.always (fun _ => hfree _ hP) (fun j hj => ?_)
      (.inl ⟨by simp, hnext⟩) (fun j t hij hj => ?_) (by simp)
    · cases hj
    · rcases hj with ⟨-, hkeeps⟩ | ⟨P, hheld, -⟩
      · exact .inl ⟨by simp, hkeeps⟩
      · exact (hij (Option.some.inj (hheld.symm.trans howner))).elim

theorem Kept.spawn {i : ℕ} {t next : LockingThread σ} (h : pool.Kept view Free Always post)
    (hi : pool.threads[i]? = some (.spawn t next)) :
    Kept view Free Always post { pool with threads := pool.threads.set i next ++ [t] } := by
  have hparts : Keeps view Free Always True none t ∧
      pool.Stands view Free Always (post i) i next := by
    rcases h.threads i _ hi with ⟨howner, hnew, hnext⟩ | ⟨P, howner, hP, hnew, hnext⟩
    · exact ⟨hnew, .inl ⟨howner, hnext⟩⟩
    · exact ⟨hnew, .inr ⟨P, howner, hP, hnext⟩⟩
  refine h.of_step rfl h.always h.free h.owner hparts.2 (fun j u hij hj => hj) fun u hu => ?_
  rw [List.mem_singleton.mp hu]
  exact hparts.1

theorem Kept.step {i : ℕ} (h : pool.Kept view Free Always post) (hstep : pool.CanStep i) :
    (pool.step i).Kept view Free Always post := by
  rcases step_cases hstep with ⟨f, next, hi, hs⟩ | ⟨next, hi, howner, hs⟩ | ⟨next, hi, howner, hs⟩ |
    ⟨t, next, hi, hs⟩
  · rw [hs]
    exact h.act hi
  · rw [hs]
    exact h.lock hi howner
  · rw [hs]
    exact h.unlock hi howner
  · rw [hs]
    exact h.spawn hi

theorem Kept.run {actions : List ℕ} (h : pool.Kept view Free Always post)
    (hexec : (scheduling σ).Execution pool actions) :
    ((scheduling σ).run pool actions).Kept view Free Always post :=
  TransitionSystem.invariant_run (fun _ _ hstep hkept => hkept.step hstep) hexec h

/-- What is known at the end of a thread holds once it has ended. -/
theorem Kept.post_of_done {i : ℕ} (h : pool.Kept view Free Always post)
    (hi : pool.threads[i]? = some .done) : post i := by
  rcases h.threads i _ hi with ⟨-, hpost⟩ | ⟨P, -, -, hpost⟩
  · exact hpost
  · exact hpost

end MutexPool

end Protected

namespace LockingThread

variable {σ : Type}

/-- The thread locks what it does not hold, unlocks what it holds, and ends without it. -/
def Bracketed : Bool → LockingThread σ → Prop
  | held, done => held = false
  | held, act _ next => ∀ s, Bracketed held (next s)
  | held, lock next => held = false ∧ Bracketed true next
  | held, unlock next => held = true ∧ Bracketed false next
  | held, spawn t next => Bracketed false t ∧ Bracketed held next

end LockingThread

namespace MutexPool

open LockingThread

variable {σ : Type} {pool : MutexPool σ}

/-- All threads are bracketed, from where they stand. -/
structure Orderly (pool : MutexPool σ) : Prop where
  owner : ∀ i, pool.owner = some i → i < pool.threads.length
  threads : ∀ i t, pool.threads[i]? = some t → Bracketed (pool.owner = some i) t

theorem Orderly.of_step {pool' : MutexPool σ} {i : ℕ} {next : LockingThread σ}
    {new : List (LockingThread σ)} (h : pool.Orderly)
    (hthreads : pool'.threads = pool.threads.set i next ++ new)
    (howner : ∀ j, pool'.owner = some j → j < pool.threads.length)
    (hnext : Bracketed (pool'.owner = some i) next)
    (hothers : ∀ j, j ≠ i → (pool'.owner = some j ↔ pool.owner = some j))
    (hnew : ∀ t ∈ new, Bracketed false t) : pool'.Orderly := by
  have hlen : pool.threads.length ≤ pool'.threads.length := by
    rw [hthreads, List.length_append, List.length_set]
    exact Nat.le_add_right _ _
  refine ⟨fun j hj => (howner j hj).trans_le hlen, fun j t hj => ?_⟩
  rw [hthreads] at hj
  rcases getElem?_set_append hj with ⟨rfl, rfl⟩ | ⟨hij, hold⟩ | ⟨hj, ht⟩
  · exact hnext
  · rw [decide_eq_decide.mpr (hothers j hij)]
    exact h.threads j t hold
  · rw [decide_eq_false fun hheld => absurd (howner j hheld) hj.not_gt]
    exact hnew t ht

theorem Orderly.step {i : ℕ} (h : pool.Orderly) (hstep : pool.CanStep i) :
    (pool.step i).Orderly := by
  rcases step_cases hstep with ⟨f, next, hi, hs⟩ | ⟨next, hi, howner, hs⟩ | ⟨next, hi, howner, hs⟩ |
    ⟨t, next, hi, hs⟩
  · have hnext : ∀ s, Bracketed (pool.owner = some i) (next s) := h.threads i _ hi
    rw [hs]
    exact h.of_step (List.append_nil _).symm h.owner (hnext _) (fun _ _ => Iff.rfl) (by simp)
  · have hnext : Bracketed true next := (h.threads i _ hi).2
    rw [hs]
    refine h.of_step (List.append_nil _).symm (fun j hj => ?_) (by simpa using hnext)
      (fun j hij => ?_) (by simp)
    · cases hj
      exact (List.getElem?_eq_some_iff.mp hi).1
    · simp [howner, hij.symm]
  · have hnext : Bracketed false next := (h.threads i _ hi).2
    rw [hs]
    refine h.of_step (List.append_nil _).symm (fun j hj => ?_) (by simpa using hnext)
      (fun j hij => ?_) (by simp)
    · cases hj
    · simp [howner, hij.symm]
  · obtain ⟨hnew, hnext⟩ := h.threads i _ hi
    rw [hs]
    refine h.of_step rfl h.owner hnext (fun _ _ => Iff.rfl) fun u hu => ?_
    rw [List.mem_singleton.mp hu]
    exact hnew

theorem Orderly.run {actions : List ℕ} (h : pool.Orderly)
    (hexec : (scheduling σ).Execution pool actions) :
    ((scheduling σ).run pool actions).Orderly :=
  TransitionSystem.invariant_run (fun _ _ hstep horderly => horderly.step hstep) hexec h

/-- The pool can go on until the thread at `i` has ended and the mutex is free, and so have
all threads that were spawned meanwhile. The others stay where they are. -/
def CanEnd (pool : MutexPool σ) (i : ℕ) : Prop :=
  ∃ actions rest, (scheduling σ).Execution pool actions ∧
    ((scheduling σ).run pool actions).owner = none ∧
    ((scheduling σ).run pool actions).threads = pool.threads.set i .done ++ rest ∧
    ∀ t ∈ rest, t = .done

theorem canEnd_of_step (pool' : MutexPool σ) {i : ℕ} {next : LockingThread σ}
    (hstep : pool.CanStep i) (hs : pool.step i = pool')
    (hthreads : pool'.threads = pool.threads.set i next) (h : pool'.CanEnd i) : pool.CanEnd i := by
  obtain ⟨actions, rest, hexec, howner, hend, hrest⟩ := h
  have hrun : (scheduling σ).run pool (i :: actions) = (scheduling σ).run pool' actions :=
    congrArg (fun next => (scheduling σ).run next actions) hs
  refine ⟨i :: actions, rest, ⟨hstep, ?_⟩, ?_, ?_, hrest⟩
  · change (scheduling σ).Execution (pool.step i) actions
    rw [hs]
    exact hexec
  · rw [hrun, howner]
  · rw [hrun, hend, hthreads, List.set_set]

theorem getElem?_set_of_some {ts : List (LockingThread σ)} {i : ℕ} {t : LockingThread σ}
    (h : ts[i]? = some t) (u : LockingThread σ) : (ts.set i u)[i]? = some u :=
  List.getElem?_set_self (List.getElem?_eq_some_iff.mp h).1

/-- A thread that spawns another one comes to its end behind the spawning, and the other one
after it. -/
theorem canEnd_of_spawn {t next : LockingThread σ} {i : ℕ}
    (hi : pool.threads[i]? = some (.spawn t next))
    (hfirst : CanEnd { pool with threads := pool.threads.set i next ++ [t] } i)
    (hthen : ∀ pool' : MutexPool σ, pool'.owner = none →
      pool'.threads[pool.threads.length]? = some t → pool'.CanEnd pool.threads.length) :
    pool.CanEnd i := by
  have hlt : i < pool.threads.length := (List.getElem?_eq_some_iff.mp hi).1
  have hlen : (pool.threads.set i .done).length = pool.threads.length := List.length_set
  set spawned : MutexPool σ := { pool with threads := pool.threads.set i next ++ [t] }
    with hspawned
  have henabled : pool.CanStep i := by
    rw [CanStep, hi]
    exact trivial
  have hstep : pool.step i = spawned := by rw [MutexPool.step, hi]
  obtain ⟨actions, rest, hexec, hfree, hthreads, hrest⟩ := hfirst
  rw [hspawned, List.set_append_left _ _ (by simpa using hlt), List.set_set, List.append_assoc,
    List.singleton_append] at hthreads
  obtain ⟨actions', rest', hexec', hfree', hthreads', hrest'⟩ := hthen _ hfree (by
    rw [hthreads, List.getElem?_append_right hlen.le, hlen, Nat.sub_self]
    rfl)
  rw [hthreads, List.set_append_right _ _ hlen.le, hlen, Nat.sub_self, List.set_cons_zero,
    List.append_assoc] at hthreads'
  rw [← TransitionSystem.run_append] at hfree' hthreads'
  have hrun : (scheduling σ).run pool (i :: (actions ++ actions')) =
      (scheduling σ).run spawned (actions ++ actions') :=
    congrArg (fun pool => (scheduling σ).run pool (actions ++ actions')) hstep
  refine ⟨i :: (actions ++ actions'), .done :: (rest ++ rest'), ⟨henabled, ?_⟩, ?_, ?_, ?_⟩
  · change (scheduling σ).Execution (pool.step i) _
    rw [hstep]
    exact TransitionSystem.execution_append.mpr ⟨hexec, hexec'⟩
  · rw [hrun, hfree']
  · rw [hrun, hthreads', List.cons_append]
  · intro u hu
    rcases List.mem_cons.mp hu with rfl | hu
    · rfl
    · exact (List.mem_append.mp hu).elim (hrest u) (hrest' u)

/-- A bracketed thread can run to its end if nobody else holds the mutex. What it spawns runs
after it. -/
theorem canEnd {t : LockingThread σ} {i : ℕ} {held : Bool} (ht : t.Bracketed held)
    (hi : pool.threads[i]? = some t) (howner : pool.owner = if held then some i else none) :
    pool.CanEnd i := by
  induction t generalizing pool i held with
  | done =>
      have hfree : held = false := ht
      subst hfree
      obtain ⟨hlt, hget⟩ := List.getElem?_eq_some_iff.mp hi
      refine ⟨[], [], trivial, howner, ?_, by simp⟩
      rw [List.append_nil, ← hget, List.set_getElem_self]
      rfl
  | act f next ih =>
      refine canEnd_of_step { pool with
        state := f pool.state, threads := pool.threads.set i (next pool.state) } ?_ ?_ rfl
        (ih pool.state (ht _) (getElem?_set_of_some hi _) howner)
      · rw [CanStep, hi]
        exact trivial
      · rw [MutexPool.step, hi]
  | lock next ih =>
      obtain ⟨hfree, hnext⟩ := ht
      subst hfree
      refine canEnd_of_step { pool with
        owner := some i, threads := pool.threads.set i next } ?_ ?_ rfl
        (ih hnext (getElem?_set_of_some hi _) rfl)
      · rw [CanStep, hi]
        exact howner
      · rw [MutexPool.step, hi]
  | unlock next ih =>
      obtain ⟨hheld, hnext⟩ := ht
      subst hheld
      refine canEnd_of_step { pool with
        owner := none, threads := pool.threads.set i next } ?_ ?_ rfl
        (ih hnext (getElem?_set_of_some hi _) rfl)
      · rw [CanStep, hi]
        exact howner
      · rw [MutexPool.step, hi]
  | spawn t next iht ih =>
      obtain ⟨hnew, hnext⟩ := ht
      have hlt : i < pool.threads.length := (List.getElem?_eq_some_iff.mp hi).1
      refine canEnd_of_spawn hi (ih hnext ?_ howner) fun pool' hfree ht => iht hnew ht hfree
      rw [List.getElem?_append_left (by simpa using hlt)]
      exact getElem?_set_of_some hi next

/-- With a free mutex the threads can be run one after the other. -/
theorem canEnd_all (ended waiting rest : List (LockingThread σ)) {pool : MutexPool σ}
    (hthreads : pool.threads = ended ++ waiting ++ rest) (howner : pool.owner = none)
    (hended : ∀ t ∈ ended, t = .done) (hrest : ∀ t ∈ rest, t = .done)
    (hwaiting : ∀ t ∈ waiting, Bracketed false t) :
    ∃ actions, (scheduling σ).Execution pool actions ∧
      ((scheduling σ).run pool actions).AllDone := by
  induction waiting generalizing pool ended rest with
  | nil =>
      refine ⟨[], trivial, fun t ht => ?_⟩
      change t ∈ pool.threads at ht
      rw [hthreads, List.append_nil] at ht
      exact (List.mem_append.mp ht).elim (hended t) (hrest t)
  | cons t waiting ih =>
      have hi : pool.threads[ended.length]? = some t := by
        rw [hthreads, List.append_assoc, List.getElem?_append_right le_rfl, Nat.sub_self]
        rfl
      obtain ⟨actions, new, hexec, hfree, hend, hnew⟩ :=
        canEnd (hwaiting t List.mem_cons_self) hi howner
      have hsplit : ((scheduling σ).run pool actions).threads =
          (ended ++ [.done]) ++ waiting ++ (rest ++ new) := by
        rw [hend, hthreads]
        simp
      obtain ⟨actions', hexec', hdone⟩ := ih (ended ++ [.done]) (rest ++ new) hsplit hfree
        (by simpa [or_imp, forall_and] using hended) (fun u hu => (List.mem_append.mp hu).elim (hrest u) (hnew u))
        fun u hu => hwaiting u (List.mem_cons_of_mem _ hu)
      refine ⟨actions ++ actions', TransitionSystem.execution_append.mpr ⟨hexec, hexec'⟩, ?_⟩
      rw [TransitionSystem.run_append]
      exact hdone

theorem Orderly.canFinish_of_free (h : pool.Orderly) (howner : pool.owner = none) :
    ∃ actions, (scheduling σ).Execution pool actions ∧
      ((scheduling σ).run pool actions).AllDone := by
  refine canEnd_all [] pool.threads [] (by simp) howner (by simp) (by simp) fun t ht => ?_
  obtain ⟨i, hi⟩ := List.mem_iff_getElem?.mp ht
  have hbracketed := h.threads i t hi
  rwa [howner, decide_eq_false (by simp)] at hbracketed

/-- Bracketed threads never wait for each other for good: the holder of the mutex comes to its
end first, and the others after it. -/
theorem Orderly.canFinish (h : pool.Orderly) :
    ∃ actions, (scheduling σ).Execution pool actions ∧
      ((scheduling σ).run pool actions).AllDone := by
  cases howner : pool.owner with
  | none => exact h.canFinish_of_free howner
  | some i =>
      have hi : pool.threads[i]? = some _ := List.getElem?_eq_getElem (h.owner i howner)
      have hheld := h.threads i _ hi
      rw [decide_eq_true howner] at hheld
      obtain ⟨actions, rest, hexec, hfree, -, -⟩ := canEnd hheld hi howner
      obtain ⟨actions', hexec', hdone⟩ := (h.run hexec).canFinish_of_free hfree
      refine ⟨actions ++ actions', TransitionSystem.execution_append.mpr ⟨hexec, hexec'⟩, ?_⟩
      rw [TransitionSystem.run_append]
      exact hdone

end MutexPool
