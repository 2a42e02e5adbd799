/-
  What `stop` waits for: nothing.

  After its critical section `stop` goes over `threads_` and calls `joined()` of each, which
  tells whether the thread has been joined, where `join()` would wait for it.  So `stop` returns
  by its own steps from wherever the workers are (`stop_returns`), and with at least one worker
  there is a run in which it has returned and that worker is still inside `threadFunc`.
-/
import IOEvent.ThreadPool.HandOff

open Foundation

namespace IOEvent

namespace ThreadPool

variable {τ : Type} {p p' : ThreadPool τ}

/-- When `stop` has returned, no worker is inside `threadFunc`. -/
def ShutDown (p : ThreadPool τ) : Prop :=
  p.stopper = .returned → ∀ w ∈ p.workers, w = .exited

/-! ## The workers stay the same number

  None comes and none goes, whatever happens, so a pool with a worker has one at the end as
  well. -/

/-- A poster moves no worker. -/
theorem workers_postFrom (p : ThreadPool τ) (j : Nat) (task : τ) (at_ : WaitAt) (wake : Nat) :
    (p.postFrom j task at_ wake).workers = p.workers := by
  rw [postFrom_eq]
  split <;> rfl

/-- A worker that goes on makes no worker more or less. -/
theorem length_takeFrom (p : ThreadPool τ) (i : Nat) (at_ : WaitAt) (wake : Nat) :
    (p.takeFrom i at_ wake).workers.length = p.workers.length := by
  rw [takeFrom_eq]
  split
  · rw [pop]
    split <;> exact List.length_set
  · exact List.length_set

/-- Nor does any step of a poster. -/
theorem workers_stepPoster (p : ThreadPool τ) (j wake : Nat) :
    (p.stepPoster j wake).workers = p.workers := by
  rw [stepPoster]
  split
  · split
    · rfl
    · rw [post]
      split
      · exact workers_postFrom _ _ _ _ _
      · rfl
  · split
    · rfl
    · exact workers_postFrom _ _ _ _ _
  · exact workers_postFrom _ _ _ _ _
  · rfl

/-- No event creates a worker or takes one away. -/
theorem length_step {n : Nat} (h : p.workers.length = n) (e : Event τ) :
    Holds (fun p' : ThreadPool τ => p'.workers.length = n) (fun _ => True) (step p e) := by
  -- a worker sets its own place in the list; the other events leave the list alone
  cases e with
  | call task => exact .ok h
  | poster j wake =>
    refine .ok ?_
    rwa [workers_stepPoster]
  | worker i wake =>
    show Holds _ _ (p.stepWorker i wake)
    unfold stepWorker
    split
    · exact .ok (List.length_set.trans h)
    · refine .ok ?_
      split
      · exact h
      · exact (length_takeFrom _ _ _ _).trans h
    · refine .ok ?_
      split
      · exact h
      · exact (length_takeFrom _ _ _ _).trans h
    · exact .error trivial
    · exact .ok (List.length_set.trans h)
    · exact .ok (List.length_set.trans h)
    · exact .ok h
  | throws i =>
    show Holds _ _ (p.throwTask i)
    unfold throwTask
    split
    · exact .error trivial
    · exact .ok h
  | spuriousPoster j => exact .ok h
  | spuriousWorker i => exact .ok h
  | setmaxQueueSize max => exact .ok h
  | stop =>
    show Holds _ _ p.stop
    unfold stop
    split
    · by_cases hrun : p.runing_ = true
      · rw [require_pos _ _ hrun]
        exact .ok h
      · rw [require_neg _ _ hrun]
        exact .error trivial
    · refine .ok ?_
      split <;> exact h
    · split <;> exact .ok h
    · exact .ok h

/-! ## `stop` by itself

  Its steps do not look at the workers, so it returns whatever these do. -/

/-- From anywhere in its loop `stop` returns by its own steps, and nothing else has changed. -/
theorem stop_returns {t : Nat} : ∀ {p : ThreadPool τ}, t ≤ p.threads_.length →
    p.stopper = .joining (p.threads_.length - t) →
    run step p (List.replicate (t + 1) .stop) = .ok { p with stopper := .returned } := by
  -- by induction on the number of threads that are left
  induction t with
  | zero =>
    intro p _ hat
    have hend : p.threads_[p.threads_.length - 0]? = none :=
      List.getElem?_eq_none_iff.mpr (Nat.le_refl _)
    have hstep : step p .stop = .ok { p with stopper := .returned } := by
      rw [step, stop, hat]
      dsimp only
      rw [hend]
      rfl
    rw [List.replicate_one, run_cons, hstep, ok_bind, run_nil]
  | succ t ih =>
    intro p hle hat
    have hlt : p.threads_.length - (t + 1) < p.threads_.length := by omega
    have hstep : step p .stop = .ok { p with stopper := .joining (p.threads_.length - t) } := by
      have hnext : p.threads_.length - (t + 1) + 1 = p.threads_.length - t := by omega
      rw [step, stop, hat]
      dsimp only
      rw [List.getElem?_eq_getElem hlt, hnext]
      rfl
    have hrest := ih (p := { p with stopper := .joining (p.threads_.length - t) }) (by
      show t ≤ p.threads_.length
      omega) rfl
    rw [List.replicate_succ, run_cons, hstep, ok_bind, hrest]

/-- A started pool is stopped before any worker has moved. -/
theorem stop_run (max threadNum : Int32) (hardware_concurrency : Nat) :
    ∃ p : ThreadPool τ, life max threadNum hardware_concurrency
        (List.replicate (numThreads threadNum hardware_concurrency + 3) .stop) = .ok p ∧
      p.stopper = .returned ∧
      p.workers = List.replicate (numThreads threadNum hardware_concurrency) .testing := by
  have hjoining := stop_returns (t := numThreads threadNum hardware_concurrency)
    (p := { (started max threadNum hardware_concurrency : ThreadPool τ).stopRunning with
      stopper := .joining 0 })
    (List.length_replicate ..).ge (by
      show Stopper.joining 0 = .joining ((List.replicate _ _).length - _)
      rw [List.length_replicate, Nat.sub_self])
  refine ⟨{ (started max threadNum hardware_concurrency : ThreadPool τ).stopRunning with
    stopper := .returned }, ?_, rfl, rfl⟩
  rw [life_eq, List.replicate_succ, List.replicate_succ, run_cons]
  exact hjoining

/-! ## Every interleaving

  Without a worker there is nothing to shut down.  With one, `stop` by itself returns before the
  worker has taken a step. -/

/-- **`stop` is complete** if and only if the pool has no worker: with any, `stop` can return while
    they are still inside `threadFunc`. -/
theorem shut_down_iff (max threadNum : Int32) (hardware_concurrency : Nat) :
    (∀ es : List (Event τ), Holds ShutDown (fun _ => True)
      (life max threadNum hardware_concurrency es)) ↔
        numThreads threadNum hardware_concurrency = 0 := by
  constructor
  · intro hall
    obtain ⟨p, hrun, hreturned, hworkers⟩ := stop_run (τ := τ) max threadNum hardware_concurrency
    have hdown := hall (List.replicate (numThreads threadNum hardware_concurrency + 3) .stop)
    rw [hrun] at hdown
    by_contra hsome
    have hmem : Worker.testing ∈ p.workers := by
      rw [hworkers]
      exact List.mem_replicate.mpr ⟨hsome, rfl⟩
    cases holds_ok.mp hdown hreturned _ hmem
  · intro hnone es
    have hstart : (started max threadNum hardware_concurrency :
        ThreadPool τ).workers.length = 0 := by
      rw [← hnone]
      exact List.length_replicate ..
    rw [life_eq]
    refine (run_keeps (fun _ e h => length_step h e) es _ hstart).mono (fun p h _ w hw => ?_)
      fun _ => id
    rw [List.length_eq_zero_iff.mp h] at hw
    exact absurd hw List.not_mem_nil

section Examples

/-- `stop` is called and returns while the worker is in a task. -/
def busyStop : List (Event Nat) :=
  [.call 7, .poster 0 0, .worker 0 0, .worker 0 0, .worker 0 0, .stop, .stop, .stop, .stop]

/-- **The worker is left behind** in its task, with the rest of the loop before it. -/
theorem busyStop_leaves_worker : ¬ Holds ShutDown (fun _ => True) (life 0 1 4 busyStop) := by
  have hend : (life 0 1 4 busyStop).toOption.map (fun p => (p.stopper, p.workers)) =
      some (.returned, [.running 7]) := by decide +kernel
  generalize life 0 1 4 busyStop = r at hend
  intro h
  cases h with
  | ok h =>
    obtain ⟨hreturned, hworkers⟩ := Prod.mk.inj (Option.some.inj hend)
    cases h hreturned (.running 7) (hworkers ▸ List.mem_cons_self)
  | error h => cases hend

end Examples

end ThreadPool

end IOEvent
