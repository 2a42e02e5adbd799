/-
  What the workers call.

  `take` returns an empty `Task` when it comes out of its loop with the queue empty, and
  `threadFunc` calls what `take` has returned.  The loop is left so only through its test, and
  only in a stopped pool: by a worker that has passed `while (runing_)` before the call of `stop`
  and that acquires the mutex after it.  A worker that is asleep in `take` when the pool is
  stopped stays there.

  So the calls are of accepted tasks if and only if no worker comes to an empty queue in a
  stopped pool (`calls_accepted_iff`).
-/
import IOEvent.ThreadPool.Waits
import IOEvent.ThreadPool.HandOff

open Foundation

namespace IOEvent

namespace ThreadPool

variable {τ : Type} {p : ThreadPool τ} {i wake : Nat} {task : τ}

/-! ## The property

  It looks at the tasks that have been called, and at what a worker is about to call. -/

/-- What a worker calls, has called or is about to call is a task that `post` has accepted. -/
structure CallsAccepted (p : ThreadPool τ) : Prop where
  called : ∀ x ∈ p.ran, x.2 ∈ p.accepted
  calls : ∀ t, .calling t ∈ p.workers → ∃ task, t = some task ∧ task ∈ p.accepted

/-- A worker that acquires the mutex in `take` finds a task, or a pool that is running. -/
def Fed (p : ThreadPool τ) : Event τ → Prop
  | .worker i _ => p.workers[i]? = some .taking → p.locked = false → p.queue_ ≠ [] ∨
    p.runing_ = true
  | _ => True

/-! ## One step

  Tasks only come from `post`, so what is in the queue is known.  What `take` returns with an
  empty queue is the only other source. -/

/-- The tasks that go round: accepted, in the queue, called. -/
structure Known (p : ThreadPool τ) : Prop extends CallsAccepted p where
  queued : ∀ task ∈ p.queue_, task ∈ p.accepted

/-- A worker goes to a place where it has no task. -/
theorem Known.setWorker (h : Known p) {w : Worker τ} (hw : ∀ t, w ≠ .calling t) (i : Nat) :
    Known (p.setWorker i w) := by
  refine ⟨⟨h.called, fun t ht => ?_⟩, h.queued⟩
  rcases List.mem_or_eq_of_mem_set ht with hmem | heq
  · exact h.calls t hmem
  · exact absurd heq.symm (hw t)

/-- Who sleeps has nothing to do with which tasks are known. -/
theorem Known.of_condVars (h : Known p) (notEmpty notFull : CondVar) :
    Known { p with notEmpty_ := notEmpty, notFull_ := notFull } := ⟨⟨h.called, h.calls⟩, h.queued⟩

/-- `take` comes out of its loop with a task, or goes to sleep. -/
theorem Known.takeFrom (h : Known p) {at_ : WaitAt}
    (hfed : at_ = .test → p.queue_ ≠ [] ∨ p.runing_ = true) (i wake : Nat) :
    Known (p.takeFrom i at_ wake) := by
  have hsleeps : Known ({ p.setWorker i .waiting with notEmpty_ := p.notEmpty_.wait i } :
      ThreadPool τ) := by
    have hwaiting := h.setWorker (w := .waiting) (fun t heq => by cases heq) i
    exact hwaiting.of_condVars _ _
  rw [takeFrom_eq]
  -- with an empty queue it sleeps, as `stopped` has been excluded
  cases hqueue : p.queue_ with
  | nil =>
    have hend : p.takeEnd at_ = .sleeps := by
      have hempty : p.queue_.isEmpty = true := List.isEmpty_iff.mpr hqueue
      cases at_ with
      | test =>
        have hrun := (hfed rfl).resolve_left fun hne => hne hqueue
        exact if_pos ⟨hempty, hrun⟩
      | predicate => exact if_pos hempty
    rw [hend]
    exact hsleeps
  | cons task queue =>
    cases p.takeEnd at_ with
    | sleeps => exact hsleeps
    -- otherwise it takes the first task, which was accepted
    | leaves =>
      have hqueued : ∀ t ∈ task :: queue, t ∈ p.accepted := hqueue ▸ h.queued
      dsimp only
      rw [pop, hqueue]
      refine ⟨⟨h.called, fun t ht => ?_⟩, fun t ht => hqueued t (List.mem_cons_of_mem _ ht)⟩
      rcases List.mem_or_eq_of_mem_set ht with hmem | heq
      · exact h.calls t hmem
      · cases heq
        exact ⟨task, rfl, hqueued task List.mem_cons_self⟩

/-- `post` accepts a task, or goes to another place. -/
theorem Known.postFrom (h : Known p) (j : Nat) (task : τ) (at_ : WaitAt) (wake : Nat) :
    Known (p.postFrom j task at_ wake) := by
  rw [postFrom_eq]
  split
  · have haccepted : ∀ {t : τ}, t ∈ p.accepted → t ∈ p.accepted ++ [task] :=
      fun ht => List.mem_append_left _ ht
    refine ⟨⟨fun x hx => haccepted (h.called x hx), fun t ht => ?_⟩, fun t ht => ?_⟩
    · obtain ⟨task', heq, hmem⟩ := h.calls t ht
      exact ⟨task', heq, haccepted hmem⟩
    · rcases List.mem_append.mp ht with hmem | hmem
      · exact haccepted (h.queued t hmem)
      · exact List.mem_append_right _ hmem
  · exact ⟨⟨h.called, h.calls⟩, h.queued⟩
  · exact ⟨⟨h.called, h.calls⟩, h.queued⟩

/-- A poster pushes the task that it was called with. -/
theorem Known.stepPoster (h : Known p) (j wake : Nat) : Known (p.stepPoster j wake) := by
  rw [ThreadPool.stepPoster]
  split
  · split
    · exact h
    · rw [post]
      split
      · exact h.postFrom _ _ _ _
      · exact ⟨⟨h.called, h.calls⟩, h.queued⟩
  · split
    · exact h
    · have hresumed := h.of_condVars p.notEmpty_ (p.notFull_.resume j)
      exact hresumed.postFrom _ _ _ _
  · exact h.postFrom _ _ _ _
  · exact h

/-- A worker calls the task that it has taken. Without the condition that could be the empty one
    which `take` returns from a stopped pool. -/
theorem Known.stepWorker (h : Known p) (hfed : Fed p (.worker i wake)) :
    Holds Known (fun f => f.1 ≠ .emptyTask) (p.stepWorker i wake) := by
  rw [ThreadPool.stepWorker]
  cases hi : p.workers[i]? with
  | none => exact .ok h
  | some w =>
    -- the place of the worker
    cases w with
    | testing =>
      refine .ok (h.setWorker (fun t heq => ?_) i)
      split at heq <;> cases heq
    | taking =>
      dsimp only
      split
      · exact .ok h
      · rename_i hlock
        exact .ok (h.takeFrom (fun _ => hfed hi (Bool.eq_false_iff.mpr hlock)) i wake)
    | waiting =>
      dsimp only
      split
      · exact .ok h
      · have hresumed := h.of_condVars (p.notEmpty_.resume i) p.notFull_
        exact .ok (hresumed.takeFrom (fun heq => by cases heq) i wake)
    | calling t =>
      obtain ⟨task, rfl, haccepted⟩ := h.calls t (List.mem_of_getElem? hi)
      have hrunning := h.setWorker (w := .running task) (fun t heq => by cases heq) i
      refine .ok ⟨⟨fun x hx => ?_, hrunning.calls⟩, h.queued⟩
      rcases List.mem_append.mp hx with hmem | hmem
      · exact h.called x hmem
      · rw [List.mem_singleton.mp hmem]
        exact haccepted
    | running task => exact .ok (h.setWorker (fun t heq => by cases heq) i)
    | exited => exact .ok h

/-- **One event** that does not bring a worker to an empty queue in a stopped pool. -/
theorem Known.step (h : Known p) {e : Event τ} (hfed : Fed p e) :
    Holds Known (fun f => f.1 ≠ .emptyTask) (step p e) := by
  cases e with
  | call task => exact .ok ⟨⟨h.called, h.calls⟩, h.queued⟩
  | poster j wake => exact .ok (h.stepPoster j wake)
  | worker i wake => exact h.stepWorker hfed
  | throws i =>
    show Holds _ _ (p.throwTask i)
    unfold throwTask
    split
    · exact .error fun heq => by cases heq
    · exact .ok h
  | spuriousPoster j => exact .ok (h.of_condVars _ _)
  | spuriousWorker i => exact .ok (h.of_condVars _ _)
  | setmaxQueueSize max => exact .ok ⟨⟨h.called, h.calls⟩, h.queued⟩
  | stop =>
    show Holds _ _ p.stop
    unfold stop
    split
    · by_cases hrun : p.runing_ = true
      · rw [require_pos _ _ hrun]
        exact .ok ⟨⟨h.called, h.calls⟩, h.queued⟩
      · rw [require_neg _ _ hrun]
        exact .error fun heq => by cases heq
    · refine .ok ?_
      split <;> exact ⟨⟨h.called, h.calls⟩, h.queued⟩
    · split <;> exact .ok ⟨⟨h.called, h.calls⟩, h.queued⟩
    · exact .ok h

/-- A worker that comes to an empty queue in a stopped pool has an empty task in hand. -/
theorem not_fed_calls {e : Event τ} (hfed : ¬ Fed p e) :
    ¬ Holds CallsAccepted (fun f => f.1 ≠ .emptyTask) (step p e) := by
  cases e with
  | worker i wake =>
    intro h
    -- the event in question: a worker that takes, with nothing queued and the pool stopped
    refine hfed fun hi hlock => ?_
    by_contra hnot
    obtain ⟨hempty, hstopped⟩ := not_or.mp hnot
    have hqueue : p.queue_ = [] := not_not.mp hempty
    have hend : p.takeEnd .test = .leaves := if_neg fun hboth => hstopped hboth.2
    have hstep : step p (.worker i wake) = .ok (p.setWorker i (.calling none)) := by
      show p.stepWorker i wake = _
      rw [stepWorker, hi]
      dsimp only
      rw [if_neg (Bool.eq_false_iff.mp hlock), takeFrom_eq, hend]
      dsimp only
      rw [pop, hqueue]
      rfl
    -- so it calls the empty `Task` it was given
    rw [hstep] at h
    have hcalling : Worker.calling none ∈ (p.setWorker i (.calling none)).workers :=
      List.mem_of_getElem? (getElem?_setWorker hi)
    obtain ⟨task, heq, -⟩ := (holds_ok.mp h).calls none hcalling
    cases heq
  | call => exact absurd trivial hfed
  | poster => exact absurd trivial hfed
  | throws => exact absurd trivial hfed
  | spuriousPoster => exact absurd trivial hfed
  | spuriousWorker => exact absurd trivial hfed
  | setmaxQueueSize => exact absurd trivial hfed
  | stop => exact absurd trivial hfed

/-! ## Every interleaving

  The run starts with no task anywhere, so the induction begins with nothing to show. -/

/-- In a new pool there is no task. -/
theorem started_known (max threadNum : Int32) (hardware_concurrency : Nat) :
    Known (started max threadNum hardware_concurrency : ThreadPool τ) := by
  refine ⟨⟨fun _ h => absurd h List.not_mem_nil, fun t ht => ?_⟩, fun _ h =>
    absurd h List.not_mem_nil⟩
  cases List.eq_of_mem_replicate ht

/-- **No empty task.** Every task that is called has been accepted, all along a run, if and only
    if no worker comes to an empty queue in a stopped pool. -/
theorem calls_accepted_iff (max threadNum : Int32) (hardware_concurrency : Nat)
    (es : List (Event τ)) :
    Guarded step Fed (started max threadNum hardware_concurrency) es ↔
      ∀ pre, pre <+: es → Holds CallsAccepted (fun f => f.1 ≠ .emptyTask)
        (life max threadNum hardware_concurrency pre) :=
  guarded_iff (fun _ h => h.toCallsAccepted) (fun _ _ h hfed => h.step hfed)
    (fun _ _ _ hfed => not_fed_calls hfed) es _ (started_known max threadNum hardware_concurrency)

section Examples

/-- The worker has tested `runing_`; the pool is stopped; the worker goes on. -/
def stoppedTake : List (Event Nat) :=
  [.worker 0 0, .stop, .stop, .worker 0 0, .worker 0 0]

/-- **An empty task is called**, which ends the process. -/
theorem stoppedTake_calls_empty :
    ¬ Holds CallsAccepted (fun f => f.1 ≠ .emptyTask) (life 0 1 4 stoppedTake) := by
  have hend : (match life 0 1 4 stoppedTake with
      | .ok _ => none
      | .error f => some f.1) = some Fault.emptyTask := by decide +kernel
  generalize life 0 1 4 stoppedTake = r at hend
  intro h
  cases h with
  | ok h => cases hend
  | error h => exact h (Option.some.inj hend)

end Examples

end ThreadPool

end IOEvent
