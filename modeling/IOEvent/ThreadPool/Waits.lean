/-
  The wait loops of `take` and `post`.

  Each is a `while` loop around a `wait` with a predicate of its own, and is left only where the
  two agree.  In `take` they agree while the pool is running; when it is not, the predicate still
  asks for a task, so a worker that wakes with the queue empty goes back to sleep.  In `post` the
  predicate lets a stopped pool through and the test of the loop does not, so a poster that wakes
  with the queue full goes round for ever, with the mutex held (`postWait_spins`).  A poster that
  wakes with room in the queue leaves the loop, but not as it should: `runing_` is looked at
  before the loop only, so it pushes its task into the stopped pool (`woken_poster_pushes`).

  `takeFrom_eq` and `postFrom_eq` are the critical sections without their loops; the later
  modules use these.  `waits_end_iff` is the exact condition on which the wait of a thread ends
  as it should once the pool has been stopped.  For a poster there is none: what is inside the
  loop of `post` never throws (`Inside`).
-/
import IOEvent.ThreadPool

open Foundation

namespace IOEvent

namespace ThreadPool

variable {τ : Type} {p : ThreadPool τ} {i j wake : Nat} {task : τ} {at_ : WaitAt}

/-! ## `take`

  With the mutex held the loop is left within `turns` turns, as its predicate and its test
  never send it back and forth. -/

/-- How `take` comes out of its loop. -/
def takeEnd (p : ThreadPool τ) : WaitAt → WaitEnd
  | .test => if p.queue_.isEmpty = true ∧ p.runing_ = true then .sleeps else .leaves
  | .predicate => if p.queue_.isEmpty = true then .sleeps else .leaves

/-- The loop of `take` comes to its end or to a sleep as `takeEnd` says, wherever it is entered:
    it never goes round with the mutex held. -/
theorem takeWait_loop (p : ThreadPool τ) (at_ : WaitAt) :
    loop p.takeWait turns at_ = some (.ok (p.takeEnd at_)) := by
  have hpos : 0 < p.queue_.length ↔ ¬ p.queue_.isEmpty = true := by
    rw [List.isEmpty_iff, List.length_pos_iff]
  cases at_ with
  | test =>
    by_cases htest : p.queue_.isEmpty = true ∧ p.runing_ = true
    · have hnext : p.takeWait .test = .ok (.next .predicate) := if_pos htest
      have hdone : p.takeWait .predicate = .ok (.done .sleeps) :=
        if_neg fun h => hpos.mp h htest.1
      rw [turns, loop_next hnext, loop_done hdone, takeEnd, if_pos htest]
    · have hdone : p.takeWait .test = .ok (.done .leaves) := if_neg htest
      rw [turns, loop_done hdone, takeEnd, if_neg htest]
  | predicate =>
    by_cases hempty : p.queue_.isEmpty = true
    · have hdone : p.takeWait .predicate = .ok (.done .sleeps) := if_neg fun h => hpos.mp h hempty
      rw [turns, loop_done hdone, takeEnd, if_pos hempty]
    · have hnext : p.takeWait .predicate = .ok (.next .test) := if_pos (hpos.mpr hempty)
      have hdone : p.takeWait .test = .ok (.done .leaves) := if_neg fun h => hempty h.1
      rw [turns, loop_next hnext, loop_done hdone, takeEnd, if_neg hempty]

/-- **`take`** without its loop. -/
theorem takeFrom_eq (p : ThreadPool τ) (i : Nat) (at_ : WaitAt) (wake : Nat) :
    p.takeFrom i at_ wake =
      match p.takeEnd at_ with
      | .leaves => p.pop i wake
      | .sleeps => { p.setWorker i .waiting with notEmpty_ := p.notEmpty_.wait i } := by
  rw [takeFrom, takeWait_loop]
  cases p.takeEnd at_ <;> rfl

/-! ## `post`

  The loop is left within `turns` turns, or never: with a full queue in a stopped pool the
  predicate is true and so is the test. -/

/-- A full queue is not below its bound. -/
theorem not_room_of_full (h : p.full = true) :
    ¬ p.queue_.length < toUnsigned 64 p.maxQueueSize_.toInt := by
  rw [full, Bool.and_eq_true, beq_iff_eq] at h
  omega

/-- On a full queue the predicate of the wait says whether the pool has stopped. -/
theorem notFull_of_full (h : p.full = true) : p.notFull = !p.runing_ := by
  rw [notFull, decide_eq_false (not_room_of_full h), Bool.false_or]

/-- How `post` comes out of its loop, if it does. -/
def postEnd (p : ThreadPool τ) : WaitAt → Option WaitEnd
  | .test =>
    if p.full = true then (if p.runing_ = true then some .sleeps else none) else some .leaves
  | .predicate =>
    if p.notFull = true then (if p.full = true then none else some .leaves) else some .sleeps

/-- **A stopped pool with a full queue**: the loop of `post` is never left. -/
theorem postWait_spins (hfull : p.full = true) (hstopped : p.runing_ = false) (n : Nat)
    (at_ : WaitAt) :
    loop p.postWait n at_ = none := by
  refine loop_diverges (I := fun _ => True) (fun at_ _ => ?_) n at_ trivial
  cases at_ with
  | test => exact ⟨.predicate, if_pos hfull, trivial⟩
  | predicate =>
    refine ⟨.test, if_pos ?_, trivial⟩
    rw [notFull_of_full hfull, hstopped]
    rfl

/-- The loop of `post` is what `postEnd` says of it, and has no end where that is `none`. -/
theorem postWait_loop (p : ThreadPool τ) (at_ : WaitAt) :
    loop p.postWait turns at_ = (p.postEnd at_).map .ok := by
  by_cases hfull : p.full = true
  · cases hrun : p.runing_ with
    | false =>
      -- the predicate holds, and so does the test of the loop
      have hroom : p.notFull = true := by
        rw [notFull_of_full hfull, hrun]
        rfl
      rw [postWait_spins hfull hrun]
      cases at_ with
      | test => rw [postEnd, if_pos hfull, hrun]; rfl
      | predicate => rw [postEnd, if_pos hroom, if_pos hfull]; rfl
    | true =>
      have hroom : ¬ p.notFull = true := by
        rw [notFull_of_full hfull, hrun]
        decide
      have hdone : p.postWait .predicate = .ok (.done .sleeps) := if_neg hroom
      cases at_ with
      | test =>
        have hnext : p.postWait .test = .ok (.next .predicate) := if_pos hfull
        rw [turns, loop_next hnext, loop_done hdone, postEnd, if_pos hfull, hrun]
        rfl
      | predicate => rw [turns, loop_done hdone, postEnd, if_neg hroom]; rfl
  · have hdone : p.postWait .test = .ok (.done .leaves) := if_neg hfull
    cases at_ with
    | test => rw [turns, loop_done hdone, postEnd, if_neg hfull]; rfl
    | predicate =>
      by_cases hroom : p.notFull = true
      · have hnext : p.postWait .predicate = .ok (.next .test) := if_pos hroom
        rw [turns, loop_next hnext, loop_done hdone, postEnd, if_pos hroom, if_neg hfull]
        rfl
      · have hsleep : p.postWait .predicate = .ok (.done .sleeps) := if_neg hroom
        rw [turns, loop_done hsleep, postEnd, if_neg hroom]
        rfl

/-- **`post`** without its loop. -/
theorem postFrom_eq (p : ThreadPool τ) (j : Nat) (task : τ) (at_ : WaitAt) (wake : Nat) :
    p.postFrom j task at_ wake =
      match p.postEnd at_ with
      | some .leaves => p.push j task wake
      | some .sleeps => { p.setPoster j task .waiting with notFull_ := p.notFull_.wait j }
      | none => p.setPoster j task .spinning := by
  rw [postFrom, postWait_loop]
  cases p.postEnd at_ with
  | none => rfl
  | some e => cases e <;> rfl

/-! ## After `stop`

  The waits of the threads that were inside a loop when the pool was stopped, for each of the
  two loops. -/

/-- A thread inside the wait loop of `take` or of `post`. -/
inductive Waiter
  | worker (i : Nat)
  | poster (j : Nat)

/-- It is awake, and the mutex is there for it. -/
def Woken (p : ThreadPool τ) : Waiter → Prop
  | .worker i => p.workers[i]? = some .waiting ∧ i ∉ p.notEmpty_.asleep ∧ p.locked = false
  | .poster j => ∃ task, p.posters[j]? = some ⟨task, .spinning⟩ ∨
    p.posters[j]? = some ⟨task, .waiting⟩ ∧ j ∉ p.notFull_.asleep ∧ p.locked = false

/-- The call `j` of `post` goes on, as often as there are entries in `wakes`. -/
def posterSteps (p : ThreadPool τ) (j : Nat) (wakes : List Nat) : ThreadPool τ :=
  wakes.foldl (fun p wake => p.stepPoster j wake) p

/-- The wait ends: with the mutex, a worker leaves its loop after finitely many turns, and a
    poster leaves `post` by an exception after finitely many of its own steps, and has not
    enqueued its task. -/
def Ends (p : ThreadPool τ) : Waiter → Prop
  | .worker _ => ∃ n, loop p.takeWait n .predicate = some (.ok .leaves)
  | .poster j => ∃ wakes task what, (p.posterSteps j wakes).posters[j]? = some ⟨task, .threw what⟩ ∧
    (p.posterSteps j wakes).queue_ = p.queue_

/-- A worker that finds a task; and no poster. -/
def Served (p : ThreadPool τ) : Waiter → Prop
  | .worker _ => p.queue_ ≠ []
  | .poster _ => False

/-- A worker that wakes with the queue empty goes back to sleep. -/
theorem ends_worker_iff : p.Ends (.worker i) ↔ p.queue_ ≠ [] := by
  constructor
  · rintro ⟨n, hn⟩ hempty
    have hend := Except.ok.inj (loop_unique hn (takeWait_loop p .predicate))
    rw [takeEnd, if_pos (List.isEmpty_iff.mpr hempty)] at hend
    cases hend
  · intro hserved
    refine ⟨turns, ?_⟩
    rw [takeWait_loop, takeEnd, if_neg fun hempty => hserved (List.isEmpty_iff.mp hempty)]

/-- What a poster that was asleep when the pool was stopped does if it leaves: it pushes its
    task. -/
theorem woken_poster_pushes (hstopped : p.runing_ = false) (hfree : p.full = false)
    (hwaiting : p.posters[j]? = some ⟨task, .waiting⟩) (hawake : j ∉ p.notFull_.asleep)
    (hlock : p.locked = false) (wake : Nat) :
    p.stepPoster j wake =
      ({ p with notFull_ := p.notFull_.resume j } : ThreadPool τ).push j task wake := by
  have hroom : p.notFull = true := by
    rw [notFull, hstopped]
    exact Bool.or_true _
  have hend : ({ p with notFull_ := p.notFull_.resume j } : ThreadPool τ).postEnd .predicate =
      some .leaves := by
    show p.postEnd .predicate = _
    rw [postEnd, if_pos hroom, if_neg (Bool.eq_false_iff.mp hfree)]
  rw [stepPoster, hwaiting]
  dsimp only
  rw [if_neg (by simp [hlock, hawake]), postFrom_eq, hend]

/-- The call `j` of `post` is past the test of `runing_`: inside its loop, or it has returned. -/
def Inside (p : ThreadPool τ) (j : Nat) : Prop :=
  ∃ task place, p.posters[j]? = some ⟨task, place⟩ ∧
    (place = .waiting ∨ place = .spinning ∨ place = .returned)

/-- The poster that was moved is where it was moved to. -/
theorem getElem?_setPoster {x : Poster τ} {place : Place} (hj : p.posters[j]? = some x) :
    (p.setPoster j task place).posters[j]? = some ⟨task, place⟩ :=
  List.getElem?_set_self (List.getElem?_eq_some_iff.mp hj).1

/-- It is inside its loop, or has left it by its return. -/
theorem Inside.of_setPoster {x : Poster τ} {place : Place} (hj : p.posters[j]? = some x)
    (hplace : place = .waiting ∨ place = .spinning ∨ place = .returned) :
    (p.setPoster j task place).Inside j :=
  ⟨task, place, getElem?_setPoster hj, hplace⟩

/-- From its wait loop, a poster returns, sleeps, or goes on in the loop. -/
theorem Inside.postFrom {x : Poster τ} (hj : p.posters[j]? = some x) :
    (p.postFrom j task at_ wake).Inside j := by
  rw [postFrom_eq]
  cases p.postEnd at_ with
  | none => exact .of_setPoster hj (.inr (.inl rfl))
  | some e =>
    cases e with
    | leaves => exact .of_setPoster hj (.inr (.inr rfl))
    | sleeps => exact .of_setPoster hj (.inl rfl)

/-- A step of its own keeps the poster past the test of `runing_`. -/
theorem Inside.stepPoster (h : p.Inside j) (wake : Nat) : (p.stepPoster j wake).Inside j := by
  obtain ⟨task, place, hj, hplace⟩ := h
  rw [ThreadPool.stepPoster, hj]
  rcases hplace with rfl | rfl | rfl
  · dsimp only
    split
    · exact ⟨task, .waiting, hj, .inl rfl⟩
    · exact .postFrom hj
  · exact .postFrom hj
  · exact ⟨task, .returned, hj, .inr (.inr rfl)⟩

/-- However often it goes on. -/
theorem Inside.posterSteps (h : p.Inside j) (wakes : List Nat) :
    (p.posterSteps j wakes).Inside j := by
  induction wakes generalizing p with
  | nil => exact h
  | cons wake wakes ih => exact ih (h.stepPoster wake)

/-- What is inside the loop does not throw. -/
theorem Inside.not_ends (h : p.Inside j) : ¬ p.Ends (.poster j) := by
  rintro ⟨wakes, task, what, hthrew, -⟩
  obtain ⟨task', place, hj, hplace⟩ := h.posterSteps wakes
  obtain rfl : place = .threw what := congrArg Poster.place (Option.some.inj (hj.symm.trans hthrew))
  rcases hplace with h | h | h <;> cases h

/-- A poster that is woken is inside its loop. -/
theorem Woken.inside (h : p.Woken (.poster j)) : p.Inside j := by
  obtain ⟨task, hspinning | ⟨hwaiting, -⟩⟩ := h
  · exact ⟨task, .spinning, hspinning, .inr (.inl rfl)⟩
  · exact ⟨task, .waiting, hwaiting, .inl rfl⟩

/-- **Waits end on stop** exactly for the workers that find a task.  A poster of a stopped pool
    goes back into its loop, with the mutex (`postWait_spins`), or pushes its task
    (`woken_poster_pushes`); none throws.  The condition is the same when the pool is running. -/
theorem waits_end_iff (w : Waiter) (hwoken : p.Woken w) : p.Ends w ↔ p.Served w := by
  cases w with
  | worker i => exact ends_worker_iff
  | poster j => exact iff_false_intro hwoken.inside.not_ends

section Examples

/-- A worker is asleep; a task is posted for it, and then the pool is stopped. -/
def servedStop : List (Event Nat) :=
  [.worker 0 0, .worker 0 0, .call 7, .poster 0 0, .stop, .stop]

/-- The condition can be met: a worker wakes with a task left in the queue, and leaves `take()`
    with it. -/
theorem waits_end_servedStop : ∃ p : ThreadPool Nat, life 0 1 4 servedStop = .ok p ∧
    p.runing_ = false ∧ p.Woken (.worker 0) ∧ (p.Ends (.worker 0) ↔ p.Served (.worker 0)) ∧
    p.Served (.worker 0) := by
  have hend : (life 0 1 4 servedStop).toOption.map (fun p => (p.runing_, p.workers[0]?,
      p.notEmpty_.asleep, p.locked, p.queue_)) = some (false, some .waiting, [], false, [7]) := by
    decide +kernel
  cases h : life 0 1 4 servedStop with
  | error f =>
    rw [h] at hend
    cases hend
  | ok p =>
    rw [h] at hend
    obtain ⟨hstopped, hend⟩ := Prod.mk.inj (Option.some.inj hend)
    obtain ⟨hworker, hend⟩ := Prod.mk.inj hend
    obtain ⟨hawake, hend⟩ := Prod.mk.inj hend
    obtain ⟨hlock, hqueue⟩ := Prod.mk.inj hend
    have hwoken : p.Woken (.worker 0) := ⟨hworker, hawake ▸ List.not_mem_nil, hlock⟩
    refine ⟨p, rfl, hstopped, hwoken, waits_end_iff _ hwoken, ?_⟩
    rw [Served, hqueue]
    decide

/-- A worker is asleep when the pool is stopped, with nothing to do. -/
def emptyStop : List (Event Nat) := [.worker 0 0, .worker 0 0, .stop, .stop]

/-- The queue has its one task, and a second poster is asleep, when the pool is stopped. -/
def fullStop : List (Event Nat) :=
  [.call 7, .poster 0 0, .call 8, .poster 1 0, .stop, .stop]

/-- The same, and a worker that was on its way to `take` makes room before the second poster
    wakes. -/
def roomStop : List (Event Nat) :=
  [.worker 0 0, .call 7, .poster 0 0, .call 8, .poster 1 0, .stop, .stop, .worker 0 0]

/-- A poster that is awake inside its loop after the pool has been stopped. -/
theorem poster_waits {es : List (Event Nat)} {queue : List Nat} {full : Bool}
    (hend : (life 1 1 4 es).toOption.map (fun p => ((p.runing_, p.posters[1]?, p.notFull_.asleep),
      p.locked, p.queue_, p.full)) = some ((false, some ⟨8, .waiting⟩, []), false, queue, full)) :
    ∃ p : ThreadPool Nat, life 1 1 4 es = .ok p ∧ p.runing_ = false ∧
      (p.posters[1]? = some ⟨8, .waiting⟩ ∧ 1 ∉ p.notFull_.asleep ∧ p.locked = false) ∧
      p.queue_ = queue ∧ p.full = full := by
  cases h : life 1 1 4 es with
  | error f =>
    rw [h] at hend
    cases hend
  | ok p =>
    rw [h] at hend
    obtain ⟨hwaiting, hend⟩ := Prod.mk.inj (Option.some.inj hend)
    obtain ⟨hstopped, hwaiting⟩ := Prod.mk.inj hwaiting
    obtain ⟨hposter, hawake⟩ := Prod.mk.inj hwaiting
    obtain ⟨hlock, hend⟩ := Prod.mk.inj hend
    obtain ⟨hqueue, hfull⟩ := Prod.mk.inj hend
    exact ⟨p, rfl, hstopped, ⟨hposter, hawake ▸ List.not_mem_nil, hlock⟩, hqueue, hfull⟩

/-- **Waits do not end**: the worker sleeps again; one poster never comes out of its loop, and
    another one pushes its task into the stopped pool. -/
theorem stopped_waits :
    (∃ p : ThreadPool Nat, life 0 1 4 emptyStop = .ok p ∧ p.runing_ = false ∧ p.Woken (.worker 0) ∧
      ¬ p.Ends (.worker 0)) ∧
    (∃ p : ThreadPool Nat, life 1 1 4 fullStop = .ok p ∧ p.runing_ = false ∧ p.Woken (.poster 1) ∧
      ¬ p.Ends (.poster 1) ∧ ∀ n, loop p.postWait n .predicate = none) ∧
    ∃ p : ThreadPool Nat, life 1 1 4 roomStop = .ok p ∧ p.runing_ = false ∧ p.Woken (.poster 1) ∧
      ¬ p.Ends (.poster 1) ∧ (p.stepPoster 1 0).queue_ = [8] := by
  refine ⟨?_, ?_, ?_⟩
  · -- a worker that sleeps on an empty queue is woken, and sleeps again
    have hend : (life 0 1 4 emptyStop).toOption.map (fun p => (p.runing_, p.workers[0]?,
        p.notEmpty_.asleep, p.locked, p.queue_)) = some (false, some .waiting, [], false, []) := by
      decide +kernel
    cases h : life 0 1 4 emptyStop with
    | error f =>
      rw [h] at hend
      cases hend
    | ok p =>
      rw [h] at hend
      obtain ⟨hstopped, hend⟩ := Prod.mk.inj (Option.some.inj hend)
      obtain ⟨hworker, hend⟩ := Prod.mk.inj hend
      obtain ⟨hawake, hend⟩ := Prod.mk.inj hend
      obtain ⟨hlock, hqueue⟩ := Prod.mk.inj hend
      refine ⟨p, rfl, hstopped, ⟨hworker, hawake ▸ List.not_mem_nil, hlock⟩, ?_⟩
      exact fun hends => ends_worker_iff.mp hends hqueue
  · -- a poster that sleeps on a full queue is woken, and spins
    obtain ⟨p, hp, hstopped, hwaiting, -, hfull⟩ :=
      @poster_waits fullStop [7] true (by decide +kernel)
    have hwoken : p.Woken (.poster 1) := ⟨8, .inr hwaiting⟩
    exact ⟨p, hp, hstopped, hwoken, hwoken.inside.not_ends, fun n =>
      postWait_spins hfull hstopped n _⟩
  · -- a poster that finds room again when it is woken pushes its task
    obtain ⟨p, hp, hstopped, hwaiting, hqueue, hfull⟩ :=
      @poster_waits roomStop [] false (by decide +kernel)
    have hwoken : p.Woken (.poster 1) := ⟨8, .inr hwaiting⟩
    refine ⟨p, hp, hstopped, hwoken, hwoken.inside.not_ends, ?_⟩
    rw [woken_poster_pushes hstopped hfull hwaiting.1 hwaiting.2.1 hwaiting.2.2]
    show p.queue_ ++ [8] = [8]
    rw [hqueue]
    rfl

end Examples

end ThreadPool

end IOEvent
