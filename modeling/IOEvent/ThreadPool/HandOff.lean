/-
  The hand-off of the tasks while the pool is running and its bound is fixed.

  `HandOff` says what holds between two events: the tasks pushed are those taken, in the same
  order, and those still in the queue; each worker calls what it has taken; the queue respects
  its bound; and on neither condition variable a wake-up is lost.  Of the workers that sleep on
  `notEmpty_` the demand is the length of the queue, of the posters that sleep on `notFull_` it
  is the room left (`room`): a push makes the one larger and the other smaller by one, and
  notifies a worker, a pop does the opposite; a thread that resumes takes one notification away,
  and then either meets the demand or sees that there is none.  So it does not matter who gets
  the mutex first.

  `Inv` adds what keeps the threads out of the branches for a stopped pool.
-/
import IOEvent.ThreadPool.Waits

open Foundation

namespace IOEvent

namespace ThreadPool

variable {τ : Type} {p : ThreadPool τ} {i j k wake : Nat} {task : τ} {at_ : WaitAt}

/-! ## The property

  What holds between any two events.  Nothing in it depends on the order in which the threads
  get the mutex. -/

/-- What the worker `i` did, of a history. -/
def byWorker (i : Nat) (history : List (Nat × τ)) : List τ :=
  (history.filter fun x => x.1 = i).map Prod.snd

/-- The task that the worker `i` has taken and not called yet. -/
def inHand (p : ThreadPool τ) (i : Nat) : List τ :=
  match p.workers[i]? with
  | some (.calling (some task)) => [task]
  | _ => []

/-- The worker `i` is in `notEmpty_.wait`. -/
def WorkerWaits (p : ThreadPool τ) (i : Nat) : Prop := p.workers[i]? = some .waiting

/-- The call `j` of `post` is in `notFull_.wait`. -/
def PosterWaits (p : ThreadPool τ) (j : Nat) : Prop := ∃ task, p.posters[j]? = some ⟨task, .waiting⟩

/-- The property: tasks are taken in the order in which they were accepted, each is called by the
    worker that took it, the queue keeps its bound, and nobody sleeps who could go on. -/
structure HandOff (p : ThreadPool τ) : Prop where
  /-- The tasks are taken in the order they were accepted in, and none is lost or taken twice. -/
  fifo : p.accepted = p.taken.map Prod.snd ++ p.queue_
  /-- Each is called by the worker that has taken it. -/
  calls : ∀ i, byWorker i p.taken = byWorker i p.ran ++ p.inHand i
  bound : 0 < p.maxQueueSize_.toInt → (p.queue_.length : Int) ≤ p.maxQueueSize_.toInt
  /-- While a worker is asleep, there are as many notified workers as tasks. -/
  notEmpty : p.notEmpty_.asleep ≠ [] → p.queue_.length ≤ p.notEmpty_.notified.length
  /-- While a poster is asleep, there are as many notified posters as free places. -/
  notFull : p.notFull_.asleep ≠ [] →
    p.maxQueueSize_.toInt - p.queue_.length ≤ p.notFull_.notified.length
  workers : p.notEmpty_.Tracks p.WorkerWaits
  posters : p.notFull_.Tracks p.PosterWaits

/-- An event while the pool is running with a fixed bound. -/
def Event.keepsRunning : Event τ → Bool
  | .setmaxQueueSize _ => false
  | .stop => false
  | _ => true

/-! ## The invariant

  `Core` is about the tasks.  What is about the waits is said by `CondVar.Served` and
  `CondVar.Tracks`, which have lemmas of their own. -/

/-- The free places in the queue. -/
def room (p : ThreadPool τ) : Nat := p.maxQueueSize_.toInt.toNat - p.queue_.length

/-- What does not depend on who waits. -/
structure Core (p : ThreadPool τ) : Prop where
  fifo : p.accepted = p.taken.map Prod.snd ++ p.queue_
  calls : ∀ i, byWorker i p.taken = byWorker i p.ran ++ p.inHand i
  bound : 0 < p.maxQueueSize_.toInt → (p.queue_.length : Int) ≤ p.maxQueueSize_.toInt
  running : p.runing_ = true
  no_spinning : ∀ x ∈ p.posters, x.place ≠ .spinning
  no_empty : ∀ w ∈ p.workers, w ≠ .calling none

/-- The invariant: the queue with its tasks (`Core`), as many workers woken as there are tasks, as
    many posters woken as there is room, and who sleeps at which condition variable. -/
structure Inv (p : ThreadPool τ) : Prop where
  core : Core p
  notEmpty : p.notEmpty_.Served p.queue_.length
  notFull : p.notFull_.Served p.room
  workers : p.notEmpty_.Tracks p.WorkerWaits
  posters : p.notFull_.Tracks p.PosterWaits

/-- The invariant has the property in it. -/
theorem Inv.handOff (h : Inv p) : HandOff p where
  fifo := h.core.fifo
  calls := h.core.calls
  bound := h.core.bound
  notEmpty := h.notEmpty
  notFull := by
    intro hasleep
    have hroom := h.notFull hasleep
    rw [room] at hroom
    omega
  workers := h.workers
  posters := h.posters

/-- In such runs nobody spins with the mutex. -/
theorem Core.not_locked (h : Core p) : ¬ p.locked = true := by
  rw [locked, List.any_eq_true]
  rintro ⟨x, hx, hspin⟩
  exact h.no_spinning x hx (of_decide_eq_true hspin)

/-! ## One thread moves

  Only the place of that thread changes, so who sleeps where is what it was but for this one. -/

/-- The worker that was moved is where it was moved to. -/
theorem getElem?_setWorker {w w' : Worker τ} (hi : p.workers[i]? = some w') :
    (p.setWorker i w).workers[i]? = some w :=
  List.getElem?_set_self (List.getElem?_eq_some_iff.mp hi).1

/-- The other workers stay where they were. -/
theorem getElem?_setWorker_ne {w : Worker τ} (h : k ≠ i) :
    (p.setWorker i w).workers[k]? = p.workers[k]? :=
  List.getElem?_set_ne (Ne.symm h)

/-- So do the other posters. -/
theorem getElem?_setPoster_ne {place : Place} (h : k ≠ j) :
    (p.setPoster j task place).posters[k]? = p.posters[k]? :=
  List.getElem?_set_ne (Ne.symm h)

/-- So another worker that waited waits. -/
theorem WorkerWaits.of_setWorker {w : Worker τ} (h : p.WorkerWaits k) (hk : k ≠ i) :
    (p.setWorker i w).WorkerWaits k := (getElem?_setWorker_ne hk).trans h

/-- So another poster that waited waits. -/
theorem PosterWaits.of_setPoster {place : Place} (h : p.PosterWaits k) (hk : k ≠ j) :
    (p.setPoster j task place).PosterWaits k := by
  obtain ⟨task', htask'⟩ := h
  exact ⟨task', (getElem?_setPoster_ne hk).trans htask'⟩

/-- What another worker has in hand is what it had. -/
theorem inHand_setWorker_ne {w : Worker τ} (h : k ≠ i) :
    (p.setWorker i w).inHand k = p.inHand k := by
  rw [inHand, getElem?_setWorker_ne h, inHand]

/-- A worker that neither had nor has a task in hand moves. -/
theorem Core.setWorker (h : Core p) {w w' : Worker τ} (hi : p.workers[i]? = some w')
    (hold : ∀ task, w' ≠ .calling task) (hnew : ∀ task, w ≠ .calling task) :
    Core (p.setWorker i w) where
  fifo := h.fifo
  calls := by
    intro k
    by_cases hk : k = i
    · subst hk
      have hbefore : p.inHand k = [] := by
        rw [inHand, hi]
        cases w' <;> first | rfl | exact absurd rfl (hold _)
      have hafter : (p.setWorker k w).inHand k = [] := by
        rw [inHand, getElem?_setWorker hi]
        cases w <;> first | rfl | exact absurd rfl (hnew _)
      rw [hafter, ← hbefore]
      exact h.calls k
    · rw [inHand_setWorker_ne hk]
      exact h.calls k
  bound := h.bound
  running := h.running
  no_spinning := h.no_spinning
  no_empty := by
    intro w'' hw''
    rcases List.mem_or_eq_of_mem_set hw'' with hmem | rfl
    · exact h.no_empty _ hmem
    · exact hnew _

/-- A poster may go elsewhere, as long as it does not spin. -/
theorem Core.setPoster (h : Core p) {place : Place} (hplace : place ≠ .spinning) :
    Core (p.setPoster j task place) where
  fifo := h.fifo
  calls := h.calls
  bound := h.bound
  running := h.running
  no_spinning := by
    intro x hx
    rcases List.mem_or_eq_of_mem_set hx with hmem | rfl
    · exact h.no_spinning x hmem
    · exact hplace
  no_empty := h.no_empty

/-- The condition variables are not part of it. -/
theorem Core.of_condVars (h : Core p) (notEmpty notFull : CondVar) :
    Core { p with notEmpty_ := notEmpty, notFull_ := notFull } :=
  ⟨h.fifo, h.calls, h.bound, h.running, h.no_spinning, h.no_empty⟩

/-! ## `take`

  With a task in the queue it is taken, and one poster is notified; with none the worker goes to
  sleep.  In a running pool there is nothing else. -/

/-- The tasks of a worker with one more task taken, by it or by another. -/
theorem byWorker_append (i k : Nat) (l : List (Nat × τ)) (task : τ) :
    byWorker i (l ++ [(k, task)]) = byWorker i l ++ if k = i then [task] else [] := by
  rw [byWorker, List.filter_append, List.map_append, byWorker]
  congr 1
  by_cases h : k = i <;> simp [h]

/-- **A worker takes the first task** of the queue; it is the next one in the order of
    acceptance. -/
theorem Core.pop (h : Core p) {w' : Worker τ} {queue : List τ} (hi : p.workers[i]? = some w')
    (hold : ∀ task, w' ≠ .calling task) (hqueue : p.queue_ = task :: queue) (notFull : CondVar) :
    Core { p.setWorker i (.calling (some task)) with
      queue_ := queue
      taken := p.taken ++ [(i, task)]
      notFull_ := notFull } where
  fifo := by
    have hfifo := h.fifo
    rw [hqueue] at hfifo
    rw [List.map_append, List.append_assoc]
    exact hfifo
  calls := by
    intro k
    show byWorker k (p.taken ++ [(i, task)]) = byWorker k p.ran ++
      (p.setWorker i (.calling (some task))).inHand k
    rw [byWorker_append, h.calls k]
    -- the worker has taken the task, and has called none of it yet
    by_cases hk : k = i
    · subst hk
      have hbefore : p.inHand k = [] := by
        rw [inHand, hi]
        cases w' <;> first | rfl | exact absurd rfl (hold _)
      have hafter : (p.setWorker k (.calling (some task))).inHand k = [task] := by
        rw [inHand, getElem?_setWorker hi]
      rw [hbefore, hafter, List.append_nil, if_pos rfl]
    · rw [inHand_setWorker_ne hk, if_neg (Ne.symm hk), List.append_nil]
  bound := by
    intro hpos
    have hle := h.bound hpos
    rw [hqueue, List.length_cons] at hle
    show (queue.length : Int) ≤ p.maxQueueSize_.toInt
    omega
  running := h.running
  no_spinning := h.no_spinning
  no_empty := by
    intro w hw
    rcases List.mem_or_eq_of_mem_set hw with hmem | rfl
    · exact h.no_empty w hmem
    · intro heq
      cases heq

/-- A worker that holds the mutex takes a task or goes to sleep. -/
theorem Inv.takeFrom (hcore : Core p) {w' : Worker τ} (hi : p.workers[i]? = some w')
    (hold : ∀ task, w' ≠ .calling task) (hnotEmpty : p.notEmpty_.Served (p.queue_.length - 1))
    (hnotFull : p.notFull_.Served p.room)
    (hworkers : p.notEmpty_.Tracks fun k => p.WorkerWaits k ∧ k ≠ i)
    (hposters : p.notFull_.Tracks p.PosterWaits) (at_ : WaitAt) (wake : Nat) :
    Inv (p.takeFrom i at_ wake) := by
  rw [takeFrom_eq]
  by_cases hempty : p.queue_ = []
  · -- nobody needs a worker
    have hend : p.takeEnd at_ = .sleeps := by
      cases at_ with
      | test => exact if_pos ⟨List.isEmpty_iff.mpr hempty, hcore.running⟩
      | predicate => exact if_pos (List.isEmpty_iff.mpr hempty)
    rw [hend]
    refine ⟨?_, ?_, hnotFull, ?_, hposters⟩
    · exact (hcore.setWorker hi hold fun task heq => by cases heq).of_condVars _ _
    · show (p.notEmpty_.wait i).Served p.queue_.length
      rw [hempty]
      exact .wait _ _
    · refine (hworkers.wait fun hk => hk.2 rfl).mono ?_
      rintro k (⟨hwaits, hk⟩ | rfl)
      · exact hwaits.of_setWorker hk
      · exact getElem?_setWorker hi
  · have hend : p.takeEnd at_ = .leaves := by
      cases at_ with
      | test => exact if_neg fun h => hempty (List.isEmpty_iff.mp h.1)
      | predicate => exact if_neg fun h => hempty (List.isEmpty_iff.mp h)
    obtain ⟨task, queue, hqueue⟩ := List.exists_cons_of_ne_nil hempty
    rw [hend, pop, hqueue]
    refine ⟨hcore.pop hi hold hqueue _, ?_, ?_, ?_, ?_⟩
    · show p.notEmpty_.Served queue.length
      rwa [hqueue, List.length_cons, Nat.add_sub_cancel] at hnotEmpty
    · -- a place more, and a poster is notified, unless there is no bound
      show CondVar.Served (if 0 < p.maxQueueSize_.toInt then p.notFull_.notifyOne wake
          else p.notFull_)
        (p.maxQueueSize_.toInt.toNat - queue.length)
      rw [room, hqueue, List.length_cons] at hnotFull
      split
      case isTrue => exact (hnotFull.notifyOne wake).mono (by omega)
      case isFalse => exact hnotFull.mono (by omega)
    · exact hworkers.mono fun k hk => WorkerWaits.of_setWorker hk.1 hk.2
    · show CondVar.Tracks (if 0 < p.maxQueueSize_.toInt then p.notFull_.notifyOne wake
        else p.notFull_) _
      split
      case isTrue => exact hposters.notifyOne wake
      case isFalse => exact hposters

/-! ## `post`

  With room, or without a bound, the task is pushed and one worker is notified; otherwise the
  call goes to sleep. -/

/-- A positive bound is the same number as a `size_t`. A negative one would be huge, and zero is
    no bound. -/
theorem toUnsigned_bound {max : Int32} (h : 0 < max.toInt) :
    (toUnsigned 64 max.toInt : Int) = max.toInt := by
  have hlt := max.toInt_lt
  rw [toUnsigned]
  omega

/-- **A poster pushes its task** behind the others, where there is room for it. -/
theorem Core.push (h : Core p)
    (hfree : 0 < p.maxQueueSize_.toInt → (p.queue_.length : Int) < p.maxQueueSize_.toInt)
    (j : Nat) (task : τ) (wake : Nat) : Core (p.push j task wake) := by
  have hreturned : Core (p.setPoster j task .returned) := h.setPoster (by decide)
  refine ⟨?_, h.calls, ?_, h.running, hreturned.no_spinning, h.no_empty⟩
  · show p.accepted ++ [task] = p.taken.map Prod.snd ++ (p.queue_ ++ [task])
    rw [h.fifo, List.append_assoc]
  · intro hpos
    have hlt := hfree hpos
    show ((p.queue_ ++ [task]).length : Int) ≤ p.maxQueueSize_.toInt
    rw [List.length_append, List.length_singleton]
    push_cast
    omega

/-- A poster that holds the mutex pushes its task or goes to sleep. -/
theorem Inv.postFrom (hcore : Core p) {x : Poster τ} (hj : p.posters[j]? = some x)
    (hnotEmpty : p.notEmpty_.Served p.queue_.length) (hnotFull : p.notFull_.Served (p.room - 1))
    (hworkers : p.notEmpty_.Tracks p.WorkerWaits)
    (hposters : p.notFull_.Tracks fun k => p.PosterWaits k ∧ k ≠ j) (task : τ) (at_ : WaitAt)
    (wake : Nat) : Inv (p.postFrom j task at_ wake) := by
  -- full means that no place is left
  have hroom_of_full : p.full = true → p.room = 0 := by
    intro hfull
    rw [full, Bool.and_eq_true, decide_eq_true_iff, beq_iff_eq] at hfull
    have hbound := toUnsigned_bound hfull.1
    rw [room]
    omega
  have hnotFull_iff : p.notFull = true ↔ p.queue_.length < toUnsigned 64 p.maxQueueSize_.toInt := by
    rw [ThreadPool.notFull, hcore.running, Bool.not_true, Bool.or_false, decide_eq_true_iff]
  -- the two ends: a push, where there is a place
  have hpush : p.full = false → Inv (p.push j task wake) := by
    intro hfree
    have hlt : 0 < p.maxQueueSize_.toInt → (p.queue_.length : Int) < p.maxQueueSize_.toInt := by
      intro hpos
      have hle := hcore.bound hpos
      have hbound := toUnsigned_bound hpos
      rw [full, decide_eq_true hpos, Bool.true_and, beq_eq_false_iff_ne] at hfree
      omega
    refine ⟨hcore.push hlt j task wake, ?_, ?_, ?_, ?_⟩
    · show (p.notEmpty_.notifyOne wake).Served (p.queue_ ++ [task]).length
      rw [List.length_append, List.length_singleton]
      exact hnotEmpty.notifyOne wake
    · show p.notFull_.Served (p.maxQueueSize_.toInt.toNat - (p.queue_ ++ [task]).length)
      rw [room] at hnotFull
      rw [List.length_append, List.length_singleton]
      exact hnotFull.mono (by omega)
    · exact hworkers.notifyOne wake
    · exact hposters.mono fun k hk => PosterWaits.of_setPoster hk.1 hk.2
  -- and a sleep, where there is none
  have hsleep : p.room = 0 → Inv
      ({ p.setPoster j task .waiting with notFull_ := p.notFull_.wait j } : ThreadPool τ) := by
    intro hroom
    refine ⟨(hcore.setPoster (by decide)).of_condVars _ _, hnotEmpty, ?_, hworkers, ?_⟩
    · show (p.notFull_.wait j).Served p.room
      rw [hroom]
      exact .wait _ _
    · refine (hposters.wait fun hk => hk.2 rfl).mono ?_
      rintro k (⟨hwaits, hk⟩ | rfl)
      · exact hwaits.of_setPoster hk
      · exact ⟨task, getElem?_setPoster hj⟩
  -- which of them it is, by what the poster tested
  rw [postFrom_eq]
  cases hfull : p.full with
  | true =>
    have hnotRoom : ¬ p.notFull = true := fun h => not_room_of_full hfull (hnotFull_iff.mp h)
    have hend : p.postEnd at_ = some .sleeps := by
      cases at_ with
      | test => rw [postEnd, if_pos hfull, if_pos hcore.running]
      | predicate => rw [postEnd, if_neg hnotRoom]
    rw [hend]
    exact hsleep (hroom_of_full hfull)
  | false =>
    have hnot : ¬ p.full = true := Bool.eq_false_iff.mp hfull
    cases at_ with
    | test =>
      rw [postEnd, if_neg hnot]
      exact hpush hfull
    | predicate =>
      by_cases hroom : p.notFull = true
      · rw [postEnd, if_pos hroom, if_neg hnot]
        exact hpush hfull
      · -- the bound is not positive
        rw [postEnd, if_neg hroom]
        refine hsleep ?_
        rw [hnotFull_iff] at hroom
        rw [room]
        by_cases hpos : 0 < p.maxQueueSize_.toInt
        · have hbound := toUnsigned_bound hpos
          omega
        · omega

/-! ## One event

  One case for each place of a worker and of a call of `post`, by the lemmas on `take` and
  `post`. -/

/-- A worker goes from one place to another where it holds no mutex and has no task in hand. -/
theorem Inv.setWorker (h : Inv p) {w w' : Worker τ} (hi : p.workers[i]? = some w')
    (hwaits : w' ≠ .waiting) (hold : ∀ task, w' ≠ .calling task)
    (hnew : ∀ task, w ≠ .calling task) :
    Inv (p.setWorker i w) where
  core := h.core.setWorker hi hold hnew
  notEmpty := h.notEmpty
  notFull := h.notFull
  workers := by
    refine h.workers.mono fun k hk => hk.of_setWorker ?_
    rintro rfl
    exact hwaits (Option.some.inj (hi.symm.trans hk))
  posters := h.posters

/-- A worker calls the task it has taken. -/
theorem Inv.callTask (h : Inv p) (hi : p.workers[i]? = some (.calling (some task))) :
    Inv { p.setWorker i (.running task) with ran := p.ran ++ [(i, task)] } := by
  refine ⟨⟨h.core.fifo, fun k => ?_, h.core.bound, h.core.running, h.core.no_spinning, ?_⟩,
    h.notEmpty, h.notFull, ?_, h.posters⟩
  · show byWorker k p.taken =
      byWorker k (p.ran ++ [(i, task)]) ++ (p.setWorker i (.running task)).inHand k
    rw [byWorker_append, h.core.calls k]
    by_cases hk : k = i
    · subst hk
      have hbefore : p.inHand k = [task] := by
        rw [inHand, hi]
      have hafter : (p.setWorker k (.running task)).inHand k = [] := by
        rw [inHand, getElem?_setWorker hi]
      rw [hbefore, hafter, if_pos rfl, List.append_nil]
    · rw [inHand_setWorker_ne hk, if_neg (Ne.symm hk), List.append_nil]
  · intro w hw
    rcases List.mem_or_eq_of_mem_set hw with hmem | rfl
    · exact h.core.no_empty w hmem
    · intro heq
      cases heq
  · refine h.workers.mono fun k hk => hk.of_setWorker ?_
    rintro rfl
    cases hi.symm.trans hk

/-- Every step of a worker keeps the invariant. The wake-ups are counted here: a task taken makes
    room for one poster, who is notified. -/
theorem Inv.stepWorker (h : Inv p) (i wake : Nat) :
    Holds Inv (fun _ => False) (p.stepWorker i wake) := by
  rw [ThreadPool.stepWorker]
  have hlock := h.core.not_locked
  cases hi : p.workers[i]? with
  | none => exact .ok h
  | some w =>
    -- one case per place of a worker
    cases w with
    | testing =>
      dsimp only
      rw [if_pos h.core.running]
      refine .ok (h.setWorker hi ?_ ?_ ?_) <;> intros <;> intro heq <;> cases heq
    | taking =>
      dsimp only
      rw [if_neg hlock]
      refine .ok (.takeFrom h.core hi ?_ (h.notEmpty.mono (Nat.sub_le _ _)) h.notFull ?_
        h.posters _ _)
      · intro task heq
        cases heq
      · refine h.workers.mono fun k hk => ⟨hk, ?_⟩
        rintro rfl
        cases hi.symm.trans hk
    | waiting =>
      dsimp only
      split
      case isTrue => exact .ok h
      case isFalse hawake =>
        have hresumed : i ∉ p.notEmpty_.asleep := fun hasleep => hawake (Or.inr hasleep)
        refine .ok (.takeFrom (h.core.of_condVars (p.notEmpty_.resume i) p.notFull_) hi ?_
          (h.notEmpty.resume i) h.notFull (h.workers.resume hresumed) h.posters _ _)
        intro task heq
        cases heq
    | calling task =>
      cases task with
      | none => exact absurd rfl (h.core.no_empty _ (List.mem_of_getElem? hi))
      | some task => exact .ok (h.callTask hi)
    | running task =>
      refine .ok (h.setWorker hi ?_ ?_ ?_) <;> intros <;> intro heq <;> cases heq
    | exited => exact .ok h

/-- Every step of a poster keeps it; a task pushed is one for a worker, who is notified. -/
theorem Inv.stepPoster (h : Inv p) (j wake : Nat) : Inv (p.stepPoster j wake) := by
  rw [ThreadPool.stepPoster]
  have hlock := h.core.not_locked
  cases hj : p.posters[j]? with
  | none => exact h
  | some x =>
    obtain ⟨task, place⟩ := x
    cases place with
    | locking =>
      dsimp only
      rw [if_neg hlock, post, if_pos h.core.running]
      refine .postFrom h.core hj h.notEmpty (h.notFull.mono (Nat.sub_le _ _)) h.workers ?_ _ _ _
      refine h.posters.mono fun k hk => ⟨hk, ?_⟩
      rintro rfl
      obtain ⟨task', htask'⟩ := hk
      cases hj.symm.trans htask'
    | waiting =>
      dsimp only
      split
      case isTrue => exact h
      case isFalse hawake =>
        have hresumed : j ∉ p.notFull_.asleep := fun hasleep => hawake (Or.inr hasleep)
        exact .postFrom (h.core.of_condVars p.notEmpty_ (p.notFull_.resume j)) hj h.notEmpty
          (h.notFull.resume j) h.workers (h.posters.resume hresumed) _ _ _
    | spinning => exact absurd rfl (h.core.no_spinning _ (List.mem_of_getElem? hj))
    | returned => exact h
    | threw what => exact h

/-- A call that begins has done nothing yet. -/
theorem Inv.call (h : Inv p) (task : τ) :
    Inv { p with posters := p.posters ++ [⟨task, .locking⟩] } := by
  refine ⟨⟨h.core.fifo, h.core.calls, h.core.bound, h.core.running, ?_, h.core.no_empty⟩,
    h.notEmpty, h.notFull, h.workers, ?_⟩
  · intro x hx
    rcases List.mem_append.mp hx with hx | hx
    · exact h.core.no_spinning x hx
    · rw [List.mem_singleton.mp hx]
      intro heq
      cases heq
  · refine h.posters.mono fun k hk => ?_
    obtain ⟨task', htask'⟩ := hk
    exact ⟨task', (List.getElem?_append_left (List.getElem?_eq_some_iff.mp htask').1).trans htask'⟩

/-- **One event** while the pool is running: only a task that throws ends the process. -/
theorem Inv.step (h : Inv p) {e : Event τ} (he : e.keepsRunning = true) :
    Holds Inv (fun f => f.1 = .taskThrew) (step p e) := by
  cases e with
  | call task => exact .ok (h.call task)
  | poster j wake => exact .ok (h.stepPoster j wake)
  | worker i wake => exact (h.stepWorker i wake).mono (fun _ => id) fun _ hf => hf.elim
  | throws i =>
    show Holds _ _ (p.throwTask i)
    unfold throwTask
    split
    · exact .error rfl
    · exact .ok h
  | spuriousPoster j =>
    exact .ok ⟨h.core.of_condVars _ _, h.notEmpty, h.notFull.spurious j, h.workers,
      h.posters.spurious j⟩
  | spuriousWorker i =>
    exact .ok ⟨h.core.of_condVars _ _, h.notEmpty.spurious i, h.notFull,
      h.workers.spurious i, h.posters⟩
  | setmaxQueueSize max => cases he
  | stop => cases he

/-! ## Every run

  The invariant holds in the pool that `start` leaves, whatever bound was set before. -/

/-- The pool that `start` leaves. -/
def started (max threadNum : Int32) (hardware_concurrency : Nat) : ThreadPool τ :=
  { (new.setmaxQueueSize max : ThreadPool τ) with
    runing_ := true
    threads_ := List.replicate (numThreads threadNum hardware_concurrency) Thread.new.start
    workers := List.replicate (numThreads threadNum hardware_concurrency) .testing }

/-- A life is a run from the started pool. -/
theorem life_eq (max threadNum : Int32) (hardware_concurrency : Nat) (es : List (Event τ)) :
    life max threadNum hardware_concurrency es =
      run step (started max threadNum hardware_concurrency) es := rfl

/-- The invariant holds at the start. -/
theorem started_inv (max threadNum : Int32) (hardware_concurrency : Nat) :
    Inv (started max threadNum hardware_concurrency : ThreadPool τ) where
  core := by
    refine ⟨rfl, fun i => ?_, fun hpos => Int.le_of_lt hpos, rfl, fun _ h =>
      absurd h List.not_mem_nil, ?_⟩
    · show [] = [] ++ inHand _ i
      rw [inHand]
      cases hi : (started max threadNum hardware_concurrency : ThreadPool τ).workers[i]? with
      | none => rfl
      | some w =>
        obtain rfl := List.eq_of_mem_replicate (List.mem_of_getElem? hi)
        rfl
    · intro w hw
      rw [List.eq_of_mem_replicate hw]
      intro heq
      cases heq
  notEmpty := fun h => absurd rfl h
  notFull := fun h => absurd rfl h
  workers := .new _
  posters := .new _

/-- **Hand-off.** With a fixed bound and no call of `stop`, for every number of workers and in
    every order of events: the tasks are taken in the order in which they were accepted, each by
    one worker that calls it, the queue respects its bound, and no wake-up is lost. -/
theorem hand_off (max threadNum : Int32) (hardware_concurrency : Nat) (es : List (Event τ))
    (h : ∀ e ∈ es, e.keepsRunning = true) :
    Holds HandOff (fun f => f.1 = .taskThrew) (life max threadNum hardware_concurrency es) := by
  rw [life_eq]
  exact (run_holds (fun _ _ hinv he => hinv.step he) es _
    (started_inv max threadNum hardware_concurrency)
    (.of_mem _ fun e he _ => h e he)).mono (fun _ hinv => hinv.handOff) fun _ hf => hf

section Examples

/-- Two workers and a bound of one: the worker that is notified comes too late, and the second
    poster waits for a place. -/
def lateWorker : List (Event Nat) :=
  [.worker 0 0, .worker 0 0, .call 7, .poster 0 0, .worker 1 0, .call 8, .poster 1 0, .worker 1 0,
    .worker 0 0, .poster 1 0, .worker 0 0, .worker 0 0, .worker 1 0]

/-- The condition can be met: a worker that comes late takes what was posted before. -/
theorem hand_off_lateWorker : (∀ e ∈ lateWorker, e.keepsRunning = true) ∧
    Holds HandOff (fun f => f.1 = .taskThrew) (life 1 2 4 lateWorker) := by
  have hkeeps : ∀ e ∈ lateWorker, e.keepsRunning = true := by decide
  exact ⟨hkeeps, hand_off 1 2 4 lateWorker hkeeps⟩

end Examples

end ThreadPool

end IOEvent
