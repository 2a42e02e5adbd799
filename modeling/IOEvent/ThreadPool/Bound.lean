/-
  The bound of the queue on the two ways into it.

  `post` waits while the queue has exactly as many tasks as the bound, `postFuture` while it has at
  least as many.  With a fixed bound the queue never has more (`HandOff.bound`) and the tests agree;
  a bound that is lowered under the length of the queue leaves it with more, and from there `post`
  pushes without a wait.  A call that sleeps in its loop is not concerned: the predicate of the two
  waits is the same, and a call that it lets through finds a free place.

  `setmaxQueueSize` takes no lock.  Here it is one event, before or after the critical section of a
  `post`; what a call of `post` sees of a bound that changes while it holds the mutex is left out.

  `respects_iff` is one step, `respects_bound_iff` every interleaving.
-/
import IOEvent.ThreadPool.HandOff

open Foundation

namespace IOEvent

namespace ThreadPool

variable {τ : Type} {p : ThreadPool τ} {j wake : Nat} {task : τ} {at_ : WaitAt}

/-! ## `postFuture`

  It differs from `post` in the test of its loop, and in nothing that matters here. -/

/-- `maxQueueSize_ > 0 && queue_.size() >= maxQueueSize_` -/
def fullFuture (p : ThreadPool τ) : Bool :=
  0 < p.maxQueueSize_.toInt && toUnsigned 64 p.maxQueueSize_.toInt ≤ p.queue_.length

/-- `while (maxQueueSize_ > 0 && queue_.size() >= maxQueueSize_) { notFull_.wait(lock, ..); }` -/
def postFutureWait (p : ThreadPool τ) : WaitAt → Except Fault (Turn WaitAt WaitEnd)
  | .test => if p.fullFuture = true then .ok (.next .predicate) else .ok (.done .leaves)
  | .predicate => if p.notFull = true then .ok (.next .test) else .ok (.done .sleeps)

/-! ## The property

  The two parts of it: what a push finds, and where the two functions differ. -/

/-- Where in its wait loop the call `j` of `post` is when it goes on, if it gets there. -/
def entersWait (p : ThreadPool τ) (j : Nat) : Option WaitAt :=
  match p.posters[j]? with
  | some ⟨_, .locking⟩ => if p.locked = true ∨ p.runing_ = false then none else some .test
  | some ⟨_, .waiting⟩ => if p.locked = true ∨ j ∈ p.notFull_.asleep then none else some .predicate
  | some ⟨_, .spinning⟩ => some .test
  | _ => none

/-- What the bound promises of a step. -/
structure Respects (p : ThreadPool τ) (e : Event τ) : Prop where
  /-- Nothing is pushed onto a full queue. -/
  pushes : ∀ p', step p e = .ok p' → p'.accepted ≠ p.accepted →
    ¬ (0 < p.maxQueueSize_.toInt ∧ p.maxQueueSize_.toInt ≤ p.queue_.length)
  /-- A call of `post` blocks if and only if one of `postFuture` in its place would. -/
  blocks : ∀ j wake at_, e = .poster j wake → p.entersWait j = some at_ →
    (loop p.postWait turns at_ = some (.ok .sleeps) ↔
      loop p.postFutureWait turns at_ = some (.ok .sleeps))

/-- There are more tasks than the bound allows. -/
def overfull (p : ThreadPool τ) : Bool :=
  0 < p.maxQueueSize_.toInt && p.maxQueueSize_.toInt < p.queue_.length

/-- A call of `post` does not come to an overfull queue. -/
def NotOverfull (p : ThreadPool τ) : Event τ → Prop
  | .poster j _ => p.entersWait j = some .test → p.overfull = false
  | _ => True

/-! ## The two tests

  They are the same on a queue that keeps its bound, and differ exactly when there are more
  tasks than that. -/

/-- `full` asks whether the queue is exactly at the bound, as the code of `post` does. -/
theorem full_iff : p.full = true ↔
    0 < p.maxQueueSize_.toInt ∧ p.maxQueueSize_.toInt = p.queue_.length := by
  rw [full, Bool.and_eq_true, decide_eq_true_iff, beq_iff_eq]
  refine and_congr_right fun hpos => ?_
  have hbound := toUnsigned_bound hpos
  omega

/-- `fullFuture` asks whether it is at the bound or beyond, as the code of `postFuture` does. -/
theorem fullFuture_iff : p.fullFuture = true ↔
    0 < p.maxQueueSize_.toInt ∧ p.maxQueueSize_.toInt ≤ p.queue_.length := by
  rw [fullFuture, Bool.and_eq_true, decide_eq_true_iff, decide_eq_true_iff]
  refine and_congr_right fun hpos => ?_
  have hbound := toUnsigned_bound hpos
  omega

/-- So the two differ on a queue beyond the bound. -/
theorem overfull_iff : p.overfull = true ↔
    0 < p.maxQueueSize_.toInt ∧ p.maxQueueSize_.toInt < p.queue_.length := by
  rw [overfull, Bool.and_eq_true, decide_eq_true_iff, decide_eq_true_iff]

/-- `postFuture` waits for what `post` waits for, and when the queue is overfull. -/
theorem fullFuture_eq : p.fullFuture = true ↔ p.full = true ∨ p.overfull = true := by
  rw [fullFuture_iff, full_iff, overfull_iff]
  omega

/-- On a queue at the bound or beyond there is no room for one more task. -/
theorem not_room_of_fullFuture (h : p.fullFuture = true) :
    ¬ p.queue_.length < toUnsigned 64 p.maxQueueSize_.toInt := by
  obtain ⟨hpos, hle⟩ := fullFuture_iff.mp h
  have hbound := toUnsigned_bound hpos
  omega

/-! ## The two loops, while the pool is running

  With the pool running neither loop goes round: a call that the predicate lets through finds
  a free place. -/

/-- While the pool runs the predicate of the wait asks for that room alone. -/
theorem notFull_running (hrun : p.runing_ = true) :
    p.notFull = true ↔ p.queue_.length < toUnsigned 64 p.maxQueueSize_.toInt := by
  rw [notFull, hrun, Bool.not_true, Bool.or_false, decide_eq_true_iff]

/-- A call of `postFuture` sleeps where its test, or the predicate, tells it to. -/
theorem postFutureWait_sleeps (hrun : p.runing_ = true) (at_ : WaitAt) :
    loop p.postFutureWait turns at_ = some (.ok .sleeps) ↔
      match at_ with
      | .test => p.fullFuture = true
      | .predicate => ¬ p.notFull = true := by
  cases at_ with
  | test =>
    by_cases hfull : p.fullFuture = true
    · have hnext : p.postFutureWait .test = .ok (.next .predicate) := if_pos hfull
      have hdone : p.postFutureWait .predicate = .ok (.done .sleeps) :=
        if_neg fun h => not_room_of_fullFuture hfull ((notFull_running hrun).mp h)
      rw [turns, loop_next hnext, loop_done hdone]
      exact iff_of_true rfl hfull
    · have hdone : p.postFutureWait .test = .ok (.done .leaves) := if_neg hfull
      rw [turns, loop_done hdone]
      exact iff_of_false (fun h => by cases h) hfull
  | predicate =>
    by_cases hroom : p.notFull = true
    · have hnext : p.postFutureWait .predicate = .ok (.next .test) := if_pos hroom
      have hdone : p.postFutureWait .test = .ok (.done .leaves) :=
        if_neg fun h => not_room_of_fullFuture h ((notFull_running hrun).mp hroom)
      rw [turns, loop_next hnext, loop_done hdone]
      exact iff_of_false (fun h => by cases h) fun h => h hroom
    · have hdone : p.postFutureWait .predicate = .ok (.done .sleeps) := if_neg hroom
      rw [turns, loop_done hdone]
      exact iff_of_true rfl hroom

/-- How a call of `post` comes out of its loop while the pool is running. -/
theorem postEnd_running (hrun : p.runing_ = true) (at_ : WaitAt) :
    p.postEnd at_ = some (match at_ with
      | .test => if p.full = true then .sleeps else .leaves
      | .predicate => if p.notFull = true then .leaves else .sleeps) := by
  cases at_ with
  | test =>
    rw [postEnd, if_pos hrun]
    split <;> rfl
  | predicate =>
    by_cases hroom : p.notFull = true
    · have hfree : ¬ p.full = true :=
        fun h => not_room_of_full h ((notFull_running hrun).mp hroom)
      rw [postEnd, if_pos hroom, if_neg hfree]
      exact (congrArg some (if_pos hroom)).symm
    · rw [postEnd, if_neg hroom]
      exact (congrArg some (if_neg hroom)).symm

/-! ## One step

  An event other than `stop`, in a running pool with nobody stuck in a loop, leaves such a pool.
  Then the property is decided by the one call of `post` that goes on. -/

/-- The pool is running, and nobody is stuck in the loop of `post`. -/
structure Going (p : ThreadPool τ) : Prop where
  running : p.runing_ = true
  no_spinning : ∀ x ∈ p.posters, x.place ≠ .spinning

/-- Not a call of `stop`. -/
def Event.goesOn : Event τ → Bool
  | .stop => false
  | _ => true

/-- In such runs nobody keeps the mutex for ever. -/
theorem Going.not_locked (h : Going p) : ¬ p.locked = true := by
  rw [locked, List.any_eq_true]
  rintro ⟨x, hx, hspin⟩
  exact h.no_spinning x hx (of_decide_eq_true hspin)

/-- A poster may go elsewhere, as long as it does not spin. -/
theorem Going.setPoster (h : Going p) {place : Place} (hplace : place ≠ .spinning) (j : Nat)
    (task : τ) :
    Going (p.setPoster j task place) := by
  refine ⟨h.running, fun x hx => ?_⟩
  rcases List.mem_or_eq_of_mem_set hx with hmem | rfl
  · exact h.no_spinning x hmem
  · exact hplace

/-- A poster that goes on keeps it: while the pool runs the two conditions of its loop agree. -/
theorem Going.postFrom (h : Going p) (j : Nat) (task : τ) (at_ : WaitAt) (wake : Nat) :
    Going (p.postFrom j task at_ wake) := by
  rw [postFrom_eq, postEnd_running h.running]
  split
  · have hreturned : Going (p.setPoster j task .returned) := h.setPoster (by decide) j task
    exact ⟨hreturned.running, hreturned.no_spinning⟩
  · have hwaiting : Going (p.setPoster j task .waiting) := h.setPoster (by decide) j task
    exact ⟨hwaiting.running, hwaiting.no_spinning⟩
  · rename_i hend
    cases hend

/-- What a call of `post` does that gets to its loop. -/
theorem stepPoster_enters (hgo : Going p) (h : p.entersWait j = some at_) (wake : Nat) :
    ∃ task notFull, p.stepPoster j wake =
      ({ p with notFull_ := notFull } : ThreadPool τ).postFrom j task at_ wake := by
  cases hj : p.posters[j]? with
  | none =>
    rw [entersWait, hj] at h
    cases h
  | some x =>
    obtain ⟨task, place⟩ := x
    rw [entersWait, hj] at h
    rw [stepPoster, hj]
    cases place with
    | locking =>
      dsimp only at h ⊢
      split at h
      · cases h
      · cases h
        refine ⟨task, p.notFull_, ?_⟩
        rw [if_neg hgo.not_locked, post, if_pos hgo.running]
    | waiting =>
      dsimp only at h ⊢
      split at h
      · cases h
      · rename_i hawake
        cases h
        exact ⟨task, p.notFull_.resume j, if_neg hawake⟩
    | spinning => exact absurd rfl (hgo.no_spinning _ (List.mem_of_getElem? hj))
    | returned => cases h
    | threw what => cases h

/-- A call that does not get there changes nothing. -/
theorem stepPoster_stays (hgo : Going p) (h : p.entersWait j = none) (wake : Nat) :
    p.stepPoster j wake = p := by
  cases hj : p.posters[j]? with
  | none => rw [stepPoster, hj]
  | some x =>
    obtain ⟨task, place⟩ := x
    rw [entersWait, hj] at h
    rw [stepPoster, hj]
    cases place with
    | locking =>
      dsimp only at h
      have hboth : p.locked = true ∨ p.runing_ = false := by
        by_contra hnot
        rw [if_neg hnot] at h
        cases h
      rcases hboth with hlock | hstopped
      · exact absurd hlock hgo.not_locked
      · cases hstopped.symm.trans hgo.running
    | waiting =>
      dsimp only at h
      have hboth : p.locked = true ∨ j ∈ p.notFull_.asleep := by
        by_contra hnot
        rw [if_neg hnot] at h
        cases h
      exact if_pos hboth
    | spinning => cases h
    | returned => rfl
    | threw what => rfl

/-- So does every step of a poster. -/
theorem Going.stepPoster (h : Going p) (j wake : Nat) : Going (p.stepPoster j wake) := by
  cases hat : p.entersWait j with
  | none =>
    rw [stepPoster_stays h hat]
    exact h
  | some at_ =>
    obtain ⟨task, notFull, heq⟩ := stepPoster_enters h hat wake
    rw [heq]
    have hgo : Going ({ p with notFull_ := notFull } : ThreadPool τ) := ⟨h.running, h.no_spinning⟩
    exact hgo.postFrom _ _ _ _

/-- No step of a worker concerns `post`. -/
theorem takeFrom_frame (p : ThreadPool τ) (i : Nat) (at_ : WaitAt) (wake : Nat) :
    (p.takeFrom i at_ wake).runing_ = p.runing_ ∧ (p.takeFrom i at_ wake).posters = p.posters ∧
      (p.takeFrom i at_ wake).accepted = p.accepted := by
  rw [takeFrom_eq]
  split
  · rw [pop]
    split <;> exact ⟨rfl, rfl, rfl⟩
  · exact ⟨rfl, rfl, rfl⟩

/-- A worker neither accepts a task nor moves a poster. -/
theorem stepWorker_frame {p' : ThreadPool τ} {i : Nat} (h : p.stepWorker i wake = .ok p') :
    p'.runing_ = p.runing_ ∧ p'.posters = p.posters ∧ p'.accepted = p.accepted := by
  unfold stepWorker at h
  split at h
  · cases h
    exact ⟨rfl, rfl, rfl⟩
  · cases h
    split
    · exact ⟨rfl, rfl, rfl⟩
    · exact takeFrom_frame _ _ _ _
  · cases h
    split
    · exact ⟨rfl, rfl, rfl⟩
    · exact takeFrom_frame _ _ _ _
  · cases h
  · cases h
    exact ⟨rfl, rfl, rfl⟩
  · cases h
    exact ⟨rfl, rfl, rfl⟩
  · cases h
    exact ⟨rfl, rfl, rfl⟩

/-- A task that throws ends the process. -/
theorem throwTask_frame {p' : ThreadPool τ} {i : Nat} (h : p.throwTask i = .ok p') : p' = p := by
  unfold throwTask at h
  split at h
  · cases h
  · cases h
    rfl

/-- **Every step of a run that goes on keeps it.** -/
theorem Going.step (h : Going p) {e : Event τ} {p' : ThreadPool τ} (he : e.goesOn = true)
    (hstep : step p e = .ok p') : Going p' := by
  -- the events one by one; `stop` is the one that does not go on
  cases e with
  | call task =>
    cases hstep
    refine ⟨h.running, fun x hx => ?_⟩
    rcases List.mem_append.mp hx with hx | hx
    · exact h.no_spinning x hx
    · rw [List.mem_singleton.mp hx]
      intro heq
      cases heq
  | poster j wake =>
    cases hstep
    exact h.stepPoster j wake
  | worker i wake =>
    obtain ⟨hrun, hposters, -⟩ := stepWorker_frame hstep
    exact ⟨hrun.trans h.running, hposters ▸ h.no_spinning⟩
  | throws i =>
    rw [throwTask_frame hstep]
    exact h
  | spuriousPoster j =>
    cases hstep
    exact ⟨h.running, h.no_spinning⟩
  | spuriousWorker i =>
    cases hstep
    exact ⟨h.running, h.no_spinning⟩
  | setmaxQueueSize max =>
    cases hstep
    exact ⟨h.running, h.no_spinning⟩
  | stop => cases he

/-- Only a call of `post` that leaves its loop accepts a task. -/
theorem accepted_postFrom (hrun : p.runing_ = true) (j : Nat) (task : τ) (at_ : WaitAt)
    (wake : Nat) :
    (p.postFrom j task at_ wake).accepted =
      if p.postEnd at_ = some .leaves then p.accepted ++ [task] else p.accepted := by
  rw [postFrom_eq, postEnd_running hrun]
  split
  · rename_i hend
    rw [if_pos hend]
    rfl
  · rename_i hend
    rw [hend, if_neg (by decide)]
    rfl
  · rename_i hend
    cases hend

/-- A task is accepted by a poster that has entered its wait, or passed it by; by nothing else. -/
theorem accepted_step (hgo : Going p) {e : Event τ} {p' : ThreadPool τ} (he : e.goesOn = true)
    (hstep : step p e = .ok p') (hnew : p'.accepted ≠ p.accepted) :
    ∃ j wake at_, e = .poster j wake ∧ p.entersWait j = some at_ ∧ p.postEnd at_ =
      some .leaves := by
  -- only a step of a poster accepts a task, and only where it leaves the wait
  cases e with
  | poster j wake =>
    obtain rfl : p.stepPoster j wake = p' := Except.ok.inj hstep
    cases hat : p.entersWait j with
    | none =>
      rw [stepPoster_stays hgo hat] at hnew
      exact absurd rfl hnew
    | some at_ =>
      refine ⟨j, wake, at_, rfl, hat, ?_⟩
      obtain ⟨task, notFull, heq⟩ := stepPoster_enters hgo hat wake
      have haccepted := accepted_postFrom (p := { p with notFull_ := notFull }) hgo.running j
        task at_ wake
      rw [heq, haccepted] at hnew
      by_contra hstays
      exact hnew (if_neg hstays)
  | worker i wake => exact absurd (stepWorker_frame hstep).2.2 hnew
  | throws i =>
    rw [throwTask_frame hstep] at hnew
    exact absurd rfl hnew
  | call task =>
    cases hstep
    exact absurd rfl hnew
  | spuriousPoster j =>
    cases hstep
    exact absurd rfl hnew
  | spuriousWorker i =>
    cases hstep
    exact absurd rfl hnew
  | setmaxQueueSize max =>
    cases hstep
    exact absurd rfl hnew
  | stop => cases he

/-- `post` blocks in the running pool where its test, or the predicate, tells it to. -/
theorem postWait_sleeps (hrun : p.runing_ = true) (at_ : WaitAt) :
    loop p.postWait turns at_ = some (.ok .sleeps) ↔
      match at_ with
      | .test => p.full = true
      | .predicate => ¬ p.notFull = true := by
  rw [postWait_loop, postEnd_running hrun]
  cases at_ with
  | test => by_cases hfull : p.full = true <;> simp [hfull]
  | predicate => by_cases hroom : p.notFull = true <;> simp [hroom]

/-- **One step** respects the bound if and only if it is not a call of `post` that comes to an
    overfull queue. -/
theorem respects_iff (hgo : Going p) {e : Event τ} (he : e.goesOn = true) :
    Respects p e ↔ NotOverfull p e := by
  constructor
  · intro h
    cases e with
    | poster j wake =>
      intro hat
      by_contra hover
      have hover : p.overfull = true := Bool.eq_true_of_not_eq_false hover
      -- `postFuture` blocks here, and `post` does not
      have hblocks := h.blocks j wake .test rfl hat
      rw [postWait_sleeps hgo.running, postFutureWait_sleeps hgo.running] at hblocks
      have hfull := full_iff.mp (hblocks.mpr (fullFuture_eq.mpr (Or.inr hover)))
      have hmore := overfull_iff.mp hover
      omega
    | call => trivial
    | worker => trivial
    | throws => trivial
    | spuriousPoster => trivial
    | spuriousWorker => trivial
    | setmaxQueueSize => trivial
    | stop => trivial
  · intro h
    have hfuture : ∀ j wake, e = .poster j wake → p.entersWait j = some .test →
        (p.full = true ↔ p.fullFuture = true) := by
      rintro j wake rfl hat
      have hnot : ¬ p.overfull = true := Bool.eq_false_iff.mp (h hat)
      rw [fullFuture_eq, or_iff_left hnot]
    constructor
    · intro p' hstep hnew hmore
      obtain ⟨j, wake, at_, heq, hat, hleaves⟩ := accepted_step hgo he hstep hnew
      rw [postEnd_running hgo.running] at hleaves
      cases at_ with
      | test =>
        have hfull : p.full = true := (hfuture j wake heq hat).mpr (fullFuture_iff.mpr hmore)
        rw [if_pos hfull] at hleaves
        cases hleaves
      | predicate =>
        have hroom : ¬ p.notFull = true := fun hroom =>
          not_room_of_fullFuture (fullFuture_iff.mpr hmore) ((notFull_running hgo.running).mp hroom)
        rw [if_neg hroom] at hleaves
        cases hleaves
    · intro j wake at_ heq hat
      rw [postWait_sleeps hgo.running, postFutureWait_sleeps hgo.running]
      cases at_ with
      | test => exact hfuture j wake heq hat
      | predicate => exact Iff.rfl

/-! ## Every interleaving

  From `start` on, until `stop` is called.  The condition is on each event and the state before
  it. -/

/-- A pool that was started goes on. -/
theorem started_going (max threadNum : Int32) (hardware_concurrency : Nat) :
    Going (started max threadNum hardware_concurrency : ThreadPool τ) :=
  ⟨rfl, fun _ h => absurd h List.not_mem_nil⟩

/-- **The bound on both ways into the queue.** While the pool is running and its bound changes,
    every step respects it if and only if no call of `post` comes to a queue that is longer than
    the bound. -/
theorem respects_bound_iff (max threadNum : Int32) (hardware_concurrency : Nat)
    (es : List (Event τ)) (h : ∀ e ∈ es, e.goesOn = true) :
    Guarded step Respects (started max threadNum hardware_concurrency) es ↔
      Guarded step NotOverfull (started max threadNum hardware_concurrency) es :=
  guarded_congr (I := Going) (fun _ _ _ hgo he hstep => hgo.step he hstep)
    (fun _ _ hgo he => respects_iff hgo he) es _
    (started_going max threadNum hardware_concurrency) h

section Examples

/-- The bound is lowered from two to one with two tasks in the queue, and a third one is posted. -/
def loweredBound : List (Event Nat) :=
  [.call 7, .poster 0 0, .call 8, .poster 1 0, .setmaxQueueSize 1, .call 9]

/-- A worker takes a task before the third one is posted, and this one waits. -/
theorem respects_bound_drained :
    (∀ e ∈ loweredBound ++ [.worker 0 0, .worker 0 0, .poster 2 0], e.goesOn = true) ∧
    (Guarded step Respects (started 2 1 4)
        (loweredBound ++ [.worker 0 0, .worker 0 0, .poster 2 0]) ↔
      Guarded step NotOverfull (started 2 1 4)
        (loweredBound ++ [.worker 0 0, .worker 0 0, .poster 2 0])) := by
  have hgoes : ∀ e ∈ loweredBound ++ [.worker 0 0, .worker 0 0, .poster 2 0], e.goesOn = true := by
    decide
  exact ⟨hgoes, respects_bound_iff 2 1 4 _ hgoes⟩

/-- **A third task** is pushed onto a queue of two whose bound is one; `postFuture` would wait. -/
theorem loweredBound_pushes :
    (∀ e ∈ loweredBound ++ [.poster 2 0], e.goesOn = true) ∧
      ¬ Guarded step Respects (started 2 1 4) (loweredBound ++ [.poster 2 0]) := by
  refine ⟨by decide, fun h => ?_⟩
  have hend : (run step (started 2 1 4) loweredBound).toOption.map
      (fun p => (p.maxQueueSize_.toInt, p.queue_.length, p.accepted,
        (p.stepPoster 2 0).accepted)) = some (1, 2, [7, 8], [7, 8, 9]) := by decide +kernel
  cases hrun : run step (started 2 1 4) loweredBound with
  | error f =>
    rw [hrun] at hend
    cases hend
  | ok p =>
    rw [hrun] at hend
    obtain ⟨hmax, hend⟩ := Prod.mk.inj (Option.some.inj hend)
    obtain ⟨hlength, hend⟩ := Prod.mk.inj hend
    obtain ⟨hbefore, hafter⟩ := Prod.mk.inj hend
    have hstep := (h.of_run hrun).1.pushes _ rfl (by
      rw [hbefore, hafter]
      decide)
    rw [hmax, hlength] at hstep
    exact hstep (by decide)

end Examples

end ThreadPool

end IOEvent
