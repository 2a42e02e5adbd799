/-
  No task is forgotten while the pool is running.

  That no wake-up is lost (`HandOff`) says that somebody is about to take a task when there is
  one.  Here this becomes progress.  As long as there is a task, a worker that is AWAKE stays
  awake, and each of its turns brings it nearer to its next task: it calls the one in its hand,
  returns from it, tests `runing_`, takes.  What the other threads do in between does not set it
  back, as they only take tasks as well.  So `4 * n` turns of one worker that is awake are enough
  for `n` tasks to be taken, whoever takes them (`rank`); and a worker that has taken a task
  calls it in its next turn.

  A scheduler does not know which worker is awake, so the theorem gives the turns to all of them.
-/
import IOEvent.ThreadPool.HandOff
import IOEvent.ThreadPool.Stop

open Foundation

namespace IOEvent

/-- How many turns a worker that is awake needs to take a task. -/
def Worker.distance {τ : Type} : Worker τ → Nat
  | .calling _ => 4
  | .running _ => 3
  | .testing => 2
  | .taking | .waiting => 1
  | .exited => 0

namespace ThreadPool

variable {τ : Type} {p p' : ThreadPool τ} {i k wake : Nat}

/-! ## The property

  A task counts as called when its worker has called as many tasks as it had taken up to that
  one. -/

/-- The tasks `accepted` have been taken, in this order, and each was called by the worker that has
    taken it. -/
def Called (accepted : List τ) (p : ThreadPool τ) : Prop :=
  ∃ taken, taken <+: p.taken ∧ taken.map Prod.snd = accepted ∧
    ∀ i, byWorker i taken <+: byWorker i p.ran

/-- A turn of the worker `i`. -/
def Event.turnOf (i : Nat) : Event τ → Bool
  | .worker k _ => k = i
  | _ => false

/-! ## What an event leaves alone

  A turn of another thread does not move the worker.  It may take tasks, and it may wake the
  worker up. -/

/-- An event that is not a turn of the worker `i`. -/
structure Others (i : Nat) (p p' : ThreadPool τ) : Prop where
  worker : p'.workers[i]? = p.workers[i]?
  asleep : i ∈ p'.notEmpty_.asleep → i ∈ p.notEmpty_.asleep
  accepted : p.accepted <+: p'.accepted
  taken : p.taken <+: p'.taken
  ran : p.ran <+: p'.ran

/-- An event that none of them is part of. -/
theorem Others.same (hworkers : p'.workers = p.workers) (hnotEmpty : p'.notEmpty_ = p.notEmpty_)
    (haccepted : p'.accepted = p.accepted) (htaken : p'.taken = p.taken) (hran : p'.ran = p.ran) :
    Others i p p' where
  worker := by rw [hworkers]
  asleep := by
    rw [hnotEmpty]
    exact id
  accepted := by rw [haccepted]
  taken := by rw [htaken]
  ran := by rw [hran]

/-- A notification puts nobody to sleep. -/
theorem asleep_notifyOne {c : CondVar} (h : i ∈ (c.notifyOne wake).asleep) : i ∈ c.asleep := by
  rcases c.notifyOne_cases wake with ⟨-, heq⟩ | ⟨k, -, heq⟩
  · rwa [heq] at h
  · rw [heq] at h
    exact List.mem_of_mem_erase h

/-- A task pushed moves no worker backwards. -/
theorem push_others (p : ThreadPool τ) (i j : Nat) (task : τ) (wake : Nat) :
    Others i p (p.push j task wake) :=
  ⟨rfl, asleep_notifyOne, List.prefix_append _ _, List.prefix_rfl, List.prefix_rfl⟩

/-- Nor does a poster that goes on. -/
theorem postFrom_others (p : ThreadPool τ) (i j : Nat) (task : τ) (at_ : WaitAt) (wake : Nat) :
    Others i p (p.postFrom j task at_ wake) := by
  unfold postFrom
  split
  · exact push_others p i j task wake
  · exact .same rfl rfl rfl rfl rfl
  · exact .same rfl rfl rfl rfl rfl

/-- Nor does any step of a poster. -/
theorem stepPoster_others (p : ThreadPool τ) (i j wake : Nat) :
    Others i p (p.stepPoster j wake) := by
  have hresumed (task : τ) (at_ : WaitAt) :
      Others i p (({ p with notFull_ := p.notFull_.resume j } : ThreadPool τ).postFrom j task
        at_ wake) :=
    have h := postFrom_others { p with notFull_ := p.notFull_.resume j } i j task at_ wake
    ⟨h.worker, h.asleep, h.accepted, h.taken, h.ran⟩
  unfold stepPoster
  split
  · split
    · exact .same rfl rfl rfl rfl rfl
    · unfold post
      split
      · exact postFrom_others ..
      · exact .same rfl rfl rfl rfl rfl
  · split
    · exact .same rfl rfl rfl rfl rfl
    · exact hresumed ..
  · exact postFrom_others ..
  · exact .same rfl rfl rfl rfl rfl

/-- The end of the wait loop of another worker. -/
theorem takeFrom_others (p : ThreadPool τ) (hk : k ≠ i) (at_ : WaitAt) (wake : Nat) :
    Others i p (p.takeFrom k at_ wake) := by
  have hset (w : Worker τ) : (p.setWorker k w).workers[i]? = p.workers[i]? :=
    getElem?_setWorker_ne (Ne.symm hk)
  unfold takeFrom
  split
  · unfold pop
    split
    · exact ⟨hset _, id, List.prefix_rfl, List.prefix_rfl, List.prefix_rfl⟩
    · exact ⟨hset _, id, List.prefix_rfl, List.prefix_append _ _, List.prefix_rfl⟩
  · refine ⟨hset _, fun h => ?_, List.prefix_rfl, List.prefix_rfl, List.prefix_rfl⟩
    rcases List.mem_append.mp h with h | h
    · exact h
    · exact absurd (List.mem_singleton.mp h).symm hk
  · exact .same rfl rfl rfl rfl rfl

/-- Nor does a step of another worker. -/
theorem stepWorker_others (hk : k ≠ i) (hstep : p.stepWorker k wake = .ok p') : Others i p p' := by
  have hset (w : Worker τ) : (p.setWorker k w).workers[i]? = p.workers[i]? :=
    getElem?_setWorker_ne (Ne.symm hk)
  have hresumed (at_ : WaitAt) : Others i p
      (({ p with notEmpty_ := p.notEmpty_.resume k } : ThreadPool τ).takeFrom k at_ wake) :=
    have h := takeFrom_others { p with notEmpty_ := p.notEmpty_.resume k } hk at_ wake
    ⟨h.worker, h.asleep, h.accepted, h.taken, h.ran⟩
  unfold stepWorker at hstep
  split at hstep
  · cases hstep
    exact ⟨hset _, id, List.prefix_rfl, List.prefix_rfl, List.prefix_rfl⟩
  · cases hstep
    split
    · exact .same rfl rfl rfl rfl rfl
    · exact takeFrom_others p hk _ wake
  · cases hstep
    split
    · exact .same rfl rfl rfl rfl rfl
    · exact hresumed _
  · cases hstep
  · cases hstep
    exact ⟨hset _, id, List.prefix_rfl, List.prefix_rfl, List.prefix_append _ _⟩
  · cases hstep
    exact ⟨hset _, id, List.prefix_rfl, List.prefix_rfl, List.prefix_rfl⟩
  · cases hstep
    exact .same rfl rfl rfl rfl rfl

/-- **No step but its own takes from a worker what it has reached.** -/
theorem step_others {e : Event τ} (hkeeps : e.keepsRunning = true) (hturn : e.turnOf i = false)
    (hstep : step p e = .ok p') : Others i p p' := by
  cases e with
  | call task =>
    cases hstep
    exact .same rfl rfl rfl rfl rfl
  | poster j wake =>
    cases hstep
    exact stepPoster_others p i j wake
  | worker k wake => exact stepWorker_others (of_decide_eq_false hturn) hstep
  | throws k =>
    have hsame : p.throwTask k = .ok p' := hstep
    unfold throwTask at hsame
    split at hsame
    · cases hsame
    · cases hsame
      exact .same rfl rfl rfl rfl rfl
  | spuriousPoster j =>
    cases hstep
    exact .same rfl rfl rfl rfl rfl
  | spuriousWorker k =>
    cases hstep
    exact ⟨rfl, List.mem_of_mem_erase, List.prefix_rfl, List.prefix_rfl, List.prefix_rfl⟩
  | setmaxQueueSize _ => cases hkeeps
  | stop => cases hkeeps

/-- The histories only grow: no event is a turn of every worker. -/
theorem step_grows {e : Event τ} (hkeeps : e.keepsRunning = true) (hstep : step p e = .ok p') :
    p.accepted <+: p'.accepted ∧ p.taken <+: p'.taken ∧ p.ran <+: p'.ran := by
  obtain ⟨i, hturn⟩ : ∃ i, e.turnOf i = false := by
    cases e with
    | worker k wake => exact ⟨k + 1, decide_eq_false (Nat.ne_add_one k)⟩
    | _ => exact ⟨0, rfl⟩
  have h := step_others hkeeps hturn hstep
  exact ⟨h.accepted, h.taken, h.ran⟩

/-! ## A turn of a worker

  While there is a task, a worker that is awake comes one place nearer to `take`, or it takes. -/

/-- The worker `i` is at `w`, and not asleep there. -/
structure Awake (p : ThreadPool τ) (i : Nat) (w : Worker τ) : Prop where
  worker : p.workers[i]? = some w
  not_exited : w ≠ .exited
  awake : i ∉ p.notEmpty_.asleep

/-- What a turn of a worker that is awake comes to, while there is a task. -/
inductive Turns (p p' : ThreadPool τ) (i : Nat) (w : Worker τ) : Prop
  /-- It takes the task. -/
  | takes (task : τ) (hdistance : w.distance = 1) (hawake : Awake p' i (.calling (some task)))
      (htaken : p'.taken = p.taken ++ [(i, task)]) (haccepted : p'.accepted = p.accepted)
      (hran : p'.ran = p.ran)
  | nearer (w' : Worker τ) (hdistance : w'.distance + 1 = w.distance) (hawake : Awake p' i w')
      (htaken : p'.taken = p.taken) (haccepted : p'.accepted = p.accepted) (hran : p.ran <+: p'.ran)

/-- With a task in the queue, the worker that has the mutex takes it. -/
theorem takeFrom_takes {q : ThreadPool τ} {w w₀ : Worker τ} (hqueue : q.queue_ ≠ [])
    (hworker : q.workers[i]? = some w₀) (hawake : i ∉ q.notEmpty_.asleep)
    (haccepted : q.accepted = p.accepted) (htaken : q.taken = p.taken) (hran : q.ran = p.ran)
    (hdistance : w.distance = 1) (at_ : WaitAt) (wake : Nat) :
    Turns p (q.takeFrom i at_ wake) i w := by
  have hend : q.takeEnd at_ = .leaves := by
    cases at_ with
    | test => exact if_neg fun h => hqueue (List.isEmpty_iff.mp h.1)
    | predicate => exact if_neg fun h => hqueue (List.isEmpty_iff.mp h)
  obtain ⟨task, queue, hcons⟩ := List.exists_cons_of_ne_nil hqueue
  rw [takeFrom_eq, hend, pop, hcons]
  refine .takes task hdistance ⟨getElem?_setWorker hworker, by simp, hawake⟩ ?_ haccepted hran
  rw [← htaken]

/-- **A step of its own brings a worker that is awake nearer to the next task**, or to having
    taken it. -/
theorem stepWorker_turns (h : Inv p) (hqueue : p.queue_ ≠ []) {w : Worker τ} (hawake : Awake p i w)
    (hstep : p.stepWorker i wake = .ok p') : Turns p p' i w := by
  have hlock := h.core.not_locked
  have hworker := hawake.worker
  unfold stepWorker at hstep
  rw [hworker] at hstep
  -- each place is one step nearer to the next `take`
  cases w with
  | testing =>
    cases hstep
    rw [if_pos h.core.running]
    exact .nearer .taking rfl ⟨getElem?_setWorker hworker, by simp, hawake.awake⟩ rfl rfl
      List.prefix_rfl
  | taking =>
    cases hstep
    rw [if_neg hlock]
    exact takeFrom_takes (w := .taking) hqueue hworker hawake.awake rfl rfl rfl rfl _ wake
  | waiting =>
    cases hstep
    rw [if_neg (not_or.mpr ⟨hlock, hawake.awake⟩)]
    exact takeFrom_takes (p := p) (q := { p with notEmpty_ := p.notEmpty_.resume i })
      (w := .waiting) hqueue hworker hawake.awake rfl rfl rfl rfl _ wake
  | calling task =>
    cases task with
    | none => exact absurd rfl (h.core.no_empty _ (List.mem_of_getElem? hworker))
    | some task =>
      cases hstep
      exact .nearer (.running task) rfl ⟨getElem?_setWorker hworker, by simp, hawake.awake⟩ rfl rfl
        (List.prefix_append _ _)
  | running task =>
    cases hstep
    exact .nearer .testing rfl ⟨getElem?_setWorker hworker, by simp, hawake.awake⟩ rfl rfl
      List.prefix_rfl
  | exited => exact absurd rfl hawake.not_exited

/-! ## The tasks are taken

  `rank` bounds the turns of one worker; the turns of the others never raise it. -/

/-- There is a task as long as not all the accepted ones are taken. -/
theorem Inv.queue_ne (h : Inv p) {a : Nat} (ha : a ≤ p.accepted.length) (hlt : p.taken.length < a) :
    p.queue_ ≠ [] := by
  intro hnil
  have hlength := congrArg List.length h.core.fifo
  rw [hnil, List.append_nil, List.length_map] at hlength
  omega

/-- How many turns the worker `i` needs, at most, until `a` tasks are taken. -/
def rank (a i : Nat) (p : ThreadPool τ) : Nat :=
  if a ≤ p.taken.length then 0
  else 4 * (a - p.taken.length - 1) + (p.workers[i]?.elim 0 Worker.distance)

/-- How far an awake worker is from taking the `a`-th task, in steps: four for each task before
    it, and its own way. -/
theorem rank_awake {a : Nat} {w : Worker τ} (hlt : p.taken.length < a) (hawake : Awake p i w) :
    rank a i p = 4 * (a - p.taken.length - 1) + w.distance := by
  rw [rank, if_neg (Nat.not_le.mpr hlt), hawake.worker]
  rfl

/-- Its own way is four steps at most. -/
theorem distance_le (w : Worker τ) : w.distance ≤ 4 := by
  cases w <;> simp only [Worker.distance] <;> omega

/-- The worker `i` is awake until `a` tasks are taken. -/
structure Taking (a i : Nat) (p : ThreadPool τ) : Prop where
  inv : Inv p
  accepted : a ≤ p.accepted.length
  awake : a ≤ p.taken.length ∨ ∃ w, Awake p i w

/-- The rank of a state in which at least as many tasks are taken, and the worker is as near. -/
theorem rank_le {a : Nat} {w : Worker τ} (hlt : p.taken.length < a) (hawake : Awake p i w)
    {w' : Worker τ} (hawake' : Awake p' i w') (htaken : p.taken.length ≤ p'.taken.length)
    {d : Nat} (hdistance : w'.distance + d ≤ w.distance + 4 * (p'.taken.length - p.taken.length)) :
    rank a i p' ≤ rank a i p - d := by
  rw [rank_awake hlt hawake]
  by_cases hle : a ≤ p'.taken.length
  · rw [rank, if_pos hle]
    exact Nat.zero_le _
  · rw [rank_awake (Nat.not_le.mp hle) hawake']
    omega

/-- A step brings it no farther away, and one of its own brings it nearer. -/
theorem Taking.step {a : Nat} {e : Event τ} (h : Taking a i p) (hkeeps : e.keepsRunning = true)
    (hstep : step p e = .ok p') :
    Taking a i p' ∧ rank a i p' ≤ rank a i p ∧
      (e.turnOf i = true → rank a i p' ≤ rank a i p - 1) := by
  -- the invariant goes on
  have hinv : Inv p' := by
    have hholds := h.inv.step hkeeps
    rw [hstep] at hholds
    exact holds_ok.mp hholds
  obtain ⟨haccepted, htaken, -⟩ := step_grows hkeeps hstep
  have haccepted := h.accepted.trans haccepted.length_le
  have htaken := htaken.length_le
  by_cases hdone : a ≤ p.taken.length
  · -- nothing is left to do
    have hzero : rank a i p' = 0 := if_pos (hdone.trans htaken)
    rw [hzero]
    exact ⟨⟨hinv, haccepted, .inl (hdone.trans htaken)⟩, Nat.zero_le _, fun _ => Nat.zero_le _⟩
  · obtain ⟨w, hawake⟩ := h.awake.resolve_left hdone
    have hlt := Nat.not_le.mp hdone
    -- a step of another thread does not change the worker; one of its own lowers the rank
    cases hturn : e.turnOf i with
    | false =>
      have hothers := step_others hkeeps hturn hstep
      have hawake' : Awake p' i w :=
        ⟨hothers.worker.trans hawake.worker, hawake.not_exited, fun h =>
          hawake.awake (hothers.asleep h)⟩
      exact ⟨⟨hinv, haccepted, .inr ⟨w, hawake'⟩⟩,
        rank_le (d := 0) hlt hawake hawake' htaken (Nat.le_add_right _ _), nofun⟩
    | true =>
      cases e with
      | worker k wake =>
        obtain rfl : k = i := of_decide_eq_true hturn
        have hqueue := h.inv.queue_ne h.accepted hlt
        suffices hlower : ∃ w', Awake p' k w' ∧ rank a k p' ≤ rank a k p - 1 by
          obtain ⟨w', hawake', hlower⟩ := hlower
          exact ⟨⟨hinv, haccepted, .inr ⟨w', hawake'⟩⟩,
            hlower.trans (Nat.sub_le _ _), fun _ => hlower⟩
        cases stepWorker_turns h.inv hqueue hawake hstep with
        | takes task hdistance hawake' htaken' =>
          refine ⟨_, hawake', rank_le hlt hawake hawake' htaken ?_⟩
          rw [htaken', List.length_append, List.length_singleton, hdistance,
            Nat.add_sub_cancel_left]
          exact Nat.le_refl 5
        | nearer w' hdistance hawake' =>
          exact ⟨w', hawake', rank_le hlt hawake hawake' htaken (by omega)⟩
      | _ => cases hturn

/-! ## Some worker is awake

  If there are more tasks accepted than taken, then not all workers sleep: that is what the
  hand-off says of the wake-ups. -/

/-- The workers are there, and none has left. -/
structure Manned (n : Nat) (p : ThreadPool τ) : Prop where
  inv : Inv p
  workers : p.workers.length = n
  no_exited : ∀ w ∈ p.workers, w ≠ .exited

/-- A worker that does not leave is still there. -/
theorem no_exited_set {w : Worker τ} (h : ∀ w ∈ p.workers, w ≠ .exited) (hw : w ≠ .exited) :
    ∀ w' ∈ p.workers.set i w, w' ≠ .exited := by
  intro w' hw'
  rcases List.mem_or_eq_of_mem_set hw' with hmem | heq
  · exact h w' hmem
  · rw [heq]
    exact hw

/-- While the pool runs no worker leaves from its wait. -/
theorem takeFrom_no_exited (h : ∀ w ∈ p.workers, w ≠ .exited) (at_ : WaitAt) :
    ∀ w ∈ (p.takeFrom i at_ wake).workers, w ≠ .exited := by
  have hcalling (task : Option τ) : Worker.calling task ≠ .exited := nofun
  have hwaiting : (Worker.waiting : Worker τ) ≠ .exited := nofun
  rw [takeFrom_eq]
  split
  · rw [pop]
    split
    · exact no_exited_set h (hcalling none)
    · exact no_exited_set h (hcalling _)
  · exact no_exited_set h hwaiting

/-- So the pool keeps its workers. -/
theorem Manned.next {n : Nat} {e : Event τ} (h : Manned n p) (hkeeps : e.keepsRunning = true) :
    Holds (Manned n) (fun _ => True) (step p e) := by
  -- the invariant and the number of workers go on
  have hinv := h.inv.step hkeeps
  have hlength := length_step h.workers e
  cases hstep : step p e with
  | error f => exact .error trivial
  | ok p' =>
    rw [hstep] at hinv hlength
    cases hlength with | ok hlength => ?_
    refine .ok ⟨holds_ok.mp hinv, hlength, ?_⟩
    -- no step lets a worker exit, as the pool runs
    cases e with
    | call task =>
      cases hstep
      exact h.no_exited
    | poster j wake =>
      cases hstep
      rw [workers_stepPoster]
      exact h.no_exited
    | worker i wake =>
      have hworker : p.stepWorker i wake = .ok p' := hstep
      unfold stepWorker at hworker
      split at hworker
      · cases hworker
        rw [if_pos h.inv.core.running]
        exact no_exited_set (w := .taking) h.no_exited nofun
      · cases hworker
        split
        · exact h.no_exited
        · exact takeFrom_no_exited h.no_exited _
      · cases hworker
        split
        · exact h.no_exited
        · exact takeFrom_no_exited (p := { p with notEmpty_ := p.notEmpty_.resume i }) h.no_exited _
      · cases hworker
      · cases hworker
        exact no_exited_set (w := .running _) h.no_exited nofun
      · cases hworker
        exact no_exited_set (w := .testing) h.no_exited nofun
      · cases hworker
        exact h.no_exited
    | throws i =>
      have hsame : p.throwTask i = .ok p' := hstep
      unfold throwTask at hsame
      split at hsame
      · cases hsame
      · cases hsame
        exact h.no_exited
    | spuriousPoster j =>
      cases hstep
      exact h.no_exited
    | spuriousWorker i =>
      cases hstep
      exact h.no_exited
    | setmaxQueueSize _ => cases hkeeps
    | stop => cases hkeeps

/-- With a task in the queue some worker is awake: a notified one, or any if nobody is asleep. -/
theorem Manned.awake {n : Nat} (h : Manned n p) (hn : 0 < n) (hqueue : p.queue_ ≠ []) :
    ∃ i < n, ∃ w, Awake p i w := by
  have hexists : ∃ i, ∃ w, Awake p i w := by
    by_cases hasleep : p.notEmpty_.asleep = []
    · have hlt : 0 < p.workers.length := h.workers ▸ hn
      refine ⟨0, p.workers[0], List.getElem?_eq_getElem hlt,
        h.no_exited _ (List.getElem_mem hlt), ?_⟩
      rw [hasleep]
      exact List.not_mem_nil
    · have hserved := h.inv.notEmpty hasleep
      have hpos := List.length_pos_iff.mpr hqueue
      obtain ⟨i, hi⟩ := List.exists_mem_of_length_pos (hpos.trans_le hserved)
      have hwaits : p.WorkerWaits i := h.inv.workers.waiting i (List.mem_append_right _ hi)
      refine ⟨i, .waiting, hwaits, nofun, fun hmem => ?_⟩
      exact (List.nodup_append.mp h.inv.workers.nodup).2.2 i hmem i hi rfl
  obtain ⟨i, w, hawake⟩ := hexists
  exact ⟨i, h.workers ▸ (List.getElem?_eq_some_iff.mp hawake.worker).1, w, hawake⟩

/-- **The tasks are taken**: with `4 * n` turns of each worker, `n` being the length of the
    queue. -/
theorem Manned.takes {n : Nat} (h : Manned n p) (hn : 0 < n) {fs : List (Event τ)}
    (hkeeps : ∀ e ∈ fs, e.keepsRunning = true)
    (hturns : ∀ i < n, 4 * p.queue_.length ≤ fs.countP (Event.turnOf i))
    (hrun : run step p fs = .ok p') : p.accepted.length ≤ p'.taken.length := by
  have hlength : p.accepted.length = p.taken.length + p.queue_.length := by
    rw [h.inv.core.fifo, List.length_append, List.length_map]
  obtain ⟨i, hi, htaking, hrank⟩ : ∃ i < n, Taking p.accepted.length i p ∧
      rank p.accepted.length i p ≤ 4 * p.queue_.length := by
    by_cases hqueue : p.queue_ = []
    · rw [hqueue, List.length_nil] at hlength
      have hdone : p.accepted.length ≤ p.taken.length := by omega
      refine ⟨0, hn, ⟨h.inv, Nat.le_refl _, .inl hdone⟩, ?_⟩
      rw [rank, if_pos hdone]
      exact Nat.zero_le _
    · obtain ⟨i, hi, w, hawake⟩ := h.awake hn hqueue
      have hpos := List.length_pos_iff.mpr hqueue
      have hdistance := distance_le w
      refine ⟨i, hi, ⟨h.inv, Nat.le_refl _, .inr ⟨w, hawake⟩⟩, ?_⟩
      rw [rank_awake (by omega) hawake]
      omega
  obtain ⟨htaking', hrank'⟩ : Taking p.accepted.length i p' ∧ rank p.accepted.length i p' ≤
      rank p.accepted.length i p - fs.countP (Event.turnOf i) :=
    run_ranks (C := fun _ e => e.keepsRunning = true) (fun _ _ _ hs hC hstep => hs.step hC hstep)
      fs p p' htaking (.of_mem p fun e he _ => hkeeps e he) hrun
  by_contra hnot
  -- the rank of a worker that is awake is not zero
  obtain ⟨w, hawake⟩ := htaking'.awake.resolve_left hnot
  rw [rank_awake (Nat.not_le.mp hnot) hawake] at hrank'
  have hfair := hturns i hi
  have hpos : 0 < w.distance := by
    have hne := hawake.not_exited
    cases w <;> first | exact absurd rfl hne | exact Nat.succ_pos _
  omega

/-! ## The tasks are called

  A worker owes the tasks it has taken and not called, and that is one at most. -/

/-- What a worker has taken only grows. -/
theorem byWorker_mono {l l' : List (Nat × τ)} (h : l <+: l') : byWorker i l <+: byWorker i l' :=
  (h.filter _).map _

/-- How many of the tasks `taken` the worker `i` has still to call. -/
def owed (taken : List (Nat × τ)) (i : Nat) (p : ThreadPool τ) : Nat :=
  (byWorker i taken).length - (byWorker i p.ran).length

/-- A worker that has still to call a task has it in its hand. -/
theorem Inv.in_hand (h : Inv p) {taken : List (Nat × τ)} (htaken : taken <+: p.taken)
    (howed : 0 < owed taken i p) : ∃ task, p.workers[i]? = some (.calling (some task)) := by
  have hle := (byWorker_mono (i := i) htaken).length_le
  rw [h.core.calls i, List.length_append] at hle
  rw [owed] at howed
  unfold inHand at hle
  split at hle
  · exact ⟨_, ‹_›⟩
  · rw [List.length_nil] at hle
    omega

/-- Each step keeps what was taken, and what of it is still to be called only shrinks. -/
theorem Inv.calls_next {e : Event τ} {taken : List (Nat × τ)} (h : Inv p)
    (htaken : taken <+: p.taken) (hkeeps : e.keepsRunning = true)
    (hstep : ThreadPool.step p e = .ok p') :
    (Inv p' ∧ taken <+: p'.taken) ∧ owed taken i p' ≤ owed taken i p ∧
      (e.turnOf i = true → owed taken i p' ≤ owed taken i p - 1) := by
  have hinv : Inv p' := by
    have hholds := h.step hkeeps
    rw [hstep] at hholds
    exact holds_ok.mp hholds
  obtain ⟨-, htaken', hran⟩ := step_grows hkeeps hstep
  have hless : owed taken i p' ≤ owed taken i p := by
    have hle := (byWorker_mono (i := i) hran).length_le
    rw [owed, owed]
    omega
  refine ⟨⟨hinv, htaken.trans htaken'⟩, hless, fun hturn => ?_⟩
  by_cases howed : 0 < owed taken i p
  · obtain ⟨task, hcalling⟩ := h.in_hand htaken howed
    cases e with
    | worker k wake =>
      obtain rfl : k = i := of_decide_eq_true hturn
      have hworker : p.stepWorker k wake = .ok p' := hstep
      unfold ThreadPool.stepWorker at hworker
      rw [hcalling] at hworker
      cases hworker
      show (byWorker k taken).length - (byWorker k (p.ran ++ [(k, task)])).length ≤ _
      rw [byWorker_append, if_pos rfl, List.length_append, List.length_singleton, owed]
      omega
    | _ => cases hturn
  · omega

/-- **The tasks that are taken are called**: with one more turn of each worker. -/
theorem Manned.calls {n : Nat} (h : Manned n p) {gs : List (Event τ)}
    (hkeeps : ∀ e ∈ gs, e.keepsRunning = true) (hturns : ∀ i < n, 0 < gs.countP (Event.turnOf i))
    (hrun : run step p gs = .ok p') :
    p.taken <+: p'.taken ∧ ∀ i, byWorker i p.taken <+: byWorker i p'.ran := by
  have hranks (i : Nat) : (Inv p' ∧ p.taken <+: p'.taken) ∧
      owed p.taken i p' ≤ owed p.taken i p - gs.countP (Event.turnOf i) :=
    run_ranks (I := fun q => Inv q ∧ p.taken <+: q.taken) (C := fun _ e => e.keepsRunning = true)
      (fun _ _ _ hs hC hstep => hs.1.calls_next hs.2 hC hstep) gs p p' ⟨h.inv, List.prefix_rfl⟩
      (.of_mem p fun e he _ => hkeeps e he) hrun
  obtain ⟨⟨hinv, htaken⟩, -⟩ := hranks 0
  refine ⟨htaken, fun i => ?_⟩
  have hzero : owed p.taken i p' = 0 := by
    have hrank := (hranks i).2
    by_cases howed : 0 < owed p.taken i p
    · -- it is one task, in the hand of a worker
      obtain ⟨task, hcalling⟩ := h.inv.in_hand List.prefix_rfl howed
      have hlt : i < n := h.workers ▸ (List.getElem?_eq_some_iff.mp hcalling).1
      have hone : owed p.taken i p = 1 := by
        rw [owed, h.inv.core.calls i, List.length_append, inHand, hcalling, List.length_singleton]
        omega
      have hfair := hturns i hlt
      omega
    · omega
  have hleft := byWorker_mono (i := i) htaken
  rw [hinv.core.calls i] at hleft
  apply List.prefix_of_prefix_length_le hleft (List.prefix_append _ _)
  rw [owed] at hzero
  omega

/-! ## Every run

  The tasks accepted at the beginning are all called after finitely many turns of each worker,
  in any order of the turns. -/

/-- A started pool has the workers that were asked for. -/
theorem started_manned (max threadNum : Int32) (hardware_concurrency : Nat) :
    Manned (numThreads threadNum hardware_concurrency)
      (started max threadNum hardware_concurrency : ThreadPool τ) where
  inv := started_inv max threadNum hardware_concurrency
  workers := List.length_replicate
  no_exited := by
    intro w hw
    rw [List.eq_of_mem_replicate hw]
    exact nofun

/-- It keeps them along a run. -/
theorem Manned.run {n : Nat} (h : Manned n p) {es : List (Event τ)}
    (hkeeps : ∀ e ∈ es, e.keepsRunning = true) (hrun : Foundation.run step p es = .ok p') :
    Manned n p' := by
  have hholds := run_holds (fun _ _ hs hC => Manned.next hs hC) es p h
    (.of_mem p fun e he _ => hkeeps e he)
  rw [hrun] at hholds
  exact holds_ok.mp hholds

/-- **No task is forgotten**: after any run of a pool with a fixed bound and no call of `stop`,
    when each worker has taken four turns for each task in the queue, and then one more, every
    task accepted so far has been called, whatever else happens in between. -/
theorem tasks_called (max threadNum : Int32) (hardware_concurrency : Nat)
    (hworkers : 0 < numThreads threadNum hardware_concurrency) (es fs gs : List (Event τ))
    (hkeeps : ∀ e ∈ es ++ fs ++ gs, e.keepsRunning = true) {p p' : ThreadPool τ}
    (hes : life max threadNum hardware_concurrency es = .ok p)
    (hfs : ∀ i < numThreads threadNum hardware_concurrency,
      4 * p.queue_.length ≤ fs.countP (Event.turnOf i))
    (hgs : ∀ i < numThreads threadNum hardware_concurrency, 0 < gs.countP (Event.turnOf i))
    (hrun : run step p (fs ++ gs) = .ok p') : Called p.accepted p' := by
  simp only [List.mem_append, or_imp, forall_and] at hkeeps
  obtain ⟨⟨hkeeps, hkeepsFs⟩, hkeepsGs⟩ := hkeeps
  -- the pool after `es`, after `fs`, and after `gs`
  have hp : Manned (numThreads threadNum hardware_concurrency) p :=
    (started_manned max threadNum hardware_concurrency).run hkeeps hes
  rw [run_append] at hrun
  obtain ⟨p₁, hp₁, hrun⟩ := bind_ok hrun
  have hlength := hp.takes hworkers hkeepsFs hfs hp₁
  have hmanned := hp.run hkeepsFs hp₁
  obtain ⟨htaken, hran⟩ := hmanned.calls hkeepsGs hgs hrun
  -- tasks accepted before `fs` are accepted after it
  have haccepted : p.accepted <+: p₁.accepted := by
    have hgrows : Holds (fun q : ThreadPool τ => p.accepted <+: q.accepted) (fun _ => True)
        (run step p fs) := by
      refine run_holds (C := fun _ e => e.keepsRunning = true) (fun q e hq hC => ?_) fs p
        List.prefix_rfl (.of_mem p fun e he _ => hkeepsFs e he)
      cases hstep : step q e with
      | error f => exact .error trivial
      | ok q' => exact .ok (hq.trans (step_grows hC hstep).1)
    rw [hp₁] at hgrows
    cases hgrows with | ok h => exact h
  refine ⟨p₁.taken.take p.accepted.length, (List.take_prefix _ _).trans htaken, ?_, fun i => ?_⟩
  · -- the tasks taken are the first of those accepted
    rw [hmanned.inv.core.fifo] at haccepted
    rw [List.map_take]
    apply List.IsPrefix.eq_of_length _ (by rw [List.length_take, List.length_map]; omega)
    exact List.prefix_of_prefix_length_le ((List.take_prefix _ _).trans (List.prefix_append _ _))
      haccepted
      (by rw [List.length_take]; omega)
  · exact (byWorker_mono (List.take_prefix _ _)).trans (hran i)

section Examples

/-- Two tasks are posted to two workers of which one is asleep. -/
theorem tasks_called_twoWorkers : ∃ p p' : ThreadPool Nat,
    life 0 2 4 [.worker 0 0, .worker 0 0, .call 7, .poster 0 0, .call 8, .poster 1 0] = .ok p ∧
      run step p ((List.replicate 8 [.worker 1 0, .worker 0 0]).flatten ++
        [.worker 0 0, .worker 1 0]) =
        .ok p' ∧ Called p.accepted p' :=
  ⟨_, _, rfl, rfl, tasks_called 0 2 4 (by decide)
    [.worker 0 0, .worker 0 0, .call 7, .poster 0 0, .call 8, .poster 1 0]
    (List.replicate 8 [.worker 1 0, .worker 0 0]).flatten [.worker 0 0, .worker 1 0] (by decide) rfl
    (by decide) (by decide) rfl⟩

end Examples

end ThreadPool

end IOEvent
