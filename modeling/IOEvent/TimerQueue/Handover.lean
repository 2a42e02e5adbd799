/-
  `addTimer` on another thread, step by step.

  Off the loop `addTimer` creates the `Timer`, posts its insertion, and then reads
  `timer->sequence()` for the `TimerId` it returns.  From the post on the loop thread owns the
  timer: it may insert it, run it and delete it before the read.  `Callers` is the loop with the
  calls that are in progress.

  The read is safe as long as the timer is alive, and nothing else can be wrong: no cancellation
  names the timer yet (`Unknown`), and a repeating timer survives its batch.  So every read is
  safe if and only if no handler finishes with a one-shot timer in its batch whose `addTimer` is
  still to read its number (`reads_own_iff`).

  Ownership is that of `Represents`, for the loop as it would be if the calls had already posted
  (`whole`): a timer that is not posted yet is owned by its call.

  There is no second proof for the loop: it does the same when more handlers are posted
  (`step_repost`), so the invariant of a loop in which the calls have posted serves for the one
  in which they have not.
-/
import IOEvent.TimerQueue.Batch

open Foundation

namespace IOEvent

open TimerQueue

/-- A call of `addTimer` in progress on another thread: its `Timer`, the number that the timer
    was created with, and whether the insertion has been posted. The number is a ghost: the
    code reads it from the timer, and this is what it ought to read. -/
structure AddTimerCall where
  timer : Addr
  sequence : Nat
  posted : Bool
  deriving DecidableEq, Repr

/-- The loop, and the calls of `addTimer` in progress on other threads. Calls on the loop
    thread are events of the loop, as that does nothing else between their steps. -/
structure Callers where
  loop : IOLoop
  calls : List AddTimerCall

namespace Callers

/-- A step leaves the callers and the loop, or stops with a fault. -/
abbrev M := Outcome TimerQueue.Fault Callers Callers

/-- A new loop, and nobody in a call. -/
def new (now : Timestamp) : Callers := ⟨.new now, []⟩

/-- The callers with another state of the loop. -/
def setLoop (s : Callers) (loop : IOLoop) : Callers := { s with loop := loop }

/-- `new Timer(cb, when, interval)`; the allocator returns the address `timer`, which is free. -/
def create (s : Callers) (timer : Addr) (when : Timestamp) (interval : Interval) : Callers :=
  if 0 < timer ∧ timer < uintptrMax ∧ s.loop.timerQueue_.heap timer = none then
    { loop := s.loop.setQueue (s.loop.timerQueue_.allocate timer when interval)
      calls := s.calls ++ [⟨timer, s.loop.timerQueue_.s_numCreated_ + 1, false⟩] }
  else
    s

/-- The `i`-th call posts its insertion. -/
def post (s : Callers) (i : Nat) : Callers :=
  match s.calls[i]? with
  | some ⟨timer, sequence, false⟩ =>
    { loop := s.loop.post (.addTimerInThisThread timer)
      calls := s.calls.set i ⟨timer, sequence, true⟩ }
  | _ => s

/-- The `i`-th call reads `timer->sequence()` and returns. -/
def read (s : Callers) (i : Nat) : M :=
  match s.calls[i]? with
  | some ⟨timer, _, true⟩ => do
    let t ← within (fun q => s.setLoop (s.loop.setQueue q)) (s.loop.timerQueue_.deref timer)
    return {
      loop := { s.loop with timerIds := s.loop.timerIds ++ [⟨timer, t.sequence_⟩] }
      calls := s.calls.eraseIdx i }
  | _ => return s

/-- One event of the loop, or one step of a call of `addTimer` on another thread, which creates
    the timer, posts it and reads its number, each by itself. -/
inductive Event
  | loop (e : IOLoop.Event)
  | create (timer : Addr) (when : Timestamp) (interval : Interval)
  | post (i : Nat)
  | read (i : Nat)

/-- One step. -/
def step (s : Callers) : Event → M
  | .loop e => do
    let loop ← within s.setLoop (IOLoop.step s.loop e)
    return s.setLoop loop
  | .create timer when interval => return s.create timer when interval
  | .post i => return s.post i
  | .read i => s.read i

end Callers

namespace IOLoop

variable {s s' : IOLoop} {n : Nat} {a : Addr} {t : Timer}

/-! ## The posted handlers and the rest of the loop

  What the loop does depends on the posted handlers only when it takes one. -/

/-- The loop with other handlers posted. -/
def repost (s : IOLoop) (posted : List TimerTask) : IOLoop := { s with posted := posted }

/-- The result of an operation, with other posted handlers. -/
def reposted (posted : List TimerTask) : M → M
  | .ok s => .ok (s.repost posted)
  | .error (f, s) => .error (f, s.repost posted)

/-- A handler does not look at what is posted. -/
theorem perform_repost (s : IOLoop) (posted : List TimerTask) (task : TimerTask) :
    (s.repost posted).perform task = reposted posted (s.perform task) := by
  cases task with
  | addTimerInThisThread timer =>
    have hq : (s.repost posted).timerQueue_ = s.timerQueue_ := rfl
    dsimp only [perform]
    rw [hq]
    cases s.timerQueue_.addTimerInThisThread timer with
    | error f => rfl
    | ok q => rfl
  | cancelInThisThread timerId =>
    have hq : (s.repost posted).timerQueue_ = s.timerQueue_ := rfl
    dsimp only [perform]
    rw [hq]
    cases s.timerQueue_.cancelInThisThread timerId with
    | error f => rfl
    | ok q => rfl

/-- Nor do two operations in a row. -/
theorem reposted_bind (posted : List TimerTask) (r : M) {f g : IOLoop → M}
    (h : ∀ s, f (s.repost posted) = reposted posted (g s)) :
    (reposted posted r >>= f) = reposted posted (r >>= g) := by
  cases r with
  | error e => rfl
  | ok s => exact h s

/-- Nor does an operation of the queue. -/
theorem reposted_within {α : Type} (posted : List TimerTask) (s : IOLoop)
    (x : Outcome TimerQueue.Fault TimerQueue α) {f g : α → M}
    (h : ∀ a, f a = reposted posted (g a)) :
    (within (s.repost posted).setQueue x >>= f) = reposted posted (within s.setQueue x >>= g) := by
  cases x with
  | error e => rfl
  | ok a => exact h a

/-- Nor does the wait handler. -/
theorem advance_repost (s : IOLoop) (posted : List TimerTask) :
    (s.repost posted).advance = reposted posted s.advance := by
  have hrunning : (s.repost posted).running = s.running := rfl
  rw [advance, advance, hrunning]
  cases hrun : s.running with
  | none => rfl
  | some x =>
    obtain ⟨now, ran, left⟩ := x
    cases left with
    | nil => exact reposted_within posted s _ fun _ => rfl
    | cons entry left => exact reposted_within posted s _ fun _ => rfl

/-- Nor does its start. -/
theorem expire_repost (s : IOLoop) (posted : List TimerTask) (i : Nat) :
    (s.repost posted).expire i = reposted posted (s.expire i) := by
  have hrunning : (s.repost posted).running = s.running := rfl
  have hwaits : (s.repost posted).timerQueue_ = s.timerQueue_ := rfl
  rw [expire, expire, hrunning, hwaits]
  split
  · refine reposted_within posted s _ fun x => ?_
    obtain ⟨q, expired⟩ := x
    let q' : TimerQueue := { q with cancelingTimers_ := .empty, callingExpiredTimers_ := true }
    exact advance_repost
      ({ s.setQueue q' with running := some ⟨s.timerQueue_.clock, [], expired⟩ }) posted
  · rfl

/-- Nor does `addTimer` on the loop thread. -/
theorem addTimer_repost (s : IOLoop) (posted : List TimerTask) (a : Addr) (when : Timestamp)
    (interval : Interval) :
    (s.repost posted).addTimer true a when interval =
      reposted posted (s.addTimer true a when interval) := by
  have hqueue : (s.repost posted).timerQueue_ = s.timerQueue_ := rfl
  rw [addTimer, addTimer, hqueue]
  by_cases hfree : 0 < a ∧ a < uintptrMax ∧ s.timerQueue_.heap a = none
  · rw [if_pos hfree, if_pos hfree]
    have hperform := perform_repost (s.setQueue (s.timerQueue_.allocate a when interval)) posted
      (.addTimerInThisThread a)
    refine (congrArg (· >>= _) hperform).trans (reposted_bind posted _ fun s₁ => ?_)
    exact reposted_within posted s₁ _ fun _ => rfl
  · rw [if_neg hfree, if_neg hfree]
    rfl

/-- Nor does `cancel` there. -/
theorem cancel_repost (s : IOLoop) (posted : List TimerTask) (i : Nat) :
    (s.repost posted).cancel true i = reposted posted (s.cancel true i) := by
  have hids : (s.repost posted).timerIds = s.timerIds := rfl
  rw [cancel, cancel, hids]
  split
  · rfl
  · rw [dispatch, dispatch, if_pos rfl, if_pos rfl]
    exact perform_repost s posted _

/-- Nor does a completion. -/
theorem complete_repost (s : IOLoop) (posted : List TimerTask) (i : Nat) :
    (s.repost posted).complete i = (s.complete i).repost posted := by
  have hqueue : (s.repost posted).timerQueue_ = s.timerQueue_ := rfl
  rw [complete, complete, hqueue]
  split
  · rfl
  · split <;> rfl

/-- Nor does time. So a timer that was created and not yet posted can be thought of as posted
    already. -/
theorem tick_repost (s : IOLoop) (posted : List TimerTask) (d : Nat) :
    (s.repost posted).tick d = (s.tick d).repost posted := by
  have hqueue : (s.repost posted).timerQueue_ = s.timerQueue_ := rfl
  rw [tick, tick, hqueue]
  split <;> rfl

/-- An operation that does not look at the posted handlers does the same whatever they are. -/
theorem quiet {extra : List TimerTask} {r : List TimerTask → M} {t : IOLoop}
    (hr : ∀ posted, r posted = reposted posted (r s.posted)) (ht : r (s.posted ++ extra) = .ok t) :
    ∃ s' posted, r s.posted = .ok s' ∧ t = s'.repost posted ∧ posted.Perm (s'.posted ++ extra) := by
  have hself := hr s.posted
  rw [hr] at ht
  cases hrs : r s.posted with
  | error f =>
    rw [hrs] at ht
    cases ht
  | ok s' =>
    rw [hrs] at ht hself
    have hposted : s'.posted = s.posted := by
      have heq : (.ok s' : M) = .ok (s'.repost s.posted) := hself
      have hsame : s'.posted = (s'.repost s.posted).posted :=
        congrArg IOLoop.posted (Except.ok.inj heq)
      exact hsame
    exact ⟨s', _, rfl, (Except.ok.inj ht).symm, by rw [hposted]⟩

/-- Two parts behind a list change places. -/
theorem perm_append_swap {α : Type} (l k m : List α) : (l ++ k ++ m).Perm (l ++ m ++ k) := by
  rw [List.append_assoc, List.append_assoc]
  exact List.perm_append_comm.append_left l

/-- **More posted handlers** than there are: an event does the same, and the others stay. So a
    call that has not posted yet can be treated as one that has. -/
theorem step_repost {extra : List TimerTask} {e : Event} {t : IOLoop}
    (hi : ∀ i, e = .runPosted i → i < s.posted.length)
    (h : step (s.repost (s.posted ++ extra)) e = .ok t) :
    ∃ s' posted, step s e = .ok s' ∧ t = s'.repost posted ∧ posted.Perm (s'.posted ++ extra) := by
  cases e with
  | addTimer isInLoopThread a when interval =>
    cases isInLoopThread with
    | true =>
      exact quiet (r := fun posted => (s.repost posted).addTimer true a when interval)
        (fun p => addTimer_repost s p a when interval) h
    | false =>
      have hqueue : (s.repost (s.posted ++ extra)).timerQueue_ = s.timerQueue_ := rfl
      change (s.repost (s.posted ++ extra)).addTimer false a when interval = .ok t at h
      rw [addTimer, hqueue] at h
      rw [step, addTimer]
      by_cases hfree : 0 < a ∧ a < uintptrMax ∧ s.timerQueue_.heap a = none
      · have hheap : (s.timerQueue_.allocate a when interval).deref a = .ok _ :=
          deref_eq heap_allocate
        rw [if_pos hfree] at h ⊢
        change (within _ ((s.timerQueue_.allocate a when interval).deref a) >>= _) = .ok t at h
        rw [hheap] at h
        let s' : IOLoop := { (s.setQueue (s.timerQueue_.allocate a when interval)).post
            (.addTimerInThisThread a) with
          timerIds := s.timerIds ++ [⟨a, s.timerQueue_.s_numCreated_ + 1⟩] }
        refine ⟨s', s.posted ++ extra ++ [TimerTask.addTimerInThisThread a], ?_,
          (Except.ok.inj h).symm, ?_⟩
        · change (within _ ((s.timerQueue_.allocate a when interval).deref a) >>= _) = .ok _
          rw [hheap]
          rfl
        · exact perm_append_swap s.posted extra _
      · rw [if_neg hfree] at h ⊢
        exact ⟨s, _, rfl, (Except.ok.inj h).symm, .refl _⟩
  | cancel isInLoopThread i =>
    cases isInLoopThread with
    | true =>
      exact quiet (r := fun posted => (s.repost posted).cancel true i)
        (fun p => cancel_repost s p i) h
    | false =>
      have hids : (s.repost (s.posted ++ extra)).timerIds = s.timerIds := rfl
      change (s.repost (s.posted ++ extra)).cancel false i = .ok t at h
      rw [cancel, hids] at h
      rw [step, cancel]
      cases hid : s.timerIds[i]? with
      | none =>
        rw [hid] at h
        exact ⟨s, _, rfl, (Except.ok.inj h).symm, .refl _⟩
      | some timerId =>
        rw [hid] at h
        exact ⟨_, s.posted ++ extra ++ [TimerTask.cancelInThisThread timerId], rfl,
          (Except.ok.inj h).symm, perm_append_swap s.posted extra _⟩
  | runPosted i =>
    -- the handler that runs is one of those that are there
    have hlt := hi i rfl
    have hrunning : (s.repost (s.posted ++ extra)).running = s.running := rfl
    have hposted : (s.repost (s.posted ++ extra)).posted = s.posted ++ extra := rfl
    change (s.repost (s.posted ++ extra)).runPosted i = .ok t at h
    rw [runPosted, hrunning, hposted, List.getElem?_append_left hlt,
      List.eraseIdx_append_of_lt_length hlt] at h
    rw [step, runPosted]
    split at h
    case h_1 cb hrun hcb =>
      exact quiet (s := s.repost (s.posted.eraseIdx i))
        (r := fun posted => (s.repost posted).perform cb)
        (fun p => perform_repost (s.repost (s.posted.eraseIdx i)) p cb) h
    case h_2 => exact ⟨s, _, rfl, (Except.ok.inj h).symm, .refl _⟩
  | complete i =>
    exact quiet (r := fun posted => .ok ((s.repost posted).complete i))
      (fun p => congrArg Except.ok (complete_repost s p i)) h
  | expire i =>
    exact quiet (r := fun posted => (s.repost posted).expire i) (fun p => expire_repost s p i) h
  | returned =>
    exact quiet (r := fun posted => (s.repost posted).advance) (fun p => advance_repost s p) h
  | tick d =>
    exact quiet (r := fun posted => .ok ((s.repost posted).tick d))
      (fun p => congrArg Except.ok (tick_repost s p d)) h

/-- In which order handlers are posted makes no difference to who owns what. -/
theorem Represents.repost_perm {posted posted' : List TimerTask}
    (h : Represents (s.repost posted)) (hp : posted.Perm posted') :
    Represents (s.repost posted') where
  owns := by
    have hpending : (s.repost posted).pendingAddrs.Perm (s.repost posted').pendingAddrs :=
      hp.filterMap _
    exact h.owns.of_perm (hpending.append_right _)
  known := h.known
  known_posted := fun timerId hid => h.known_posted timerId (hp.mem_iff.mpr hid)
  calling := h.calling

/-! ## A timer that no cancellation names

  Until its `TimerId` is returned, nobody can cancel a timer.  So only the end of its own batch
  deletes it. -/

/-- Nobody outside knows the number: it was not returned, no cancel of it is posted, and
    none was made. While it is so, a timer can only be deleted by the handler that has it in
    its batch. -/
structure Unknown (s : IOLoop) (n : Nat) : Prop where
  returned : ∀ timerId ∈ s.timerIds, timerId.sequence_ ≠ n
  posted : ∀ timerId, .cancelInThisThread timerId ∈ s.posted → timerId.sequence_ ≠ n
  canceling : ∀ x ∈ s.timerQueue_.cancelingTimers_, (ofLex x).2 ≠ n

/-- The order of the posted handlers makes no difference here either. -/
theorem Unknown.repost_perm {posted posted' : List TimerTask} (h : Unknown (s.repost posted) n)
    (hp : posted.Perm posted') : Unknown (s.repost posted') n :=
  ⟨h.returned, fun timerId hid => h.posted timerId (hp.mem_iff.mpr hid), h.canceling⟩

/-- A cancel of another timer tells nobody. -/
theorem Unknown.cancelled (h : Unknown s n) {timerId : TimerId} (hne : timerId.sequence_ ≠ n) :
    Unknown ((s.setQueue (s.timerQueue_.cancelled timerId)).mark (.cancelled timerId.sequence_))
      n := by
  refine ⟨h.returned, h.posted, ?_⟩
  rintro ⟨a, m⟩ hx rfl
  change toLex (a, m) ∈ (s.timerQueue_.cancelled timerId).cancelingTimers_ at hx
  unfold TimerQueue.cancelled at hx
  split at hx
  · split at hx <;> exact h.canceling _ hx rfl
  · split at hx
    · rcases OrderedSet.mem_emplace.mp hx with heq | hx
      · exact hne (Prod.mk.inj heq).2.symm
      · exact h.canceling _ hx rfl
    · exact h.canceling _ hx rfl

/-- Nor does the start of a batch. -/
theorem Unknown.opened (h : Unknown s n) (i : Nat) (active : OrderedSet ActiveTimer) :
    Unknown (s.opened i active) n :=
  ⟨h.returned, h.posted, fun x hx => absurd hx (OrderedSet.not_mem_empty x)⟩

/-- Nor does the wait handler. -/
theorem Unknown.advance (h : Unknown s n) (hadv : Advance s s') : Unknown s' n := by
  cases hadv with
  | starts => exact ⟨h.returned, h.posted, h.canceling⟩
  | finishes hrun hrenews howns =>
    rename_i now ran q
    obtain ⟨-, -, -, -, -, hcanceling, -⟩ := rearmed_frame q
    refine ⟨h.returned, h.posted, ?_⟩
    show ∀ x ∈ q.rearmed.cancelingTimers_, _
    rw [hcanceling, hrenews.cancelingTimers_eq]
    exact h.canceling

/-- The wait handler creates no timer. -/
theorem Advance.created (hadv : Advance s s') :
    s'.timerQueue_.s_numCreated_ = s.timerQueue_.s_numCreated_ := by
  cases hadv with
  | starts => rfl
  | finishes hrun hrenews howns =>
    rename_i now ran q
    obtain ⟨-, -, -, -, hcreated, -⟩ := rearmed_frame q
    exact hcreated.trans hrenews.shrinks.created

/-- The number of timers created never goes down. -/
theorem Effect.created {e : Event} (heff : Effect s e s') :
    s.timerQueue_.s_numCreated_ ≤ s'.timerQueue_.s_numCreated_ := by
  cases heff with
  | stays | postsCancel => exact le_rfl
  | createsPosted => exact Nat.le_succ _
  | creates hfree =>
    rename_i a when interval
    have hadded := (Shrinks.added (s.timerQueue_.allocate a when interval) a
      (.new when interval (s.timerQueue_.s_numCreated_ + 1))).created
    exact le_of_le_of_eq (Nat.le_succ _) hadded.symm
  | cancels | cancelsPosted => exact (Shrinks.cancelled _ _).created.ge
  | insertsPosted => exact (Shrinks.added _ _ _).created.ge
  | completes i =>
    rw [complete]
    split
    · exact le_rfl
    · split <;> exact le_rfl
  | ticks d =>
    rw [tick]
    split <;> exact le_rfl
  | expires hrun hopened hadv => exact hadv.created.ge
  | advances hadv => exact hadv.created.ge

/-- **One event** gives out no cancellation of a timer that none names, unless it creates it. -/
theorem Effect.unknown {e : Event} (heff : Effect s e s') (h : Unknown s n)
    (hn : n ≤ s.timerQueue_.s_numCreated_ ∨ s'.timerQueue_.s_numCreated_ < n) : Unknown s' n := by
  -- only the number of the timer created now is returned, and that one is not `n`
  have hids : ∀ a : Addr, n ≠ s.timerQueue_.s_numCreated_ + 1 →
      ∀ timerId ∈ s.timerIds ++ [⟨a, s.timerQueue_.s_numCreated_ + 1⟩], timerId.sequence_ ≠ n := by
    intro a hne timerId hid
    rcases List.mem_append.mp hid with hid | hid
    · exact h.returned timerId hid
    · rw [List.mem_singleton.mp hid]
      exact hne.symm
  have hposted : ∀ {task : TimerTask} timerId, .cancelInThisThread timerId ∈ s.posted ++ [task] →
      (∀ timerId, task = .cancelInThisThread timerId → timerId.sequence_ ≠ n) →
      timerId.sequence_ ≠ n := by
    intro task timerId hid htask
    rcases List.mem_append.mp hid with hid | hid
    · exact h.posted timerId hid
    · exact htask timerId (List.mem_singleton.mp hid).symm
  -- the events that could tell the number are a return and a posted cancel of an older handle
  cases heff with
  | stays => exact h
  | createsPosted =>
    refine ⟨hids _ ?_, fun timerId hid => hposted timerId hid ?_, h.canceling⟩
    · rcases hn with hle | hlt
      · omega
      · exact Nat.ne_of_gt hlt
    · intro _ heq
      cases heq
  | creates hfree =>
    rename_i a when interval
    have hshrinks := Shrinks.added (s.timerQueue_.allocate a when interval) a
      (.new when interval (s.timerQueue_.s_numCreated_ + 1))
    have hframe := added_frame (s.timerQueue_.allocate a when interval) a
      (.new when interval (s.timerQueue_.s_numCreated_ + 1))
    refine ⟨hids _ ?_, h.posted, fun x hx => h.canceling x (hframe.2.1 ▸ hx)⟩
    rcases hn with hle | hlt
    · omega
    · exact Nat.ne_of_gt (lt_of_eq_of_lt hshrinks.created.symm hlt)
  | postsCancel hi =>
    refine ⟨h.returned, fun timerId hid => hposted timerId hid ?_, h.canceling⟩
    rintro timerId' heq
    obtain rfl := TimerTask.cancelInThisThread.inj heq
    exact h.returned _ (List.mem_of_getElem? hi)
  | cancels hi => exact h.cancelled (h.returned _ (List.mem_of_getElem? hi))
  | insertsPosted hrun hi ht =>
    rename_i i a t
    have hframe := added_frame s.timerQueue_ a t
    refine ⟨h.returned, ?_, ?_⟩
    · exact fun timerId hid => h.posted timerId (List.mem_of_mem_eraseIdx hid)
    · exact fun x hx => h.canceling x (hframe.2.1 ▸ hx)
  | cancelsPosted hrun hi =>
    have hdone := h.cancelled (h.posted _ (List.mem_of_getElem? hi))
    refine ⟨hdone.returned, ?_, hdone.canceling⟩
    exact fun timerId hid => h.posted timerId (List.mem_of_mem_eraseIdx hid)
  | completes i =>
    rw [complete]
    split
    · exact h
    · split
      · exact ⟨h.returned, h.posted, h.canceling⟩
      · exact h
  | ticks d =>
    rw [tick]
    split
    · exact ⟨h.returned, h.posted, h.canceling⟩
    · exact h
  -- starting a batch empties `cancelingTimers_`, so it forgets numbers and learns none
  | expires hrun hopened hadv =>
    exact (h.opened _ _).advance hadv
  | advances hadv => exact h.advance hadv

/-- What the loop does to a timer that no cancellation names: it stays alive, unless a handler
    finishes with it in the batch and it is a one-shot timer. -/
theorem Advance.numberAt (hadv : Advance s s') (hn : s.timerQueue_.numberAt a = some n)
    (hcanceling : toLex (a, n) ∉ s.timerQueue_.cancelingTimers_)
    (hrepeat : ∀ now ran, s.running = some ⟨now, ran, []⟩ → a ∈ addrs ran →
      ∀ t ∈ s.timerQueue_.heap a, t.repeat_ = true) : s'.timerQueue_.numberAt a = some n := by
  cases hadv with
  | starts => exact hn
  | finishes hrun hrenews howns =>
    rename_i now ran q
    obtain ⟨-, -, hheap, -⟩ := rearmed_frame q
    show q.rearmed.numberAt a = some n
    rw [TimerQueue.numberAt, hheap]
    by_cases ha : a ∈ addrs ran
    · obtain ⟨t, ht, rfl⟩ := heap_of_numberAt hn
      obtain ⟨hback, -⟩ := hrenews.restarts ha ht (hrepeat now ran hrun ha t ht) hcanceling
      rw [hback, Option.map_some, Timer.restart_sequence]
    · rw [hrenews.heap_eq ha]
      exact hn

/-- A timer of the batch that is not restarted is deleted at its end. -/
theorem Advance.heap_eq_none {now : Timestamp} {ran : List Entry} (hadv : Advance s s')
    (hrun : s.running = some ⟨now, ran, []⟩) (ha : a ∈ addrs ran)
    (ht : s.timerQueue_.heap a = some t)
    (hdrop : t.repeat_ = true → toLex (a, t.sequence_) ∈ s.timerQueue_.cancelingTimers_) :
    s'.timerQueue_.heap a = none := by
  cases hadv with
  | starts hrun' => cases hrun.symm.trans hrun'
  | finishes hrun' hrenews howns =>
    obtain ⟨-, rfl, -⟩ := Expiry.mk.inj (Option.some.inj (hrun.symm.trans hrun'))
    rename_i q
    obtain ⟨-, -, hheap, -⟩ := rearmed_frame q
    exact (congrFun hheap a).trans (hrenews.drops ha ht hdrop).1

/-- A cancel of another timer leaves this one. -/
theorem numberAt_cancelled_of_ne {q : TimerQueue} {held : List Addr} (h : Owns q held)
    {timerId : TimerId} (hn : q.numberAt a = some n) (hne : timerId.sequence_ ≠ n) :
    (q.cancelled timerId).numberAt a = some n := by
  obtain ⟨t, ht, rfl⟩ := heap_of_numberAt hn
  exact numberAt_of_heap ((Spares.cancelled h timerId).heap ht hne.symm)

/-- **A timer whose number nobody knows stays in memory**, until it has expired and does not
    repeat. -/
theorem Effect.numberAt {e : Event} (heff : Effect s e s') (hrep : Represents s)
    (hunknown : Unknown s n) (hn : s.timerQueue_.numberAt a = some n)
    (hrepeat : e = .returned → ∀ now ran, s.running = some ⟨now, ran, []⟩ → a ∈ addrs ran →
      ∀ t ∈ s.timerQueue_.heap a, t.repeat_ = true) : s'.timerQueue_.numberAt a = some n := by
  cases heff with
  | stays => exact hn
  | createsPosted hfree => exact numberAt_allocate_of_alive hfree hn
  | creates hfree =>
    exact (congrFun (numberAt_added _ _ _) a).trans (numberAt_allocate_of_alive hfree hn)
  | postsCancel => exact hn
  | cancels hi =>
    exact numberAt_cancelled_of_ne hrep.owns hn (hunknown.returned _ (List.mem_of_getElem? hi))
  | insertsPosted => exact (congrFun (numberAt_added _ _ _) a).trans hn
  | cancelsPosted hrun hi =>
    exact numberAt_cancelled_of_ne hrep.owns hn (hunknown.posted _ (List.mem_of_getElem? hi))
  | completes i =>
    rw [complete]
    split
    · exact hn
    · split <;> exact hn
  | ticks d =>
    rw [tick]
    split <;> exact hn
  | expires hrun hopened hadv =>
    refine hadv.numberAt hn (OrderedSet.not_mem_empty _) ?_
    intro now ran hran ha
    -- the batch that finishes at once is empty
    obtain ⟨-, rfl, -⟩ := Expiry.mk.inj (Option.some.inj hran)
    exact absurd ha List.not_mem_nil
  | advances hadv =>
    exact hadv.numberAt hn (fun hx => hunknown.canceling _ hx rfl) (hrepeat rfl)

end IOLoop

namespace Callers

variable {s s' : Callers} {n : Nat} {a : Addr} {t : Timer} {c : AddTimerCall}

/-! ## The calls in progress

  The invariant is that of the loop in which the calls have posted already; in it the order of
  the posted handlers does not matter. -/

/-- The insertion that a call has not posted yet. -/
def unpostedTask (c : AddTimerCall) : Option TimerTask :=
  if c.posted then none else some (.addTimerInThisThread c.timer)

/-- The loop as it would be if every call had posted its insertion. The insertions come behind
    the handlers that are posted; in which place they will be makes no difference. -/
def whole (s : Callers) : IOLoop := s.loop.repost (s.loop.posted ++ s.calls.filterMap unpostedTask)

/-- Every call has its timer, and nobody else knows the timer's number. The loop owns all
    timers, with those of the calls, and the calls are about different ones. -/
structure CallersInv (s : Callers) : Prop where
  represents : IOLoop.Represents s.whole
  alive : ∀ c ∈ s.calls, s.loop.timerQueue_.numberAt c.timer = some c.sequence
  unknown : ∀ c ∈ s.calls, IOLoop.Unknown s.whole c.sequence
  unknown_next : ∀ n, s.loop.timerQueue_.s_numCreated_ < n → IOLoop.Unknown s.whole n
  distinct : (s.calls.map AddTimerCall.sequence).Nodup

/-- Whenever a call that has posted its insertion reads, it returns the number of the timer it
    created. The number is compared with the ghost, so reading a timer that was put at the
    same address later would not do. -/
def ReadsOwn (s : Callers) : Prop :=
  ∀ i c, s.calls[i]? = some c → c.posted = true →
    ∃ s', s.read i = .ok s' ∧ s'.loop.timerIds = s.loop.timerIds ++ [⟨c.timer, c.sequence⟩]

/-- No handler finishes with a one-shot timer in its batch whose call has posted the insertion
    and is still to read the number. It looks at the batch that is being finished and at the
    calls under way. -/
def Spared (s : Callers) : Event → Prop
  | .loop .returned => ∀ now ran, s.loop.running = some ⟨now, ran, []⟩ →
      ∀ c ∈ s.calls, c.posted = true → c.timer ∈ addrs ran →
        ∀ t ∈ s.loop.timerQueue_.heap c.timer, t.repeat_ = true
  | _ => True

/-- The number is read from the timer, if that is still there. -/
theorem read_eq {i : Nat} (hi : s.calls[i]? = some c) (hposted : c.posted = true)
    (ht : s.loop.timerQueue_.heap c.timer = some t) :
    s.read i = .ok {
      loop := { s.loop with timerIds := s.loop.timerIds ++ [⟨c.timer, t.sequence_⟩] }
      calls := s.calls.eraseIdx i } := by
  obtain ⟨timer, sequence, posted⟩ := c
  obtain rfl : posted = true := hposted
  rw [read, hi]
  dsimp only
  rw [deref_eq ht]
  rfl

/-- The invariant has the property in it. -/
theorem CallersInv.readsOwn (h : CallersInv s) : ReadsOwn s := by
  intro i c hi hposted
  obtain ⟨t, ht, hseq⟩ := heap_of_numberAt (h.alive c (List.mem_of_getElem? hi))
  refine ⟨_, read_eq hi hposted ht, ?_⟩
  rw [hseq]

/-- A call that has not posted is not in the batch. -/
theorem CallersInv.not_ran (h : CallersInv s) {now : Timestamp} {ran left : List Entry}
    (hrun : s.loop.running = some ⟨now, ran, left⟩) (hc : c ∈ s.calls)
    (hposted : c.posted = false) :
    c.timer ∉ addrs ran := by
  intro hmem
  have hpending : c.timer ∈ s.whole.pendingAddrs := by
    refine IOLoop.mem_pendingAddrs.mpr (List.mem_append_right _ ?_)
    refine List.mem_filterMap.mpr ⟨c, hc, ?_⟩
    rw [unpostedTask, hposted]
    rfl
  have hnodup := h.represents.owns.held_nodup
  have hrun' : s.whole.running = some ⟨now, ran, left⟩ := hrun
  rw [IOLoop.held_of_running hrun', addrs_append] at hnodup
  exact (List.nodup_append.mp hnodup).2.2 _ hpending _ (List.mem_append_left _ hmem) rfl

/-! ## One event

  An event of the loop, or a step of a call.  A read fails exactly when the timer was deleted
  before. -/

namespace CallersInv

/-- The timer of a call was created. -/
theorem le_created (h : CallersInv s) (hc : c ∈ s.calls) :
    c.sequence ≤ s.loop.timerQueue_.s_numCreated_ :=
  (h.represents.owns.ledger.range (h.alive c hc)).2

/-- **An event of the loop keeps it**, if it spares the timers of the calls under way. -/
theorem loop (h : CallersInv s) {e : IOLoop.Event} (hspared : Spared s (.loop e)) :
    ∃ s', step s (.loop e) = .ok s' ∧ CallersInv s' := by
  by_cases hi : ∀ i, e = .runPosted i → i < s.loop.posted.length
  · -- the event is one of the loop that has every posted insertion in its queue
    obtain ⟨t, ht, heff, hrep⟩ := IOLoop.step_effect h.represents e
    obtain ⟨loop', posted, hloop', rfl, hperm⟩ := IOLoop.step_repost hi ht
    refine ⟨s.setLoop loop', ?_, ?_, ?_, ?_, ?_, h.distinct⟩
    · rw [step, hloop']
      rfl
    · exact hrep.repost_perm hperm
    · -- a timer in the batch that finishes is not that of a call, or it repeats
      intro c hc
      refine heff.numberAt h.represents (h.unknown c hc) (h.alive c hc) fun he now ran hrun ha => ?_
      subst he
      cases hposted : c.posted with
      | true => exact hspared now ran hrun c hc hposted ha
      | false => exact absurd ha (h.not_ran hrun hc hposted)
    · exact fun c hc =>
        (heff.unknown (h.unknown c hc) (Or.inl (h.le_created hc))).repost_perm hperm
    · intro n hn
      exact (heff.unknown (h.unknown_next n (lt_of_le_of_lt heff.created hn))
        (Or.inr hn)).repost_perm
        hperm
  · -- no such handler is posted
    have hout : ∃ i, e = .runPosted i ∧ s.loop.posted.length ≤ i := by
      push Not at hi
      exact hi
    obtain ⟨i, rfl, hlen⟩ := hout
    refine ⟨s, ?_, h⟩
    have hnone : s.loop.posted[i]? = none := List.getElem?_eq_none hlen
    have hstays : s.loop.runPosted i = .ok s.loop := by
      unfold IOLoop.runPosted
      split
      case h_1 hcb => cases hnone.symm.trans hcb
      case h_2 => rfl
    rw [step, IOLoop.step, hstays]
    rfl

/-- Creating a timer keeps it: the number is new, so nobody knows it. -/
theorem create (h : CallersInv s) (timer : Addr) (when : Timestamp) (interval : Interval) :
    CallersInv (s.create timer when interval) := by
  rw [Callers.create]
  split
  case isFalse => exact h
  case isTrue hfree =>
    obtain ⟨-, hbound, hfree⟩ := hfree
    let c : AddTimerCall := ⟨timer, s.loop.timerQueue_.s_numCreated_ + 1, false⟩
    -- seen as posted already, a new timer of a call is one that `addTimer` posts
    have hwhole : whole ⟨s.loop.setQueue (s.loop.timerQueue_.allocate timer when interval),
        s.calls ++ [c]⟩ =
        (s.whole.setQueue (s.loop.timerQueue_.allocate timer when interval)).post
          (.addTimerInThisThread timer) := by
      rw [whole, whole, List.filterMap_append, ← List.append_assoc]
      rfl
    have hnew : ∀ n, IOLoop.Unknown s.whole n → IOLoop.Unknown ((s.whole.setQueue
        (s.loop.timerQueue_.allocate timer when interval)).post
          (.addTimerInThisThread timer)) n := by
      intro n hn
      refine ⟨hn.returned, fun timerId hid => ?_, hn.canceling⟩
      rcases List.mem_append.mp hid with hid | hid
      · exact hn.posted timerId hid
      · cases List.mem_singleton.mp hid
    refine ⟨?_, ?_, ?_, ?_, ?_⟩
    · rw [hwhole]
      exact h.represents.allocate_post hbound hfree
    · intro d hd
      rcases List.mem_append.mp hd with hd | hd
      · exact IOLoop.numberAt_allocate_of_alive hfree (h.alive d hd)
      · rw [List.mem_singleton.mp hd]
        exact numberAt_of_heap heap_allocate
    · intro d hd
      rw [hwhole]
      rcases List.mem_append.mp hd with hd | hd
      · exact hnew _ (h.unknown d hd)
      · rw [List.mem_singleton.mp hd]
        exact hnew _ (h.unknown_next _ (Nat.lt_succ_self _))
    · intro n hn
      rw [hwhole]
      exact hnew n (h.unknown_next n (Nat.lt_of_succ_lt hn))
    · -- the number is new
      rw [List.map_append]
      refine List.nodup_append.mpr ⟨h.distinct, List.nodup_singleton _, ?_⟩
      rintro n hn m hm rfl
      obtain ⟨d, hd, rfl⟩ := List.mem_map.mp hn
      have hle := h.le_created hd
      rw [List.mem_singleton.mp hm] at hle
      exact Nat.not_succ_le_self _ hle

/-- Posting it keeps it. -/
theorem post (h : CallersInv s) (i : Nat) : CallersInv (s.post i) := by
  rw [Callers.post]
  split
  case h_2 => exact h
  case h_1 timer sequence hi =>
    obtain ⟨hlt, hget⟩ := List.getElem?_eq_some_iff.mp hi
    have hold : s.calls.Perm (⟨timer, sequence, false⟩ :: s.calls.eraseIdx i) := by
      rw [← hget]
      exact (List.getElem_cons_eraseIdx_perm hlt).symm
    have hnew := List.set_perm_cons_eraseIdx hlt (⟨timer, sequence, true⟩ : AddTimerCall)
    -- the insertion has moved from the calls to the posted handlers
    have hperm : (s.loop.posted ++ s.calls.filterMap unpostedTask).Perm
        (s.loop.posted ++ [.addTimerInThisThread timer] ++
          (s.calls.set i ⟨timer, sequence, true⟩).filterMap unpostedTask) := by
      have hmoved := (hnew.filterMap unpostedTask).symm.append_left
        [TimerTask.addTimerInThisThread timer]
      rw [List.append_assoc]
      exact ((hold.filterMap unpostedTask).trans hmoved).append_left _
    have hsame : ∀ d ∈ s.calls.set i ⟨timer, sequence, true⟩,
        ∃ d' ∈ s.calls, d'.timer = d.timer ∧ d'.sequence = d.sequence := by
      intro d hd
      rcases List.mem_or_eq_of_mem_set hd with hd | rfl
      · exact ⟨d, hd, rfl, rfl⟩
      · exact ⟨_, List.mem_of_getElem? hi, rfl, rfl⟩
    refine ⟨h.represents.repost_perm hperm, ?_, ?_, ?_, ?_⟩
    · intro d hd
      obtain ⟨d', hd', htimer, hseq⟩ := hsame d hd
      rw [← htimer, ← hseq]
      exact h.alive d' hd'
    · intro d hd
      obtain ⟨d', hd', -, hseq⟩ := hsame d hd
      rw [← hseq]
      exact (h.unknown d' hd').repost_perm hperm
    · exact fun n hn => (h.unknown_next n hn).repost_perm hperm
    · have hsequences := (hnew.map AddTimerCall.sequence).symm
      exact ((hold.map AddTimerCall.sequence).trans hsequences).nodup_iff.mp h.distinct

/-- The call that returns makes its number known, which is no other call's. -/
theorem read (h : CallersInv s) (i : Nat) : ∃ s', s.read i = .ok s' ∧ CallersInv s' := by
  by_cases hcall : ∃ c, s.calls[i]? = some c ∧ c.posted = true
  · obtain ⟨c, hi, hposted⟩ := hcall
    have halive := h.alive c (List.mem_of_getElem? hi)
    obtain ⟨t, ht, hseq⟩ := heap_of_numberAt halive
    obtain ⟨hlt, hget⟩ := List.getElem?_eq_some_iff.mp hi
    -- the call that has returned is taken out of the list, and the others keep their order
    have hold : s.calls.Perm (c :: s.calls.eraseIdx i) := by
      rw [← hget]
      exact (List.getElem_cons_eraseIdx_perm hlt).symm
    have hdistinct := (hold.map AddTimerCall.sequence).nodup_iff.mp h.distinct
    obtain ⟨hapart, hrest⟩ := List.nodup_cons.mp hdistinct
    have hperm : (s.loop.posted ++ s.calls.filterMap unpostedTask).Perm
        (s.loop.posted ++ (s.calls.eraseIdx i).filterMap unpostedTask) := by
      have hnone : unpostedTask c = none := if_pos hposted
      have hfilter := hold.filterMap unpostedTask
      rw [List.filterMap_cons_none hnone] at hfilter
      exact hfilter.append_left _
    have hknown : s.whole.timerQueue_.Known ⟨c.timer, t.sequence_⟩ := by
      rw [hseq]
      exact ⟨h.represents.owns.ledger.range halive, fun hb =>
        h.represents.owns.ledger.unique hb halive⟩
    let loop' : IOLoop :=
      { s.loop with timerIds := s.loop.timerIds ++ [⟨c.timer, t.sequence_⟩] }
    have hreturned : IOLoop.Represents
        (loop'.repost (s.loop.posted ++ s.calls.filterMap unpostedTask)) :=
      h.represents.return_id hknown
    -- the number that is returned belongs to this call, so the others stay unknown
    have hadd : ∀ n, n ≠ c.sequence → IOLoop.Unknown s.whole n → IOLoop.Unknown
        (loop'.repost (s.loop.posted ++ s.calls.filterMap unpostedTask)) n := by
      intro n hne hn
      refine ⟨fun timerId hid => ?_, hn.posted, hn.canceling⟩
      rcases List.mem_append.mp hid with hid | hid
      · exact hn.returned timerId hid
      · rw [List.mem_singleton.mp hid]
        exact fun heq => hne (heq.symm.trans hseq)
    refine ⟨_, read_eq hi hposted ht, ?_, ?_, ?_, ?_, hrest⟩
    · exact hreturned.repost_perm hperm
    · exact fun d hd => h.alive d (List.mem_of_mem_eraseIdx hd)
    · intro d hd
      refine (hadd _ ?_ (h.unknown d (List.mem_of_mem_eraseIdx hd))).repost_perm hperm
      rintro heq
      exact hapart (List.mem_map.mpr ⟨d, hd, heq⟩)
    · intro n hn
      have hle := h.le_created (List.mem_of_getElem? hi)
      exact (hadd n (Nat.ne_of_gt (lt_of_le_of_lt hle hn)) (h.unknown_next n hn)).repost_perm hperm
  · refine ⟨s, ?_, h⟩
    unfold Callers.read
    split
    case h_1 hi => exact absurd ⟨_, hi, rfl⟩ hcall
    case h_2 => rfl

/-- **One event** that spares the timers of the calls. -/
theorem step_inv (h : CallersInv s) {e : Event} (hspared : Spared s e) :
    Holds CallersInv (fun _ => False) (step s e) := by
  cases e with
  | loop e =>
    obtain ⟨s', hs', h'⟩ := h.loop hspared
    rw [hs']
    exact .ok h'
  | create timer when interval => exact .ok (h.create timer when interval)
  | post i => exact .ok (h.post i)
  | read i =>
    obtain ⟨s', hs', h'⟩ := h.read i
    rw [step, hs']
    exact .ok h'

/-- An event that does not spare them deletes one, and its call reads what is deleted. -/
theorem step_not_spared (h : CallersInv s) {e : Event} (hspared : ¬ Spared s e) :
    ¬ Holds ReadsOwn (fun _ => False) (step s e) := by
  cases e with
  | create | post | read => exact absurd trivial hspared
  | loop e =>
    cases e with
    | addTimer | cancel | runPosted | complete | expire | tick => exact absurd trivial hspared
    | returned =>
      rw [Spared] at hspared
      push Not at hspared
      obtain ⟨now, ran, hrun, c, hc, hposted, ha, t, ht, hone⟩ := hspared
      have hrun' : s.whole.running = some ⟨now, ran, []⟩ := hrun
      obtain ⟨t', ht', hadv, -⟩ := h.represents.advance (hrun' ▸ rfl)
      have hstep : IOLoop.step s.whole .returned = .ok t' := ht'
      obtain ⟨loop', posted, hloop', rfl, -⟩ := IOLoop.step_repost (fun i he => by cases he) hstep
      -- the batch ends, and with it the timer that the call has not read yet
      have hgone : (loop'.repost posted).timerQueue_.heap c.timer = none :=
        hadv.heap_eq_none hrun' ha ht fun hrepeat => absurd hrepeat hone
      obtain ⟨i, hi⟩ := List.mem_iff_getElem?.mp hc
      have hread : (s.setLoop loop').read i =
          .error (.useAfterFree, (s.setLoop loop').setLoop (loop'.setQueue loop'.timerQueue_)) := by
        have hcall : (s.setLoop loop').calls[i]? = some ⟨c.timer, c.sequence, true⟩ := by
          rw [← hposted]
          exact hi
        have hderef : loop'.timerQueue_.deref c.timer =
            .error (.useAfterFree, loop'.timerQueue_) := by
          have hnone : loop'.timerQueue_.heap c.timer = none := hgone
          rw [TimerQueue.deref, hnone]
        rw [Callers.read, hcall]
        dsimp only
        rw [setLoop, hderef]
        rfl
      -- the read of its number, which the caller does next, is a use after free
      rw [step, hloop']
      intro hholds
      obtain ⟨s', hs', -⟩ := holds_ok.mp hholds i c hi hposted
      cases hread.symm.trans hs'

end CallersInv

/-! ## Every run

  Both directions: a run that spares the timers reads them all, and the first event that does
  not spare one leads to a read that fails. -/

/-- It holds at the start. -/
theorem new_inv (now : Timestamp) : CallersInv (new now) where
  represents := IOLoop.new_represents now
  alive := fun _ hc => absurd hc List.not_mem_nil
  unknown := fun _ hc => absurd hc List.not_mem_nil
  unknown_next := fun _ _ => ⟨fun _ h => absurd h List.not_mem_nil,
    fun _ h => absurd h List.not_mem_nil, fun x h => absurd h (OrderedSet.not_mem_empty x)⟩
  distinct := List.nodup_nil

/-- **`addTimer` reads a live timer** at every moment of a run, whatever the loop thread and other
    threads do in between, if and only if no handler finishes with a one-shot timer in its batch
    whose call is still to read. -/
theorem reads_own_iff (now : Timestamp) (es : List Event) :
    Guarded step Spared (new now) es ↔
      ∀ pre, pre <+: es → Holds ReadsOwn (fun _ => False) (run step (new now) pre) :=
  guarded_iff (fun _ h => h.readsOwn) (fun _ _ h hspared => h.step_inv hspared)
    (fun _ _ h hspared => h.step_not_spared hspared) es _ (new_inv now)

section Examples

/-- The loop thread inserts, runs and deletes the timer between the post and the read. -/
def overtaken : List Event :=
  [.create 16 1 ⟨false, 0⟩, .post 0, .loop (.runPosted 0), .loop (.complete 0), .loop (.expire 0),
    .loop .returned, .read 0]

/-- **A deleted timer is read** there. -/
theorem overtaken_reads_deleted :
    ¬ ∀ pre, pre <+: overtaken → Holds ReadsOwn (fun _ => False) (run step (new 1) pre) := by
  have hend : (match run step (new 1) overtaken with
      | .ok _ => none
      | .error e => some e.1) = some .useAfterFree := by decide +kernel
  intro hall
  have hlast := hall overtaken List.prefix_rfl
  generalize run step (new 1) overtaken = r at hend hlast
  cases hlast with
  | ok => cases hend
  | error h => exact h

end Examples

end Callers

end IOEvent
