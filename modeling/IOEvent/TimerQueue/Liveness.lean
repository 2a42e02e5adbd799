/-
  Every timer is called.

  That a timer is not called too early or too often is a property of finite runs; that it is
  called at all needs runs that do not end, of a loop that goes on.  `Fair` says what that is: a
  callback returns, a posted handler is run, and when a wait is due in every state in which the
  loop is free, then an expiry handler starts.

  A timer goes from the handler posted for it to the sets, to the batch of a handler, and to its
  call.  Under `Fair` it takes each of these steps, the second one because the earliest timer has
  a wait (`WakeInv`) that is due when the timer is.
-/
import IOEvent.Foundation.Fairness
import IOEvent.TimerQueue.Batch
import IOEvent.TimerQueue.Wakeup

open Foundation

namespace IOEvent

open TimerQueue

namespace IOLoop

variable {s s' : IOLoop} {a : Addr} {t : Timer} {n : Nat}

/-! ## The property

  A timer is answered when it has been started or cancelled.  What is assumed is only that the
  loop goes on, not in which order. -/

/-- The deadline of a wait has passed. -/
def Due (s : IOLoop) : Prop :=
  ∃ w ∈ s.timerQueue_.steadyTimer_, w.deadline ≤ s.timerQueue_.clock * 1000

/-- The event runs a posted handler. -/
def Runs (s : IOLoop) (e : Event) (task : TimerTask) : Prop :=
  s.running = none ∧ ∃ i, e = .runPosted i ∧ s.posted[i]? = some task

/-- The event starts an expiry handler. -/
def Opens (s : IOLoop) (e : Event) : Prop :=
  s.running = none ∧
    ∃ i, e = .expire i ∧ ∃ w, s.timerQueue_.steadyTimer_[i]? = some w ∧ w.completed = true

/-- The loop gets round to everything: callbacks return, posted handlers are run, waits
    complete when they are due and their handlers start, and time goes on. The third part asks
    for a handler only when there is a wait that is due at every idle moment from then on. -/
structure Fair (states : Nat → IOLoop) (events : Nat → Event) : Prop where
  returns : ∀ k, (states k).running ≠ none → Eventually (fun m => events m = .returned) k
  posted : ∀ k, ∀ task ∈ (states k).posted, Eventually (fun m => (states m).Runs (events m) task) k
  expires : ∀ k, (∀ m, k ≤ m → (states m).running = none → (states m).Due) →
    Eventually (fun m => (states m).Opens (events m)) k

/-- The timer is there, and its callback is none of those of the batch that have been started.
    It may still have to be inserted, be in the sets, or be in the batch and not yet called. -/
structure Waiting (s : IOLoop) (a : Addr) (t : Timer) : Prop where
  heap : s.timerQueue_.heap a = some t
  fresh : ∀ x ∈ s.running, a ∉ addrs x.ran

/-- The timer number `n` is to be called, and expires at `when`. A repeating timer is to be
    called again when it has been restarted, with another expiration. -/
def Expects (s : IOLoop) (n : Nat) (when : Timestamp) : Prop :=
  ∃ a t, s.Waiting a t ∧ t.sequence_ = n ∧ t.expiration_ = when

/-- Since the state `s` the timer number `n` has been called, or its cancellation executed. -/
def Answered (s s' : IOLoop) (n : Nat) : Prop :=
  ∃ later, s'.trace = s.trace ++ later ∧ (.started n ∈ later ∨ .cancelled n ∈ later)

/-- A timer that is called has been answered. -/
theorem Answered.started (h : s'.trace = s.trace ++ [.started n]) : Answered s s' n :=
  ⟨_, h, .inl (List.mem_singleton_self _)⟩

/-- So has one that is cancelled. -/
theorem Answered.cancelled (h : s'.trace = s.trace ++ [.cancelled n]) : Answered s s' n :=
  ⟨_, h, .inr (List.mem_singleton_self _)⟩

/-- What was answered since later was answered since earlier. -/
theorem Answered.since {s₀ : IOLoop} (h : Answered s s' n) (htrace : s₀.trace <+: s.trace) :
    Answered s₀ s' n := by
  obtain ⟨l, hl⟩ := htrace
  obtain ⟨later, hlater, hmem⟩ := h
  refine ⟨l ++ later, ?_, ?_⟩
  · rw [hlater, ← hl, List.append_assoc]
  · exact hmem.imp (List.mem_append_right _) (List.mem_append_right _)

/-! ## Where a timer waits

  Until it is answered it is with a posted handler, in the sets, or in the batch. -/

/-- It waits to be inserted, in the sets, or in the batch. -/
theorem Waiting.place (h : s.Waiting a t) (hrep : Represents s) :
    .addTimerInThisThread a ∈ s.posted ∨ toLex (t.expiration_, a) ∈ s.timerQueue_.timers_ ∨
      a ∈ addrs s.left := by
  rcases hrep.owns.owned h.heap with ha | hent
  · rcases List.mem_append.mp ha with ha | ha
    · exact .inl (mem_pendingAddrs.mp ha)
    · refine .inr (.inr ?_)
      rw [batch] at ha
      rw [left]
      cases hrun : s.running with
      | none =>
        rw [hrun] at ha
        exact absurd ha List.not_mem_nil
      | some x =>
        rw [hrun] at ha
        dsimp only at ha ⊢
        rw [addrs_append] at ha
        exact (List.mem_append.mp ha).resolve_left (h.fresh x hrun)
  · exact .inr (.inl hent)

/-! ## One event

  A timer that waits goes on waiting, goes to the next place, or is answered. -/

/-- A completion changes nothing but its wait. -/
theorem running_complete (s : IOLoop) (i : Nat) : (s.complete i).running = s.running ∧
    (s.complete i).posted = s.posted ∧ (s.complete i).trace = s.trace ∧
    (s.complete i).timerQueue_.heap = s.timerQueue_.heap ∧
    (s.complete i).timerQueue_.timers_ = s.timerQueue_.timers_ ∧
    (s.complete i).timerQueue_.clock = s.timerQueue_.clock := by
  rw [complete]
  split
  · exact ⟨rfl, rfl, rfl, rfl, rfl, rfl⟩
  · split <;> exact ⟨rfl, rfl, rfl, rfl, rfl, rfl⟩

/-- Time changes nothing but the clock. -/
theorem running_tick (s : IOLoop) (d : Nat) : (s.tick d).running = s.running ∧
    (s.tick d).posted = s.posted ∧ (s.tick d).trace = s.trace ∧
    (s.tick d).timerQueue_.heap = s.timerQueue_.heap ∧
    (s.tick d).timerQueue_.timers_ = s.timerQueue_.timers_ ∧
    (s.tick d).timerQueue_.steadyTimer_ = s.timerQueue_.steadyTimer_ ∧
    s.timerQueue_.clock ≤ (s.tick d).timerQueue_.clock := by
  rw [tick]
  split
  · exact ⟨rfl, rfl, rfl, rfl, rfl, rfl, Int.le_add_of_nonneg_right (Int.natCast_nonneg d)⟩
  · exact ⟨rfl, rfl, rfl, rfl, rfl, rfl, Int.le_refl _⟩

/-- The wait handler only adds to the trace. -/
theorem Advance.trace (h : Advance s s') : s.trace <+: s'.trace := by
  cases h with
  | starts => exact ⟨_, rfl⟩
  | finishes => exact List.prefix_rfl

/-- The trace only grows. -/
theorem Effect.trace {e : Event} (h : Effect s e s') : s.trace <+: s'.trace := by
  cases h with
  | stays => exact List.prefix_rfl
  | createsPosted => exact List.prefix_rfl
  | creates => exact List.prefix_rfl
  | postsCancel => exact List.prefix_rfl
  | cancels => exact ⟨_, rfl⟩
  | insertsPosted => exact List.prefix_rfl
  | cancelsPosted => exact ⟨_, rfl⟩
  | completes i => rw [(running_complete s i).2.2.1]
  | ticks d => rw [(running_tick s d).2.2.1]
  | expires hrun hopened hadv =>
    obtain ⟨l, hl⟩ := hadv.trace
    exact ⟨l, hl⟩
  | advances hadv => exact hadv.trace

/-- The wait handler goes on. -/
theorem Waiting.advance (h : s.Waiting a t) (hadv : Advance s s') :
    Answered s s' t.sequence_ ∨ s'.Waiting a t := by
  cases hadv with
  | starts hrun hentry =>
    rename_i now ran left entry u
    by_cases ha : a = (ofLex entry).2
    · subst ha
      obtain rfl : t = u := Option.some.inj (h.heap.symm.trans hentry)
      exact .inl (.started rfl)
    · refine .inr ⟨h.heap, ?_⟩
      intro x hx hmem
      obtain rfl := Option.some.inj hx
      rw [addrs_append] at hmem
      rcases List.mem_append.mp hmem with hmem | hmem
      · exact h.fresh _ hrun hmem
      · exact ha (List.mem_singleton.mp hmem)
  | finishes hrun hrenews howns =>
    rename_i now ran q
    refine .inr ⟨?_, fun x hx => by cases hx⟩
    show q.rearmed.heap a = some t
    rw [(rearmed_frame q).2.2.1, hrenews.heap_eq (h.fresh _ hrun)]
    exact h.heap

/-- A cancellation is executed. -/
theorem Waiting.cancelled (h : s.Waiting a t) (hrep : Represents s) (timerId : TimerId)
    (hqueue : s'.timerQueue_ = s.timerQueue_.cancelled timerId) (hrun : s'.running = s.running)
    (htrace : s'.trace = s.trace ++ [.cancelled timerId.sequence_]) :
    Answered s s' t.sequence_ ∨ s'.Waiting a t := by
  by_cases hn : t.sequence_ = timerId.sequence_
  · exact .inl (.cancelled (hn ▸ htrace))
  · refine .inr ⟨?_, hrun ▸ h.fresh⟩
    rw [hqueue]
    exact (Spares.cancelled hrep.owns timerId).heap h.heap hn

/-- **One event** leaves a waiting timer waiting, unless it calls or cancels it. An event that
    takes it from one place to another leaves it waiting. -/
theorem Effect.waiting {e : Event} (heff : Effect s e s') (hrep : Represents s)
    (h : s.Waiting a t) : Answered s s' t.sequence_ ∨ s'.Waiting a t := by
  cases heff with
  -- a new timer lies at a free address, and an insertion changes no timer in memory
  | stays => exact .inr h
  | createsPosted hfree => exact .inr ⟨heap_allocate_of_alive hfree h.heap, h.fresh⟩
  | creates hfree =>
    refine .inr ⟨?_, h.fresh⟩
    show (TimerQueue.added _ _ _).heap a = some t
    rw [(added_frame _ _ _).1]
    exact heap_allocate_of_alive hfree h.heap
  | postsCancel => exact .inr ⟨h.heap, h.fresh⟩
  | cancels hi => exact h.cancelled hrep _ rfl rfl rfl
  | insertsPosted hrun hi ht =>
    refine .inr ⟨?_, h.fresh⟩
    show (TimerQueue.added _ _ _).heap a = some t
    rw [(added_frame _ _ _).1]
    exact h.heap
  | cancelsPosted hrun hi => exact h.cancelled hrep _ rfl rfl rfl
  | completes i =>
    obtain ⟨hrun, -, -, hheap, -⟩ := running_complete s i
    exact .inr ⟨hheap ▸ h.heap, hrun ▸ h.fresh⟩
  | ticks d =>
    obtain ⟨hrun, -, -, hheap, -⟩ := running_tick s d
    exact .inr ⟨hheap ▸ h.heap, hrun ▸ h.fresh⟩
  -- at the start of the batch nothing of it has run
  | expires hrun hopened hadv =>
    rename_i i active
    have hwaiting : (s.opened i active).Waiting a t := by
      refine ⟨h.heap, ?_⟩
      intro x hx hmem
      obtain rfl := Option.some.inj hx
      exact List.not_mem_nil hmem
    exact hwaiting.advance hadv
  | advances hadv => exact h.advance hadv

/-- It posts nothing. -/
theorem Advance.posted (h : Advance s s') : s'.posted = s.posted := by
  cases h <;> rfl

/-- A timer that is there is not posted to be inserted again. -/
theorem Effect.posted_of {e : Event} (heff : Effect s e s') (ht : s.timerQueue_.heap a = some t)
    (h : .addTimerInThisThread a ∈ s'.posted) : .addTimerInThisThread a ∈ s.posted := by
  cases heff with
  | stays => exact h
  | createsPosted hfree =>
    rcases List.mem_append.mp h with h | h
    · exact h
    · obtain rfl := TimerTask.addTimerInThisThread.inj (List.mem_singleton.mp h)
      cases hfree.symm.trans ht
  | creates => exact h
  | postsCancel =>
    refine (List.mem_append.mp h).resolve_right fun h => ?_
    cases List.mem_singleton.mp h
  | cancels => exact h
  | insertsPosted => exact List.mem_of_mem_eraseIdx h
  | cancelsPosted => exact List.mem_of_mem_eraseIdx h
  | completes i => exact (running_complete s i).2.1 ▸ h
  | ticks d => exact (running_tick s d).2.1 ▸ h
  | expires hrun hopened hadv =>
    rename_i i active
    have hposted : s'.posted = (s.opened i active).posted := hadv.posted
    exact hposted ▸ h
  | advances hadv => exact hadv.posted ▸ h

/-- The handler posted for a timer is run. -/
theorem Runs.inserted {e : Event} (h : s.Runs e (.addTimerInThisThread a)) (hrep : Represents s)
    (ht : s.timerQueue_.heap a = some t) (hs' : step s e = .ok s') :
    .addTimerInThisThread a ∉ s'.posted := by
  obtain ⟨hrun, i, rfl, hi⟩ := h
  have hmade := hrep.runPosted_add hrun hi ht
  obtain rfl := Except.ok.inj (hs'.symm.trans hmade)
  have hnodup := (List.nodup_append.mp hrep.owns.held_nodup).1
  intro hmem
  replace hmem : .addTimerInThisThread a ∈ s.posted.eraseIdx i := hmem
  refine (List.nodup_cons.mp ((pendingAddrs_erase_add hi).nodup_iff.mp hnodup)).1 ?_
  exact mem_pendingAddrs.mpr hmem

/-! ## The waits

  Between two handlers, whatever is in the sets has a wait that ends in time, by `WakeInv`. -/

/-- No wait was armed in the future. Otherwise a wait could be counted from a time that has
    not come. -/
def Armed (s : IOLoop) : Prop := ∀ w ∈ s.timerQueue_.steadyTimer_, w.armedAt ≤ s.timerQueue_.clock

/-- With no new wait, and a clock that goes forward, no wait was armed later than now. -/
theorem Armed.of_same (h : s.Armed)
    (hwaits : s'.timerQueue_.steadyTimer_ ⊆ s.timerQueue_.steadyTimer_)
    (hclock : s.timerQueue_.clock ≤ s'.timerQueue_.clock) : s'.Armed :=
  fun w hw => Int.le_trans (h w (hwaits hw)) hclock

/-- A wait is armed now. -/
theorem Armed.resetTimer {q : TimerQueue} {when : Timestamp}
    (h : ∀ w ∈ q.steadyTimer_, w.armedAt ≤ q.clock) :
    ∀ w ∈ (q.resetTimer when).steadyTimer_, w.armedAt ≤ (q.resetTimer when).clock := by
  intro w hw
  rcases List.mem_append.mp hw with hw | hw
  · exact h w (List.mem_filter.mp hw).1
  · rw [List.mem_singleton.mp hw]
    exact Int.le_refl _

/-- So inserting a timer keeps it. -/
theorem Armed.added {q : TimerQueue} (h : ∀ w ∈ q.steadyTimer_, w.armedAt ≤ q.clock) (a : Addr)
    (t : Timer) : ∀ w ∈ (q.added a t).steadyTimer_, w.armedAt ≤ (q.added a t).clock := by
  rw [TimerQueue.added]
  split
  · exact Armed.resetTimer h
  · exact h

/-- So does the end of `reset`. -/
theorem Armed.rearmed {q : TimerQueue} (h : ∀ w ∈ q.steadyTimer_, w.armedAt ≤ q.clock) :
    ∀ w ∈ q.rearmed.steadyTimer_, w.armedAt ≤ q.rearmed.clock := by
  rcases rearmed_cases q with heq | ⟨when, heq⟩ <;> rw [heq]
  · exact h
  · exact Armed.resetTimer h

/-- So does the wait handler. -/
theorem Armed.advance (h : s.Armed) (hadv : Advance s s') : s'.Armed := by
  cases hadv with
  | starts => exact h
  | finishes hrun hrenews howns =>
    refine Armed.rearmed (q := _) ?_
    rw [hrenews.steadyTimer_eq, hrenews.clock_eq]
    exact h

/-- **Every event keeps it.** -/
theorem Effect.armed {e : Event} (heff : Effect s e s') (h : s.Armed) : s'.Armed := by
  cases heff with
  | stays => exact h
  | createsPosted => exact h
  | creates => exact Armed.added (q := s.timerQueue_.allocate _ _ _) h _ _
  | postsCancel => exact h
  | cancels hi =>
    obtain ⟨hwaits, -, hclock⟩ := cancelled_frame s.timerQueue_ _
    exact h.of_same (hwaits ▸ List.Subset.refl _) (Int.le_of_eq hclock.symm)
  | insertsPosted => exact Armed.added (q := s.timerQueue_) h _ _
  | cancelsPosted hrun hi =>
    obtain ⟨hwaits, -, hclock⟩ := cancelled_frame s.timerQueue_ _
    exact h.of_same (hwaits ▸ List.Subset.refl _) (Int.le_of_eq hclock.symm)
  | completes i =>
    rw [complete]
    split
    · exact h
    · split
      · intro w hw
        rcases List.mem_or_eq_of_mem_set hw with hw | rfl
        · exact h w hw
        · next w' hi _ =>
          show w'.armedAt ≤ _
          exact h w' (List.mem_of_getElem? hi)
      · exact h
  | ticks d =>
    obtain ⟨-, -, -, -, -, hwaits, hclock⟩ := running_tick s d
    exact h.of_same (hwaits ▸ List.Subset.refl _) hclock
  | expires hrun hopened hadv =>
    rename_i i active
    have hopen : (s.opened i active).Armed := fun w hw => h w (List.mem_of_mem_eraseIdx hw)
    exact hopen.advance hadv
  | advances hadv => exact h.advance hadv

/-- A timer that has expired has a wait that is due. The wait covers the expiration, and was
    not armed later than now. -/
theorem WakeInv.due (h : WakeInv s) (harmed : s.Armed) (hrun : s.running = none) {e : Timestamp}
    (hmem : toLex (e, a) ∈ s.timerQueue_.timers_) (hle : e ≤ s.timerQueue_.clock) : s.Due := by
  obtain ⟨w, hw, hcovers⟩ := h.awake e a hmem (.inl hrun)
  refine ⟨w, hw, Int.le_trans hcovers ?_⟩
  exact Int.mul_le_mul_of_nonneg_right (max_le hle (harmed w hw)) (by decide)

/-- The wait handler takes no time. -/
theorem Advance.clock (h : Advance s s') : s'.timerQueue_.clock = s.timerQueue_.clock := by
  cases h with
  | starts => rfl
  | finishes hrun hrenews howns =>
    rename_i now ran q
    show q.rearmed.clock = _
    rw [(rearmed_frame q).2.2.2.2.2.2, hrenews.clock_eq]

/-- Time does not go back. -/
theorem Effect.clock_le {e : Event} (heff : Effect s e s') :
    s.timerQueue_.clock ≤ s'.timerQueue_.clock := by
  cases heff with
  | stays => exact Int.le_refl _
  | createsPosted => exact Int.le_refl _
  | creates =>
    show _ ≤ (TimerQueue.added _ _ _).clock
    rw [(added_frame _ _ _).2.2.2]
    exact Int.le_refl _
  | postsCancel => exact Int.le_refl _
  | cancels => exact Int.le_of_eq (cancelled_frame s.timerQueue_ _).2.2.symm
  | insertsPosted => exact Int.le_of_eq (added_frame s.timerQueue_ _ _).2.2.2.symm
  | cancelsPosted => exact Int.le_of_eq (cancelled_frame s.timerQueue_ _).2.2.symm
  | completes i => exact Int.le_of_eq (running_complete s i).2.2.2.2.2.symm
  | ticks d => exact (running_tick s d).2.2.2.2.2.2
  | expires hrun hopened hadv => exact Int.le_of_eq hadv.clock.symm
  | advances hadv => exact Int.le_of_eq hadv.clock.symm

/-! ## The batch

  What is left of the batch gets shorter with every `returned`, so a timer in it is started. -/

/-- What is left of the batch that is being executed. -/
theorem left_of_running {now : Timestamp} {ran left : List Entry}
    (hrun : s.running = some ⟨now, ran, left⟩) : s.left = left := by
  rw [IOLoop.left, hrun]

/-- It is what it was while the batch is. -/
theorem left_of_same (hrun : s'.running = s.running) : s'.left = s.left := by
  rw [left, hrun, left]

/-- Something is left of a running batch only. -/
theorem isSome_of_left (h : a ∈ addrs s.left) : s.running.isSome = true := by
  cases hrun : s.running with
  | none =>
    rw [left, hrun] at h
    exact absurd h List.not_mem_nil
  | some x => rfl

/-- Each callback that is started brings the timer nearer to its own. -/
theorem Waiting.nearer (h : s.Waiting a t) (hleft : a ∈ addrs s.left) (hadv : Advance s s') :
    Answered s s' t.sequence_ ∨
      a ∈ addrs s'.left ∧ (addrs s'.left).idxOf a < (addrs s.left).idxOf a := by
  cases hadv with
  | starts hrun hentry =>
    rename_i now ran left entry u
    rw [left_of_running hrun, addrs_cons] at hleft ⊢
    by_cases ha : a = (ofLex entry).2
    · subst ha
      obtain rfl : t = u := Option.some.inj (h.heap.symm.trans hentry)
      exact .inl (.started rfl)
    · refine .inr ⟨(List.mem_cons.mp hleft).resolve_left ha, ?_⟩
      rw [List.idxOf_cons_ne _ (Ne.symm ha)]
      exact Nat.lt_succ_self _
  | finishes hrun hrenews howns =>
    rw [left_of_running hrun] at hleft
    exact absurd hleft List.not_mem_nil

/-- **A timer left in the batch comes nearer to its call**: every event keeps its place, or
    takes one from before it. The place is the number of callbacks before its own. -/
theorem Effect.left {e : Event} (heff : Effect s e s') (h : s.Waiting a t)
    (hleft : a ∈ addrs s.left) : Answered s s' t.sequence_ ∨
      a ∈ addrs s'.left ∧ (addrs s'.left).idxOf a ≤ (addrs s.left).idxOf a := by
  have hsame : s'.running = s.running → a ∈ addrs s'.left ∧
      (addrs s'.left).idxOf a ≤ (addrs s.left).idxOf a := by
    intro hrun
    rw [left_of_same hrun]
    exact ⟨hleft, Nat.le_refl _⟩
  cases heff with
  | stays => exact .inr (hsame rfl)
  | createsPosted => exact .inr (hsame rfl)
  | creates => exact .inr (hsame rfl)
  | postsCancel => exact .inr (hsame rfl)
  | cancels => exact .inr (hsame rfl)
  | insertsPosted => exact .inr (hsame rfl)
  | cancelsPosted => exact .inr (hsame rfl)
  | completes i => exact .inr (hsame (running_complete s i).1)
  | ticks d => exact .inr (hsame (running_tick s d).1)
  | expires hrun hopened hadv =>
    rw [IOLoop.left, hrun] at hleft
    exact absurd hleft List.not_mem_nil
  | advances hadv => exact (h.nearer hleft hadv).imp_right fun hnear =>
    ⟨hnear.1, Nat.le_of_lt hnear.2⟩

/-- An expiry handler takes a timer that has expired. -/
theorem Opens.taken {e : Event} (h : s.Opens e) (hrep : Represents s) (hwaiting : s.Waiting a t)
    (hmem : toLex (t.expiration_, a) ∈ s.timerQueue_.timers_)
    (hle : t.expiration_ ≤ s.timerQueue_.clock) (hs' : step s e = .ok s') :
    Answered s s' t.sequence_ ∨ a ∈ addrs s'.left := by
  obtain ⟨hrun, i, rfl, w, hwait, hcompleted⟩ := h
  obtain ⟨active, s₁, hs₁, -, hadv, -⟩ := hrep.expire_completed hrun hwait hcompleted
  obtain rfl := Except.ok.inj (hs₁.symm.trans hs')
  have hopened : (s.opened i active).Waiting a t := by
    refine ⟨hwaiting.heap, ?_⟩
    intro x hx hran
    obtain rfl := Option.some.inj hx
    exact List.not_mem_nil hran
  have hbatch : a ∈ addrs (s.opened i active).left :=
    hrep.owns.mem_addrs_before.mpr ⟨_, hle, hmem⟩
  exact (hopened.nearer hbatch hadv).imp_right And.left

/-! ## Every run that does not end

  From place to place, each step by fairness. -/

/-- A fair run, with what holds at every moment of it. -/
structure Course (states : Nat → IOLoop) (events : Nat → Event) : Prop where
  steps : Forever step states events
  represents : ∀ k, Represents (states k)
  wakes : ∀ k, WakeInv (states k)
  armed : ∀ k, (states k).Armed
  fair : Fair states events

namespace Course

variable {states : Nat → IOLoop} {events : Nat → Event} {k m : Nat}

/-- Every event of the course has one of the effects. -/
theorem effect (h : Course states events) (k : Nat) :
    Effect (states k) (events k) (states (k + 1)) := by
  obtain ⟨s', hs', heff, -⟩ := step_effect (h.represents k) (events k)
  obtain rfl := Except.ok.inj (hs'.symm.trans (h.steps k))
  exact heff

/-- Along a course the trace only grows. -/
theorem trace (h : Course states events) (hle : k ≤ m) : (states k).trace <+: (states m).trace := by
  induction hle with
  | refl => exact List.prefix_rfl
  | @step m _ ih => exact ih.trans (h.effect m).trace

/-- The clock only goes forward. -/
theorem clock (h : Course states events) (hle : k ≤ m) :
    (states k).timerQueue_.clock ≤ (states m).timerQueue_.clock := by
  induction hle with
  | refl => exact Int.le_refl _
  | @step m _ ih => exact Int.le_trans ih (h.effect m).clock_le

/-- A timer that waits is answered, or waits still. -/
theorem waiting (h : Course states events) (hle : k ≤ m) (hw : (states m).Waiting a t) :
    Answered (states k) (states (m + 1)) t.sequence_ ∨ (states (m + 1)).Waiting a t :=
  ((h.effect m).waiting (h.represents m) hw).imp_left fun hans => hans.since (h.trace hle)

/-- The handler posted for the timer, if there is one, is run. -/
theorem inserted (h : Course states events) (hw : (states k).Waiting a t) :
    Eventually (fun m => Answered (states k) (states m) t.sequence_ ∨
      (states m).Waiting a t ∧ .addTimerInThisThread a ∉ (states m).posted) k := by
  by_cases hposted : .addTimerInThisThread a ∈ (states k).posted
  · refine eventually_of_turn
      (I := fun m => (states m).Waiting a t)
      (T := fun m => (states m).Runs (events m) (.addTimerInThisThread a)) ?_ ?_ ?_ hw
    · intro m hle hm
      exact (h.waiting hle hm).imp_left Or.inl
    · exact fun _ => h.fair.posted k _ hposted
    · intro m hle hm hturn
      refine (h.waiting hle hm).imp_right fun hm' => ⟨hm', ?_⟩
      exact hturn.inserted (h.represents m) hm.heap (h.steps m)
  · exact .now (.inr ⟨hw, hposted⟩)

/-- A timer of the batch is called. -/
theorem called (h : Course states events) {k₀ : Nat} (hk : k₀ ≤ k) (hw : (states k).Waiting a t)
    (hleft : a ∈ addrs (states k).left) :
    Eventually (fun m => Answered (states k₀) (states m) t.sequence_) k := by
  refine eventually_of_rank (I := fun m => k₀ ≤ m ∧ (states m).Waiting a t ∧
    a ∈ addrs (states m).left)
    (T := fun m => events m = .returned) (R := fun m => (addrs (states m).left).idxOf a)
    ?_ ?_ ?_ _ k rfl ⟨hk, hw, hleft⟩
  · rintro m ⟨hle, hm, hleft⟩
    rcases h.waiting hle hm with hans | hm'
    · exact .inl hans
    · rcases (h.effect m).left hm hleft with hans | ⟨hleft', hrank⟩
      · exact .inl (hans.since (h.trace hle))
      · exact .inr ⟨⟨Nat.le_succ_of_le hle, hm', hleft'⟩, hrank⟩
  · rintro m ⟨-, -, hleft⟩
    exact h.fair.returns m (Option.isSome_iff_ne_none.mp (isSome_of_left hleft))
  · rintro m ⟨hle, hm, hleft⟩ hturn
    obtain ⟨s', hs', hadv, -⟩ := (h.represents m).advance (isSome_of_left hleft)
    have hstep := h.steps m
    rw [hturn] at hstep
    obtain rfl := Except.ok.inj (hs'.symm.trans hstep)
    rcases h.waiting hle hm with hans | hm'
    · exact .inl hans
    · rcases hm.nearer hleft hadv with hans | ⟨hleft', hrank⟩
      · exact .inl (hans.since (h.trace hle))
      · exact .inr ⟨⟨Nat.le_succ_of_le hle, hm', hleft'⟩, hrank⟩

/-- A timer in the sets that has expired is taken by an expiry handler, and called. -/
theorem taken (h : Course states events) {k₀ : Nat} (hk : k₀ ≤ k) (hw : (states k).Waiting a t)
    (hposted : .addTimerInThisThread a ∉ (states k).posted)
    (hle : t.expiration_ ≤ (states k).timerQueue_.clock) :
    Eventually (fun m => Answered (states k₀) (states m) t.sequence_) k := by
  rcases (hw.place (h.represents k)).resolve_left hposted with hmem | hleft
  · -- the timer is in the sets, and its wait handler starts in the end; until then it stays there
    have htaken : Eventually (fun m => Answered (states k₀) (states m) t.sequence_ ∨
        (states m).Waiting a t ∧ a ∈ addrs (states m).left) k := by
      refine eventually_of_turn
        (I := fun m => (states m).Waiting a t ∧ .addTimerInThisThread a ∉ (states m).posted ∧
          toLex (t.expiration_, a) ∈ (states m).timerQueue_.timers_)
        (T := fun m => (states m).Opens (events m)) ?_ ?_ ?_ ⟨hw, hposted, hmem⟩
      · rintro m hm ⟨hw, hposted, -⟩
        rcases h.waiting (Nat.le_trans hk hm) hw with hans | hw'
        · exact .inl (.inl hans)
        · have hposted' := fun hin => hposted ((h.effect m).posted_of hw.heap hin)
          rcases (hw'.place (h.represents (m + 1))).resolve_left hposted' with hmem' | hleft'
          · exact .inr ⟨hw', hposted', hmem'⟩
          · exact .inl (.inr ⟨hw', hleft'⟩)
      · -- a wait covers the timer that is due, so the fairness gives the handler of a wait
        intro hall
        refine h.fair.expires k fun m hm hrun => ?_
        exact (h.wakes m).due (h.armed m) hrun (hall m hm).2.2 (Int.le_trans hle (h.clock hm))
      · rintro m hm ⟨hw, -, hmem⟩ hturn
        rcases h.waiting (Nat.le_trans hk hm) hw with hans | hw'
        · exact .inl hans
        · have hpast := Int.le_trans hle (h.clock hm)
          rcases hturn.taken (h.represents m) hw hmem hpast (h.steps m) with hans | hleft'
          · exact .inl (hans.since (h.trace (Nat.le_trans hk hm)))
          · exact .inr ⟨hw', hleft'⟩
    refine htaken.bind fun m hm hcase => ?_
    rcases hcase with hans | ⟨hw', hleft'⟩
    · exact .now hans
    · exact h.called (Nat.le_trans hk hm) hw' hleft'
  · -- it is in the batch that is being executed
    exact h.called hk hw hleft

end Course

/-- A run without overflow. -/
theorem course {now : Timestamp} (hpos : 0 < now) (hmax : now < 2 ^ 63) {states : Nat → IOLoop}
    {events : Nat → Event} (hzero : states 0 = new now) (hrun : Forever step states events)
    (hrange : ∀ k, InRange (states k) (events k)) (hfair : Fair states events) :
    Course states events := by
  have hnew : WakeInv (new now) := by
    refine ⟨⟨hpos, hmax⟩, ?_⟩
    intro e a hmem
    exact absurd hmem (OrderedSet.not_mem_empty _)
  have hall : ∀ k, Represents (states k) ∧ WakeInv (states k) ∧ (states k).Armed := by
    refine hrun.keeps (I := fun s => Represents s ∧ WakeInv s ∧ s.Armed) ?_ hrange ?_
    · rintro s e s' ⟨hrep, hwake, harmed⟩ hin hs'
      obtain ⟨s₁, hs₁, heff, hrep'⟩ := step_effect hrep e
      obtain rfl := Except.ok.inj (hs₁.symm.trans hs')
      exact ⟨hrep', heff.wakeInv hrep hwake hin, heff.armed harmed⟩
    · rw [hzero]
      exact ⟨new_represents now, hnew, fun w hw => absurd hw List.not_mem_nil⟩
  exact ⟨hrun, fun k => (hall k).1, fun k => (hall k).2.1, fun k => (hall k).2.2, hfair⟩

/-- **Every timer is called**, or its cancellation executed: in a fair run without overflow, a
    timer that is to be called is called once the clock has reached its expiration. The
    argument follows the timer: the handler posted for it is run, an expiry handler takes it,
    and the callbacks before it in the batch return. -/
theorem timers_called {now : Timestamp} (hpos : 0 < now) (hmax : now < 2 ^ 63)
    {states : Nat → IOLoop} {events : Nat → Event} (hzero : states 0 = new now)
    (hrun : Forever step states events) (hrange : ∀ k, InRange (states k) (events k))
    (hfair : Fair states events) {k n : Nat} {when : Timestamp} (hn : (states k).Expects n when)
    (hclock : Eventually (fun m => when ≤ (states m).timerQueue_.clock) k) :
    Eventually (fun m => Answered (states k) (states m) n) k := by
  have hcourse := course hpos hmax hzero hrun hrange hfair
  obtain ⟨a, t, hw, rfl, rfl⟩ := hn
  refine (hcourse.inserted hw).bind fun m hm hcase => ?_
  rcases hcase with hans | ⟨hw', hposted⟩
  · exact .now hans
  · -- wait until the clock has reached the expiration
    obtain ⟨j, hj, hpast⟩ := hclock
    have hreach : (states (max m j)).Waiting a t ∧
        .addTimerInThisThread a ∉ (states (max m j)).posted ∨
        Eventually (fun m => Answered (states k) (states m) t.sequence_) m := by
      refine stays_until (I := fun m => (states m).Waiting a t ∧
        .addTimerInThisThread a ∉ (states m).posted) ?_ ⟨hw', hposted⟩ (Nat.le_max_left m j)
      rintro i hi ⟨hw, hposted⟩
      refine (hcourse.waiting (Nat.le_trans hm hi) hw).imp_right fun hw' => ⟨hw', fun hin => ?_⟩
      exact hposted ((hcourse.effect i).posted_of hw.heap hin)
    rcases hreach with ⟨hw'', hposted'⟩ | hans
    · have hlate := Int.le_trans hpast (hcourse.clock (Nat.le_max_right m j))
      refine (hcourse.taken ?_ hw'' hposted' hlate).of_le (Nat.le_max_left m j)
      exact Nat.le_trans hm (Nat.le_max_left m j)
    · exact hans

section Examples

/-- Another thread adds a timer, which expires; and then nothing happens any more. -/
def onePosted : List Event :=
  [.addTimer false 16 1700000000000500 ⟨false, 0⟩, .runPosted 0, .tick 1000000, .complete 0,
    .expire 0, .returned]

/-- The state after `k` of these events. -/
def onePostedAt (k : Nat) : IOLoop := statesOf step (new 1700000000000000) onePosted k

/-- Behind its end the run has nothing left to get round to. -/
theorem onePosted_fair {s : IOLoop} (hrun : run step (new 1700000000000000) onePosted = .ok s)
    (hidle : s.running = none) (hposted : s.posted = [])
    (hwaits : s.timerQueue_.steadyTimer_ = []) :
    Fair onePostedAt (eventsOf onePosted (.tick 0)) where
  returns := by
    -- the one wait handler of the run returns in its last event
    intro k hk
    by_cases hle : k ≤ 5
    · exact ⟨5, hle, rfl⟩
    · have hend : onePostedAt k = s := statesOf_of_le hrun (by show 6 ≤ k; omega)
      rw [hend] at hk
      exact absurd hidle hk
  posted := by
    intro k task htask
    by_cases hle : k < 6
    · have hone : ∀ k < 6, (onePostedAt k).posted = [] ∨ k = 1 := by decide +kernel
      rcases hone k hle with hnone | rfl
      · rw [hnone] at htask
        exact absurd htask List.not_mem_nil
      · have hat : (onePostedAt 1).posted = [.addTimerInThisThread 16] := by decide +kernel
        rw [hat] at htask
        obtain rfl := List.mem_singleton.mp htask
        exact .now ⟨rfl, 0, rfl, rfl⟩
    · have hend : onePostedAt k = s := statesOf_of_le hrun (by show 6 ≤ k; omega)
      rw [hend, hposted] at htask
      exact absurd htask List.not_mem_nil
  expires := by
    -- behind the end of the run no wait is left
    intro k hall
    have hend : onePostedAt (max k 6) = s := statesOf_of_le hrun (Nat.le_max_right k 6)
    have hdue := hall (max k 6) (Nat.le_max_left k 6)
    rw [hend] at hdue
    obtain ⟨w, hw, -⟩ := hdue hidle
    rw [hwaits] at hw
    exact absurd hw List.not_mem_nil

/-- The conditions can be met: one timer is added on another thread, and is called. -/
theorem timers_called_onePosted : ∃ states events, states 0 = new 1700000000000000 ∧
    Forever step states events ∧ Fair states events ∧ (states 1).Expects 1 1700000000000500 ∧
    Eventually (fun m => Answered (states 1) (states m) 1) 1 := by
  have hend : (run step (new 1700000000000000) onePosted).toOption.map
      (fun s => (s.running, s.posted, s.timerQueue_.steadyTimer_, s.timerQueue_.clock)) =
      some (none, [], [], 1700000001000000) := by decide +kernel
  cases hrun : run step (new 1700000000000000) onePosted with
  | error e =>
    rw [hrun] at hend
    cases hend
  | ok s =>
    rw [hrun] at hend
    obtain ⟨hidle, hfields⟩ := Prod.ext_iff.mp (Option.some.inj hend)
    obtain ⟨hposted, hfields⟩ := Prod.ext_iff.mp hfields
    obtain ⟨hwaits, hclock⟩ := Prod.ext_iff.mp hfields
    -- behind its end the run ticks by zero
    have hstutter : step s (.tick 0) = .ok s := by
      have htick : s.tick 0 = s := by
        rw [tick]
        split
        · show s.setQueue { s.timerQueue_ with clock := s.timerQueue_.clock + 0 } = s
          rw [Int.add_zero]
          rfl
        · rfl
      exact congrArg Except.ok htick
    have hguard : Guarded step InRange (new 1700000000000000) onePosted := by decide +kernel
    have hforever := forever_of_run hrun hstutter
    have hfair := onePosted_fair hrun hidle hposted hwaits
    have hrange : ∀ k, InRange (onePostedAt k) (eventsOf onePosted (.tick 0) k) :=
      hguard.forever hrun trivial
    have hexpects : (onePostedAt 1).Expects 1 1700000000000500 :=
      ⟨16, _, ⟨rfl, fun x hx => by cases hx⟩, rfl, rfl⟩
    refine ⟨onePostedAt, _, rfl, hforever, hfair, hexpects, ?_⟩
    refine timers_called (by decide) (by decide) rfl hforever hrange hfair hexpects
      ⟨6, by decide, ?_⟩
    have hlast : onePostedAt 6 = s := statesOf_of_le hrun (Nat.le_refl 6)
    show _ ≤ (onePostedAt 6).timerQueue_.clock
    rw [hlast, show s.timerQueue_.clock = 1700000001000000 from hclock]
    decide

end Examples

end IOLoop

end IOEvent
