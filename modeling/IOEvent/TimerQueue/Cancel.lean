/-
  When a cancellation is effective.

  `cancelInThisThread` finds a timer in `activeTimers_` and deletes it, or records the `TimerId` in
  `cancelingTimers_` while a batch is being executed.  Two timers escape it.  One whose insertion is
  still posted is in no set yet, so the cancellation is forgotten and the insertion follows.  One
  that is in the batch but has not been started is recorded, but the loop of the wait handler does
  not look at `cancelingTimers_`; only `reset` does, after every callback has run.

  `Timely n` excludes both: when the cancellation of the timer number `n` is executed, the timer is
  not `awaiting`.  Then it is deleted at once, or its callback has been started and `reset` deletes
  it (`Settled`), and it is never started again.
-/
import IOEvent.TimerQueue.Ownership

open Foundation

namespace IOEvent

open TimerQueue

namespace IOLoop

variable {s s' : IOLoop} {n : Nat}

/-! ## The condition

  It looks at the event and at the state before it, and only where the event executes a
  cancellation. -/

/-- The entries of the batch whose callbacks have not been started. -/
def left (s : IOLoop) : List Entry :=
  match s.running with
  | none => []
  | some h => h.left

/-- The timers that still wait to be inserted or to be started. -/
def awaiting (s : IOLoop) : List Addr := s.pendingAddrs ++ addrs s.left

/-- The `TimerId` for which an event executes `cancelInThisThread`. -/
def executedCancel (s : IOLoop) : Event → Option TimerId
  | .cancel true i => s.timerIds[i]?
  | .runPosted i =>
    match s.running, s.posted[i]? with
    | none, some (.cancelInThisThread timerId) => some timerId
    | _, _ => none
  | _ => none

/-- A cancellation of the timer number `n` is executed only when the timer is not awaiting. -/
def Timely (n : Nat) (s : IOLoop) (e : Event) : Prop :=
  ∀ timerId ∈ s.executedCancel e, timerId.sequence_ = n →
    ∀ a ∈ s.awaiting, s.timerQueue_.numberAt a ≠ some n

/-- Whether a cancel comes in time can be computed. -/
instance (n : Nat) (s : IOLoop) (e : Event) : Decidable (Timely n s e) :=
  inferInstanceAs (Decidable (∀ timerId ∈ s.executedCancel e, _ → _))

/-! ## The property

  It is about the trace alone.  `Settled` is what keeps it true: where the timer is, from the
  cancellation on. -/

/-- After its cancellation the timer number `n` is not started. -/
def NeverStarted (n : Nat) (trace : List TimerMark) : Prop :=
  ∀ before after, trace = before ++ .cancelled n :: after → .started n ∉ after

/-- One more entry starts nothing, or nothing that was cancelled. -/
theorem NeverStarted.append {trace : List TimerMark} {m : TimerMark} (h : NeverStarted n trace)
    (hm : m = .started n → .cancelled n ∉ trace) : NeverStarted n (trace ++ [m]) := by
  intro before after heq hmem
  rcases List.eq_nil_or_concat after with rfl | ⟨after, m', rfl⟩
  · exact absurd hmem List.not_mem_nil
  · -- the mark appended is the last one of `after`
    rw [List.concat_eq_append] at heq hmem
    have heq' : trace ++ [m] = (before ++ .cancelled n :: after) ++ [m'] := by
      rw [heq, List.append_assoc, List.cons_append]
    obtain ⟨htrace, hlast⟩ := List.append_inj' heq' rfl
    rcases List.mem_append.mp hmem with hmem | hmem
    · exact h before after htrace hmem
    · have hstarted : m = .started n := by
        rw [List.singleton_inj.mp hlast]
        exact (List.mem_singleton.mp hmem).symm
      exact hm hstarted (by rw [htrace]; simp)

/-- The timer number `n` is deleted, or its callback has been started in the batch being executed
    and `reset` will find it in `cancelingTimers_`. -/
def Settled (s : IOLoop) (n : Nat) : Prop :=
  n ∈ s.timerQueue_.deleted ∨ ∃ h a, s.running = some h ∧ a ∈ addrs h.ran ∧
    s.timerQueue_.numberAt a = some n ∧ toLex (a, n) ∈ s.timerQueue_.cancelingTimers_

/-- The invariant: what was cancelled has not started since, and cannot: it is not in the sets,
    nor will it be put back. -/
structure CancelInv (n : Nat) (s : IOLoop) : Prop where
  never : NeverStarted n s.trace
  settled : .cancelled n ∈ s.trace → Settled s n

/-! ## What keeps a timer settled

  A deleted number is never used again, and a timer in the batch that is marked stays marked
  until `reset` deletes it. -/

/-- What has been run of the batch is still held by it. -/
theorem mem_held_of_ran {h : Expiry} {a : Addr} (hrun : s.running = some h)
    (ha : a ∈ addrs h.ran) : a ∈ s.held := by
  rw [held, batch, hrun, addrs_append]
  exact List.mem_append_right _ (List.mem_append_left _ ha)

/-- An event that leaves the batch alone, keeps the timers held outside the sets and forgets no
    cancellation. -/
theorem Settled.mono (h : Settled s n) (hrun : s'.running = s.running)
    (hdel : n ∈ s.timerQueue_.deleted → n ∈ s'.timerQueue_.deleted)
    (hheld : ∀ a ∈ s.held, s.timerQueue_.numberAt a = some n →
      s'.timerQueue_.numberAt a = some n)
    (hcanceling : ∀ x, x ∈ s.timerQueue_.cancelingTimers_ → x ∈ s'.timerQueue_.cancelingTimers_) :
    Settled s' n := by
  rcases h with h | ⟨x, a, hx, ha, hn, hmem⟩
  · exact Or.inl (hdel h)
  · refine Or.inr ⟨x, a, hrun.trans hx, ha, ?_, hcanceling _ hmem⟩
    exact hheld a (mem_held_of_ran hx ha) hn

/-- A cancel deletes nothing that the loop holds. -/
theorem numberAt_cancelled_of_held {q : TimerQueue} {held : List Addr} {a : Addr}
    (h : Owns q held) (ha : a ∈ held) (timerId : TimerId) :
    (q.cancelled timerId).numberAt a = q.numberAt a := by
  by_cases hact : toLex (timerId.timer_, timerId.sequence_) ∈ q.activeTimers_
  · obtain ⟨t, ht, -, -⟩ := h.active.mp hact
    have hne : a ≠ timerId.timer_ := by
      rintro rfl
      exact h.not_active ha hact
    rw [cancelled_of_active hact ht, numberAt_freed, Function.update_of_ne hne]
    rfl
  · rw [cancelled_of_not_active hact]
    split <;> rfl

/-- What was marked stays marked. -/
theorem cancelingTimers_cancelled {q : TimerQueue} {timerId : TimerId} {x : ActiveTimer}
    (hx : x ∈ q.cancelingTimers_) : x ∈ (q.cancelled timerId).cancelingTimers_ := by
  rw [cancelled]
  split
  · split <;> exact hx
  · split
    · exact OrderedSet.mem_emplace.mpr (Or.inr hx)
    · exact hx

/-- Another cancel leaves what is settled. -/
theorem Settled.cancelled (hrep : Represents s) (h : Settled s n) (timerId : TimerId) :
    Settled (s.setQueue (s.timerQueue_.cancelled timerId)) n := by
  refine h.mono rfl (Shrinks.cancelled _ _).deleted ?_ fun _ => cancelingTimers_cancelled
  intro a ha hn
  exact (numberAt_cancelled_of_held hrep.owns ha timerId).trans hn

/-- **A timely cancellation** settles its timer. -/
theorem settled_of_cancelled {timerId : TimerId} (h : Represents s)
    (hknown : s.timerQueue_.Known timerId)
    (htimely : ∀ a ∈ s.awaiting, s.timerQueue_.numberAt a ≠ some timerId.sequence_) :
    Settled (s.setQueue (s.timerQueue_.cancelled timerId)) timerId.sequence_ := by
  have hrange := hknown.range
  rcases h.owns.ledger.all hrange.1 hrange.2 with hdel | ⟨a, hn⟩
  · exact Or.inl ((Shrinks.cancelled _ _).deleted hdel)
  · -- alive, hence at the address the `TimerId` names
    obtain rfl : a = timerId.timer_ := hknown.at_home hn
    obtain ⟨t, ht, hseq⟩ := heap_of_numberAt hn
    rcases h.owns.owned ht with ha | hent
    · have hnot := h.owns.not_active (n := timerId.sequence_) ha
      rcases List.mem_append.mp ha with ha | ha
      · -- its insertion is not posted, by the condition
        exact absurd hn (htimely _ (List.mem_append_left _ ha))
      · cases hrun : s.running with
        | none =>
          rw [batch, hrun] at ha
          exact absurd ha List.not_mem_nil
        | some x =>
          rw [batch, hrun, addrs_append] at ha
          rcases List.mem_append.mp ha with ha | ha
          · have hcalling : s.timerQueue_.callingExpiredTimers_ = true := by
              rw [h.calling, hrun]
              rfl
            rw [cancelled_of_not_active hnot, if_pos hcalling]
            -- it has been called in this batch; the mark keeps it from being restarted
            exact Or.inr ⟨x, _, hrun, ha, hn, OrderedSet.mem_emplace.mpr (Or.inl rfl)⟩
          · refine absurd hn (htimely _ (List.mem_append_right _ ?_))
            rw [left]
            rwa [hrun]
    · -- it is in the sets, and is deleted
      have hact := (h.owns.mem_active ht).mpr ⟨hseq, hent⟩
      rw [cancelled_of_active hact ht]
      refine Or.inl (List.mem_append_right _ ?_)
      rw [hseq]
      exact List.mem_singleton_self _

/-! ## One event

  A start is of a timer that is still `left`, so it is not of one that is settled. -/

namespace CancelInv

/-- An event that marks nothing and keeps what is settled. -/
theorem of_settled (h : CancelInv n s) (htrace : s'.trace = s.trace)
    (hsettled : Settled s n → Settled s' n) : CancelInv n s' := by
  refine ⟨?_, ?_⟩
  · rw [htrace]
    exact h.never
  · rw [htrace]
    exact fun hmem => hsettled (h.settled hmem)

/-- The execution of a cancellation. -/
theorem cancels {timerId : TimerId} (hrep : Represents s) (h : CancelInv n s)
    (hknown : s.timerQueue_.Known timerId)
    (htimely : timerId.sequence_ = n → ∀ a ∈ s.awaiting, s.timerQueue_.numberAt a ≠ some n) :
    CancelInv n
      ((s.setQueue (s.timerQueue_.cancelled timerId)).mark (.cancelled timerId.sequence_)) where
  never := h.never.append fun heq => by cases heq
  settled := by
    intro hmem
    rcases List.mem_append.mp hmem with hmem | hmem
    · exact (h.settled hmem).cancelled hrep timerId
    · have hseq : timerId.sequence_ = n := by
        cases List.mem_singleton.mp hmem
        rfl
      subst hseq
      exact settled_of_cancelled hrep hknown (htimely rfl)

/-- A timer that is settled is not the next one to be started, and `reset` deletes it. -/
theorem advance (hrep : Represents s) (h : CancelInv n s) (hadv : Advance s s') :
    CancelInv n s' := by
  cases hadv with
  | starts hrun ht =>
    rename_i now ran left entry t
    have hnodup := hrep.owns.held_nodup
    rw [held_of_running hrun] at hnodup
    have hne : .cancelled n ∈ s.trace → t.sequence_ ≠ n := by
      rintro hmem rfl
      rcases h.settled hmem with hdel | ⟨x, a, hx, ha, hn, -⟩
      · exact hrep.owns.ledger.dead hdel (numberAt_of_heap ht)
      · -- the timer would be in `ran` and next in `left`
        obtain rfl : x = ⟨now, ran, entry :: left⟩ := Option.some.inj (hx.symm.trans hrun)
        obtain rfl := hrep.owns.ledger.unique hn (numberAt_of_heap ht)
        have hapart := (List.nodup_append.mp hnodup).2.1
        rw [addrs_append] at hapart
        exact (List.nodup_append.mp hapart).2.2 _ ha _ List.mem_cons_self rfl
    refine ⟨h.never.append ?_, ?_⟩
    · intro heq hmem
      cases heq
      exact hne hmem rfl
    · intro hmem
      rcases List.mem_append.mp hmem with hmem | hmem
      · rcases h.settled hmem with hdel | ⟨x, a, hx, ha, hrest⟩
        · exact Or.inl hdel
        · obtain rfl : x = ⟨now, ran, entry :: left⟩ := Option.some.inj (hx.symm.trans hrun)
          refine Or.inr ⟨_, a, rfl, ?_, hrest⟩
          rw [addrs_append]
          exact List.mem_append_left _ ha
      · cases List.mem_singleton.mp hmem
  | finishes hrun hrenews howns =>
    rename_i now ran q
    refine h.of_settled rfl ?_
    -- the end of the batch deletes what was marked
    rintro (hdel | ⟨x, a, hx, ha, hn, hmem⟩)
    · exact Or.inl ((Shrinks.rearmed q).deleted (hrenews.shrinks.deleted hdel))
    · obtain rfl : x = ⟨now, ran, []⟩ := Option.some.inj (hx.symm.trans hrun)
      exact Or.inl ((Shrinks.rearmed q).deleted (hrenews.deletes ha hn hmem))

end CancelInv

/-- An allocation leaves the timers that are alive where they are. -/
theorem numberAt_allocate_of_alive {q : TimerQueue} {a b : Addr} {when : Timestamp}
    {interval : Interval} (hfree : q.heap a = none) (hb : q.numberAt b = some n) :
    (q.allocate a when interval).numberAt b = some n := by
  have hne : b ≠ a := by
    rintro rfl
    rw [numberAt, hfree] at hb
    cases hb
  rwa [numberAt_allocate, Function.update_of_ne hne]

/-- Inserting a timer gives and takes no numbers. -/
theorem numberAt_added (q : TimerQueue) (a : Addr) (t : Timer) :
    (q.added a t).numberAt = q.numberAt := by
  funext b
  rw [numberAt, (added_frame q a t).1, numberAt]

/-- **One event** of which the cancellation of `n` is timely. -/
theorem Effect.cancelInv {e : Event} (heff : Effect s e s') (hrep : Represents s)
    (h : CancelInv n s) (htimely : Timely n s e) : CancelInv n s' := by
  cases heff with
  | stays => exact h
  | createsPosted hfree =>
    refine h.of_settled rfl fun hs => hs.mono rfl id ?_ fun _ => id
    exact fun b _ hb => numberAt_allocate_of_alive hfree hb
  | creates hfree =>
    rename_i a when interval
    have hframe := added_frame (s.timerQueue_.allocate a when interval) a
      (.new when interval (s.timerQueue_.s_numCreated_ + 1))
    have hshrinks := Shrinks.added (s.timerQueue_.allocate a when interval) a
      (.new when interval (s.timerQueue_.s_numCreated_ + 1))
    refine h.of_settled rfl fun hs => hs.mono rfl hshrinks.deleted ?_ ?_
    · intro b _ hb
      exact (congrFun (numberAt_added _ _ _) b).trans (numberAt_allocate_of_alive hfree hb)
    · intro x hx
      exact hframe.2.1.symm ▸ hx
  | postsCancel hi => exact h.of_settled rfl id
  | cancels hi => exact h.cancels hrep (hrep.known _ (List.mem_of_getElem? hi)) (htimely _ hi)
  | insertsPosted hrun hi ht =>
    rename_i i a t
    refine h.of_settled rfl fun hs => hs.mono rfl (Shrinks.added s.timerQueue_ a t).deleted ?_ ?_
    · intro b _ hb
      exact (congrFun (numberAt_added _ _ _) b).trans hb
    · intro x hx
      exact (added_frame s.timerQueue_ a t).2.1.symm ▸ hx
  | cancelsPosted hrun hi =>
    rename_i i timerId
    -- the cancellation is executed now, and not when it was asked for
    have hexec : s.executedCancel (.runPosted i) = some timerId := by
      rw [executedCancel, hrun, hi]
    have hdone := h.cancels hrep (hrep.known_posted _ (List.mem_of_getElem? hi))
      (htimely _ hexec)
    exact ⟨hdone.never, hdone.settled⟩
  | completes i =>
    rw [complete]
    split
    · exact h
    · split
      · exact h.of_settled rfl id
      · exact h
  | ticks d =>
    rw [tick]
    split
    · exact h.of_settled rfl id
    · exact h
  | expires hrun hopened hadv =>
    -- no batch was running, so the timer can only have been deleted
    refine CancelInv.advance hopened (h.of_settled rfl ?_) hadv
    rintro (hdel | ⟨x, a, hx, -⟩)
    · exact Or.inl hdel
    · cases hrun.symm.trans hx
  | advances hadv => exact h.advance hrep hadv

/-! ## Every run

  The condition is asked of every event.  Two of the runs below do not meet it. -/

/-- **A timely cancellation is effective**: in every run in which the cancellations of the timer
    number `n` are timely, its callback is never started after one of them. -/
theorem cancel_effective (now : Timestamp) (es : List Event) (n : Nat)
    (h : Guarded step (Timely n) (new now) es) :
    Holds (fun s => NeverStarted n s.trace) (fun _ => False) (run step (new now) es) := by
  have hstep : ∀ s e, (Represents s ∧ CancelInv n s) → Timely n s e →
      Holds (fun s => Represents s ∧ CancelInv n s) (fun _ => False) (step s e) := by
    rintro s e ⟨hrep, hinv⟩ htimely
    obtain ⟨s', hs', heff, hrep'⟩ := step_effect hrep e
    rw [hs']
    exact .ok ⟨hrep', heff.cancelInv hrep hinv htimely⟩
  have hnew : CancelInv n (new now) := by
    refine ⟨?_, fun hmem => absurd hmem List.not_mem_nil⟩
    intro before after heq
    cases before <;> cases heq
  exact (run_holds hstep es _ ⟨new_represents now, hnew⟩ h).mono (fun _ hs => hs.2.never)
    fun _ hf => hf

section Examples

/-- A repeating timer cancels itself in its callback, and its address is used again. -/
def selfCancel : List Event :=
  [.addTimer true 16 500 ⟨true, 1000⟩, .tick 2000, .complete 0, .expire 0, .cancel true 0,
    .returned, .addTimer true 16 9000 ⟨true, 1000⟩, .tick 9000, .complete 0, .expire 0]

/-- The condition can be met: a callback that cancels its own timer. -/
theorem cancel_effective_selfCancel :
    Guarded step (Timely 1) (new 1) selfCancel ∧
      Holds (fun s => NeverStarted 1 s.trace) (fun _ => False) (run step (new 1) selfCancel) := by
  have hguard : Guarded step (Timely 1) (new 1) selfCancel := by decide +kernel
  have hnever := cancel_effective 1 selfCancel 1 hguard
  exact And.intro hguard hnever

/-- A run in whose trace a cancelled timer starts breaks the property. -/
theorem not_neverStarted {r : M} {trace : List TimerMark}
    (hr : r.toOption.map (·.trace) = some trace) (htrace : ¬ NeverStarted n trace) :
    ¬ Holds (fun s => NeverStarted n s.trace) (fun _ => False) r := by
  intro h
  cases h with
  | ok h =>
    obtain rfl := Option.some.inj hr
    exact htrace h
  | error h => exact h

/-- Two timers are due; the callback of the first cancels the second. -/
def cancelInBatch : List Event :=
  [.addTimer true 16 500 ⟨false, 0⟩, .addTimer true 32 600 ⟨false, 0⟩, .tick 2000, .complete 0,
    .expire 0, .cancel true 1, .returned]

/-- Another thread adds a timer; the loop thread cancels it before the insertion has run. -/
def cancelBeforeInsertion : List Event :=
  [.addTimer false 16 500 ⟨false, 0⟩, .cancel true 0, .runPosted 0, .tick 2000, .complete 0,
    .expire 0]

/-- **A cancelled timer is started** in both. -/
theorem cancelled_timer_started :
    ¬ Holds (fun s => NeverStarted 2 s.trace) (fun _ => False) (run step (new 1) cancelInBatch) ∧
      ¬ Holds (fun s => NeverStarted 1 s.trace) (fun _ => False)
        (run step (new 1) cancelBeforeInsertion) := by
  constructor
  · have htrace : (run step (new 1) cancelInBatch).toOption.map (·.trace) =
        some [.started 1, .cancelled 2, .started 2] := by decide +kernel
    refine not_neverStarted htrace fun h => ?_
    exact h [.started 1] [.started 2] rfl (List.mem_singleton_self _)
  · have htrace : (run step (new 1) cancelBeforeInsertion).toOption.map (·.trace) =
        some [.cancelled 1, .started 1] := by decide +kernel
    refine not_neverStarted htrace fun h => ?_
    exact h [] [.started 1] rfl (List.mem_singleton_self _)

end Examples

end IOLoop

end IOEvent
