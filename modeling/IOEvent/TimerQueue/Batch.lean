/-
  One expiry handler, from its start to its end.

  Between `expire` and the last `returned` the batch is out of the sets, and the callbacks add
  timers to them and cancel some.  `During` says what holds in between: which callbacks have been
  started, that the timers of the batch are as they were, that `cancelingTimers_` names those of
  them that were cancelled, and that every other timer is where it was unless it was cancelled.
  Each event keeps it (`During.effect`), and `reset` turns it into `Ran`, what the handler has
  done as a whole.

  Over a whole run, `DueInv` says that whatever is in a batch was due when the handler started,
  and that a one-shot timer that has been started is in the batch until it is deleted.

  The proofs go by cases on the effect of an event.  What a callback can do is to add timers and
  to cancel some.  Neither writes to a timer that is held outside the sets, and the batch is
  held there (`mem_batch_held`), so `reset` finds it as it was taken.
-/
import IOEvent.TimerQueue.Cancel

open Foundation

namespace IOEvent

namespace TimerQueue

variable {q : TimerQueue} {a b : Addr} {t : Timer} {e now : Timestamp} {held : List Addr}

/-! ## What the operations leave of the timers

  Allocating, cancelling and arming leave a timer that is held elsewhere as it is. -/

/-- A cancel changes no timer; it deletes one at most. The timer it may delete is out of the
    sets then, so whoever holds one outside of them keeps it. -/
theorem heap_of_cancelled {timerId : TimerId} (h : (q.cancelled timerId).heap a = some t) :
    q.heap a = some t := by
  rw [cancelled] at h
  split at h
  · split at h
    · by_cases ha : a = timerId.timer_
      · rw [ha, heap_freed] at h
        cases h
      · rwa [heap_freed_of_ne ha] at h
    · exact h
  · split at h <;> exact h

/-- A new timer is not put where one is. -/
theorem heap_allocate_of_alive {when : Timestamp} {interval : Interval} (hfree : q.heap b = none)
    (ht : q.heap a = some t) : (q.allocate b when interval).heap a = some t := by
  have hne : a ≠ b := by
    rintro rfl
    cases hfree.symm.trans ht
  rwa [heap_allocate_of_ne hne]

/-- What is in memory behind an allocation was there before, or has the new number. -/
theorem heap_of_allocate {when : Timestamp} {interval : Interval}
    (ht : (q.allocate b when interval).heap a = some t) :
    q.heap a = some t ∨ q.s_numCreated_ < t.sequence_ := by
  by_cases ha : a = b
  · rw [ha, heap_allocate] at ht
    obtain rfl := Option.some.inj ht
    exact Or.inr (Nat.lt_succ_self _)
  · rw [heap_allocate_of_ne ha] at ht
    exact Or.inl ht

/-- Arming a wait touches nothing else. -/
theorem rearmed_frame (q : TimerQueue) : q.rearmed.timers_ = q.timers_ ∧
    q.rearmed.activeTimers_ = q.activeTimers_ ∧ q.rearmed.heap = q.heap ∧
    q.rearmed.deleted = q.deleted ∧ q.rearmed.s_numCreated_ = q.s_numCreated_ ∧
    q.rearmed.cancelingTimers_ = q.cancelingTimers_ ∧ q.rearmed.clock = q.clock := by
  rcases rearmed_cases q with
    heq | ⟨when, heq⟩ <;> rw [heq] <;> exact ⟨rfl, rfl, rfl, rfl, rfl, rfl, rfl⟩

/-- A timer has one entry in each set. Its expiration in memory is the one it stands under, as
    nothing writes to a timer that is in the sets. -/
theorem Owns.entries_iff (h : Owns q held) (ht : q.heap a = some t)
    (hmem : toLex (t.expiration_, a) ∈ q.timers_) :
    (∀ e, toLex (e, a) ∈ q.timers_ ↔ e = t.expiration_) ∧
      ∀ n, toLex (a, n) ∈ q.activeTimers_ ↔ n = t.sequence_ := by
  constructor
  · intro e
    constructor
    · intro he
      obtain ⟨u, hu, rfl⟩ := h.keyed he
      obtain rfl : u = t := Option.some.inj (hu.symm.trans ht)
      rfl
    · rintro rfl
      exact hmem
  · intro n
    rw [h.mem_active ht]
    constructor
    · exact fun hn => hn.1.symm
    · exact fun hn => ⟨hn.symm, hmem⟩

/-! ## The batch

  `getExpired` takes everything that is due at `now`, and what it takes is in the order of the
  expirations. -/

/-- The batch `getExpired` takes at the time `now`. It is what lies in front of the sentinel. -/
def due (q : TimerQueue) (now : Timestamp) : List Entry := q.timers_.before (sentinel now)

/-- The batch is what is due, in order, and what is left is due later. -/
structure TakesDue (q : TimerQueue) (now : Timestamp) : Prop where
  taken : ∃ q', q.getExpired now = .ok (q', q.due now) ∧
    ∀ e a, toLex (e, a) ∈ q'.timers_ ↔ toLex (e, a) ∈ q.timers_ ∧ now < e
  mem_due : ∀ e a, toLex (e, a) ∈ q.due now ↔ toLex (e, a) ∈ q.timers_ ∧ e ≤ now
  keyed : ∀ e a, toLex (e, a) ∈ q.due now → ∃ t, q.heap a = some t ∧ t.expiration_ = e
  sorted : (q.due now).Pairwise fun x y => (ofLex x).1 ≤ (ofLex y).1
  nodup : (q.due now).Nodup

/-- What `getExpired` takes out is what is due. -/
theorem Owns.takesDue (h : Owns q held) (now : Timestamp) : TakesDue q now where
  taken := by
    obtain ⟨active, heq, -⟩ := h.getExpired_eq now
    exact ⟨_, heq, fun _ _ => h.mem_fromBound⟩
  mem_due := fun _ _ => h.mem_before
  keyed := fun _ _ hmem => h.keyed (h.mem_before.mp hmem).1
  sorted := by
    refine (OrderedSet.before_sorted _ _).imp fun hlt => ?_
    exact (Prod.Lex.lt_iff.mp hlt).elim le_of_lt (le_of_eq ·.1)
  nodup := OrderedSet.before_nodup _ _

end TimerQueue

open TimerQueue

namespace IOLoop

variable {s s₁ s' : IOLoop} {now : Timestamp} {batch : List Entry} {marks : List TimerMark}
  {a : Addr} {t : Timer} {n : Nat}

/-! ## While the callbacks run

  The state in the middle of a handler, related to the one in which it started.  Each event that
  can happen in between has its lemma. -/

/-- The numbers of the timers whose callbacks were started, in order. The cancellations in
    between are left out. -/
def startedNumbers (marks : List TimerMark) : List Nat :=
  marks.filterMap fun
    | .started sequence => some sequence
    | .cancelled _ => none

/-- The numbers of the timers of a batch. -/
def numbers (s : IOLoop) (batch : List Entry) : List Nat :=
  batch.filterMap fun x => s.timerQueue_.numberAt (ofLex x).2

/-- A handler that started in `s` at the time `now` with `batch` has come to `s₁` and is still
    running. `marks` is what the trace has recorded since. The state `s` is the one in which
    the handler starts, before its batch is taken out of the sets. -/
structure During (s : IOLoop) (now : Timestamp) (batch : List Entry) (marks : List TimerMark)
    (s₁ : IOLoop) : Prop where
  running : ∃ ran left, s₁.running = some ⟨now, ran, left⟩ ∧ ran ++ left = batch ∧
    startedNumbers marks = s.numbers ran
  trace : s₁.trace = s.trace ++ marks
  posted : s.posted <+: s₁.posted
  created : s.timerQueue_.s_numCreated_ ≤ s₁.timerQueue_.s_numCreated_
  held_heap : ∀ a ∈ s.pendingAddrs ++ addrs batch, s₁.timerQueue_.heap a = s.timerQueue_.heap a
  canceling : ∀ a ∈ addrs batch, ∀ n, s.timerQueue_.numberAt a = some n →
    (toLex (a, n) ∈ s₁.timerQueue_.cancelingTimers_ ↔ .cancelled n ∈ marks)
  /-- A timer outside the batch is where it was, or it was cancelled. -/
  others : ∀ e a t, toLex (e, a) ∈ s.timerQueue_.timers_ → now < e → s.timerQueue_.heap a = some t →
    .cancelled t.sequence_ ∉ marks →
    s₁.timerQueue_.heap a = some t ∧ toLex (e, a) ∈ s₁.timerQueue_.timers_
  cancelled : ∀ e a t, toLex (e, a) ∈ s.timerQueue_.timers_ → now < e →
    s.timerQueue_.heap a = some t → .cancelled t.sequence_ ∈ marks →
    t.sequence_ ∈ s₁.timerQueue_.deleted
  /-- What else is in the sets was created since. -/
  origin : ∀ e a, toLex (e, a) ∈ s₁.timerQueue_.timers_ →
    toLex (e, a) ∈ s.timerQueue_.timers_ ∧ now < e ∨
      ∃ n, s₁.timerQueue_.numberAt a = some n ∧ s.timerQueue_.s_numCreated_ < n

/-- The handler has finished in `s'`. What it says of the batch is decided by the marks, so by
    what the callbacks have cancelled, and not by anything else they have done. -/
structure Ran (s : IOLoop) (now : Timestamp) (batch : List Entry) (marks : List TimerMark)
    (s' : IOLoop) : Prop where
  trace : s'.trace = s.trace ++ marks
  /-- Each callback was called once, in the order of the batch. -/
  called : startedNumbers marks = s.numbers batch
  /-- A repeating timer that was not cancelled is back in both sets, once. -/
  repeated : ∀ a ∈ addrs batch, ∀ t, s.timerQueue_.heap a = some t → t.repeat_ = true →
    .cancelled t.sequence_ ∉ marks →
    s'.timerQueue_.heap a =
        some { t with expiration_ := Timestamp.addTime now t.interval_.micros } ∧
      (∀ e, toLex (e, a) ∈ s'.timerQueue_.timers_ ↔
        e = Timestamp.addTime now t.interval_.micros) ∧
      ∀ n, toLex (a, n) ∈ s'.timerQueue_.activeTimers_ ↔ n = t.sequence_
  /-- Every other timer of the batch is gone. -/
  gone : ∀ a ∈ addrs batch, ∀ t, s.timerQueue_.heap a = some t →
    (t.repeat_ = true → .cancelled t.sequence_ ∈ marks) →
    t.sequence_ ∈ s'.timerQueue_.deleted ∧ ∀ b, s'.timerQueue_.numberAt b ≠ some t.sequence_
  others : ∀ e a t, toLex (e, a) ∈ s.timerQueue_.timers_ → now < e → s.timerQueue_.heap a = some t →
    .cancelled t.sequence_ ∉ marks →
    s'.timerQueue_.heap a = some t ∧ (∀ d, toLex (d, a) ∈ s'.timerQueue_.timers_ ↔ d = e) ∧
      ∀ n, toLex (a, n) ∈ s'.timerQueue_.activeTimers_ ↔ n = t.sequence_
  cancelled : ∀ e a t, toLex (e, a) ∈ s.timerQueue_.timers_ → now < e →
    s.timerQueue_.heap a = some t → .cancelled t.sequence_ ∈ marks →
    t.sequence_ ∈ s'.timerQueue_.deleted ∧ ∀ b, s'.timerQueue_.numberAt b ≠ some t.sequence_
  /-- The timers whose insertion was posted still wait for it. -/
  posted : s.posted <+: s'.posted
  pending : ∀ a ∈ s.pendingAddrs, s'.timerQueue_.heap a = s.timerQueue_.heap a
  /-- The sets hold the repeating timers of the batch, the timers that were not in it, and timers
      the callbacks added. -/
  origin : ∀ e a, toLex (e, a) ∈ s'.timerQueue_.timers_ →
    (a ∈ addrs batch ∧ ∃ t, s.timerQueue_.heap a = some t ∧ t.repeat_ = true ∧
      .cancelled t.sequence_ ∉ marks) ∨
    toLex (e, a) ∈ s.timerQueue_.timers_ ∧ now < e ∨
      ∃ n, s'.timerQueue_.numberAt a = some n ∧ s.timerQueue_.s_numCreated_ < n

/-- Traces are counted in parts. -/
theorem startedNumbers_append (l k : List TimerMark) :
    startedNumbers (l ++ k) = startedNumbers l ++ startedNumbers k := List.filterMap_append

/-- So are batches. -/
theorem numbers_append (s : IOLoop) (l k : List Entry) :
    s.numbers (l ++ k) = s.numbers l ++ s.numbers k := List.filterMap_append

namespace During

/-- An event that touches neither the trace nor the timers that are there. -/
theorem of_same (h : During s now batch marks s₁) (hrun : s'.running = s₁.running)
    (htrace : s'.trace = s₁.trace) (hposted : s₁.posted <+: s'.posted)
    (hcreated : s₁.timerQueue_.s_numCreated_ ≤ s'.timerQueue_.s_numCreated_)
    (hheap : ∀ a t, s₁.timerQueue_.heap a = some t → s'.timerQueue_.heap a = some t)
    (hcanceling : s'.timerQueue_.cancelingTimers_ = s₁.timerQueue_.cancelingTimers_)
    (hdeleted : s'.timerQueue_.deleted = s₁.timerQueue_.deleted)
    (htimers : ∀ x, x ∈ s₁.timerQueue_.timers_ → x ∈ s'.timerQueue_.timers_)
    (hnew : ∀ e a, toLex (e, a) ∈ s'.timerQueue_.timers_ →
      toLex (e, a) ∈ s₁.timerQueue_.timers_ ∨
        ∃ n, s'.timerQueue_.numberAt a = some n ∧ s₁.timerQueue_.s_numCreated_ < n)
    (hlive : ∀ a ∈ s.pendingAddrs ++ addrs batch, ∃ t, s₁.timerQueue_.heap a = some t) :
    During s now batch marks s' where
  running := hrun ▸ h.running
  trace := htrace.trans h.trace
  posted := h.posted.trans hposted
  created := le_trans h.created hcreated
  -- the timers of the batch, and those whose insertion is posted, are not touched by callbacks
  held_heap := by
    intro a ha
    obtain ⟨t, ht⟩ := hlive a ha
    rw [hheap a t ht, ← h.held_heap a ha, ht]
  canceling := hcanceling ▸ h.canceling
  others := by
    intro e a t hmem hlt ht hnot
    obtain ⟨hheap', hmem'⟩ := h.others e a t hmem hlt ht hnot
    exact ⟨hheap a t hheap', htimers _ hmem'⟩
  cancelled := hdeleted ▸ h.cancelled
  -- an entry is one of the batch's beginning, or of a timer created since
  origin := by
    intro e a hmem
    rcases hnew e a hmem with hmem | ⟨n, hn, hlt⟩
    · rcases h.origin e a hmem with hold | ⟨n, hn, hlt⟩
      · exact Or.inl hold
      · obtain ⟨t, ht, rfl⟩ := heap_of_numberAt hn
        exact Or.inr ⟨_, numberAt_of_heap (hheap a t ht), hlt⟩
    · exact Or.inr ⟨n, hn, lt_of_le_of_lt h.created hlt⟩

/-- Handlers that are posted stay posted while the batch is executed. -/
theorem pendingAddrs_subset (h : s.posted <+: s₁.posted) : s.pendingAddrs ⊆ s₁.pendingAddrs :=
  fun _ ha => mem_pendingAddrs.mpr (h.subset (mem_pendingAddrs.mp ha))

/-- The timers of the batch are held outside the sets, and so are those still to be inserted. -/
theorem mem_held (h : During s now batch marks s₁) (ha : a ∈ s.pendingAddrs ++ addrs batch) :
    a ∈ s₁.held := by
  obtain ⟨ran, left, hrun, rfl, -⟩ := h.running
  rw [held_of_running hrun]
  rcases List.mem_append.mp ha with ha | ha
  · exact List.mem_append_left _ (pendingAddrs_subset h.posted ha)
  · exact List.mem_append_right _ ha

/-- What is posted or in the batch is in memory all the while. -/
theorem live (h : During s now batch marks s₁) (hrep : Represents s₁) :
    ∀ a ∈ s.pendingAddrs ++ addrs batch, ∃ t, s₁.timerQueue_.heap a = some t :=
  fun _ ha => hrep.owns.held_live (h.mem_held ha)

/-- The timers of the batch are held by the loop. -/
theorem mem_batch_held (h : During s now batch marks s₁) (ha : a ∈ addrs batch) : a ∈ s₁.held :=
  h.mem_held (List.mem_append_right _ ha)

/-- So no callback changes them. -/
theorem batch_heap (h : During s now batch marks s₁) (a : Addr) (ha : a ∈ addrs batch) :
    s₁.timerQueue_.heap a = s.timerQueue_.heap a := h.held_heap a (List.mem_append_right _ ha)

/-- Nor do they change their numbers. -/
theorem numberAt_eq (h : During s now batch marks s₁) (ha : a ∈ addrs batch) :
    s₁.timerQueue_.numberAt a = s.timerQueue_.numberAt a := by
  rw [numberAt, h.batch_heap a ha, numberAt]

/-- A cancellation is executed in a callback. It is entered in `cancelingTimers_` when it
    names a timer of the batch, and takes a timer out of the sets when it names one of these. -/
theorem cancels (h : During s now batch marks s₁) (hrep : Represents s₁) {timerId : TimerId}
    (hknown : s₁.timerQueue_.Known timerId) :
    During s now batch (marks ++ [.cancelled timerId.sequence_])
      ((s₁.setQueue (s₁.timerQueue_.cancelled timerId)).mark (.cancelled timerId.sequence_)) := by
  have hspares := Spares.cancelled hrep.owns timerId
  have hshrinks := Shrinks.cancelled s₁.timerQueue_ timerId
  have hmarks : ∀ n, TimerMark.cancelled n ∈ marks ++ [.cancelled timerId.sequence_] ↔
      .cancelled n ∈ marks ∨ n = timerId.sequence_ := by
    intro n
    rw [List.mem_append, List.mem_singleton, TimerMark.cancelled.injEq]
  -- what the loop holds is in no set, so the cancel does not delete it
  have hheld : ∀ a ∈ s.pendingAddrs ++ addrs batch,
      (s₁.timerQueue_.cancelled timerId).heap a = s₁.timerQueue_.heap a := by
    intro a ha
    by_cases hact : toLex (timerId.timer_, timerId.sequence_) ∈ s₁.timerQueue_.activeTimers_
    · obtain ⟨t, ht, -, -⟩ := hrep.owns.active.mp hact
      have hne : a ≠ timerId.timer_ := by
        rintro rfl
        exact hrep.owns.not_active (h.mem_held ha) hact
      rw [cancelled_of_active hact ht]
      exact heap_freed_of_ne hne
    · rw [cancelled_of_not_active hact]
      split <;> rfl
  constructor
  · obtain ⟨ran, left, hrun, hsplit, hstarted⟩ := h.running
    refine ⟨ran, left, hrun, hsplit, ?_⟩
    rw [startedNumbers_append, hstarted]
    exact List.append_nil _
  · show s₁.trace ++ [_] = _
    rw [h.trace, List.append_assoc]
  · exact h.posted
  · exact le_of_le_of_eq h.created hshrinks.created.symm
  · exact fun a ha => (hheld a ha).trans (h.held_heap a ha)
  · intro a ha n hn
    rw [hmarks, ← h.canceling a ha n hn]
    by_cases hseq : n = timerId.sequence_
    · -- the `TimerId` names the timer at `a`, which is in no set
      subst hseq
      obtain rfl : a = timerId.timer_ := hknown.at_home ((h.numberAt_eq ha).trans hn)
      have hnot := hrep.owns.not_active (n := timerId.sequence_) (h.mem_batch_held ha)
      have hcalling : s₁.timerQueue_.callingExpiredTimers_ = true := by
        obtain ⟨ran, left, hrun, -⟩ := h.running
        rw [hrep.calling, hrun]
        rfl
      have hmem : toLex (timerId.timer_, timerId.sequence_) ∈
          (s₁.timerQueue_.cancelled timerId).cancelingTimers_ := by
        rw [cancelled_of_not_active hnot, if_pos hcalling]
        exact OrderedSet.mem_emplace.mpr (Or.inl rfl)
      exact ⟨fun _ => Or.inr rfl, fun _ => hmem⟩
    · rw [or_iff_left hseq]
      exact hspares.canceling hseq
  · intro e a t hmem hlt ht hnot
    rw [hmarks, not_or] at hnot
    obtain ⟨hheap, hmem'⟩ := h.others e a t hmem hlt ht hnot.1
    exact ⟨hspares.heap hheap hnot.2, (hspares.timers hheap hnot.2).mpr hmem'⟩
  · intro e a t hmem hlt ht hcancelled
    rw [hmarks] at hcancelled
    by_cases hbefore : .cancelled t.sequence_ ∈ marks
    · exact hshrinks.deleted (h.cancelled e a t hmem hlt ht hbefore)
    · -- it was in the sets, so it is deleted now
      obtain ⟨hheap, hmem'⟩ := h.others e a t hmem hlt ht hbefore
      have hseq := hcancelled.resolve_left hbefore
      obtain rfl : a = timerId.timer_ := hknown.at_home (hseq ▸ numberAt_of_heap hheap)
      obtain ⟨u, hu, rfl⟩ := hrep.owns.keyed hmem'
      obtain rfl : u = t := Option.some.inj (hu.symm.trans hheap)
      have hact := (hrep.owns.mem_active hheap).mpr ⟨hseq, hmem'⟩
      show u.sequence_ ∈ (s₁.timerQueue_.cancelled timerId).deleted
      rw [cancelled_of_active hact hheap]
      exact List.mem_append_right _ (List.mem_singleton_self _)
  · intro e a hmem
    rcases h.origin e a (mem_of_mem_cancelled hmem) with hold | ⟨n, hn, hlt⟩
    · exact Or.inl hold
    · obtain ⟨u, hu, -⟩ := (hrep.owns.cancelled timerId).keyed hmem
      have hn' := numberAt_of_heap (heap_of_cancelled hu)
      obtain rfl : u.sequence_ = n := Option.some.inj (hn'.symm.trans hn)
      exact Or.inr ⟨_, numberAt_of_heap hu, hlt⟩

/-- The next callback is started. Its timer is still in memory, as the batch is deleted at the
    end of the handler only. -/
theorem starts (h : During s now batch marks s₁) {ran left : List Entry} {entry : Entry}
    (hrun : s₁.running = some ⟨now, ran, entry :: left⟩)
    (ht : s₁.timerQueue_.heap (ofLex entry).2 = some t) :
    During s now batch (marks ++ [.started t.sequence_])
      { s₁.mark (.started t.sequence_) with running := some ⟨now, ran ++ [entry], left⟩ } := by
  have hmarks : ∀ n, TimerMark.cancelled n ∈ marks ++ [.started t.sequence_] ↔
      .cancelled n ∈ marks := by
    intro n
    rw [List.mem_append, or_iff_left]
    intro hmem
    cases List.mem_singleton.mp hmem
  obtain ⟨ran', left', hrun', hsplit, hstarted⟩ := h.running
  obtain ⟨-, rfl, rfl⟩ := Expiry.mk.inj (Option.some.inj (hrun.symm.trans hrun'))
  -- the entry that is started is in the batch, so its number is the one it had at the beginning
  have hin : (ofLex entry).2 ∈ addrs batch := by
    rw [← hsplit, addrs_append]
    exact List.mem_append_right _ List.mem_cons_self
  have hnumber : s.numbers [entry] = [t.sequence_] := by
    have hn : s.timerQueue_.numberAt (ofLex entry).2 = some t.sequence_ :=
      (h.numberAt_eq hin).symm.trans (numberAt_of_heap ht)
    exact List.filterMap_cons_some hn
  refine ⟨⟨ran ++ [entry], left, rfl, ?_, ?_⟩, ?_, h.posted, h.created, h.held_heap, ?_, ?_, ?_,
    h.origin⟩
  · rw [List.append_assoc, List.singleton_append, hsplit]
  · rw [startedNumbers_append, hstarted, numbers_append, hnumber]
    rfl
  · show s₁.trace ++ [_] = _
    rw [h.trace, List.append_assoc]
  · intro a ha n hn
    rw [hmarks]
    exact h.canceling a ha n hn
  · intro e a u hmem hlt hu hnot
    rw [hmarks] at hnot
    exact h.others e a u hmem hlt hu hnot
  · intro e a u hmem hlt hu hcancelled
    rw [hmarks] at hcancelled
    exact h.cancelled e a u hmem hlt hu hcancelled

/-- The handler finishes. `reset` finds the batch as it was taken, and a timer that was
    cancelled by a callback of the same batch in `cancelingTimers_`. -/
theorem finishes (h : During s now batch marks s₁) {ran : List Entry} {q : TimerQueue}
    (hrun : s₁.running = some ⟨now, ran, []⟩)
    (hrenews : Renews now (addrs ran) { s₁.timerQueue_ with callingExpiredTimers_ := false } q)
    (howns : Owns q s₁.pendingAddrs) (hrep : Represents s₁) :
    Ran s now batch marks { s₁.setQueue q.rearmed with running := none } := by
  obtain ⟨htimers, hactive, hheap, hdeleted, hcreated, -, -⟩ := rearmed_frame q
  obtain ⟨ran', left', hrun', hsplit, hstarted⟩ := h.running
  obtain ⟨-, rfl, rfl⟩ := Expiry.mk.inj (Option.some.inj (hrun.symm.trans hrun'))
  rw [List.append_nil] at hsplit
  subst hsplit
  have hdead : ∀ n ∈ q.deleted, ∀ b, q.numberAt b ≠ some n := fun n hn b => howns.ledger.dead hn
  have hnumberAt : q.rearmed.numberAt = q.numberAt := by
    funext b
    rw [numberAt, hheap, numberAt]
  -- the timers outside the batch are as the callbacks left them
  have hother : ∀ {e a}, toLex (e, a) ∈ s.timerQueue_.timers_ →
      s.timerQueue_.heap a = s₁.timerQueue_.heap a →
      toLex (e, a) ∈ s₁.timerQueue_.timers_ → a ∉ addrs ran := by
    intro e a _ _ hmem ha
    exact hrep.owns.held_apart (h.mem_batch_held ha) hmem
  refine ⟨h.trace, hstarted, ?_, ?_, ?_, ?_, h.posted, ?_, ?_⟩
  · intro a ha t ht hrepeat hnot
    rw [← h.batch_heap a ha] at ht
    have hcanceling : toLex (a, t.sequence_) ∉ s₁.timerQueue_.cancelingTimers_ := fun hmem =>
      hnot ((h.canceling a ha _ ((h.numberAt_eq ha).symm.trans (numberAt_of_heap ht))).mp hmem)
    obtain ⟨hback, hmem⟩ := hrenews.restarts ha ht hrepeat hcanceling
    have hrestart : t.restart now =
        { t with expiration_ := Timestamp.addTime now t.interval_.micros } := if_pos hrepeat
    rw [hrestart] at hback hmem
    show q.rearmed.heap a = _ ∧ (∀ e, toLex (e, a) ∈ q.rearmed.timers_ ↔ _) ∧
      ∀ n, toLex (a, n) ∈ q.rearmed.activeTimers_ ↔ _
    rw [hheap, htimers, hactive]
    exact ⟨hback, howns.entries_iff hback hmem⟩
  · intro a ha t ht hdrop
    rw [← h.batch_heap a ha] at ht
    obtain ⟨-, hmem⟩ := hrenews.drops ha ht fun hrepeat =>
      (h.canceling a ha _ ((h.numberAt_eq ha).symm.trans (numberAt_of_heap ht))).mpr (hdrop hrepeat)
    show _ ∈ q.rearmed.deleted ∧ ∀ b, q.rearmed.numberAt b ≠ _
    rw [hdeleted, hnumberAt]
    exact ⟨hmem, hdead _ hmem⟩
  · intro e a t hmem hlt ht hnot
    obtain ⟨hheap₁, hmem₁⟩ := h.others e a t hmem hlt ht hnot
    have ha : a ∉ addrs ran := hother hmem (ht.trans hheap₁.symm) hmem₁
    obtain ⟨u, hu, rfl⟩ := hrep.owns.keyed hmem₁
    obtain rfl : u = t := Option.some.inj (hu.symm.trans hheap₁)
    have hback : q.heap a = some u := (hrenews.heap_eq ha).trans hheap₁
    show q.rearmed.heap a = _ ∧ (∀ e, toLex (e, a) ∈ q.rearmed.timers_ ↔ _) ∧
      ∀ n, toLex (a, n) ∈ q.rearmed.activeTimers_ ↔ _
    rw [hheap, htimers, hactive]
    exact ⟨hback, howns.entries_iff hback (hrenews.keeps ha hmem₁)⟩
  · intro e a t hmem hlt ht hcancelled
    have hmem' : t.sequence_ ∈ q.deleted :=
      hrenews.shrinks.deleted (h.cancelled e a t hmem hlt ht hcancelled)
    show _ ∈ q.rearmed.deleted ∧ ∀ b, q.rearmed.numberAt b ≠ _
    rw [hdeleted, hnumberAt]
    exact ⟨hmem', hdead _ hmem'⟩
  · intro a ha
    have hnodup := hrep.owns.held_nodup
    rw [held_of_running hrun, List.append_nil] at hnodup
    have hout : a ∉ addrs ran := fun hmem =>
      (List.nodup_append.mp hnodup).2.2 a (pendingAddrs_subset h.posted ha) a hmem rfl
    show q.rearmed.heap a = _
    rw [hheap, hrenews.heap_eq hout]
    exact h.held_heap a (List.mem_append_left _ ha)
  · intro e a hmem
    change toLex (e, a) ∈ q.rearmed.timers_ at hmem
    show _ ∨ _ ∨ ∃ n, q.rearmed.numberAt a = some n ∧ _
    rw [htimers] at hmem
    rw [hnumberAt]
    rcases hrenews.entries hmem with hmem₁ | ⟨t, ht, ha, hrepeat, hcanceling, -⟩
    · rcases h.origin e a hmem₁ with hold | ⟨n, hn, hlt⟩
      · exact Or.inr (Or.inl hold)
      · have ha : a ∉ addrs ran := fun ha => hrep.owns.held_apart (h.mem_batch_held ha) hmem₁
        refine Or.inr (Or.inr ⟨n, ?_, hlt⟩)
        rw [numberAt, hrenews.heap_eq ha]
        exact hn
    · refine Or.inl ⟨ha, t, (h.batch_heap a ha).symm.trans ht, hrepeat, fun hmem => hcanceling ?_⟩
      exact (h.canceling a ha _ ((h.numberAt_eq ha).symm.trans (numberAt_of_heap ht))).mpr hmem

/-- The handler goes on or finishes. -/
theorem advance (h : During s now batch marks s₁) (hrep : Represents s₁) (hadv : Advance s₁ s') :
    (∃ marks', During s now batch marks' s') ∨ s'.running = none ∧ Ran s now batch marks s' := by
  obtain ⟨ran', left', hrun', -⟩ := h.running
  cases hadv with
  | starts hrun ht =>
    obtain ⟨rfl, -⟩ := Expiry.mk.inj (Option.some.inj (hrun.symm.trans hrun'))
    exact Or.inl ⟨_, h.starts hrun ht⟩
  | finishes hrun hrenews howns =>
    obtain ⟨rfl, -⟩ := Expiry.mk.inj (Option.some.inj (hrun.symm.trans hrun'))
    exact Or.inr ⟨rfl, h.finishes hrun hrenews howns hrep⟩

/-- **One event** while the handler is running. -/
theorem effect (h : During s now batch marks s₁) (hrep : Represents s₁) {e : Event}
    (heff : Effect s₁ e s') :
    (∃ marks', During s now batch marks' s') ∨ s'.running = none ∧ Ran s now batch marks s' := by
  have hlive := h.live hrep
  have hbusy : s₁.running ≠ none := by
    obtain ⟨ran, left, hrun, -⟩ := h.running
    rw [hrun]
    exact Option.some_ne_none _
  cases heff with
  | stays => exact Or.inl ⟨marks, h⟩
  -- a new timer lies at a free address, so nothing that was there changes
  | createsPosted hfree =>
    refine Or.inl ⟨marks, h.of_same rfl rfl (List.prefix_append _ _) (Nat.le_succ _) ?_ rfl rfl
      (fun _ => id)
      (fun _ _ => Or.inl) hlive⟩
    exact fun b u hu => heap_allocate_of_alive hfree hu
  | creates hfree =>
    rename_i a when interval
    have hframe := added_frame (s₁.timerQueue_.allocate a when interval) a
      (.new when interval (s₁.timerQueue_.s_numCreated_ + 1))
    have hshrinks := Shrinks.added (s₁.timerQueue_.allocate a when interval) a
      (.new when interval (s₁.timerQueue_.s_numCreated_ + 1))
    have hdeleted : ((s₁.timerQueue_.allocate a when interval).added a
        (.new when interval (s₁.timerQueue_.s_numCreated_ + 1))).deleted =
          s₁.timerQueue_.deleted := by
      unfold added
      split <;> rfl
    refine Or.inl ⟨marks, h.of_same rfl rfl List.prefix_rfl ?_ ?_ hframe.2.1 hdeleted ?_ ?_ hlive⟩
    · exact le_of_le_of_eq (Nat.le_succ _) hshrinks.created.symm
    · intro b u hu
      exact (congrFun hframe.1 b).trans (heap_allocate_of_alive hfree hu)
    · exact fun x hx => mem_added.mpr (Or.inr hx)
    · intro d b hmem
      rcases mem_added.mp hmem with ⟨-, rfl⟩ | hmem
      · refine Or.inr ⟨s₁.timerQueue_.s_numCreated_ + 1, ?_, Nat.lt_succ_self _⟩
        exact numberAt_of_heap ((congrFun hframe.1 b).trans heap_allocate)
      · exact Or.inl hmem
  | postsCancel hi =>
    exact Or.inl ⟨marks, h.of_same rfl rfl (List.prefix_append _ _) le_rfl (fun _ _ => id) rfl rfl
      (fun _ => id) (fun _ _ => Or.inl) hlive⟩
  | cancels hi => exact Or.inl ⟨_, h.cancels hrep (hrep.known _ (List.mem_of_getElem? hi))⟩
  -- a wait handler is running, so no posted handler and no other wait handler starts
  | insertsPosted hrun | cancelsPosted hrun | expires hrun => exact absurd hrun hbusy
  | completes i =>
    refine Or.inl ⟨marks, ?_⟩
    rw [complete]
    split
    · exact h
    · split
      · exact h.of_same rfl rfl List.prefix_rfl le_rfl (fun _ _ => id) rfl rfl (fun _ => id)
          (fun _ _ => Or.inl) hlive
      · exact h
  | ticks d =>
    refine Or.inl ⟨marks, ?_⟩
    rw [tick]
    split
    · exact h.of_same rfl rfl List.prefix_rfl le_rfl (fun _ _ => id) rfl rfl (fun _ => id)
          (fun _ _ => Or.inl) hlive
    · exact h
  | advances hadv => exact h.advance hrep hadv

/-- Before the first callback. -/
theorem start (hrep : Represents s) (i : Nat) (active : OrderedSet ActiveTimer) :
    During s s.timerQueue_.clock (s.timerQueue_.due s.timerQueue_.clock)
    [] (s.opened i active) where
  running := ⟨[], _, rfl, rfl, rfl⟩
  trace := (List.append_nil _).symm
  posted := List.prefix_rfl
  created := le_rfl
  held_heap := fun _ _ => rfl
  canceling := by
    intro a _ n _
    exact ⟨fun hmem => absurd hmem (OrderedSet.not_mem_empty _),
      fun hmem => absurd hmem List.not_mem_nil⟩
  others := fun e a t hmem hlt ht _ => ⟨ht, hrep.owns.mem_fromBound.mpr ⟨hmem, hlt⟩⟩
  cancelled := fun e a t _ _ _ hmem => absurd hmem List.not_mem_nil
  origin := fun e a hmem => Or.inl (hrep.owns.mem_fromBound.mp hmem)

end During

/-! ## A whole handler

  From `expire` to the last `returned`, whatever has happened in between. -/

/-- The events `es` after the start of the `i`-th wait's handler in `s` take it to its end in
    `s'`. No prefix of them does, so the handler finishes with the last event. -/
structure Handled (s : IOLoop) (i : Nat) (es : List Event) (s' : IOLoop) : Prop where
  idle : s.running = none
  completed : ∃ w, s.timerQueue_.steadyTimer_[i]? = some w ∧ w.completed = true
  run : run step s (.expire i :: es) = .ok s'
  finished : s'.running = none
  busy : ∀ pre s₁, pre <+: es → pre ≠ es → Foundation.run step s (.expire i :: pre) = .ok s₁ →
    s₁.running ≠ none

/-- By induction on the events: the handler is running until the last one. -/
theorem During.run (es : List Event) : ∀ {s₁ : IOLoop} {marks : List TimerMark},
    During s now batch marks s₁ → Represents s₁ → run step s₁ es = .ok s' → s'.running = none →
    (∀ pre s₂, pre <+: es → pre ≠ es → Foundation.run step s₁ pre = .ok s₂ → s₂.running ≠ none) →
    ∃ marks', Ran s now batch marks' s' := by
  induction es with
  | nil =>
    intro s₁ marks h _ hrun hdone _
    obtain rfl : s₁ = s' := by simpa using hrun
    obtain ⟨ran, left, hbusy, -⟩ := h.running
    cases hdone.symm.trans hbusy
  | cons e es ih =>
    intro s₁ marks h hrep hrun hdone hbusy
    obtain ⟨s₂, hs₂, heff, hrep₂⟩ := step_effect hrep e
    rw [run_cons, hs₂, ok_bind] at hrun
    rcases h.effect hrep heff with ⟨marks', hduring⟩ | ⟨hidle, hran⟩
    · refine ih hduring hrep₂ hrun hdone fun pre s₃ hpre hne hs₃ => ?_
      refine hbusy (e :: pre) s₃ (List.cons_prefix_cons.mpr ⟨rfl, hpre⟩) ?_ ?_
      · exact fun heq => hne (List.cons_inj_right e |>.mp heq)
      · rw [run_cons, hs₂, ok_bind, hs₃]
    · -- no event follows the one that finishes it
      have hlast : es = [] := by
        by_contra hne
        refine hbusy [e] s₂ ⟨es, rfl⟩ ?_ ?_ hidle
        · exact fun heq => hne ((List.cons_inj_right e).mp heq).symm
        · rw [run_cons, hs₂]
          rfl
      subst hlast
      obtain rfl : s₂ = s' := by simpa using hrun
      exact ⟨marks, hran⟩

/-- **Executing the batch**, callbacks and all, runs what was due at its start. -/
theorem Handled.ran {i : Nat} {es : List Event} (h : Handled s i es s') (hrep : Represents s) :
    ∃ marks, Ran s s.timerQueue_.clock (s.timerQueue_.due s.timerQueue_.clock) marks s' := by
  obtain ⟨w, hwait, hcompleted⟩ := h.completed
  obtain ⟨active, s₁, hs₁, hopened, hadv, hrep₁⟩ := hrep.expire_completed h.idle hwait hcompleted
  have hstep : step s (.expire i) = .ok s₁ := hs₁
  have hrun := h.run
  rw [run_cons, hstep, ok_bind] at hrun
  rcases (During.start hrep i active).advance hopened hadv with ⟨marks, hduring⟩ | ⟨hidle, hran⟩
  · refine hduring.run es hrep₁ hrun h.finished fun pre s₂ hpre hne hs₂ => ?_
    refine h.busy pre s₂ hpre hne ?_
    rw [run_cons, hstep, ok_bind, hs₂]
  · have hlast : es = [] := by
      by_contra hne
      refine h.busy [] s₁ (List.nil_prefix) (Ne.symm hne) ?_ hidle
      rw [run_cons, hstep]
      rfl
    subst hlast
    obtain rfl : s₁ = s' := by simpa using hrun
    exact ⟨[], hran⟩

/-! ## Starts

  Which timers were started over a whole run, and that each was due. -/

/-- Whatever is in the batch was due when its handler started, and is as it was; a one-shot
    timer that was started is in the batch being executed. The first part carries over from
    one event to the next because no event writes to a timer that is held outside the sets. -/
structure DueInv (s : IOLoop) : Prop where
  marked : ∀ n, .started n ∈ s.trace → n ≤ s.timerQueue_.s_numCreated_
  clock : ∀ x ∈ s.running, x.now ≤ s.timerQueue_.clock
  batch : ∀ x ∈ s.running, ∀ entry ∈ x.ran ++ x.left, (ofLex entry).1 ≤ x.now ∧
    ∃ t, s.timerQueue_.heap (ofLex entry).2 = some t ∧ t.expiration_ = (ofLex entry).1
  once : ∀ a t, s.timerQueue_.heap a = some t → t.repeat_ = false → .started t.sequence_ ∈ s.trace →
    ∃ x ∈ s.running, a ∈ addrs x.ran

/-- A callback that an event starts is that of a timer that is due, and of a one-shot timer it
    is the first. It is about one event, from any state that a run reaches. -/
def StartsDue (s : IOLoop) : Prop :=
  ∀ e s' n, step s e = .ok s' → s'.trace = s.trace ++ [.started n] →
    ∃ a t, s.timerQueue_.heap a = some t ∧ t.sequence_ = n ∧ t.expiration_ ≤ s.timerQueue_.clock ∧
      (t.repeat_ = false → .started n ∉ s.trace)

namespace DueInv

/-- An event that starts no callback and leaves the timers that are there, but for the cancelled
    ones outside the batch. -/
theorem of_same (h : DueInv s) (hrun : s'.running = s.running)
    (htrace : ∀ n, .started n ∈ s'.trace → .started n ∈ s.trace)
    (hcreated : s.timerQueue_.s_numCreated_ ≤ s'.timerQueue_.s_numCreated_)
    (hclock : s.timerQueue_.clock ≤ s'.timerQueue_.clock)
    (hheld : ∀ a ∈ addrs s.batch, ∀ t, s.timerQueue_.heap a = some t →
      s'.timerQueue_.heap a = some t)
    (hheap : ∀ a t, s'.timerQueue_.heap a = some t →
      s.timerQueue_.heap a = some t ∨ s.timerQueue_.s_numCreated_ < t.sequence_) : DueInv s' where
  marked := fun n hn => le_trans (h.marked n (htrace n hn)) hcreated
  clock := fun x hx => le_trans (h.clock x (hrun ▸ hx)) hclock
  batch := by
    intro x hx entry hentry
    rw [hrun] at hx
    obtain ⟨hle, t, ht, he⟩ := h.batch x hx entry hentry
    refine ⟨hle, t, hheld _ ?_ t ht, he⟩
    rw [IOLoop.batch, Option.mem_def.mp hx]
    exact List.mem_map_of_mem hentry
  once := by
    intro a t ht hone hstarted
    rcases hheap a t ht with ht | hnew
    · rw [hrun]
      exact h.once a t ht hone (htrace _ hstarted)
    · exact absurd (h.marked _ (htrace _ hstarted)) (Nat.not_le.mpr hnew)

/-- The handler goes on: what it starts is in the batch from now on, and what it deletes is gone. -/
theorem advance (h : DueInv s) (hrep : Represents s) (hadv : Advance s s') : DueInv s' := by
  cases hadv with
  | starts hrun ht =>
    rename_i now ran left entry t
    -- the one new mark is that of the callback that starts
    have hmarks : ∀ n, TimerMark.started n ∈ s.trace ++ [.started t.sequence_] ↔
        .started n ∈ s.trace ∨ n = t.sequence_ := by
      intro n
      rw [List.mem_append, List.mem_singleton, TimerMark.started.injEq]
    have hx : (⟨now, ran, entry :: left⟩ : Expiry) ∈ s.running := Option.mem_def.mpr hrun
    refine ⟨?_, ?_, ?_, ?_⟩
    · intro n hn
      rcases (hmarks n).mp hn with hn | rfl
      · exact h.marked n hn
      · exact (hrep.owns.ledger.range (numberAt_of_heap ht)).2
    · intro x hx'
      obtain rfl := Option.some.inj hx'
      have hle : now ≤ s.timerQueue_.clock := h.clock _ hx
      exact hle
    · intro x hx' y hy
      obtain rfl := Option.some.inj hx'
      refine h.batch _ hx y ?_
      rwa [List.append_assoc, List.singleton_append] at hy
    · intro a u hu hone hstarted
      refine ⟨_, rfl, ?_⟩
      rw [addrs_append]
      rcases (hmarks _).mp hstarted with hstarted | hseq
      · obtain ⟨x, hx', ha⟩ := h.once a u hu hone hstarted
        obtain rfl := Option.some.inj (hx'.symm.trans hrun)
        exact List.mem_append_left _ ha
      · obtain rfl : a = (ofLex entry).2 := hrep.owns.ledger.unique
          (hseq ▸ numberAt_of_heap hu) (numberAt_of_heap ht)
        exact List.mem_append_right _ (List.mem_singleton_self _)
  | finishes hrun hrenews howns =>
    rename_i now ran q
    obtain ⟨-, -, hheap, -, hcreated, -, -⟩ := rearmed_frame q
    refine ⟨?_, fun x hx => (by cases hx), fun x hx => (by cases hx), ?_⟩
    · intro n hn
      refine le_of_le_of_eq (h.marked n hn) ?_
      exact (hcreated.trans hrenews.shrinks.created).symm
    · -- a one-shot timer that was started is in `ran`, and deleted with it
      intro a t ht hone hstarted
      change q.rearmed.heap a = some t at ht
      rw [hheap] at ht
      have hn := hrenews.shrinks.alive (numberAt_of_heap ht)
      obtain ⟨u, hu, hseq⟩ := heap_of_numberAt hn
      change s.timerQueue_.heap a = some u at hu
      by_cases ha : a ∈ addrs ran
      · by_cases hback : u.repeat_ = true ∧ toLex (a, u.sequence_) ∉ s.timerQueue_.cancelingTimers_
        · obtain ⟨hrestart, -⟩ := hrenews.restarts ha hu hback.1 hback.2
          obtain rfl : u.restart now = t := Option.some.inj (hrestart.symm.trans ht)
          rw [Timer.restart, if_pos hback.1] at hone
          cases hback.1.symm.trans hone
        · obtain ⟨hnone, -⟩ := hrenews.drops ha hu fun hrepeat => by
            by_contra hnot
            exact hback ⟨hrepeat, hnot⟩
          cases hnone.symm.trans ht
      · have hsame : s.timerQueue_.heap a = some t := (hrenews.heap_eq ha).symm.trans ht
        obtain ⟨x, hx, hmem⟩ := h.once a t hsame hone hstarted
        obtain rfl := Option.some.inj (hx.symm.trans hrun)
        exact absurd hmem ha

/-- The batch is taken: what is due leaves the sets. -/
theorem opened (h : DueInv s) (hrep : Represents s) (hrun : s.running = none) (i : Nat)
    (active : OrderedSet ActiveTimer) : DueInv (s.opened i active) where
  marked := h.marked
  clock := by
    intro x hx
    obtain rfl := Option.some.inj hx
    exact le_rfl
  batch := by
    rintro x hx ⟨e, a⟩ hentry
    obtain rfl := Option.some.inj hx
    obtain ⟨hmem, hle⟩ := hrep.owns.mem_before.mp hentry
    exact ⟨hle, hrep.owns.keyed hmem⟩
  once := by
    intro a t ht hone hstarted
    obtain ⟨x, hx, -⟩ := h.once a t ht hone hstarted
    cases hrun.symm.trans hx

/-- **Every event keeps it.** A callback that adds or cancels timers does so to the sets, never to
    the batch. -/
theorem effect (h : DueInv s) (hrep : Represents s) {e : Event} (heff : Effect s e s') :
    DueInv s' := by
  have hcancel : ∀ timerId, DueInv
      ((s.setQueue (s.timerQueue_.cancelled timerId)).mark (.cancelled timerId.sequence_)) := by
    intro timerId
    refine h.of_same rfl ?_ (Shrinks.cancelled _ _).created.ge (cancelled_frame _ _).2.2.ge ?_ ?_
    · intro n hn
      refine (List.mem_append.mp hn).resolve_right fun hmem => ?_
      cases List.mem_singleton.mp hmem
    · intro a ha t ht
      by_cases hact : toLex (timerId.timer_, timerId.sequence_) ∈ s.timerQueue_.activeTimers_
      · obtain ⟨u, hu, -, -⟩ := hrep.owns.active.mp hact
        have hne : a ≠ timerId.timer_ := by
          rintro rfl
          exact hrep.owns.not_active (List.mem_append_right _ ha) hact
        show (s.timerQueue_.cancelled timerId).heap a = some t
        rw [cancelled_of_active hact hu]
        exact (heap_freed_of_ne hne).trans ht
      · show (s.timerQueue_.cancelled timerId).heap a = some t
        rw [cancelled_of_not_active hact]
        split <;> exact ht
    · exact fun a t ht => Or.inl (heap_of_cancelled ht)
  cases heff with
  | stays => exact h
  | createsPosted hfree =>
    exact h.of_same rfl (fun _ => id) (Nat.le_succ _) le_rfl
      (fun _ _ _ ht => heap_allocate_of_alive hfree ht) fun _ _ ht => heap_of_allocate ht
  | creates hfree =>
    rename_i a when interval
    obtain ⟨hheap, -, -, hclock⟩ := added_frame (s.timerQueue_.allocate a when interval) a
      (.new when interval (s.timerQueue_.s_numCreated_ + 1))
    have hcreated := (Shrinks.added (s.timerQueue_.allocate a when interval) a
      (.new when interval (s.timerQueue_.s_numCreated_ + 1))).created
    refine h.of_same rfl (fun _ => id) ?_ hclock.ge ?_ ?_
    · exact le_of_le_of_eq (Nat.le_succ _) hcreated.symm
    · intro b _ t ht
      exact (congrFun hheap b).trans (heap_allocate_of_alive hfree ht)
    · intro b t ht
      exact heap_of_allocate ((congrFun hheap b).symm.trans ht)
  | postsCancel hi =>
    exact h.of_same rfl (fun _ => id) le_rfl le_rfl (fun _ _ _ => id) fun _ _ => Or.inl
  | cancels hi => exact hcancel _
  | insertsPosted hrun hi ht =>
    rename_i i a t
    obtain ⟨hheap, -, -, hclock⟩ := added_frame s.timerQueue_ a t
    refine h.of_same rfl (fun _ => id) (Shrinks.added s.timerQueue_ a t).created.ge hclock.ge ?_ ?_
    · exact fun b _ u hu => (congrFun hheap b).trans hu
    · exact fun b u hu => Or.inl ((congrFun hheap b).symm.trans hu)
  | cancelsPosted hrun hi =>
    exact (hcancel _).of_same rfl (fun _ => id) le_rfl le_rfl (fun _ _ _ => id) fun _ _ => Or.inl
  | completes i =>
    rw [complete]
    split
    · exact h
    · split
      · exact h.of_same rfl (fun _ => id) le_rfl le_rfl (fun _ _ _ => id) fun _ _ => Or.inl
      · exact h
  | ticks d =>
    rw [tick]
    split
    · refine h.of_same rfl (fun _ => id) le_rfl ?_ (fun _ _ _ => id) fun _ _ => Or.inl
      exact Int.le_add_of_nonneg_right (Int.natCast_nonneg d)
    · exact h
  | expires hrun hopened hadv => exact (h.opened hrep hrun _ _).advance hopened hadv
  | advances hadv => exact h.advance hrep hadv

/-- A callback that is started is that of a timer whose time has come. The clock may have gone
    on since the batch was taken, but not back. -/
theorem advance_starts (h : DueInv s) (hrep : Represents s) (hadv : Advance s s')
    (htrace : s'.trace = s.trace ++ [.started n]) :
    ∃ a t, s.timerQueue_.heap a = some t ∧ t.sequence_ = n ∧ t.expiration_ ≤ s.timerQueue_.clock ∧
      (t.repeat_ = false → .started n ∉ s.trace) := by
  cases hadv with
  | starts hrun ht =>
    rename_i now ran left entry t
    have hx : (⟨now, ran, entry :: left⟩ : Expiry) ∈ s.running := Option.mem_def.mpr hrun
    obtain rfl : t.sequence_ = n :=
      TimerMark.started.inj (List.singleton_inj.mp (List.append_cancel_left htrace))
    obtain ⟨hle, u, hu, he⟩ := h.batch _ hx entry (List.mem_append_right _ List.mem_cons_self)
    obtain rfl : u = t := Option.some.inj (hu.symm.trans ht)
    refine ⟨_, u, ht, rfl, ?_, fun hone hstarted => ?_⟩
    · rw [he]
      exact le_trans hle (h.clock _ hx)
    · -- it would be in the batch twice
      obtain ⟨x, hx', ha⟩ := h.once _ u ht hone hstarted
      obtain rfl := Option.some.inj (hx'.symm.trans hrun)
      have hnodup := hrep.owns.held_nodup
      rw [held_of_running hrun, addrs_append] at hnodup
      have hapart := (List.nodup_append.mp hnodup).2.1
      exact (List.nodup_append.mp hapart).2.2 _ ha _ List.mem_cons_self rfl
  | finishes =>
    exact absurd (List.self_eq_append_right.mp htrace) (List.cons_ne_nil _ _)

/-- So no callback is started before its time. -/
theorem startsDue (h : DueInv s) (hrep : Represents s) : StartsDue s := by
  intro e s' n hstep htrace
  obtain ⟨s'', hs'', heff, -⟩ := step_effect hrep e
  obtain rfl := Except.ok.inj (hs''.symm.trans hstep)
  have hquiet : ∀ {r : IOLoop}, r.trace = s.trace → r.trace ≠ s.trace ++ [.started n] := by
    intro r hr heq
    exact absurd (List.self_eq_append_right.mp (hr.symm.trans heq)) (List.cons_ne_nil _ _)
  have hcancels : ∀ timerId : TimerId, s.trace ++ [.cancelled timerId.sequence_] ≠
      s.trace ++ [.started n] := by
    intro timerId heq
    cases List.singleton_inj.mp (List.append_cancel_left heq)
  cases heff with
  | stays | createsPosted | creates | postsCancel | insertsPosted =>
    exact absurd htrace (hquiet rfl)
  | cancels | cancelsPosted => exact absurd htrace (hcancels _)
  | completes i =>
    refine absurd htrace (hquiet ?_)
    rw [complete]
    split
    · rfl
    · split <;> rfl
  | ticks d =>
    refine absurd htrace (hquiet ?_)
    rw [tick]
    split <;> rfl
  | expires hrun hopened hadv => exact (h.opened hrep hrun _ _).advance_starts hopened hadv htrace
  | advances hadv => exact h.advance_starts hrep hadv htrace

end DueInv

/-! ## Every run

  The invariant of the run, and with it the theorem about every handler in it. -/

/-- In a new loop nothing is running. -/
theorem new_dueInv (now : Timestamp) : DueInv (new now) where
  marked := fun _ h => absurd h List.not_mem_nil
  clock := fun _ h => by cases h
  batch := fun _ h => by cases h
  once := fun _ _ h => by cases h

/-- **An expiry handler runs exactly what is due**, in every state that a run reaches: the batch is
    what has expired, in order; a handler, with whatever happens until it finishes, does to the
    batch and to the other timers what `Ran` says; and whatever starts a callback starts that of a
    timer that is due. -/
theorem expiry_runs_due (now : Timestamp) (es : List Event) (hrun : run step (new now) es = .ok s) :
    (∀ now', TakesDue s.timerQueue_ now') ∧
      (∀ i es' s', Handled s i es' s' → ∃ marks,
        Ran s s.timerQueue_.clock (s.timerQueue_.due s.timerQueue_.clock) marks s') ∧
      StartsDue s := by
  have hstep : ∀ s e, (Represents s ∧ DueInv s) →
      Holds (fun s => Represents s ∧ DueInv s) (fun _ => False) (step s e) := by
    rintro s e ⟨hrep, hinv⟩
    obtain ⟨s', hs', heff, hrep'⟩ := step_effect hrep e
    rw [hs']
    exact .ok ⟨hrep', hinv.effect hrep heff⟩
  have hall := run_keeps hstep es _ ⟨new_represents now, new_dueInv now⟩
  rw [hrun] at hall
  obtain ⟨hrep, hinv⟩ := holds_ok.mp hall
  exact ⟨fun now' => hrep.owns.takesDue now', fun i es' s' h => h.ran hrep, hinv.startsDue hrep⟩

section Examples

/-- Two timers are due, a repeating one and one that runs once, and a third is not. -/
def twoDue : List Event :=
  [.addTimer true 16 500 ⟨true, 1000⟩, .addTimer true 32 600 ⟨false, 0⟩,
    .addTimer true 48 9000 ⟨false, 0⟩, .tick 2000, .complete 0]

/-- The first callback adds a timer, the second one cancels the third timer. -/
def twoCallbacks : List Event :=
  [.addTimer true 64 8000 ⟨false, 0⟩, .returned, .cancel true 2, .returned]

/-- The conditions can be met: two timers are due, and their callbacks make calls. -/
theorem expiry_runs_due_twoDue : ∃ s s', run step (new 1) twoDue = .ok s ∧
    Handled s 0 twoCallbacks s' ∧ s.timerQueue_.due 2001 = [toLex (500, 16), toLex (600, 32)] ∧
    ∃ marks, Ran s s.timerQueue_.clock (s.timerQueue_.due s.timerQueue_.clock) marks s' := by
  have hstart : (run step (new 1) twoDue).toOption.map (fun s => (s.running,
      s.timerQueue_.steadyTimer_[0]?.map Wait.completed, s.timerQueue_.due 2001)) =
      some (none, some true, [toLex (500, 16), toLex (600, 32)]) := by decide +kernel
  have hend : (run step (new 1) (twoDue ++ .expire 0 :: twoCallbacks)).toOption.map
      (·.running) = some none := by decide +kernel
  have hbusy : ∀ k < 4, (run step (new 1) (twoDue ++ .expire 0 :: twoCallbacks.take k)).toOption.map
      (·.running.isSome) = some true := by decide +kernel
  cases hs : run step (new 1) twoDue with
  | error f =>
    rw [hs] at hstart
    cases hstart
  | ok s =>
    rw [hs] at hstart
    obtain ⟨hidle, hrest⟩ := Prod.mk.inj (Option.some.inj hstart)
    obtain ⟨hwait, hdue⟩ := Prod.mk.inj hrest
    have hfrom : ∀ es, run step (new 1) (twoDue ++ es) = run step s es := by
      intro es
      rw [run_append, hs, ok_bind]
    rw [hfrom] at hend
    cases hs' : run step s (.expire 0 :: twoCallbacks) with
    | error f =>
      rw [hs'] at hend
      cases hend
    | ok s' =>
      rw [hs'] at hend
      have hhandled : Handled s 0 twoCallbacks s' := by
        refine ⟨hidle, Option.map_eq_some_iff.mp hwait, hs', Option.some.inj hend, ?_⟩
        intro pre s₁ hpre hne hs₁ hnone
        have hlt : pre.length < 4 := Nat.lt_of_le_of_ne hpre.length_le fun hlen =>
          hne (hpre.eq_of_length hlen)
        have hsome := hbusy pre.length hlt
        rw [← List.prefix_iff_eq_take.mp hpre, hfrom, hs₁] at hsome
        change some s₁.running.isSome = some true at hsome
        rw [hnone] at hsome
        cases hsome
      exact ⟨s, s', rfl, hhandled, hdue,
        (expiry_runs_due 1 twoDue hs).2.1 0 twoCallbacks s' hhandled⟩

end Examples

end IOLoop

end IOEvent
