/-
  Ownership of the timers, over all runs of the loop.

  A timer is owned by the handler posted to insert it, by the sets, or by the wait handler that is
  executing its batch.  `Represents` is `Owns` with the first and the last of these as the addresses
  held outside the sets, and with every `TimerId` given out a handle to its timer.  `step_effect`
  takes one event from a state that is `Represents`: the event does not fail, what it does is one of
  the `Effect`s, and the next state is `Represents` again.  `ownership` is the run theorem.

  `step_effect` goes through the code once, event by event, and says what the event does as an
  `Effect`, with `Represents` after it.  What is proved about runs of the queue, here and in the
  later modules, goes by cases on the effect.  `Consistent`, with the one place of every timer,
  is read off the invariant at the end.
-/
import IOEvent.TimerQueue.Expired
import Mathlib.Data.List.Perm.Basic

open Foundation

namespace IOEvent

namespace TimerQueue

variable {q q' : TimerQueue} {a : Addr} {timerId : TimerId}

/-- `timerId` was given out for a timer at its address. The timer may be gone, and then its
    address may be that of a later one, which has another number. -/
def Known (q : TimerQueue) (timerId : TimerId) : Prop :=
  Handle q.numberAt q.s_numCreated_ timerId.timer_ timerId.sequence_

/-- A handle outlives the deletion of its timer. -/
theorem Known.shrinks (h : q.Known timerId) (hs : Shrinks q q') : q'.Known timerId := by
  rw [Known, hs.created]
  exact Handle.of_alive h hs.alive

/-- It outlives a new timer, also at its own address. -/
theorem Known.allocate {when : Timestamp} {interval : Interval} (h : q.Known timerId) :
    (q.allocate a when interval).Known timerId := by
  rw [Known, numberAt_allocate]
  exact Handle.allocate h

/-- The handle of a new timer. -/
theorem Owns.known_allocate {held : List Addr} {when : Timestamp} {interval : Interval}
    (h : Owns q held) : (q.allocate a when interval).Known ⟨a, q.s_numCreated_ + 1⟩ := by
  rw [Known, numberAt_allocate]
  exact Handle.of_allocate h.ledger

end TimerQueue

open TimerQueue

namespace IOLoop

variable {s s' : IOLoop}

/-! ## The owners

  Besides the sets, a timer can be held by a posted handler or by the batch. -/

/-- The timers whose insertion is posted. -/
def pendingAddrs (s : IOLoop) : List Addr :=
  s.posted.filterMap fun
    | .addTimerInThisThread timer => some timer
    | .cancelInThisThread _ => none

/-- The batch being executed. -/
def batch (s : IOLoop) : List Entry :=
  match s.running with
  | none => []
  | some h => h.ran ++ h.left

/-- The timers owned outside the sets. A timer in the sets is owned by these, so the list with
    the sets is everything there is in memory. -/
def held (s : IOLoop) : List Addr := s.pendingAddrs ++ addrs s.batch

/-- The invariant of the loop: the queue owns its timers with those that the loop holds, and
    every `TimerId`, returned or posted, is a handle. The queue by itself keeps `Owns` with
    whatever is held outside of it; here this is what the handlers and the batch hold. -/
structure Represents (s : IOLoop) : Prop where
  owns : Owns s.timerQueue_ s.held
  known : ∀ timerId ∈ s.timerIds, s.timerQueue_.Known timerId
  known_posted : ∀ timerId, .cancelInThisThread timerId ∈ s.posted → s.timerQueue_.Known timerId
  calling : s.timerQueue_.callingExpiredTimers_ = s.running.isSome

/-- A timer whose insertion is posted is pending. -/
theorem mem_pendingAddrs {a : Addr} : a ∈ s.pendingAddrs ↔ .addTimerInThisThread a ∈ s.posted := by
  rw [pendingAddrs, List.mem_filterMap]
  constructor
  · rintro ⟨task, htask, heq⟩
    cases task with
    | addTimerInThisThread timer => exact Option.some.inj heq ▸ htask
    | cancelInThisThread timerId => cases heq
  · exact fun h => ⟨_, h, rfl⟩

/-- Taking a posted handler out of the queue. -/
theorem posted_perm {i : Nat} {task : TimerTask} (hi : s.posted[i]? = some task) :
    (task :: s.posted.eraseIdx i).Perm s.posted := by
  obtain ⟨hlt, rfl⟩ := List.getElem?_eq_some_iff.mp hi
  exact List.getElem_cons_eraseIdx_perm hlt

/-- Running its insertion takes it from the pending ones. -/
theorem pendingAddrs_erase_add {i : Nat} {a : Addr}
    (hi : s.posted[i]? = some (.addTimerInThisThread a)) :
    s.pendingAddrs.Perm (a :: ({ s with posted := s.posted.eraseIdx i } : IOLoop).pendingAddrs) :=
  ((posted_perm hi).filterMap _).symm

/-- Running a cancel takes none. -/
theorem pendingAddrs_erase_cancel {i : Nat} {timerId : TimerId}
    (hi : s.posted[i]? = some (.cancelInThisThread timerId)) :
    s.pendingAddrs.Perm ({ s with posted := s.posted.eraseIdx i } : IOLoop).pendingAddrs :=
  ((posted_perm hi).filterMap _).symm

/-! ## What one event does

  The later modules go through these cases and not through the code, so all that an event can
  do to the loop is said here once. -/

/-- The state in which the wait handler has the batch and has started no callback. -/
def opened (s : IOLoop) (i : Nat) (active : OrderedSet ActiveTimer) : IOLoop :=
  { s with
    timerQueue_ := { s.timerQueue_ with
      steadyTimer_ := s.timerQueue_.steadyTimer_.eraseIdx i
      timers_ := s.timerQueue_.timers_.fromBound (sentinel s.timerQueue_.clock)
      activeTimers_ := active
      cancelingTimers_ := .empty
      callingExpiredTimers_ := true }
    running := some ⟨s.timerQueue_.clock, [],
      s.timerQueue_.timers_.before (sentinel s.timerQueue_.clock)⟩ }

/-- The wait handler goes on. When there is nothing left to start, `reset` is executed and the
    handler returns. -/
inductive Advance (s : IOLoop) : IOLoop → Prop
  | starts {now : Timestamp} {ran left : List Entry} {entry : Entry} {t : Timer}
      (hrun : s.running = some ⟨now, ran, entry :: left⟩)
      (ht : s.timerQueue_.heap (ofLex entry).2 = some t) :
      Advance s { s.mark (.started t.sequence_) with running := some ⟨now, ran ++ [entry], left⟩ }
  | finishes {now : Timestamp} {ran : List Entry} {q : TimerQueue}
      (hrun : s.running = some ⟨now, ran, []⟩)
      (hrenews : Renews now (addrs ran) { s.timerQueue_ with callingExpiredTimers_ := false } q)
      (howns : Owns q s.pendingAddrs) :
      Advance s { s.setQueue q.rearmed with running := none }

/-- What one event does to a state in which the timers are owned as they should be. An event
    that cannot happen `stays`. -/
inductive Effect (s : IOLoop) : Event → IOLoop → Prop
  | stays (e : Event) : Effect s e s
  /-- `addTimer` on another thread. -/
  | createsPosted {a : Addr} {when : Timestamp} {interval : Interval}
      (hfree : s.timerQueue_.heap a = none) :
      Effect s (.addTimer false a when interval)
        { (s.setQueue (s.timerQueue_.allocate a when interval)).post (.addTimerInThisThread a) with
          timerIds := s.timerIds ++ [⟨a, s.timerQueue_.s_numCreated_ + 1⟩] }
  /-- `addTimer` on the loop thread. -/
  | creates {a : Addr} {when : Timestamp} {interval : Interval}
      (hfree : s.timerQueue_.heap a = none) :
      Effect s (.addTimer true a when interval)
        { s.setQueue ((s.timerQueue_.allocate a when interval).added a
            (.new when interval (s.timerQueue_.s_numCreated_ + 1))) with
          timerIds := s.timerIds ++ [⟨a, s.timerQueue_.s_numCreated_ + 1⟩] }
  | postsCancel {i : Nat} {timerId : TimerId} (hi : s.timerIds[i]? = some timerId) :
      Effect s (.cancel false i) (s.post (.cancelInThisThread timerId))
  | cancels {i : Nat} {timerId : TimerId} (hi : s.timerIds[i]? = some timerId) :
      Effect s (.cancel true i)
        ((s.setQueue (s.timerQueue_.cancelled timerId)).mark (.cancelled timerId.sequence_))
  | insertsPosted {i : Nat} {a : Addr} {t : Timer} (hrun : s.running = none)
      (hi : s.posted[i]? = some (.addTimerInThisThread a)) (ht : s.timerQueue_.heap a = some t) :
      Effect s (.runPosted i)
        { s.setQueue (s.timerQueue_.added a t) with posted := s.posted.eraseIdx i }
  | cancelsPosted {i : Nat} {timerId : TimerId} (hrun : s.running = none)
      (hi : s.posted[i]? = some (.cancelInThisThread timerId)) :
      Effect s (.runPosted i)
        { (s.setQueue (s.timerQueue_.cancelled timerId)).mark (.cancelled timerId.sequence_) with
          posted := s.posted.eraseIdx i }
  | completes (i : Nat) : Effect s (.complete i) (s.complete i)
  | ticks (d : Nat) : Effect s (.tick d) (s.tick d)
  | expires {i : Nat} {active : OrderedSet ActiveTimer} {s' : IOLoop} (hrun : s.running = none)
      (hopened : Represents (s.opened i active)) (hadv : Advance (s.opened i active) s') :
      Effect s (.expire i) s'
  | advances {s' : IOLoop} (hadv : Advance s s') : Effect s .returned s'

/-! ## One event keeps the ownership

  For each event its case of `Effect`, and that the timers are owned afterwards. -/

/-- An idle loop holds what is pending. -/
theorem held_of_idle (hrun : s.running = none) : s.held = s.pendingAddrs := by
  rw [held, batch, hrun, addrs_nil, List.append_nil]

/-- So the ownership is in order with those. -/
theorem owns_of_idle (hrun : s.running = none) (h : Owns s.timerQueue_ s.pendingAddrs) :
    Owns s.timerQueue_ s.held := by
  rwa [held_of_idle hrun]

/-- A running one holds the batch besides. -/
theorem held_of_running {now : Timestamp} {ran left : List Entry}
    (hrun : s.running = some ⟨now, ran, left⟩) :
    s.held = s.pendingAddrs ++ addrs (ran ++ left) := by
  rw [held, batch, hrun]

/-- Posting an insertion makes its timer held. -/
theorem held_post_add (s : IOLoop) (a : Addr) :
    (a :: s.held).Perm (s.post (.addTimerInThisThread a)).held := by
  have happ : (s.post (.addTimerInThisThread a)).pendingAddrs = s.pendingAddrs ++ [a] :=
    List.filterMap_append
  show (a :: (s.pendingAddrs ++ addrs s.batch)).Perm
    ((s.post (.addTimerInThisThread a)).pendingAddrs ++ addrs s.batch)
  rw [happ, List.append_assoc, List.singleton_append]
  exact List.perm_middle.symm

/-- Posting a cancel does not. -/
theorem held_post_cancel (s : IOLoop) (timerId : TimerId) :
    (s.post (.cancelInThisThread timerId)).held = s.held := by
  have happ : (s.post (.cancelInThisThread timerId)).pendingAddrs = s.pendingAddrs ++ [] :=
    List.filterMap_append
  show (s.post (.cancelInThisThread timerId)).pendingAddrs ++ addrs s.batch = s.held
  rw [happ, List.append_nil]
  rfl

/-- **An insertion runs without a fault.** -/
theorem perform_add {a : Addr} {t : Timer} {held : List Addr}
    (h : Owns s.timerQueue_ (a :: held)) (ht : s.timerQueue_.heap a = some t) :
    s.perform (.addTimerInThisThread a) = .ok (s.setQueue (s.timerQueue_.added a t)) := by
  dsimp only [perform]
  rw [h.addTimerInThisThread_eq ht]
  rfl

/-- **So does a cancel**, and is entered. -/
theorem perform_cancel {timerId : TimerId} {held : List Addr} (h : Owns s.timerQueue_ held) :
    s.perform (.cancelInThisThread timerId) =
      .ok ((s.setQueue (s.timerQueue_.cancelled timerId)).mark (.cancelled timerId.sequence_)) := by
  dsimp only [perform]
  rw [h.cancelInThisThread_eq]
  rfl

namespace Represents

/-- **So does the wait handler**, from one callback to the next and at the end of the batch. -/
theorem advance (h : Represents s) (hsome : s.running.isSome = true) :
    ∃ s', s.advance = .ok s' ∧ Advance s s' ∧ Represents s' := by
  obtain ⟨⟨now, ran, left⟩, hrun⟩ := Option.isSome_iff_exists.mp hsome
  have howns := h.owns
  rw [held_of_running hrun] at howns
  cases left with
  | cons entry left =>
    -- the next callback is started; the owners are the same
    obtain ⟨t, ht⟩ := howns.held_live (a := (ofLex entry).2) (by simp)
    refine ⟨_, ?_, .starts hrun ht, ?_⟩
    · rw [IOLoop.advance, hrun]
      dsimp only
      rw [deref_eq ht]
      rfl
    · refine ⟨?_, h.known, h.known_posted, ?_⟩
      · have hrun' : ({ s.mark (.started t.sequence_) with
            running := some ⟨now, ran ++ [entry], left⟩ } : IOLoop).running =
          some ⟨now, ran ++ [entry], left⟩ := rfl
        rw [held_of_running hrun', List.append_assoc, List.singleton_append]
        exact howns
      · exact h.calling.trans hsome
  | nil =>
    -- the batch is given up
    rw [List.append_nil] at howns
    have hq : Owns { s.timerQueue_ with callingExpiredTimers_ := false }
        (addrs ran ++ s.pendingAddrs) :=
      (howns.of_perm List.perm_append_comm).of_same rfl rfl rfl rfl rfl
    obtain ⟨q, hq', howns', hrenews⟩ := Owns.renew_run now ran _ hq
    refine ⟨_, ?_, .finishes hrun hrenews howns', ?_⟩
    · rw [IOLoop.advance, hrun]
      dsimp only
      rw [reset, hq', ok_bind, howns'.rearm_eq]
      rfl
    · have hflag : Shrinks s.timerQueue_ { s.timerQueue_ with callingExpiredTimers_ := false } :=
        .of_same rfl rfl rfl
      have hshrinks : Shrinks s.timerQueue_ q.rearmed :=
        (hflag.trans hrenews.shrinks).trans (.rearmed q)
      refine ⟨?_, fun timerId hid => (h.known timerId hid).shrinks hshrinks,
        fun timerId hid => (h.known_posted timerId hid).shrinks hshrinks, ?_⟩
      · exact owns_of_idle rfl howns'.rearmed
      · have hcalling : q.callingExpiredTimers_ = false := hrenews.callingExpiredTimers_eq
        rcases rearmed_cases q with heq | ⟨when, heq⟩
        · exact (congrArg callingExpiredTimers_ heq).trans hcalling
        · exact (congrArg callingExpiredTimers_ heq).trans hcalling

/-- The handler of a completed wait takes its batch and starts the first callback, if there is
    one. -/
theorem expire_completed (h : Represents s) {i : Nat} {w : Wait} (hrun : s.running = none)
    (hwait : s.timerQueue_.steadyTimer_[i]? = some w) (hcompleted : w.completed = true) :
    ∃ active s', s.expire i = .ok s' ∧ Represents (s.opened i active) ∧
      Advance (s.opened i active) s' ∧ Represents s' := by
  have howns := h.owns
  rw [held_of_idle hrun] at howns
  have hq : Owns { s.timerQueue_ with steadyTimer_ := s.timerQueue_.steadyTimer_.eraseIdx i }
      s.pendingAddrs := howns.of_same rfl rfl rfl rfl rfl
  obtain ⟨active, hexpired, hbatch⟩ := hq.getExpired_eq s.timerQueue_.clock
  have hopened : Represents (s.opened i active) := by
    have hshrinks : Shrinks s.timerQueue_ (s.opened i active).timerQueue_ := .of_same rfl rfl rfl
    refine ⟨?_, fun timerId hid => (h.known timerId hid).shrinks hshrinks,
      fun timerId hid => (h.known_posted timerId hid).shrinks hshrinks, rfl⟩
    exact (hbatch.of_perm List.perm_append_comm).of_same rfl rfl rfl rfl rfl
  obtain ⟨s', hs', hadv, hrep⟩ := hopened.advance rfl
  refine ⟨active, s', ?_, hopened, hadv, hrep⟩
  obtain ⟨armedAt, deadline, completed⟩ := w
  obtain rfl : completed = true := hcompleted
  rw [IOLoop.expire, hrun, hwait]
  dsimp only
  rw [hexpired]
  exact hs'

/-- So does its start. -/
theorem expire (h : Represents s) (i : Nat) :
    ∃ s', s.expire i = .ok s' ∧ Effect s (.expire i) s' ∧ Represents s' := by
  by_cases hdue : s.running = none ∧ ∃ w, s.timerQueue_.steadyTimer_[i]? = some w ∧
      w.completed = true
  · obtain ⟨hrun, w, hwait, hcompleted⟩ := hdue
    obtain ⟨active, s', hs', hopened, hadv, hrep⟩ := h.expire_completed hrun hwait hcompleted
    exact ⟨s', hs', .expires hrun hopened hadv, hrep⟩
  · refine ⟨s, ?_, .stays _, h⟩
    unfold IOLoop.expire
    split
    case h_1 hrun hwait => exact absurd ⟨hrun, _, hwait, rfl⟩ hdue
    case h_2 => rfl

/-- A new timer is held by the handler posted for it. -/
theorem allocate_post (h : Represents s) {a : Addr} {when : Timestamp} {interval : Interval}
    (hbound : a < uintptrMax) (hfree : s.timerQueue_.heap a = none) :
    Represents ((s.setQueue (s.timerQueue_.allocate a when interval)).post
      (.addTimerInThisThread a)) := by
  have halloc : Owns (s.timerQueue_.allocate a when interval) (a :: s.held) :=
    h.owns.allocate hfree hbound
  refine ⟨?_, fun timerId hid => (h.known timerId hid).allocate, ?_, h.calling⟩
  · exact halloc.of_perm
      (held_post_add (s.setQueue (s.timerQueue_.allocate a when interval)) a)
  · intro timerId hid
    rcases List.mem_append.mp hid with hid | hid
    · exact (h.known_posted timerId hid).allocate
    · cases List.mem_singleton.mp hid

/-- A handle may be returned. -/
theorem return_id (h : Represents s) {timerId : TimerId} (hknown : s.timerQueue_.Known timerId) :
    Represents { s with timerIds := s.timerIds ++ [timerId] } := by
  refine ⟨h.owns, fun timerId' hid => ?_, h.known_posted, h.calling⟩
  rcases List.mem_append.mp hid with hid | hid
  · exact h.known timerId' hid
  · rw [List.mem_singleton.mp hid]
    exact hknown

/-- `addTimer` on the loop thread puts the new timer into the sets at once. -/
theorem addTimer_inLoop (h : Represents s) {a : Addr} {when : Timestamp} {interval : Interval}
    (hfree : 0 < a ∧ a < uintptrMax ∧ s.timerQueue_.heap a = none) :
    s.addTimer true a when interval =
      .ok { s.setQueue ((s.timerQueue_.allocate a when interval).added a
          (.new when interval (s.timerQueue_.s_numCreated_ + 1))) with
        timerIds := s.timerIds ++ [⟨a, s.timerQueue_.s_numCreated_ + 1⟩] } := by
  have hheap : (s.timerQueue_.allocate a when interval).heap a =
      some (.new when interval (s.timerQueue_.s_numCreated_ + 1)) := heap_allocate
  have hadd := perform_add (s := s.setQueue (s.timerQueue_.allocate a when interval))
    (h.owns.allocate hfree.2.2 hfree.2.1) hheap
  have hframe := added_frame (s.timerQueue_.allocate a when interval) a
    (.new when interval (s.timerQueue_.s_numCreated_ + 1))
  unfold IOLoop.addTimer
  rw [if_pos hfree]
  dsimp only [dispatch]
  rw [if_pos rfl, hadd, ok_bind]
  exact congrArg (· >>= _) (congrArg (within _) (deref_eq (hframe.1 ▸ hheap)))

/-- So does `addTimer`, on either thread. -/
theorem addTimer (h : Represents s) (isInLoopThread : Bool) (a : Addr) (when : Timestamp)
    (interval : Interval) : ∃ s', s.addTimer isInLoopThread a when interval = .ok s' ∧
      Effect s (.addTimer isInLoopThread a when interval) s' ∧ Represents s' := by
  by_cases hvalid : 0 < a ∧ a < uintptrMax ∧ s.timerQueue_.heap a = none
  case neg => exact ⟨s, if_neg hvalid, .stays _, h⟩
  case pos =>
    have hbound := hvalid.2.1
    have hfree := hvalid.2.2
    have halloc : Owns (s.timerQueue_.allocate a when interval) (a :: s.held) :=
      h.owns.allocate hfree hbound
    have hheap : (s.timerQueue_.allocate a when interval).heap a =
        some (.new when interval (s.timerQueue_.s_numCreated_ + 1)) := heap_allocate
    cases isInLoopThread with
    -- from another thread the new timer goes to the posted handler
    | false =>
      refine ⟨_, ?_, .createsPosted hfree, ?_⟩
      · rw [IOLoop.addTimer, if_pos hvalid]
        show (within _ ((s.timerQueue_.allocate a when interval).deref a) >>= fun t => _) = _
        rw [deref_eq hheap]
        rfl
      · exact (h.allocate_post hbound hfree).return_id h.owns.known_allocate
    -- on the loop thread it goes into the sets at once
    | true =>
      have hframe := added_frame (s.timerQueue_.allocate a when interval) a
        (.new when interval (s.timerQueue_.s_numCreated_ + 1))
      have hshrinks := Shrinks.added (s.timerQueue_.allocate a when interval) a
        (.new when interval (s.timerQueue_.s_numCreated_ + 1))
      have hadded : Represents (s.setQueue ((s.timerQueue_.allocate a when interval).added a
          (.new when interval (s.timerQueue_.s_numCreated_ + 1)))) :=
        ⟨halloc.added hheap, fun timerId hid => (h.known timerId hid).allocate.shrinks hshrinks,
          fun timerId hid => (h.known_posted timerId hid).allocate.shrinks hshrinks,
          hframe.2.2.1.trans h.calling⟩
      exact ⟨_, h.addTimer_inLoop hvalid, .creates hfree,
        hadded.return_id (h.owns.known_allocate.shrinks hshrinks)⟩

/-- So does `cancel`, on either thread. -/
theorem cancel (h : Represents s) (isInLoopThread : Bool) (i : Nat) :
    ∃ s', s.cancel isInLoopThread i = .ok s' ∧
      Effect s (.cancel isInLoopThread i) s' ∧ Represents s' := by
  unfold IOLoop.cancel
  split
  case h_1 => exact ⟨s, rfl, .stays _, h⟩
  case h_2 timerId hi =>
    have hknown : s.timerQueue_.Known timerId := h.known timerId (List.mem_of_getElem? hi)
    cases isInLoopThread with
    | false =>
      refine ⟨_, rfl, .postsCancel hi, ?_⟩
      refine ⟨(held_post_cancel s timerId).symm ▸ h.owns, h.known, ?_, h.calling⟩
      intro timerId' hid
      rcases List.mem_append.mp hid with hid | hid
      · exact h.known_posted timerId' hid
      · cases List.mem_singleton.mp hid
        exact hknown
    | true =>
      have hshrinks := Shrinks.cancelled s.timerQueue_ timerId
      refine ⟨_, perform_cancel h.owns, .cancels hi, h.owns.cancelled timerId, ?_, ?_, ?_⟩
      · exact fun timerId' hid => (h.known timerId' hid).shrinks hshrinks
      · exact fun timerId' hid => (h.known_posted timerId' hid).shrinks hshrinks
      · exact (cancelled_frame s.timerQueue_ timerId).2.1.trans h.calling

/-- A posted insertion is executed. -/
theorem runPosted_add (h : Represents s) {i : Nat} {a : Addr} {t : Timer} (hrun : s.running = none)
    (hi : s.posted[i]? = some (.addTimerInThisThread a)) (ht : s.timerQueue_.heap a = some t) :
    s.runPosted i =
      .ok { s.setQueue (s.timerQueue_.added a t) with posted := s.posted.eraseIdx i } := by
  have howns := h.owns
  rw [held_of_idle hrun] at howns
  unfold IOLoop.runPosted
  split
  case h_1 cb hrun' hi' =>
    obtain rfl := Option.some.inj (hi'.symm.trans hi)
    exact perform_add (s := { s with posted := s.posted.eraseIdx i })
      (howns.of_perm (pendingAddrs_erase_add hi)) ht
  case h_2 hbusy => exact absurd hi (hbusy _ hrun)

/-- So does a posted handler. -/
theorem runPosted (h : Represents s) (i : Nat) :
    ∃ s', s.runPosted i = .ok s' ∧ Effect s (.runPosted i) s' ∧ Represents s' := by
  unfold IOLoop.runPosted
  split
  case h_2 => exact ⟨s, rfl, .stays _, h⟩
  case h_1 cb hrun hi =>
    -- the loop is idle, so what it holds is what is posted
    have howns := h.owns
    rw [held_of_idle hrun] at howns
    have hsub : ∀ {task}, task ∈ s.posted.eraseIdx i → task ∈ s.posted := fun hmem =>
      List.mem_of_mem_eraseIdx hmem
    cases cb with
    | addTimerInThisThread a =>
      have hq : Owns s.timerQueue_
          (a :: ({ s with posted := s.posted.eraseIdx i } : IOLoop).pendingAddrs) :=
        howns.of_perm (pendingAddrs_erase_add hi)
      obtain ⟨t, ht⟩ := hq.held_live List.mem_cons_self
      have hshrinks := Shrinks.added s.timerQueue_ a t
      refine ⟨_, perform_add hq ht, .insertsPosted hrun hi ht, ?_, ?_, ?_, ?_⟩
      · exact owns_of_idle hrun (hq.added ht)
      · exact fun timerId hid => (h.known timerId hid).shrinks hshrinks
      · exact fun timerId hid => (h.known_posted timerId (hsub hid)).shrinks hshrinks
      · exact (added_frame s.timerQueue_ a t).2.2.1.trans h.calling
    | cancelInThisThread timerId =>
      have hq : Owns s.timerQueue_
          ({ s with posted := s.posted.eraseIdx i } : IOLoop).pendingAddrs :=
        howns.of_perm (pendingAddrs_erase_cancel hi)
      have hshrinks := Shrinks.cancelled s.timerQueue_ timerId
      refine ⟨_, perform_cancel hq, .cancelsPosted hrun hi, ?_, ?_, ?_, ?_⟩
      · exact owns_of_idle hrun (hq.cancelled timerId)
      · exact fun timerId' hid => (h.known timerId' hid).shrinks hshrinks
      · exact fun timerId' hid => (h.known_posted timerId' (hsub hid)).shrinks hshrinks
      · exact (cancelled_frame s.timerQueue_ timerId).2.1.trans h.calling

/-- The waits and the clock do not matter. -/
theorem of_steadyTimer (h : Represents s) (waits : List Wait) (clock : Timestamp) :
    Represents (s.setQueue { s.timerQueue_ with steadyTimer_ := waits, clock := clock }) :=
  ⟨h.owns.of_same rfl rfl rfl rfl rfl, h.known, h.known_posted, h.calling⟩

end Represents

/-- **One event**: it does not fail, and its effect keeps every timer owned. This is where the
    code is gone through; what comes after it goes through the effects. -/
theorem step_effect (h : Represents s) (e : Event) :
    ∃ s', step s e = .ok s' ∧ Effect s e s' ∧ Represents s' := by
  cases e with
  | addTimer isInLoopThread a when interval => exact h.addTimer isInLoopThread a when interval
  | cancel isInLoopThread i => exact h.cancel isInLoopThread i
  | runPosted i => exact h.runPosted i
  | complete i =>
    refine ⟨_, rfl, .completes i, ?_⟩
    unfold complete
    split
    · exact h
    · split
      · exact h.of_steadyTimer _ _
      · exact h
  | expire i => exact h.expire i
  | returned =>
    -- with nothing running a return is no event
    cases hrun : s.running with
    | none =>
      refine ⟨s, ?_, .stays _, h⟩
      rw [step, advance, hrun]
      rfl
    | some x =>
      obtain ⟨s', hs', hadv, hrep⟩ := h.advance (hrun ▸ rfl)
      exact ⟨s', hs', .advances hadv, hrep⟩
  | tick d =>
    refine ⟨_, rfl, .ticks d, ?_⟩
    unfold tick
    split
    · exact h.of_steadyTimer _ _
    · exact h

/-! ## Where every timer is

  The places are read off the ownership.  That a timer is at one of them only is what owning it
  once comes to. -/

/-- Where a timer can be. A timer whose insertion is posted is in no set, and one of the batch
    is not either. -/
inductive Place
  | addPending
  | sets
  | batch
  | deleted
  deriving DecidableEq, Repr

/-- The timer number `n` is at a place. -/
def At (s : IOLoop) (n : Nat) : Place → Prop
  | .addPending =>
    ∃ a, .addTimerInThisThread a ∈ s.posted ∧ s.timerQueue_.numberAt a = some n
  | .sets => ∃ e a, toLex (e, a) ∈ s.timerQueue_.timers_ ∧
    toLex (a, n) ∈ s.timerQueue_.activeTimers_ ∧ s.timerQueue_.numberAt a = some n
  | .batch => ∃ a ∈ addrs s.batch, s.timerQueue_.numberAt a = some n
  | .deleted => n ∈ s.timerQueue_.deleted

/-- No timer but the number `n` is affected. Its entries in all the sets stay, and so does
    its memory. -/
structure Spares (n : Nat) (q q' : TimerQueue) : Prop where
  heap : ∀ {a t}, q.heap a = some t → t.sequence_ ≠ n → q'.heap a = some t
  timers : ∀ {a t}, q.heap a = some t → t.sequence_ ≠ n → ∀ {e},
    (toLex (e, a) ∈ q'.timers_ ↔ toLex (e, a) ∈ q.timers_)
  active : ∀ {a m}, m ≠ n → (toLex (a, m) ∈ q'.activeTimers_ ↔ toLex (a, m) ∈ q.activeTimers_)
  canceling : ∀ {a m}, m ≠ n →
    (toLex (a, m) ∈ q'.cancelingTimers_ ↔ toLex (a, m) ∈ q.cancelingTimers_)

/-- The queue and its owners agree about every timer. -/
structure Consistent (s : IOLoop) : Prop where
  /-- `timers_` and `activeTimers_` hold the same timers. -/
  same_timers : ∀ a n, toLex (a, n) ∈ s.timerQueue_.activeTimers_ ↔
    s.timerQueue_.numberAt a = some n ∧ ∃ e, toLex (e, a) ∈ s.timerQueue_.timers_
  keyed : ∀ e a, toLex (e, a) ∈ s.timerQueue_.timers_ →
    ∃ t, s.timerQueue_.heap a = some t ∧ t.expiration_ = e
  one_place : ∀ n, 0 < n → n ≤ s.timerQueue_.s_numCreated_ → ∃! p, At s n p
  /-- Outside the sets a timer is held once. -/
  held_once : s.held.Nodup
  deleted_once : s.timerQueue_.deleted.Nodup
  /-- A cancellation affects the timer it names and no other. -/
  cancel_spares : ∀ timerId, ∃ q', s.timerQueue_.cancelInThisThread timerId = .ok q' ∧
    Spares timerId.sequence_ s.timerQueue_ q'
  /-- A `TimerId` whose timer is deleted names no timer any more. -/
  stale_dead : ∀ timerId ∈ s.timerIds, timerId.sequence_ ∈ s.timerQueue_.deleted →
    ∀ a t, s.timerQueue_.heap a = some t → t.sequence_ ≠ timerId.sequence_

/-- A cancellation leaves every other timer where it is. -/
theorem Spares.cancelled {q : TimerQueue} {held : List Addr} (h : Owns q held) (timerId : TimerId) :
    Spares timerId.sequence_ q (q.cancelled timerId) := by
  by_cases hact : toLex (timerId.timer_, timerId.sequence_) ∈ q.activeTimers_
  · obtain ⟨t, ht, hseq, -⟩ := h.active.mp hact
    have hother : ∀ {a u}, q.heap a = some u → u.sequence_ ≠ timerId.sequence_ →
        a ≠ timerId.timer_ := by
      rintro a u hu hne rfl
      obtain rfl : u = t := Option.some.inj (hu.symm.trans ht)
      exact hne hseq
    rw [cancelled_of_active hact ht]
    refine ⟨?_, ?_, ?_, fun _ => Iff.rfl⟩
    · intro a u hu hne
      exact (heap_freed_of_ne (hother hu hne)).trans hu
    · intro a u hu hne e
      refine OrderedSet.mem_erase.trans (and_iff_right ?_)
      intro heq
      exact hother hu hne (Prod.mk.inj heq).2
    · intro a m hm
      refine OrderedSet.mem_erase.trans (and_iff_right ?_)
      intro heq
      exact hm ((Prod.mk.inj heq).2.trans hseq)
  · rw [cancelled_of_not_active hact]
    split
    · refine ⟨fun hu _ => hu, fun _ _ => Iff.rfl, fun _ => Iff.rfl, ?_⟩
      intro a m hm
      refine OrderedSet.mem_emplace.trans (or_iff_right ?_)
      intro heq
      exact hm (Prod.mk.inj heq).2
    · exact ⟨fun hu _ => hu, fun _ _ => Iff.rfl, fun _ => Iff.rfl, fun _ => Iff.rfl⟩

namespace Represents

/-- A live timer is at one of three places, by the owner of its address. Every address in
    memory has one owner. -/
theorem at_of_alive (h : Represents s) {a : Addr} {n : Nat}
    (hn : s.timerQueue_.numberAt a = some n) : ∃ p, p ≠ .deleted ∧ At s n p := by
  obtain ⟨t, ht, hseq⟩ := heap_of_numberAt hn
  rcases h.owns.owned ht with ha | hent
  · rcases List.mem_append.mp ha with ha | ha
    · exact ⟨.addPending, by decide, a, mem_pendingAddrs.mp ha, hn⟩
    · exact ⟨.batch, by decide, a, ha, hn⟩
  · exact ⟨.sets, by decide, _, a, hent, (h.owns.mem_active ht).mpr ⟨hseq, hent⟩, hn⟩

/-- Two places of one timer are the same place. -/
theorem at_unique (h : Represents s) {n : Nat} {p p' : Place} (hp : At s n p) (hp' : At s n p') :
    p = p' := by
  have hnodup := List.nodup_append.mp h.owns.held_nodup
  -- two owners that are not `deleted` share the address of the timer
  have hpb : At s n .addPending → ¬ At s n .batch := by
    rintro ⟨a, ha, hna⟩ ⟨b, hb, hnb⟩
    obtain rfl := h.owns.ledger.unique hna hnb
    exact hnodup.2.2 a (mem_pendingAddrs.mpr ha) a hb rfl
  have hps : At s n .addPending → ¬ At s n .sets := by
    rintro ⟨a, ha, hna⟩ ⟨e, b, hb, -, hnb⟩
    obtain rfl := h.owns.ledger.unique hna hnb
    exact h.owns.held_apart (List.mem_append_left _ (mem_pendingAddrs.mpr ha)) hb
  have hbs : At s n .batch → ¬ At s n .sets := by
    rintro ⟨a, ha, hna⟩ ⟨e, b, hb, -, hnb⟩
    obtain rfl := h.owns.ledger.unique hna hnb
    exact h.owns.held_apart (List.mem_append_right _ ha) hb
  have hd : ∀ {p}, At s n p → At s n .deleted → p = .deleted := by
    intro p hp hdel
    cases p with
    | addPending =>
      obtain ⟨a, -, hn⟩ := hp
      exact absurd hn (h.owns.ledger.dead hdel)
    | sets =>
      obtain ⟨e, a, -, -, hn⟩ := hp
      exact absurd hn (h.owns.ledger.dead hdel)
    | batch =>
      obtain ⟨a, -, hn⟩ := hp
      exact absurd hn (h.owns.ledger.dead hdel)
    | deleted => rfl
  cases p <;> cases p' <;> first
    | rfl
    | exact hd hp hp'
    | exact (hd hp' hp).symm
    | exact absurd hp' (hpb hp)
    | exact absurd hp (hpb hp')
    | exact absurd hp' (hps hp)
    | exact absurd hp (hps hp')
    | exact absurd hp' (hbs hp)
    | exact absurd hp (hbs hp')

/-- The invariant has the property in it. -/
theorem consistent (h : Represents s) : Consistent s where
  same_timers := by
    intro a n
    rw [h.owns.active]
    constructor
    · rintro ⟨t, ht, rfl, hent⟩
      exact ⟨numberAt_of_heap ht, _, hent⟩
    · rintro ⟨hn, e, hent⟩
      obtain ⟨t, ht, hseq⟩ := heap_of_numberAt hn
      obtain ⟨u, hu, rfl⟩ := h.owns.keyed hent
      obtain rfl : u = t := Option.some.inj (hu.symm.trans ht)
      exact ⟨u, hu, hseq, hent⟩
  keyed := fun _ _ hmem => h.owns.keyed hmem
  one_place := by
    intro n h0 hle
    have hsome : ∃ p, At s n p := by
      rcases h.owns.ledger.all h0 hle with hdel | ⟨a, ha⟩
      · exact ⟨.deleted, hdel⟩
      · obtain ⟨p, -, hp⟩ := h.at_of_alive ha
        exact ⟨p, hp⟩
    obtain ⟨p, hp⟩ := hsome
    exact ⟨p, hp, fun p' hp' => h.at_unique hp' hp⟩
  held_once := h.owns.held_nodup
  deleted_once := h.owns.ledger.deleted_nodup
  cancel_spares := fun timerId =>
    ⟨_, h.owns.cancelInThisThread_eq timerId, .cancelled h.owns timerId⟩
  stale_dead := by
    rintro timerId - hdel a t ht heq
    exact h.owns.ledger.dead hdel (heq ▸ numberAt_of_heap ht)

end Represents

/-! ## Every run

  No condition: whatever the users call, with whatever `TimerId`s. -/

/-- A new loop owns nothing. -/
theorem new_represents (now : Timestamp) : Represents (new now) where
  owns := by
    refine ⟨Ledger.start, ?_, ?_, ?_, List.nodup_nil, ?_, ?_, ?_⟩
    · intro a t h
      cases h
    · intro e a h
      exact absurd h (OrderedSet.not_mem_empty _)
    · intro a n
      constructor
      · exact fun h => absurd h (OrderedSet.not_mem_empty _)
      · rintro ⟨t, ht, -⟩
        cases ht
    · intro a h
      exact absurd h List.not_mem_nil
    · intro a e h
      exact absurd h List.not_mem_nil
    · intro a t h
      cases h
  known := fun _ h => absurd h List.not_mem_nil
  known_posted := fun _ h => absurd h List.not_mem_nil
  calling := rfl

/-- **Every event keeps the invariant**, and none fails. -/
theorem step_represents {s : IOLoop} (h : Represents s) (e : Event) :
    Holds Represents (fun _ => False) (step s e) := by
  obtain ⟨s', hs', -, h'⟩ := step_effect h e
  rw [hs']
  exact .ok h'

/-- **Ownership.**  Whatever is added, cancelled and run, from any thread and in any order, no
    assertion fails, no deleted timer is touched or deleted again, and the queue is consistent in
    every state. -/
theorem ownership (now : Timestamp) (es : List Event) :
    Holds Consistent (fun _ => False) (run step (new now) es) :=
  (run_keeps (fun _ e h => step_represents h e) es _ (new_represents now)).mono
    (fun _ h => h.consistent) fun _ h => h

end IOLoop

end IOEvent
