/-
  The calls of every timer, over whole runs.

  `Timed` is a loop with two histories: what each `addTimer` was given, in the order of the sequence
  numbers, and the callbacks that were started, each with the `now` of the handler that started it.
  `keeps_deadlines` reads a timer off them alone: it is not called before its `when`; once if its
  interval is not positive, and otherwise with its interval between any two calls; and it is not
  deleted unless it was cancelled, or was to be called once and has been.

  The proof is an invariant about the timers that are there (`Inv`): what each was given, and
  that it expires an interval behind its last call, unless it is in the batch and was called in
  it.  A callback that is started is then due, and an interval behind the one before; and the
  end of a batch restores the distance for the timers that repeat.
-/
import IOEvent.TimerQueue.Batch
import IOEvent.TimerQueue.Wakeup

open Foundation

namespace IOEvent

open TimerQueue

/-- What `addTimer` was given. That of the timer number `n + 1` is at the index `n` of
    the history. -/
structure TimerAdded where
  when : Timestamp
  interval : Interval
  deriving DecidableEq, Repr

/-- A callback that was started, and the `now` of the handler. -/
structure TimerCall where
  sequence : Nat
  now : Timestamp
  deriving DecidableEq, Repr

/-- A loop with its history. The calls are entered with the time that the code compares the
    expirations with, which is taken once for a batch. -/
structure Timed where
  loop : IOLoop
  added : List TimerAdded
  calls : List TimerCall

namespace Timed

variable {w w' : Timed} {s s' : IOLoop} {a : Addr} {t : Timer} {n : Nat} {c : Timestamp}
    {p : TimerAdded}

/-- A new loop: no timers added, no calls made. -/
def start (now : Timestamp) : Timed := ⟨.new now, [], []⟩

/-- What the event gave to a timer that it has created. -/
def addedBy (s : IOLoop) (e : IOLoop.Event) (s' : IOLoop) : List TimerAdded :=
  match e with
  | .addTimer _ _ when interval =>
    if s.timerQueue_.s_numCreated_ < s'.timerQueue_.s_numCreated_ then [⟨when, interval⟩] else []
  | _ => []

/-- The callback that has been started between two states. An event starts one
    callback at most. -/
def calledBy (s s' : IOLoop) : List TimerCall :=
  match s'.trace.drop s.trace.length, s'.running with
  | [.started sequence], some x => [⟨sequence, x.now⟩]
  | _, _ => []

/-- One event, with what it adds and which calls it makes. -/
def step (w : Timed) (e : IOLoop.Event) : Outcome TimerQueue.Fault Timed Timed := do
  let s' ← within (fun s => { w with loop := s }) (w.loop.step e)
  return ⟨s', w.added ++ addedBy w.loop e s', w.calls ++ calledBy w.loop s'⟩

/-- The timer number `n`; the first number is 1. -/
def timer (w : Timed) : Nat → Option TimerAdded
  | 0 => none
  | n + 1 => w.added[n]?

/-- The times at which the timer number `n` was called, in order. -/
def callsOf (w : Timed) (n : Nat) : List Timestamp :=
  (w.calls.filter (·.sequence = n)).map TimerCall.now

/-! ## The property

  Read off the histories, for each number by itself. -/

/-- Every timer has been called when it should, and none is lost. Each part speaks of one
    number, and looks at nothing but the two histories, the trace and the numbers deleted. -/
structure Punctual (w : Timed) : Prop where
  due : ∀ n, ∀ c ∈ w.callsOf n, ∃ p, w.timer n = some p ∧ p.when ≤ c
  once : ∀ n p, w.timer n = some p → p.interval.positive = false → (w.callsOf n).length ≤ 1
  spaced : ∀ n p, w.timer n = some p →
    (w.callsOf n).Pairwise fun c c' => c + p.interval.micros ≤ c'
  kept : ∀ n ∈ w.loop.timerQueue_.deleted, .cancelled n ∈ w.loop.trace ∨
    ∃ p, w.timer n = some p ∧ p.interval.positive = false ∧ w.callsOf n ≠ []

/-- A positive interval is no negative number of microseconds, and the expirations that
    `reset` computes do not overflow. The first part is what an interval in seconds always
    meets, as long as it does not overflow when it is converted. -/
def Exact (w : Timed) : IOLoop.Event → Prop
  | .addTimer _ _ _ interval => interval.positive = true → 0 ≤ interval.micros
  | .returned =>
    match w.loop.running with
    | some ⟨now, ran, []⟩ => w.loop.timerQueue_.RestartsFit now ran
    | _ => True
  | _ => True

/-- Whether an event computes its deadlines exactly can be computed. -/
instance (w : Timed) (e : IOLoop.Event) : Decidable (w.Exact e) := by
  unfold Exact
  split
  · infer_instance
  · split <;> infer_instance
  · infer_instance

/-! ## The invariant

  For each timer that is there: what it was given, and where its next call is in relation to
  the last one. -/

/-- How the timers that are there are related to their calls. A timer that is gone needs no
    relation: its calls are over, and `Punctual` speaks of those that were made. -/
structure Inv (w : Timed) : Prop where
  represents : w.loop.Represents
  dueInv : w.loop.DueInv
  created : w.added.length = w.loop.timerQueue_.s_numCreated_
  traced : ∀ n, w.callsOf n ≠ [] ↔ .started n ∈ w.loop.trace
  valid : ∀ p ∈ w.added, p.interval.positive = true → 0 ≤ p.interval.micros
  live : ∀ a t, w.loop.timerQueue_.heap a = some t → ∃ p, w.timer t.sequence_ = some p ∧
    p.interval = t.interval_ ∧ p.interval.positive = t.repeat_ ∧ p.when ≤ t.expiration_
  /-- The timer is in the batch and has been called, or its next call is an interval away. -/
  next : ∀ a t, w.loop.timerQueue_.heap a = some t → ∀ c ∈ w.callsOf t.sequence_,
    (∃ x ∈ w.loop.running, a ∈ addrs x.ran ∧ c ≤ x.now) ∨ c + t.interval_.micros ≤ t.expiration_
  /-- What has been called in the batch has been called. -/
  ran : ∀ x ∈ w.loop.running, ∀ a ∈ addrs x.ran, ∀ t, w.loop.timerQueue_.heap a = some t →
    w.callsOf t.sequence_ ≠ []
  canceling : ∀ a n, toLex (a, n) ∈ w.loop.timerQueue_.cancelingTimers_ →
    .cancelled n ∈ w.loop.trace
  punctual : w.Punctual

/-- With no timers there is nothing to be late for. -/
theorem inv_start (now : Timestamp) : (start now).Inv where
  represents := IOLoop.new_represents now
  dueInv := IOLoop.new_dueInv now
  created := rfl
  traced := fun _ => iff_of_false (fun h => h rfl) List.not_mem_nil
  valid := fun _ h => absurd h List.not_mem_nil
  live := fun _ _ h => by cases h
  next := fun _ _ h => by cases h
  ran := fun _ h => by cases h
  canceling := fun _ _ h => absurd h (OrderedSet.not_mem_empty _)
  punctual :=
    ⟨fun _ _ h => absurd h List.not_mem_nil, fun _ _ _ _ => Nat.zero_le 1,
      fun _ _ _ => List.Pairwise.nil, fun _ h => absurd h List.not_mem_nil⟩

/-! ## What the events add to the history

  An event adds one timer, or one call, or nothing.  The longer fields of the invariant have
  lemmas of their own. -/

/-- An event that enters nothing makes no call. -/
theorem calledBy_of_same (h : s'.trace = s.trace) : calledBy s s' = [] := by
  rw [calledBy, h, List.drop_length]

/-- Nor does one that enters a cancel. -/
theorem calledBy_of_cancelled (h : s'.trace = s.trace ++ [.cancelled n]) : calledBy s s' = [] := by
  rw [calledBy, h, List.drop_left]

/-- One that starts a callback makes its call, at the time of the batch. -/
theorem calledBy_of_started {x : Expiry} (h : s'.trace = s.trace ++ [.started n])
    (hrun : s'.running = some x) : calledBy s s' = [⟨n, x.now⟩] := by
  rw [calledBy, h, List.drop_left, hrun]

/-- An event that starts no callback, creates no timer and leaves the timers that are there, but for
    those cancelled. -/
theorem Inv.of_same (h : w.Inv) (hrep : s'.Represents) (hdue : s'.DueInv)
    (hrun : s'.running = w.loop.running)
    (hcreated : s'.timerQueue_.s_numCreated_ = w.loop.timerQueue_.s_numCreated_)
    (hstarted : ∀ n, .started n ∈ s'.trace ↔ .started n ∈ w.loop.trace)
    (htrace : w.loop.trace ⊆ s'.trace)
    (hheap : ∀ a t, s'.timerQueue_.heap a = some t → w.loop.timerQueue_.heap a = some t)
    (hcanceling : ∀ a n, toLex (a, n) ∈ s'.timerQueue_.cancelingTimers_ →
      toLex (a, n) ∈ w.loop.timerQueue_.cancelingTimers_ ∨ .cancelled n ∈ s'.trace)
    (hdeleted : ∀ n ∈ s'.timerQueue_.deleted, n ∈ w.loop.timerQueue_.deleted ∨
      .cancelled n ∈ s'.trace) : ({ w with loop := s' } : Timed).Inv where
  represents := hrep
  dueInv := hdue
  created := h.created.trans hcreated.symm
  traced := fun n => (h.traced n).trans (hstarted n).symm
  valid := h.valid
  live := fun a t ht => h.live a t (hheap a t ht)
  next := by
    intro a t ht c hc
    show (∃ x ∈ s'.running, _) ∨ _
    rw [hrun]
    exact h.next a t (hheap a t ht) c hc
  ran := by
    intro x hx a ha t ht
    refine h.ran x ?_ a ha t (hheap a t ht)
    rwa [← hrun]
  canceling := fun a n hmem =>
    (hcanceling a n hmem).elim (fun hmem => htrace (h.canceling a n hmem)) id
  punctual := { h.punctual with
    kept := fun n hn => (hdeleted n hn).elim
      (fun hmem => (h.punctual.kept n hmem).imp_left fun hc => htrace hc) Or.inl }

/-- The timers are those that there were, and the new one. -/
theorem timer_append (w : Timed) (s' : IOLoop) (p : TimerAdded) (n : Nat) :
    (⟨s', w.added ++ [p], w.calls⟩ : Timed).timer n =
      if n = w.added.length + 1 then some p else w.timer n := by
  cases n with
  | zero => rfl
  | succ n =>
    show (w.added ++ [p])[n]? = if n + 1 = w.added.length + 1 then some p else w.added[n]?
    by_cases hn : n = w.added.length
    · rw [hn, if_pos rfl, List.getElem?_concat_length]
    · rw [if_neg fun heq => hn (Nat.succ.inj heq), List.getElem?_append]
      split
      · rfl
      · rw [List.getElem?_eq_none (by rw [List.length_singleton]; omega),
          List.getElem?_eq_none (by omega)]

/-- The timers there were are numbered as before. -/
theorem timer_of_old {p' : TimerAdded} (h : w.timer n = some p') :
    (⟨s', w.added ++ [p], w.calls⟩ : Timed).timer n = some p' := by
  rw [timer_append, if_neg, h]
  rintro rfl
  exact absurd (List.getElem?_eq_some_iff.mp h).1 (Nat.lt_irrefl _)

/-- Nobody has called a timer that is only now created. -/
theorem Inv.uncalled_new (h : w.Inv) : w.callsOf (w.added.length + 1) = [] := by
  have hlength := h.created
  by_contra hcalls
  have hmark := h.dueInv.marked _ ((h.traced _).mp hcalls)
  omega

/-- A timer is one of those that there were, or has not been called. -/
theorem Inv.timer_of_new (h : w.Inv) {p' : TimerAdded}
    (hp : (⟨s', w.added ++ [p], w.calls⟩ : Timed).timer n = some p') :
    w.timer n = some p' ∨ w.callsOf n = [] := by
  rw [timer_append] at hp
  split at hp
  · next hn => exact Or.inr (hn ▸ h.uncalled_new)
  · exact Or.inl hp

/-- A new timer does not touch the calls of the others. Their calls are looked up by number,
    and the new number is none of theirs. -/
theorem Inv.creates_punctual (h : w.Inv) (htrace : s'.trace = w.loop.trace)
    (hdeleted : s'.timerQueue_.deleted = w.loop.timerQueue_.deleted) :
    (⟨s', w.added ++ [p], w.calls⟩ : Timed).Punctual where
  due := by
    intro n c hc
    obtain ⟨p', hp', hle⟩ := h.punctual.due n c hc
    exact ⟨p', timer_of_old hp', hle⟩
  once := by
    intro n p' hp' hone
    rcases h.timer_of_new hp' with hp' | hcalls
    · exact h.punctual.once n p' hp' hone
    · show (w.callsOf n).length ≤ 1
      rw [hcalls]
      exact Nat.zero_le 1
  spaced := by
    intro n p' hp'
    rcases h.timer_of_new hp' with hp' | hcalls
    · exact h.punctual.spaced n p' hp'
    · show (w.callsOf n).Pairwise _
      rw [hcalls]
      exact List.Pairwise.nil
  kept := by
    intro n hn
    rw [show s'.timerQueue_.deleted = _ from hdeleted] at hn
    rcases h.punctual.kept n hn with hcancelled | ⟨p', hp', hrest⟩
    · exact Or.inl (by show _ ∈ s'.trace; rw [htrace]; exact hcancelled)
    · exact Or.inr ⟨p', timer_of_old hp', hrest⟩

/-- An event that creates a timer. -/
theorem Inv.creates (h : w.Inv) (hrep : s'.Represents) (hdue : s'.DueInv) (p : TimerAdded)
    (hvalid : p.interval.positive = true → 0 ≤ p.interval.micros)
    (hrun : s'.running = w.loop.running)
    (hcreated : s'.timerQueue_.s_numCreated_ = w.loop.timerQueue_.s_numCreated_ + 1)
    (htrace : s'.trace = w.loop.trace)
    (hheap : ∀ a t, s'.timerQueue_.heap a = some t → w.loop.timerQueue_.heap a = some t ∨
      w.loop.timerQueue_.heap a = none ∧
        t = .new p.when p.interval (w.loop.timerQueue_.s_numCreated_ + 1))
    (hcanceling : s'.timerQueue_.cancelingTimers_ = w.loop.timerQueue_.cancelingTimers_)
    (hdeleted : s'.timerQueue_.deleted = w.loop.timerQueue_.deleted) :
    (⟨s', w.added ++ [p], w.calls⟩ : Timed).Inv where
  represents := hrep
  dueInv := hdue
  created := by
    show (w.added ++ [p]).length = _
    rw [List.length_append, h.created, hcreated]
    rfl
  traced := by
    intro n
    show w.callsOf n ≠ [] ↔ _ ∈ s'.trace
    rw [htrace]
    exact h.traced n
  valid := by
    intro p' hp' hpos
    rcases List.mem_append.mp hp' with hp' | hp'
    · exact h.valid p' hp' hpos
    · obtain rfl := List.mem_singleton.mp hp'
      exact hvalid hpos
  live := by
    intro a t ht
    rcases hheap a t ht with ht | ⟨hfree, rfl⟩
    · obtain ⟨p', hp', hrest⟩ := h.live a t ht
      exact ⟨p', timer_of_old hp', hrest⟩
    · refine ⟨p, ?_, rfl, rfl, Int.le_refl _⟩
      rw [timer_append]
      exact if_pos (congrArg (· + 1) h.created.symm)
  next := by
    intro a t ht c hc
    show (∃ x ∈ s'.running, _) ∨ _
    rw [hrun]
    rcases hheap a t ht with ht | ⟨hfree, rfl⟩
    · exact h.next a t ht c hc
    · replace hc : c ∈ w.callsOf (w.loop.timerQueue_.s_numCreated_ + 1) := hc
      rw [← h.created, h.uncalled_new] at hc
      exact absurd hc List.not_mem_nil
  -- the batch holds old timers only, so the new address is in none of it
  ran := by
    intro x hx a ha t ht
    rw [show s'.running = w.loop.running from hrun] at hx
    rcases hheap a t ht with ht | ⟨hfree, rfl⟩
    · exact h.ran x hx a ha t ht
    · -- what is in the batch was there before
      obtain ⟨⟨e, b⟩, hentry, rfl⟩ := List.mem_map.mp ha
      obtain ⟨-, u, hu, -⟩ := h.dueInv.batch x hx (e, b) (List.mem_append_left _ hentry)
      cases hfree.symm.trans hu
  canceling := by
    intro a n hmem
    rw [show s'.timerQueue_.cancelingTimers_ = _ from hcanceling] at hmem
    show _ ∈ s'.trace
    rw [htrace]
    exact h.canceling a n hmem
  punctual := h.creates_punctual htrace hdeleted

/-- The handler takes its batch. -/
theorem Inv.opened (h : w.Inv) (hrun : w.loop.running = none) {i : Nat}
    {active : OrderedSet ActiveTimer} (hopened : (w.loop.opened i active).Represents) :
    ({ w with loop := w.loop.opened i active } : Timed).Inv where
  represents := hopened
  dueInv := h.dueInv.opened h.represents hrun i active
  created := h.created
  traced := h.traced
  valid := h.valid
  live := h.live
  next := by
    intro a t ht c hc
    rcases h.next a t ht c hc with ⟨x, hx, -⟩ | hle
    · cases hrun.symm.trans hx
    · exact Or.inr hle
  ran := by
    intro x hx a ha
    obtain rfl := Option.some.inj hx
    exact absurd ha List.not_mem_nil
  canceling := fun _ _ hmem => absurd hmem (OrderedSet.not_mem_empty _)
  punctual := { h.punctual with }

/-- The calls of a timer with one more call, of it or of another. -/
theorem callsOf_append (w : Timed) (s' : IOLoop) (n m : Nat) (now : Timestamp) :
    (⟨s', w.added, w.calls ++ [⟨m, now⟩]⟩ : Timed).callsOf n =
      if m = n then w.callsOf n ++ [now] else w.callsOf n := by
  rw [callsOf, List.filter_append, List.map_append]
  split
  · next hn =>
    rw [List.filter_cons_of_pos (by exact decide_eq_true hn)]
    rfl
  · next hn =>
    rw [List.filter_cons_of_neg (by exact fun heq => hn (of_decide_eq_true heq))]
    exact List.append_nil _

/-- What the batch still has to call has not been called in it. A timer is in the batch once,
    as its address is. -/
theorem Inv.uncalled (h : w.Inv) {now : Timestamp} {ran left : List Entry} {entry : Entry}
    (hrun : w.loop.running = some ⟨now, ran, entry :: left⟩) :
    ∀ x ∈ w.loop.running, (ofLex entry).2 ∉ addrs x.ran := by
  intro x hx ha
  obtain rfl := Option.some.inj (hrun.symm.trans hx)
  have hnodup := h.represents.owns.held_nodup
  rw [IOLoop.held_of_running hrun, addrs_append] at hnodup
  have hapart := (List.nodup_append.mp hnodup).2.1
  exact (List.nodup_append.mp hapart).2.2 _ ha _ List.mem_cons_self rfl

/-- What is in the batch has expired. -/
theorem Inv.expired (h : w.Inv) {x : Expiry} {entry : Entry} (hx : x ∈ w.loop.running)
    (hentry : entry ∈ x.ran ++ x.left) (ht : w.loop.timerQueue_.heap (ofLex entry).2 = some t) :
    t.expiration_ ≤ x.now := by
  obtain ⟨hle, u, hu, he⟩ := h.dueInv.batch _ hx entry hentry
  obtain rfl : u = t := Option.some.inj (hu.symm.trans ht)
  exact he ▸ hle

section Starts

variable {now : Timestamp} {ran left : List Entry} {entry : Entry}

/-- The calls before the one that is started now are an interval away. -/
theorem Inv.spaced_now (h : w.Inv) (hrun : w.loop.running = some ⟨now, ran, entry :: left⟩)
    (ht : w.loop.timerQueue_.heap (ofLex entry).2 = some t) :
    ∀ c ∈ w.callsOf t.sequence_, c + t.interval_.micros ≤ now := by
  intro c hc
  rcases h.next _ t ht c hc with ⟨x, hx, ha, -⟩ | hle
  · exact absurd ha (h.uncalled hrun x hx)
  · exact Int.le_trans hle (h.expired (Option.mem_def.mpr hrun)
      (List.mem_append_right _ List.mem_cons_self) ht)

/-- A timer that is to be called once has not been. -/
theorem Inv.first_call (h : w.Inv) (hrun : w.loop.running = some ⟨now, ran, entry :: left⟩)
    (ht : w.loop.timerQueue_.heap (ofLex entry).2 = some t) (hone : t.repeat_ = false) :
    w.callsOf t.sequence_ = [] := by
  by_contra hcalls
  obtain ⟨x, hx, ha⟩ := h.dueInv.once _ t ht hone ((h.traced _).mp hcalls)
  exact h.uncalled hrun x hx ha

/-- The next call of every timer, when the callback of `entry` has been started. -/
theorem Inv.starts_next (h : w.Inv) (hrun : w.loop.running = some ⟨now, ran, entry :: left⟩)
    (ht : w.loop.timerQueue_.heap (ofLex entry).2 = some t) {b : Addr} {u : Timer}
    (hu : w.loop.timerQueue_.heap b = some u)
    (hc : c ∈ (⟨s', w.added, w.calls ++ [⟨t.sequence_, now⟩]⟩ : Timed).callsOf u.sequence_) :
    (∃ x ∈ some (⟨now, ran ++ [entry], left⟩ : Expiry), b ∈ addrs x.ran ∧ c ≤ x.now) ∨
      c + u.interval_.micros ≤ u.expiration_ := by
  rw [callsOf_append] at hc
  have hold : c ∈ w.callsOf u.sequence_ →
      (∃ x ∈ some (⟨now, ran ++ [entry], left⟩ : Expiry), b ∈ addrs x.ran ∧ c ≤ x.now) ∨
        c + u.interval_.micros ≤ u.expiration_ := by
    intro hc
    rcases h.next b u hu c hc with ⟨x, hx, ha, hle⟩ | hle
    · obtain rfl := Option.some.inj (hrun.symm.trans hx)
      refine Or.inl ⟨_, rfl, ?_, hle⟩
      rw [addrs_append]
      exact List.mem_append_left _ ha
    · exact Or.inr hle
  split at hc
  · next hseq =>
    rcases List.mem_append.mp hc with hc | hc
    · exact hold hc
    · -- the call that is started now; a sequence number names one timer
      obtain rfl := List.mem_singleton.mp hc
      obtain rfl : b = (ofLex entry).2 := h.represents.owns.ledger.unique
        (hseq ▸ numberAt_of_heap hu) (numberAt_of_heap ht)
      refine Or.inl ⟨_, rfl, ?_, Int.le_refl _⟩
      rw [addrs_append]
      exact List.mem_append_right _ (List.mem_singleton_self _)
  · exact hold hc

/-- What has been called in the batch, with `entry`. -/
theorem Inv.starts_ran (h : w.Inv) (hrun : w.loop.running = some ⟨now, ran, entry :: left⟩)
    (ht : w.loop.timerQueue_.heap (ofLex entry).2 = some t) {b : Addr} {u : Timer}
    (hb : b ∈ addrs (ran ++ [entry])) (hu : w.loop.timerQueue_.heap b = some u) :
    (⟨s', w.added, w.calls ++ [⟨t.sequence_, now⟩]⟩ : Timed).callsOf u.sequence_ ≠ [] := by
  rw [callsOf_append]
  split
  · exact List.concat_ne_nil _ _
  · next hseq =>
    rw [addrs_append] at hb
    rcases List.mem_append.mp hb with hb | hb
    · exact h.ran _ (Option.mem_def.mpr hrun) b hb u hu
    · obtain rfl := List.mem_singleton.mp hb
      obtain rfl : u = t := Option.some.inj (hu.symm.trans ht)
      exact absurd rfl hseq

/-- The call that is started is due, it is the first one of a timer that is to be called once,
    and it is an interval after those before it. The expiration of a timer in the batch is no
    later than `now`, and an interval behind its last call. -/
theorem Inv.starts_punctual (h : w.Inv) (hrun : w.loop.running = some ⟨now, ran, entry :: left⟩)
    (ht : w.loop.timerQueue_.heap (ofLex entry).2 = some t)
    (htrace : w.loop.trace ⊆ s'.trace)
    (hdeleted : s'.timerQueue_.deleted = w.loop.timerQueue_.deleted) :
    (⟨s', w.added, w.calls ++ [⟨t.sequence_, now⟩]⟩ : Timed).Punctual := by
  obtain ⟨p, hp, hinterval, hpositive, hwhen⟩ := h.live _ t ht
  have hexpired : t.expiration_ ≤ now := h.expired (Option.mem_def.mpr hrun)
    (List.mem_append_right _ List.mem_cons_self) ht
  refine ⟨?_, ?_, ?_, ?_⟩
  · intro n c hc
    rw [callsOf_append] at hc
    split at hc
    · next hn =>
      rcases List.mem_append.mp hc with hc | hc
      · exact h.punctual.due n c hc
      · obtain rfl := List.mem_singleton.mp hc
        exact ⟨p, hn ▸ hp, Int.le_trans hwhen hexpired⟩
    · exact h.punctual.due n c hc
  · intro n p' hp' hone
    rw [callsOf_append]
    split
    · next hn =>
      subst hn
      obtain rfl : p' = p := Option.some.inj (hp'.symm.trans hp)
      rw [h.first_call hrun ht (hpositive.symm.trans hone)]
      exact Nat.le_refl 1
    · exact h.punctual.once n p' hp' hone
  · intro n p' hp'
    rw [callsOf_append]
    split
    · next hn =>
      subst hn
      obtain rfl : p' = p := Option.some.inj (hp'.symm.trans hp)
      refine List.pairwise_append.mpr
        ⟨h.punctual.spaced _ p' hp', List.pairwise_singleton _ _, fun c hc c' hc' => ?_⟩
      obtain rfl := List.mem_singleton.mp hc'
      rw [hinterval]
      exact h.spaced_now hrun ht c hc
    · exact h.punctual.spaced n p' hp'
  · intro n hn
    replace hn : n ∈ w.loop.timerQueue_.deleted := hdeleted ▸ hn
    rcases h.punctual.kept n hn with hcancelled | ⟨p', hp', hone, hcalls⟩
    · exact Or.inl (htrace hcancelled)
    · refine Or.inr ⟨p', hp', hone, ?_⟩
      rw [callsOf_append]
      split
      · exact List.concat_ne_nil _ _
      · exact hcalls

/-- The next callback is started: it is due, and an interval after those before it. -/
theorem Inv.starts (h : w.Inv) (hrun : w.loop.running = some ⟨now, ran, entry :: left⟩)
    (ht : w.loop.timerQueue_.heap (ofLex entry).2 = some t)
    (hrep : s'.Represents) (hdue : s'.DueInv)
    (hs' : s' = { w.loop.mark (.started t.sequence_) with
      running := some ⟨now, ran ++ [entry], left⟩ }) :
    (⟨s', w.added, w.calls ++ [⟨t.sequence_, now⟩]⟩ : Timed).Inv := by
  subst hs'
  refine ⟨hrep, hdue, h.created, ?_, h.valid, h.live, fun b u hu c hc =>
    h.starts_next hrun ht hu hc, ?_, fun b n hmem => List.mem_append_left _ (h.canceling b n hmem),
    h.starts_punctual hrun ht (List.subset_append_left _ _) rfl⟩
  · intro n
    rw [callsOf_append]
    show _ ↔ _ ∈ w.loop.trace ++ [_]
    rw [List.mem_append, List.mem_singleton, TimerMark.started.injEq, ← h.traced n]
    split
    · next hn => exact iff_of_true (List.concat_ne_nil _ _) (Or.inr hn.symm)
    · next hn => exact (or_iff_left fun heq => hn heq.symm).symm
  · intro x hx b hb u hu
    obtain rfl := Option.some.inj hx
    exact h.starts_ran hrun ht hb hu

end Starts

section Finishes

variable {now : Timestamp} {ran : List Entry} {q : TimerQueue}

/-- The interval of a repeating timer is no negative number. -/
theorem Inv.micros_nonneg (h : w.Inv) (ht : w.loop.timerQueue_.heap a = some t)
    (hrepeat : t.repeat_ = true) : 0 ≤ t.interval_.micros := by
  obtain ⟨p, hp, hinterval, hpositive, -⟩ := h.live a t ht
  have hmem : p ∈ w.added := by
    cases hseq : t.sequence_ with
    | zero =>
      rw [hseq] at hp
      cases hp
    | succ n =>
      rw [hseq] at hp
      exact List.mem_of_getElem? hp
  exact hinterval ▸ h.valid p hmem (hpositive.trans hrepeat)

/-- A timer that is there when the batch is given up was outside of it, or is a repeating
    timer of the batch that has been restarted. The others of the batch are deleted. -/
theorem there_after
    (hrenews : Renews now (addrs ran) { w.loop.timerQueue_ with callingExpiredTimers_ := false } q)
    (hfits : w.loop.timerQueue_.RestartsFit now ran) (ht : q.heap a = some t) :
    (a ∉ addrs ran ∧ w.loop.timerQueue_.heap a = some t) ∨
      ∃ u, a ∈ addrs ran ∧ w.loop.timerQueue_.heap a = some u ∧ u.repeat_ = true ∧
        t = { u with expiration_ := now + u.interval_.micros } := by
  by_cases ha : a ∈ addrs ran
  · obtain ⟨u, hu, -⟩ := heap_of_numberAt (hrenews.shrinks.alive (numberAt_of_heap ht))
    replace hu : w.loop.timerQueue_.heap a = some u := hu
    by_cases hback : u.repeat_ = true ∧ toLex (a, u.sequence_) ∉ w.loop.timerQueue_.cancelingTimers_
    · obtain ⟨hrestart, -⟩ := hrenews.restarts ha hu hback.1 hback.2
      obtain rfl : u.restart now = t := Option.some.inj (hrestart.symm.trans ht)
      obtain ⟨hpos, hlt⟩ := hfits a ha u hu hback.1 hback.2
      refine Or.inr ⟨u, ha, hu, hback.1, ?_⟩
      rw [Timer.restart, if_pos hback.1, Timestamp.addTime,
        wrapInt64_of_range (le_trans (by decide) (le_of_lt hpos)) hlt]
    · obtain ⟨hnone, -⟩ := hrenews.drops ha hu fun hrepeat => by
        by_contra hnot
        exact hback ⟨hrepeat, hnot⟩
      cases hnone.symm.trans ht
  · exact Or.inl ⟨ha, (hrenews.heap_eq ha).symm.trans ht⟩

/-- A timer of the batch has expired. -/
theorem Inv.expired_ran (h : w.Inv) (hrun : w.loop.running = some ⟨now, ran, []⟩)
    (ha : a ∈ addrs ran) (ht : w.loop.timerQueue_.heap a = some t) : t.expiration_ ≤ now := by
  obtain ⟨⟨e, b⟩, hentry, rfl⟩ := List.mem_map.mp ha
  exact h.expired (Option.mem_def.mpr hrun) (List.mem_append_left _ hentry) ht

/-- The timers that are there after the batch are those that were added. -/
theorem Inv.finishes_live (h : w.Inv) (hrun : w.loop.running = some ⟨now, ran, []⟩)
    (hrenews : Renews now (addrs ran) { w.loop.timerQueue_ with callingExpiredTimers_ := false } q)
    (hfits : w.loop.timerQueue_.RestartsFit now ran) (ht : q.heap a = some t) :
    ∃ p, w.timer t.sequence_ = some p ∧ p.interval = t.interval_ ∧ p.interval.positive = t.repeat_ ∧
      p.when ≤ t.expiration_ := by
  rcases there_after hrenews hfits ht with ⟨-, ht⟩ | ⟨u, ha, hu, hrepeat, rfl⟩
  · exact h.live a t ht
  · obtain ⟨p, hp, hinterval, hpositive, hwhen⟩ := h.live a u hu
    refine ⟨p, hp, hinterval, hpositive, ?_⟩
    show p.when ≤ now + u.interval_.micros
    exact Int.le_trans (Int.le_trans hwhen (h.expired_ran hrun ha hu))
      (Int.le_add_of_nonneg_right (h.micros_nonneg hu hrepeat))

/-- After the batch every timer that is there is next called an interval after its calls. -/
theorem Inv.finishes_next (h : w.Inv) (hrun : w.loop.running = some ⟨now, ran, []⟩)
    (hrenews : Renews now (addrs ran) { w.loop.timerQueue_ with callingExpiredTimers_ := false } q)
    (hfits : w.loop.timerQueue_.RestartsFit now ran) (ht : q.heap a = some t)
    (hc : c ∈ w.callsOf t.sequence_) : c + t.interval_.micros ≤ t.expiration_ := by
  rcases there_after hrenews hfits ht with ⟨hnot, ht⟩ | ⟨u, ha, hu, hrepeat, rfl⟩
  · rcases h.next a t ht c hc with ⟨x, hx, ha, -⟩ | hle
    · obtain rfl := Option.some.inj (hrun.symm.trans hx)
      exact absurd ha hnot
    · exact hle
  · have hnow : c ≤ now := by
      rcases h.next a u hu c hc with ⟨x, hx, -, hle⟩ | hle
      · obtain rfl := Option.some.inj (hrun.symm.trans hx)
        exact hle
      · exact Int.le_trans (Int.le_add_of_nonneg_right (h.micros_nonneg hu hrepeat))
          (Int.le_trans hle (h.expired_ran hrun ha hu))
    exact Int.add_le_add_right hnow _

/-- What is deleted with the batch was cancelled, or has been called and is not called again. -/
theorem Inv.finishes_kept (h : w.Inv) (hrun : w.loop.running = some ⟨now, ran, []⟩)
    (hrenews : Renews now (addrs ran) { w.loop.timerQueue_ with callingExpiredTimers_ := false } q)
    (howns : Owns q w.loop.pendingAddrs) (hn : n ∈ q.deleted) : .cancelled n ∈ w.loop.trace ∨
      ∃ p, w.timer n = some p ∧ p.interval.positive = false ∧ w.callsOf n ≠ [] := by
  have hrange := howns.ledger.deleted_range hn
  rw [hrenews.shrinks.created] at hrange
  rcases h.represents.owns.ledger.all hrange.1 hrange.2 with hold | ⟨a, ha⟩
  · exact h.punctual.kept n hold
  · obtain ⟨u, hu, rfl⟩ := heap_of_numberAt ha
    by_cases hmem : a ∈ addrs ran
    · by_cases hrepeat : u.repeat_ = true
      · refine Or.inl (h.canceling a _ ?_)
        by_contra hnot
        obtain ⟨hback, -⟩ := hrenews.restarts hmem hu hrepeat hnot
        exact howns.ledger.dead hn ((numberAt_of_heap hback).trans (by rw [Timer.restart_sequence]))
      · obtain ⟨p, hp, -, hpositive, -⟩ := h.live a u hu
        refine Or.inr ⟨p, hp, ?_, h.ran _ (Option.mem_def.mpr hrun) a hmem u hu⟩
        rw [hpositive]
        exact Bool.not_eq_true _ ▸ hrepeat
    · exact absurd (numberAt_of_heap ((hrenews.heap_eq hmem).trans hu)) (howns.ledger.dead hn)

/-- The batch is given up: a repeating timer is next called an interval after `now`. The
    restart counts from `now`, which is no earlier than any call of the batch. -/
theorem Inv.finishes (h : w.Inv) (hrun : w.loop.running = some ⟨now, ran, []⟩)
    (hrenews : Renews now (addrs ran) { w.loop.timerQueue_ with callingExpiredTimers_ := false } q)
    (howns : Owns q w.loop.pendingAddrs) (hfits : w.loop.timerQueue_.RestartsFit now ran)
    (hrep : s'.Represents) (hdue : s'.DueInv)
    (hs' : s' = { w.loop.setQueue q.rearmed with running := none }) :
    ({ w with loop := s' } : Timed).Inv := by
  obtain ⟨-, -, hheap, hdeleted, hcreated, hcanceling, -⟩ := rearmed_frame q
  subst hs'
  refine ⟨hrep, hdue, ?_, h.traced, h.valid, ?_, ?_, fun _ hx => (by cases hx), ?_,
    { h.punctual with kept := ?_ }⟩
  · exact h.created.trans (hcreated.trans hrenews.shrinks.created).symm
  · exact fun a t ht => h.finishes_live hrun hrenews hfits ((congrFun hheap a).symm.trans ht)
  · exact fun a t ht c hc =>
      Or.inr (h.finishes_next hrun hrenews hfits ((congrFun hheap a).symm.trans ht) hc)
  · intro a n hmem
    refine h.canceling a n ?_
    rwa [← show q.rearmed.cancelingTimers_ = w.loop.timerQueue_.cancelingTimers_ from
      hcanceling.trans hrenews.cancelingTimers_eq]
  · exact fun n hn => h.finishes_kept hrun hrenews howns (hdeleted ▸ hn)

end Finishes

/-! ## One event

  The invariant through each kind of event, put together from the lemmas above. -/

/-- An event without a call changes no times. -/
theorem Inv.quiet (h : ({ w with loop := s' } : Timed).Inv) (hcalled : calledBy w.loop s' = []) :
    (⟨s', w.added, w.calls ++ calledBy w.loop s'⟩ : Timed).Inv := by
  rw [hcalled, List.append_nil]
  exact h

/-- **The wait handler goes on**: a call is made at its time, or the batch is finished and the
    timers that repeat are restarted from the time of the batch. -/
theorem Inv.advance (h : w.Inv) (hadv : IOLoop.Advance w.loop s') (hrep : s'.Represents)
    (hdue : s'.DueInv)
    (hfits : ∀ {now ran}, w.loop.running = some ⟨now, ran, []⟩ →
      w.loop.timerQueue_.RestartsFit now ran) :
    (⟨s', w.added, w.calls ++ calledBy w.loop s'⟩ : Timed).Inv := by
  cases hadv with
  | starts hrun ht =>
    rw [calledBy_of_started rfl rfl]
    exact h.starts hrun ht hrep hdue rfl
  | finishes hrun hrenews howns =>
    exact (h.finishes hrun hrenews howns (hfits hrun) hrep hdue rfl).quiet (calledBy_of_same rfl)

/-- A cancellation deletes no timer but the one it names. A timer of the batch that it names
    is deleted with the batch, and entered as cancelled now. -/
theorem Inv.cancelled (h : w.Inv) (timerId : TimerId) {posted : List TimerTask}
    (hs' : s' = { (w.loop.setQueue (w.loop.timerQueue_.cancelled timerId)).mark
      (.cancelled timerId.sequence_) with posted }) (hrep : s'.Represents) (hdue : s'.DueInv) :
    (⟨s', w.added, w.calls ++ calledBy w.loop s'⟩ : Timed).Inv := by
  have hmark : .cancelled timerId.sequence_ ∈ s'.trace := by
    rw [hs']
    exact List.mem_append_right _ (List.mem_singleton_self _)
  have hcancel : (∀ a n, toLex (a, n) ∈ (w.loop.timerQueue_.cancelled timerId).cancelingTimers_ →
        toLex (a, n) ∈ w.loop.timerQueue_.cancelingTimers_ ∨ n = timerId.sequence_) ∧
      ∀ n ∈ (w.loop.timerQueue_.cancelled timerId).deleted,
        n ∈ w.loop.timerQueue_.deleted ∨ n = timerId.sequence_ := by
    by_cases hact : toLex (timerId.timer_, timerId.sequence_) ∈ w.loop.timerQueue_.activeTimers_
    · obtain ⟨t, ht, hseq, -⟩ := h.represents.owns.active.mp hact
      rw [cancelled_of_active hact ht]
      refine ⟨fun _ _ => Or.inl, fun n hn => ?_⟩
      rcases List.mem_append.mp hn with hn | hn
      · exact Or.inl hn
      · exact Or.inr ((List.mem_singleton.mp hn).trans hseq)
    · rw [cancelled_of_not_active hact]
      split
      · refine ⟨fun a n hn => ?_, fun _ => Or.inl⟩
        rcases OrderedSet.mem_emplace.mp hn with heq | hn
        · exact Or.inr (Prod.mk.inj heq).2
        · exact Or.inl hn
      · exact ⟨fun _ _ => Or.inl, fun _ => Or.inl⟩
  have hshrinks := Shrinks.cancelled w.loop.timerQueue_ timerId
  subst hs'
  refine Inv.quiet ?_ (calledBy_of_cancelled rfl)
  refine h.of_same hrep hdue rfl hshrinks.created ?_ (List.subset_append_left _ _)
    (fun a t => heap_of_cancelled) ?_ ?_
  · intro n
    show _ ∈ w.loop.trace ++ [_] ↔ _
    rw [List.mem_append, or_iff_left]
    intro hmem
    cases List.mem_singleton.mp hmem
  · intro a n hn
    rcases hcancel.1 a n hn with hn | rfl
    · exact Or.inl hn
    · exact Or.inr hmark
  · intro n hn
    rcases hcancel.2 n hn with hn | rfl
    · exact Or.inl hn
    · exact Or.inr hmark

/-- Nothing is called, cancelled, created or deleted. -/
theorem Inv.idles (h : w.Inv) (hrep : s'.Represents) (hdue : s'.DueInv)
    (hrun : s'.running = w.loop.running) (htrace : s'.trace = w.loop.trace)
    (hcreated : s'.timerQueue_.s_numCreated_ = w.loop.timerQueue_.s_numCreated_)
    (hheap : s'.timerQueue_.heap = w.loop.timerQueue_.heap)
    (hcanceling : s'.timerQueue_.cancelingTimers_ = w.loop.timerQueue_.cancelingTimers_)
    (hdeleted : s'.timerQueue_.deleted = w.loop.timerQueue_.deleted) :
    (⟨s', w.added, w.calls ++ calledBy w.loop s'⟩ : Timed).Inv := by
  refine Inv.quiet ?_ (calledBy_of_same htrace)
  refine h.of_same hrep hdue hrun hcreated (fun n => by rw [htrace])
    (by rw [htrace]; exact fun _ => id)
    (fun a t ht => by rwa [hheap] at ht) (fun a n hn => Or.inl (by rwa [hcanceling] at hn))
    fun n hn => Or.inl (by rwa [hdeleted] at hn)

/-- An event that adds no timer adds none to the record. -/
theorem Inv.uncreated (h : w.Inv) {e : IOLoop.Event} {calls : List TimerCall}
    (h' : (⟨s', w.added, calls⟩ : Timed).Inv) :
    (⟨s', w.added ++ addedBy w.loop e s', calls⟩ : Timed).Inv := by
  have hsame : s'.timerQueue_.s_numCreated_ = w.loop.timerQueue_.s_numCreated_ :=
    h'.created.symm.trans h.created
  have hnone : addedBy w.loop e s' = [] := by
    cases e with
    | addTimer isInLoopThread timer when interval =>
      exact if_neg fun hlt => Nat.lt_irrefl _ (hsame ▸ hlt)
    | cancel | runPosted | complete | expire | returned | tick => rfl
  rw [hnone, List.append_nil]
  exact h'

/-- A timer that is added is entered with its times. -/
theorem Inv.created_by (h : w.Inv) {isInLoopThread : Bool} {a : Addr} {when : Timestamp}
    {interval : Interval} (hexact : interval.positive = true → 0 ≤ interval.micros)
    (hrep : s'.Represents) (hdue : s'.DueInv) (hfree : w.loop.timerQueue_.heap a = none)
    (hrun : s'.running = w.loop.running) (htrace : s'.trace = w.loop.trace)
    (hcreated : s'.timerQueue_.s_numCreated_ = w.loop.timerQueue_.s_numCreated_ + 1)
    (hheap : s'.timerQueue_.heap = (w.loop.timerQueue_.allocate a when interval).heap)
    (hcanceling : s'.timerQueue_.cancelingTimers_ = w.loop.timerQueue_.cancelingTimers_)
    (hdeleted : s'.timerQueue_.deleted = w.loop.timerQueue_.deleted) :
    (⟨s', w.added ++ addedBy w.loop (.addTimer isInLoopThread a when interval) s',
      w.calls ++ calledBy w.loop s'⟩ : Timed).Inv := by
  have hadded : addedBy w.loop (.addTimer isInLoopThread a when interval) s' = [⟨when, interval⟩] :=
    if_pos (by rw [hcreated]; exact Nat.lt_succ_self _)
  rw [hadded, calledBy_of_same htrace, List.append_nil]
  refine h.creates hrep hdue ⟨when, interval⟩ hexact hrun hcreated htrace ?_ hcanceling hdeleted
  intro b t ht
  rw [hheap] at ht
  by_cases hb : b = a
  · subst hb
    rw [heap_allocate] at ht
    exact Or.inr ⟨hfree, (Option.some.inj ht).symm⟩
  · rw [heap_allocate_of_ne hb] at ht
    exact Or.inl ht

/-- **Every event keeps the times.** One case for each of their effects. -/
theorem Inv.effect (h : w.Inv) {e : IOLoop.Event} (heff : IOLoop.Effect w.loop e s')
    (hrep : s'.Represents) (hexact : w.Exact e) :
    (⟨s', w.added ++ addedBy w.loop e s', w.calls ++ calledBy w.loop s'⟩ : Timed).Inv := by
  have hdue := h.dueInv.effect h.represents heff
  cases heff with
  | stays => exact h.uncreated (h.idles hrep hdue rfl rfl rfl rfl rfl rfl)
  | createsPosted hfree => exact h.created_by hexact hrep hdue hfree rfl rfl rfl rfl rfl rfl
  | creates hfree =>
    rename_i a when interval
    obtain ⟨hheap, hcanceling, -, -⟩ := added_frame (w.loop.timerQueue_.allocate a when interval) a
      (.new when interval (w.loop.timerQueue_.s_numCreated_ + 1))
    have hcreated := (Shrinks.added (w.loop.timerQueue_.allocate a when interval) a
      (.new when interval (w.loop.timerQueue_.s_numCreated_ + 1))).created
    have hdeleted : ((w.loop.timerQueue_.allocate a when interval).added a
        (.new when interval (w.loop.timerQueue_.s_numCreated_ + 1))).deleted =
          w.loop.timerQueue_.deleted := by
      unfold TimerQueue.added
      split <;> rfl
    exact h.created_by hexact hrep hdue hfree rfl rfl hcreated hheap hcanceling hdeleted
  | postsCancel hi => exact h.uncreated (h.idles hrep hdue rfl rfl rfl rfl rfl rfl)
  | cancels hi => exact h.uncreated (h.cancelled _ rfl hrep hdue)
  | insertsPosted hrun hi ht =>
    rename_i i a t
    obtain ⟨hheap, hcanceling, -, -⟩ := added_frame w.loop.timerQueue_ a t
    have hdeleted : (w.loop.timerQueue_.added a t).deleted = w.loop.timerQueue_.deleted := by
      unfold TimerQueue.added
      split <;> rfl
    exact h.uncreated (h.idles hrep hdue rfl rfl
      (Shrinks.added w.loop.timerQueue_ a t).created hheap
      hcanceling hdeleted)
  | cancelsPosted hrun hi => exact h.uncreated (h.cancelled _ rfl hrep hdue)
  | completes i =>
    refine h.uncreated (h.idles hrep hdue ?_ ?_ ?_ ?_ ?_ ?_) <;>
      · rw [IOLoop.complete]
        split
        · rfl
        · split <;> rfl
  | ticks d =>
    refine h.uncreated (h.idles hrep hdue ?_ ?_ ?_ ?_ ?_ ?_) <;>
      · rw [IOLoop.tick]
        split <;> rfl
  | expires hrun hopened hadv =>
    have hopen := h.opened hrun hopened
    refine h.uncreated (hopen.advance hadv hrep hdue ?_)
    -- a handler with an empty batch restarts nothing
    intro now ran hrun'
    obtain ⟨-, rfl, -⟩ := Expiry.mk.inj (Option.some.inj hrun')
    exact fun a ha => absurd ha List.not_mem_nil
  | advances hadv =>
    refine h.uncreated (h.advance hadv hrep hdue ?_)
    intro now ran hrun
    rw [Exact, hrun] at hexact
    exact hexact

/-! ## Every run

  As long as no expiration overflows, which `Exact` asks of every event. -/

/-- So does every step within the condition. -/
theorem step_inv (h : w.Inv) (e : IOLoop.Event) (hexact : w.Exact e) :
    Holds Inv (fun _ => False) (w.step e) := by
  obtain ⟨s', hs', heff, hrep⟩ := IOLoop.step_effect h.represents e
  rw [step, hs']
  exact .ok (h.effect heff hrep hexact)

/-- **Every timer is called when it should be**, whatever is added, cancelled and run, from any
    thread and in any order: never before its `when`; at most once if its interval is not
    positive; with at least its interval between any two calls otherwise; and it is deleted only
    when it was cancelled, or when it was to be called once and has been. -/
theorem keeps_deadlines (now : Timestamp) {es : List IOLoop.Event}
    (h : Guarded step Exact (start now) es) :
    Holds Punctual (fun _ => False) (run step (start now) es) :=
  (run_holds (fun _ e hw he => step_inv hw e he) es _ (inv_start now) h).mono
    (fun _ hw => hw.punctual) fun _ hf => hf

/-- A repeating timer is called twice and cancelled in its second callback; one that is added on
    another thread is called once. -/
def twoTimers : List IOLoop.Event :=
  [.addTimer true 16 500 ⟨true, 1000⟩, .addTimer false 32 600 ⟨false, 0⟩, .runPosted 0, .tick 2000,
    .complete 0, .expire 0, .returned, .returned, .tick 1500, .complete 0, .expire 0,
    .cancel true 0,
    .returned]

/-- The condition can be met: a timer that repeats and one that does not. -/
theorem keeps_deadlines_twoTimers :
    Holds Punctual (fun _ => False) (run step (start 1) twoTimers) ∧
      (run step (start 1) twoTimers).toOption.map (fun w =>
        (w.callsOf 1, w.callsOf 2, w.loop.timerQueue_.deleted)) =
        some ([2001, 3501], [2001], [2, 1]) :=
  ⟨keeps_deadlines 1 (by decide +kernel), by decide +kernel⟩

end Timed

end IOEvent
