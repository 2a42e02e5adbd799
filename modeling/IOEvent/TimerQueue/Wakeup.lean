/-
  The wake-up of the queue.

  While no expiry handler is running, the earliest timer should have a wait on `steadyTimer_` that
  is due in time.  `resetTimer` arms such a wait (`resetTimer_awake`), for an expiration in the far
  past too: there the difference `when - now` underflows, but so do the nanoseconds computed from
  it, and as long as the clock fits in nanoseconds the wait is due at once (`delay_neg`).  `reset`
  arms a wait for the earliest expiration only if that is `vaild()`, which the expiration of a
  restarted timer is not when `now + interval` overflows: then the timer stays in the sets as the
  earliest, no wait is armed for it, and none for any timer added later.

  `InRange` excludes that.  Under it every timer in the sets has its wait (`WakeInv`), and while a
  handler is running so does every timer with an expiration `≤ 0`, the ones `reset` will not arm a
  wait for: they were added by a callback, which armed one.
-/
import IOEvent.TimerQueue.Ownership

open Foundation

namespace IOEvent

namespace TimerQueue

variable {q : TimerQueue} {a : Addr} {t : Timer} {e : Timestamp} {w : Wait}

/-! ## A wait for an expiration

  A wait need not be the one that was armed for this timer; it has to end in time for it. -/

/-- The wait is due no later than `e`, or at once. -/
def Covers (w : Wait) (e : Timestamp) : Prop := w.deadline ≤ max e w.armedAt * 1000

/-- Whether a wait covers a time can be computed. -/
instance (w : Wait) (e : Timestamp) : Decidable (Covers w e) :=
  inferInstanceAs (Decidable (w.deadline ≤ max e w.armedAt * 1000))

/-- There is a wait that was not aborted and is due for `e`. -/
def Awake (q : TimerQueue) (e : Timestamp) : Prop := ∃ w ∈ q.steadyTimer_, Covers w e

/-- A loop that wakes for one time wakes for every later one. -/
theorem Awake.mono {e' : Timestamp} (h : q.Awake e) (hle : e ≤ e') : q.Awake e' := by
  obtain ⟨w, hw, hcovers⟩ := h
  refine ⟨w, hw, le_trans hcovers ?_⟩
  exact Int.mul_le_mul_of_nonneg_right (max_le_max_right _ hle) (by decide)

/-- Before the last second that nanoseconds in an `int64_t` can tell. -/
def Nanoseconds (now : Int) : Prop := now * 1000 + 1000000000 ≤ 2 ^ 63

/-- The nanoseconds `update` adds to `now` for a difference of `microSeconds` that did not
    underflow. -/
theorem delay_le {now when microSeconds : Int} (h : microSeconds ≤ when - now) :
    now * 1000 + wrapInt64
      ((if microSeconds < 100 then 100 else microSeconds) / 1000000 * 1000000000) ≤
      max when now * 1000 := by
  have hnonneg : 0 ≤ (if microSeconds < 100 then 100 else microSeconds) / 1000000 := by
    split <;> omega
  have hwrap := wrapInt64_le
    (i := (if microSeconds < 100 then 100 else microSeconds) / 1000000 * 1000000000) (by omega)
  refine le_trans (Int.add_le_add_left hwrap _) ?_
  split <;> omega

/-- A difference that underflowed is a little less than `2 ^ 63` microseconds, and so many
    nanoseconds are a little less than `500 * 2 ^ 64`: the second wrap undoes the first. -/
theorem delay_neg {now m : Int} (hm : 0 < m) (hle : m ≤ now) (hnow : Nanoseconds now) :
    wrapInt64 ((2 ^ 63 - m) / 1000000 * 1000000000) < 0 := by
  rw [Nanoseconds] at hnow
  have hdiv := Int.mul_ediv_add_emod (2 ^ 63 - m) 1000000
  have hk0 : 0 ≤ (2 ^ 63 - m) % 1000000 := Int.emod_nonneg _ (by decide)
  have hk1 : (2 ^ 63 - m) % 1000000 < 1000000 := Int.emod_lt_of_pos _ (by decide)
  generalize (2 ^ 63 - m) % 1000000 = k at hdiv hk0 hk1
  have hsplit : (2 ^ 63 - m) / 1000000 * 1000000000 = -(1000 * (m + k)) + 500 * 2 ^ 64 := by omega
  rw [hsplit, wrapInt64_add_mul, wrapInt64_of_range] <;> omega

/-- `resetTimer` arms a wait for `when` at the time `now`: the difference does not underflow, or the
    nanoseconds make up for it. -/
def Armable (now when : Int) : Prop :=
  -2 ^ 63 ≤ when - now ∨ -2 ^ 63 ≤ when ∧ Nanoseconds now

/-- Whether a time can be armed for can be computed. -/
instance (now when : Int) : Decidable (Armable now when) :=
  inferInstanceAs (Decidable (_ ∨ _ ∧ now * 1000 + 1000000000 ≤ 2 ^ 63))

/-- A time behind zero can be armed for, whatever the clock says. -/
theorem armable_of_pos {now when : Int} (hwhen : 0 < when) (hnow : now < 2 ^ 63) :
    Armable now when := by
  left
  omega

/-- **The wait is never too long**: the delay is cut down to whole seconds, so its end is not
    behind the expiration, or not behind now for one that is past. -/
theorem deadline_le {now when : Int} (h : Armable now when) :
    now * 1000 + wrapInt64 ((if wrapInt64 (when - now) < 100 then 100 else
      wrapInt64 (when - now)) / 1000000 * 1000000000) ≤ max when now * 1000 := by
  by_cases hunder : -2 ^ 63 ≤ when - now
  · exact delay_le (wrapInt64_le hunder)
  · obtain ⟨hwhen, hnow⟩ := h.resolve_left hunder
    have hwrap : wrapInt64 (when - now) = 2 ^ 63 - (now - when - 2 ^ 63) := by
      have hback : when - now = 2 ^ 63 - (now - when - 2 ^ 63) + (-1) * 2 ^ 64 := by omega
      rw [Nanoseconds] at hnow
      rw [hback, wrapInt64_add_mul, wrapInt64_of_range] <;> omega
    have hneg := delay_neg (m := now - when - 2 ^ 63) (by omega) (by omega) hnow
    rw [Nanoseconds] at hnow
    rw [hwrap, if_neg (by omega)]
    omega

/-- **`resetTimer`** arms a wait for its argument. -/
theorem resetTimer_awake {when : Timestamp} (h : Armable q.clock when) :
    (q.resetTimer when).Awake when := by
  refine ⟨_, List.mem_append_right _ (List.mem_singleton_self _), ?_⟩
  exact deadline_le h

/-! ## The earliest timer has a wait

  If the earliest timer has one, all have, as a wait that ends in time for one timer does for
  every later one. -/

/-- Every timer in the sets whose expiration is a `P` has a wait. -/
def AwakeFor (P : Timestamp → Prop) (q : TimerQueue) : Prop :=
  ∀ e a, toLex (e, a) ∈ q.timers_ → P e → q.Awake e

variable {P : Timestamp → Prop}

/-- A wait for the earliest timer is one for all. -/
theorem awakeFor_of_earliest {when : Timestamp} (h : q.Awake when)
    (hle : ∀ {e a}, toLex (e, a) ∈ q.timers_ → when ≤ e) : AwakeFor P q :=
  fun _ _ hmem _ => h.mono (hle hmem)

/-- A timer that is not the earliest has one before it. -/
theorem le_of_not_earliest {when : Timestamp} (h : ¬ q.earliest when = true) :
    ∃ e a, toLex (e, a) ∈ q.timers_ ∧ e ≤ when := by
  by_contra hnone
  refine h (earliest_iff.mpr ?_)
  intro e a hmem
  by_contra hle
  exact hnone ⟨e, a, hmem, not_lt.mp hle⟩

/-- An insertion: a new earliest timer gets a wait, any other one has that of the earliest. -/
theorem AwakeFor.added (h : AwakeFor P q) (hdown : ∀ {e e'}, e ≤ e' → P e' → P e)
    (hfits : q.earliest t.expiration_ = true → Armable q.clock t.expiration_) :
    AwakeFor P (q.added a t) := by
  by_cases hearliest : q.earliest t.expiration_ = true
  · have hq : q.added a t = (q.inserted a t).resetTimer t.expiration_ := if_pos hearliest
    have hle : ∀ {e b}, toLex (e, b) ∈ (q.added a t).timers_ → t.expiration_ ≤ e := by
      intro e b hmem
      rcases mem_added.mp hmem with ⟨rfl, -⟩ | hmem
      · exact le_refl _
      · exact le_of_lt (earliest_iff.mp hearliest hmem)
    rw [hq] at hle ⊢
    refine awakeFor_of_earliest (resetTimer_awake ?_) hle
    exact hfits hearliest
  · have hq : q.added a t = q.inserted a t := if_neg hearliest
    obtain ⟨e₀, a₀, hmem₀, hle₀⟩ := le_of_not_earliest hearliest
    intro e b hmem hP
    have hold : ∀ {e' b'}, toLex (e', b') ∈ q.timers_ → P e' → (q.added a t).Awake e' := by
      intro e' b' hmem' hP'
      rw [hq]
      exact h _ _ hmem' hP'
    rcases mem_added.mp hmem with ⟨rfl, -⟩ | hmem
    · exact (hold hmem₀ (hdown hle₀ hP)).mono hle₀
    · exact hold hmem hP

/-- The end of `reset`, when the timers it does not arm a wait for have one. -/
theorem AwakeFor.rearmed (h : AwakeFor (· ≤ 0) q) (hclock : q.clock < 2 ^ 63) :
    AwakeFor (fun _ => True) q.rearmed := by
  rw [TimerQueue.rearmed]
  cases hfirst : q.timers_.first with
  | none =>
    intro e a hmem _
    exact absurd hmem (OrderedSet.first_eq_none.mp hfirst _)
  | some entry =>
    obtain ⟨hmem, hmin⟩ := OrderedSet.first_eq_some.mp hfirst
    have hle : ∀ {e a}, toLex (e, a) ∈ q.timers_ → (ofLex entry).1 ≤ e := by
      intro e a he
      exact (Prod.Lex.le_iff.mp (hmin _ he)).elim le_of_lt (le_of_eq ·.1)
    dsimp only
    split
    case isTrue hpos =>
      exact awakeFor_of_earliest (resetTimer_awake (armable_of_pos hpos hclock)) hle
    case isFalse hneg =>
      exact awakeFor_of_earliest (h _ (ofLex entry).2 hmem (not_lt.mp hneg)) hle

/-! ## The condition

  It excludes two overflows, and nothing else. -/

/-- A timer inserted as the earliest gets a wait. -/
def Fits (q : TimerQueue) (when : Timestamp) : Prop :=
  q.earliest when = true → Armable q.clock when

/-- Whether a timer fits can be computed. -/
instance (q : TimerQueue) (when : Timestamp) : Decidable (q.Fits when) :=
  inferInstanceAs (Decidable (_ → _))

/-- The expirations that `reset` computes at the time `now` do not overflow. -/
def RestartsFit (q : TimerQueue) (now : Timestamp) (ran : List Entry) : Prop :=
  ∀ a ∈ addrs ran, ∀ t ∈ q.heap a, t.repeat_ = true → toLex (a, t.sequence_) ∉ q.cancelingTimers_ →
    0 < now + t.interval_.micros ∧ now + t.interval_.micros < 2 ^ 63

/-- So can whether the restarts of a batch fit. -/
instance (q : TimerQueue) (now : Timestamp) (ran : List Entry) :
    Decidable (q.RestartsFit now ran) :=
  inferInstanceAs (Decidable (∀ a ∈ addrs ran, ∀ t ∈ q.heap a, _ → _ → _))

/-- Of such a batch each timer that repeats fits. -/
theorem RestartsFit.entry {now : Timestamp} {ran : List Entry} (h : q.RestartsFit now ran)
    (ha : a ∈ addrs ran) (ht : q.heap a = some t) (hrepeat : t.repeat_ = true)
    (hcanceling : toLex (a, t.sequence_) ∉ q.cancelingTimers_) :
    0 < Timestamp.addTime now t.interval_.micros := by
  obtain ⟨hpos, hlt⟩ := h a ha t ht hrepeat hcanceling
  rw [Timestamp.addTime]
  rwa [wrapInt64_of_range (le_trans (by decide) (le_of_lt hpos)) hlt]

end TimerQueue

open TimerQueue

namespace IOLoop

variable {s s' : IOLoop}

/-- The overflows are excluded: of `when - now` when an insertion changes the earliest timer, and of
    `now + interval` when a handler finishes. -/
def InRange (s : IOLoop) : Event → Prop
  | .addTimer true _ when _ => s.timerQueue_.Fits when
  | .runPosted i =>
    match s.running, s.posted[i]? with
    | none, some (.addTimerInThisThread a) =>
      ∀ t ∈ s.timerQueue_.heap a, s.timerQueue_.Fits t.expiration_
    | _, _ => True
  | .returned =>
    match s.running with
    | some ⟨now, ran, []⟩ => s.timerQueue_.RestartsFit now ran
    | _ => True
  | _ => True

/-- So can whether an event is in range. -/
instance (s : IOLoop) (e : Event) : Decidable (s.InRange e) := by
  unfold InRange
  split
  · infer_instance
  · split <;> infer_instance
  · split <;> infer_instance
  · infer_instance

/-! ## The property

  It is about the times at which no handler is running.  `WakeInv` also says what holds while
  one is. -/

/-- When no handler is running, the earliest timer has a wait. -/
def WakesUp (s : IOLoop) : Prop :=
  s.running = none → ∀ entry ∈ s.timerQueue_.timers_.first, s.timerQueue_.Awake (ofLex entry).1

/-- While a handler is running, only the timers that `reset` will not arm a wait for need one. -/
structure WakeInv (s : IOLoop) : Prop where
  clock_range : 0 < s.timerQueue_.clock ∧ s.timerQueue_.clock < 2 ^ 63
  awake : AwakeFor (fun e => s.running = none ∨ e ≤ 0) s.timerQueue_

/-- The invariant has the property in it. -/
theorem WakeInv.wakesUp (h : WakeInv s) : WakesUp s := by
  intro hidle entry hentry
  exact h.awake _ (ofLex entry).2 (OrderedSet.first_eq_some.mp hentry).1 (Or.inl hidle)

/-! ## One event

  What each case of `Effect` does to the waits. -/

namespace WakeInv

/-- What makes the invariant ask for a wait at one expiration does so at every earlier one. -/
theorem down {e e' : Timestamp} (hle : e ≤ e') (h : s.running = none ∨ e' ≤ 0) :
    s.running = none ∨ e ≤ 0 := h.imp_right (le_trans hle)

/-- The posted handlers, the trace and the memory of the timers do not matter. -/
theorem of_same (h : WakeInv s) (hrun : s'.running = s.running)
    (htimers : ∀ x, x ∈ s'.timerQueue_.timers_ → x ∈ s.timerQueue_.timers_)
    (hwaits : s'.timerQueue_.steadyTimer_ = s.timerQueue_.steadyTimer_)
    (hclock : s'.timerQueue_.clock = s.timerQueue_.clock) : WakeInv s' := by
  refine ⟨by rw [hclock]; exact h.clock_range, ?_⟩
  intro e a hmem hP
  rw [Awake, hwaits]
  exact h.awake _ _ (htimers _ hmem) (hrun ▸ hP)

/-- **Inserting a timer keeps it**: it is the earliest, and a wait for it is armed, or there is an
    earlier one with its wait. -/
theorem added (h : WakeInv s) {q : TimerQueue} {a : Addr} {t : Timer}
    (hq : q.timers_ = s.timerQueue_.timers_ ∧ q.steadyTimer_ = s.timerQueue_.steadyTimer_ ∧
      q.clock = s.timerQueue_.clock) (hfits : s.timerQueue_.Fits t.expiration_) :
    WakeInv (s.setQueue (q.added a t)) := by
  obtain ⟨htimers, hwaits, hclock⟩ := hq
  refine ⟨?_, ?_⟩
  · show 0 < (q.added a t).clock ∧ (q.added a t).clock < 2 ^ 63
    rw [(added_frame q a t).2.2.2, hclock]
    exact h.clock_range
  · refine AwakeFor.added ?_ down ?_
    · intro e b hmem hP
      rw [Awake, hwaits]
      exact h.awake _ _ (htimers ▸ hmem) hP
    · rw [Fits, earliest] at hfits
      rw [earliest]
      rwa [htimers, hclock]

/-- The wait handler keeps it: the end of the batch arms for the first expiration. -/
theorem advance (h : WakeInv s) (hadv : Advance s s')
    (hfits : ∀ {now ran}, s.running = some ⟨now, ran, []⟩ → s.timerQueue_.RestartsFit now ran) :
    WakeInv s' := by
  cases hadv with
  | starts hrun ht =>
    refine ⟨h.clock_range, ?_⟩
    intro e a hmem hP
    rcases hP with hnone | hle
    · cases hnone
    · exact h.awake _ _ hmem (Or.inr hle)
  | finishes hrun hrenews howns =>
    rename_i now ran q
    have hclock : q.clock = s.timerQueue_.clock := hrenews.clock_eq
    -- what is left in the sets with an expiration `≤ 0` was there before
    have hold : AwakeFor (· ≤ 0) q := by
      intro e a hmem hle
      rw [Awake, hrenews.steadyTimer_eq]
      rcases hrenews.entries hmem with hmem | ⟨t, ht, ha, hrepeat, hcanceling, rfl⟩
      · exact h.awake _ _ hmem (Or.inr hle)
      · have hpos := (hfits hrun).entry ha ht hrepeat hcanceling
        exact absurd hle (not_le.mpr hpos)
    have hrearmed := hold.rearmed (by rw [hclock]; exact h.clock_range.2)
    refine ⟨?_, fun _ _ hmem _ => hrearmed _ _ hmem trivial⟩
    show 0 < q.rearmed.clock ∧ q.rearmed.clock < 2 ^ 63
    have hsame : q.rearmed.clock = q.clock := by
      rcases rearmed_cases q with heq | ⟨when, heq⟩ <;> rw [heq]
      rfl
    rw [hsame, hclock]
    exact h.clock_range

/-- Before the first callback nothing in the sets is due. -/
theorem opened (h : WakeInv s) {i : Nat} {active : OrderedSet ActiveTimer} {held : List Addr}
    (howns : Owns s.timerQueue_ held) : WakeInv (s.opened i active) := by
  refine ⟨h.clock_range, ?_⟩
  intro e a hmem hP
  have hlt : s.timerQueue_.clock < e := (howns.mem_fromBound.mp hmem).2
  rcases hP with hnone | hle
  · cases hnone
  · exact absurd hle (not_le.mpr (lt_trans h.clock_range.1 hlt))

end WakeInv

/-- A wait that completes is still a wait until its handler starts. -/
theorem awake_complete {e : Timestamp} (h : s.timerQueue_.Awake e) (i : Nat) :
    (s.complete i).timerQueue_.Awake e := by
  obtain ⟨w, hw, hcovers⟩ := h
  rw [complete]
  split
  case h_1 => exact ⟨w, hw, hcovers⟩
  case h_2 w' hw' =>
    split
    · obtain ⟨j, hj⟩ := List.mem_iff_getElem?.mp hw
      by_cases hji : j = i
      · -- the wait that completes keeps its deadline
        subst hji
        obtain rfl : w = w' := Option.some.inj (hj.symm.trans hw')
        refine ⟨{ w with completed := true }, ?_, hcovers⟩
        exact List.mem_set (List.getElem?_eq_some_iff.mp hj).1 _
      · refine ⟨w, List.mem_iff_getElem?.mpr ⟨j, ?_⟩, hcovers⟩
        exact (List.getElem?_set_ne (Ne.symm hji)).trans hj
    · exact ⟨w, hw, hcovers⟩

/-- **One event** that is in range. -/
theorem Effect.wakeInv {e : Event} (heff : Effect s e s') (hrep : Represents s) (h : WakeInv s)
    (hrange : InRange s e) : WakeInv s' := by
  cases heff with
  | stays => exact h
  | createsPosted hfree => exact h.of_same rfl (fun _ => id) rfl rfl
  | creates hfree =>
    rename_i a when interval
    have hadded := h.added (q := s.timerQueue_.allocate a when interval) (a := a)
      (t := .new when interval (s.timerQueue_.s_numCreated_ + 1)) ⟨rfl, rfl, rfl⟩ hrange
    exact hadded.of_same rfl (fun _ => id) rfl rfl
  | postsCancel hi => exact h.of_same rfl (fun _ => id) rfl rfl
  | cancels hi =>
    obtain ⟨hwaits, -, hclock⟩ := cancelled_frame s.timerQueue_ _
    exact h.of_same rfl (fun _ => mem_of_mem_cancelled) hwaits hclock
  | insertsPosted hrun hi ht =>
    simp only [InRange, hrun, hi] at hrange
    exact (h.added ⟨rfl, rfl, rfl⟩ (hrange _ ht)).of_same rfl (fun _ => id) rfl rfl
  | cancelsPosted hrun hi =>
    obtain ⟨hwaits, -, hclock⟩ := cancelled_frame s.timerQueue_ _
    exact h.of_same rfl (fun _ => mem_of_mem_cancelled) hwaits hclock
  | completes i =>
    have hsame : (s.complete i).timerQueue_.clock = s.timerQueue_.clock ∧
        (s.complete i).timerQueue_.timers_ = s.timerQueue_.timers_ ∧
        (s.complete i).running = s.running := by
      rw [complete]
      split
      · exact ⟨rfl, rfl, rfl⟩
      · split <;> exact ⟨rfl, rfl, rfl⟩
    refine ⟨hsame.1.symm ▸ h.clock_range, ?_⟩
    intro e a hmem hP
    rw [hsame.2.1] at hmem
    rw [hsame.2.2] at hP
    exact awake_complete (h.awake _ _ hmem hP) i
  | ticks d =>
    rw [tick]
    split
    case isTrue hlt =>
      have hpos := Int.add_pos_of_pos_of_nonneg h.clock_range.1 (Int.natCast_nonneg d)
      exact ⟨⟨hpos, hlt⟩, h.awake⟩
    case isFalse => exact h
  | expires hrun hopened hadv =>
    -- nothing of the new batch has been run yet
    refine (h.opened hrep.owns).advance hadv ?_
    intro now ran hran
    obtain ⟨-, rfl, -⟩ := Expiry.mk.inj (Option.some.inj hran)
    intro a ha
    exact absurd ha List.not_mem_nil
  | advances hadv =>
    refine h.advance hadv ?_
    intro now ran hrun
    simpa only [InRange, hrun] using hrange

/-! ## Every run

  With the condition on every event, and a run after it in which it fails. -/

/-- **The wake-up is not lost** in a run without overflow: whenever no handler is running and there
    is a timer, a wait is due for the earliest one. -/
theorem wakes_up {now : Timestamp} (hpos : 0 < now) (hmax : now < 2 ^ 63) (es : List Event)
    (h : Guarded step InRange (new now) es) :
    Holds WakesUp (fun _ => False) (run step (new now) es) := by
  have hstep : ∀ s e, (Represents s ∧ WakeInv s) → InRange s e →
      Holds (fun s => Represents s ∧ WakeInv s) (fun _ => False) (step s e) := by
    rintro s e ⟨hrep, hinv⟩ hrange
    obtain ⟨s', hs', heff, hrep'⟩ := step_effect hrep e
    rw [hs']
    exact .ok ⟨hrep', heff.wakeInv hrep hinv hrange⟩
  have hnew : WakeInv (new now) := by
    refine ⟨⟨hpos, hmax⟩, ?_⟩
    intro e a hmem
    exact absurd hmem (OrderedSet.not_mem_empty _)
  exact (run_holds hstep es _ ⟨new_represents now, hnew⟩ h).mono (fun _ hs => hs.2.wakesUp)
    fun _ hf => hf

section Examples

/-- A callback adds a timer at the epoch and one of the far past, which is cancelled again. -/
def pastTimers : List Event :=
  [.addTimer true 16 1700000000000500 ⟨true, 1000⟩, .tick 1000000, .complete 0, .expire 0,
    .addTimer true 32 0 ⟨false, 0⟩, .addTimer true 48 (-2 ^ 63) ⟨false, 0⟩,
    .cancel true 2, .returned]

/-- The condition can be met: timers in the past. -/
theorem wakes_up_pastTimers :
    ((0 : Int) < 1700000000000000 ∧ (1700000000000000 : Int) < 2 ^ 63 ∧
      Guarded step InRange (new 1700000000000000) pastTimers) ∧
    Holds WakesUp (fun _ => False) (run step (new 1700000000000000) pastTimers) := by
  have hpos : (0 : Int) < 1700000000000000 := by decide
  have hmax : (1700000000000000 : Int) < 2 ^ 63 := by decide
  have hguard : Guarded step InRange (new 1700000000000000) pastTimers := by decide +kernel
  exact ⟨⟨hpos, hmax, hguard⟩, wakes_up hpos hmax pastTimers hguard⟩

/-- A timer repeats every 292271 years: `static_cast<int64_t>` of the interval in microseconds fits,
    the expiration after the restart does not. -/
def farInterval : List Event :=
  [.addTimer true 16 1700000000000500 ⟨true, 9223372000000000000⟩, .tick 1000000, .complete 0,
    .expire 0, .returned]

/-- **The wake-up is lost** there: the handler is done, the timer is in the sets, and nothing is
    armed. -/
theorem restart_not_armed :
    ¬ Holds WakesUp (fun _ => False) (run step (new 1700000000000000) farInterval) := by
  have hend : (run step (new 1700000000000000) farInterval).toOption.map
      (fun s => (s.running, s.timerQueue_.timers_.first, s.timerQueue_.steadyTimer_)) =
      some (none, some (toLex (-9221672073708551616, 16)), []) := by decide +kernel
  generalize run step (new 1700000000000000) farInterval = r at hend
  intro h
  cases h with
  | ok h =>
    rename_i s
    obtain ⟨hrunning, hrest⟩ := Prod.mk.inj (Option.some.inj hend)
    obtain ⟨hfirst, hwaits⟩ := Prod.mk.inj hrest
    obtain ⟨w, hw, -⟩ := h hrunning _ hfirst
    rw [hwaits] at hw
    exact absurd hw List.not_mem_nil
  | error h => exact h

end Examples

end IOLoop

end IOEvent
