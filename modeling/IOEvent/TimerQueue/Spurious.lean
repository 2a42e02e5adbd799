/-
  When a wait ends before its timer is due.

  `resetTimer` hands whole seconds to `steadyTimer_`: what is left of the difference is cut off,
  so the wait ends up to a second early, and its handler finds nothing and arms the next one
  (`deadline_ge_iff` has the exact condition).  The handler of the wait armed last can also find
  nothing because the handler of an earlier wait, already queued when that one was armed, has
  taken every timer.

  `armedFor` is the argument of the call of `resetTimer` that an event makes, computed from the
  state before it (`step_arms`, `step_quiet`).  `Watched` is a loop with the history of its
  waits: what each was armed with, and whether the handler of the wait armed last found a timer
  that is due.  Without cancellations the runs whose history is in order are exactly those in
  which each event is `OnTime`.

  The proof has two halves.  The first one tells, from the state before an event, what that
  calls `resetTimer` with; the second carries an invariant about the wait armed last along the
  history.  The converse is short: what an event that is not on time arms or finds is in the
  history at once.
-/
import IOEvent.TimerQueue.Batch
import IOEvent.TimerQueue.Wakeup

open Foundation

namespace IOEvent

namespace TimerQueue

variable {q q' : TimerQueue} {a : Addr} {t : Timer} {e now when : Timestamp} {held : List Addr}

/-! ## The deadline of a wait

  The arithmetic of `resetTimer`, with both wraps.  `deadline_ge_iff` tells when its result is
  not too early. -/

/-- The deadline of the wait that `resetTimer(when)` arms at the time `now`. The division cuts
    off what is less than a second, as the source does when it makes `seconds` of the
    microseconds. -/
def deadlineFor (now when : Int) : Int :=
  now * 1000 + wrapInt64 ((if wrapInt64 (when - now) < 100 then 100 else wrapInt64 (when - now)) /
    1000000 * 1000000000)

/-- Setting `steadyTimer_` keeps the waits that have completed and arms one more. -/
theorem resetTimer_eq (q : TimerQueue) (when : Timestamp) :
    q.resetTimer when = { q with steadyTimer_ := q.steadyTimer_.filter (·.completed) ++
      [⟨q.clock, deadlineFor q.clock when, false⟩] } := rfl

/-- `when` is a whole number of seconds away, and the nanoseconds fit. -/
def WholeSeconds (now when : Int) : Prop :=
  (when - now) % 1000000 = 0 ∧ (when - now) * 1000 < 2 ^ 63

/-- Whether a time is whole seconds ahead can be computed. -/
instance (now when : Int) : Decidable (WholeSeconds now when) :=
  inferInstanceAs (Decidable (_ ∧ _))

/-- **The wait lasts until `when`** if that has passed already or is a whole number of seconds away,
    and in no other case. -/
theorem deadline_ge_iff {now when : Int} :
    when * 1000 ≤ deadlineFor now when ↔ when ≤ now ∨ WholeSeconds now when := by
  -- whatever overflows, less than `2 ^ 63` nanoseconds are added or taken away
  have hlo := neg_le_wrapInt64 ((if wrapInt64 (when - now) < 100 then 100 else
    wrapInt64 (when - now)) / 1000000 * 1000000000)
  have hhi := wrapInt64_lt ((if wrapInt64 (when - now) < 100 then 100 else
    wrapInt64 (when - now)) / 1000000 * 1000000000)
  rw [deadlineFor, WholeSeconds]
  rcases Int.lt_or_le (when - now) (2 ^ 63) with hfits | hover
  case inr => omega
  rcases Int.lt_or_le (when - now) (-2 ^ 63) with hunder | hfits'
  case inl => omega
  rw [wrapInt64_of_range hfits' hfits] at hlo hhi ⊢
  by_cases hshort : when - now < 100
  · -- no second is left
    have hzero : wrapInt64 (100 / 1000000 * 1000000000) = 0 := by decide
    rw [if_pos hshort, hzero]
    omega
  · rw [if_neg hshort] at hlo hhi ⊢
    rcases Int.lt_or_le ((when - now) / 1000000 * 1000000000) (2 ^ 63) with hns | hns
    · rw [wrapInt64_of_range (by omega) hns]
      omega
    · omega

/-! ## The earliest expiration

  How the first element of `timers_` changes with an insertion. -/

/-- The earliest expiration in `timers_`. -/
def firstExpire (q : TimerQueue) : Option Timestamp := q.timers_.first.map fun x => (ofLex x).1

/-- There is no first expiration when there is no timer. -/
theorem firstExpire_eq_none : q.firstExpire = none ↔ ∀ e a, toLex (e, a) ∉ q.timers_ := by
  rw [firstExpire, Option.map_eq_none_iff, OrderedSet.first_eq_none]
  exact ⟨fun h e a => h _, fun h x => h (ofLex x).1 (ofLex x).2⟩

/-- The first expiration is that of some timer, and no timer expires before it. -/
theorem firstExpire_eq_some : q.firstExpire = some e ↔
    (∃ a, toLex (e, a) ∈ q.timers_) ∧ ∀ d a, toLex (d, a) ∈ q.timers_ → e ≤ d := by
  rw [firstExpire, Option.map_eq_some_iff]
  constructor
  · rintro ⟨x, hx, rfl⟩
    obtain ⟨hmem, hmin⟩ := OrderedSet.first_eq_some.mp hx
    refine ⟨⟨_, hmem⟩, fun d a hd => ?_⟩
    exact (Prod.Lex.le_iff.mp (hmin _ hd)).elim le_of_lt (le_of_eq ·.1)
  · rintro ⟨⟨a, ha⟩, hle⟩
    cases hx : q.timers_.first with
    | none => exact absurd ha (OrderedSet.first_eq_none.mp hx _)
    | some x =>
      obtain ⟨hmem, hmin⟩ := OrderedSet.first_eq_some.mp hx
      refine ⟨x, rfl, le_antisymm ?_ (hle _ _ hmem)⟩
      exact (Prod.Lex.le_iff.mp (hmin _ ha)).elim le_of_lt (le_of_eq ·.1)

/-- It is the least of the expirations, however these are listed. -/
theorem firstExpire_eq_min {l : List Timestamp}
    (h : ∀ e, e ∈ l ↔ ∃ a, toLex (e, a) ∈ q.timers_) : q.firstExpire = l.min? := by
  cases hmin : l.min? with
  | none =>
    obtain rfl := List.min?_eq_none_iff.mp hmin
    exact firstExpire_eq_none.mpr fun e a ha => List.not_mem_nil ((h e).mpr ⟨a, ha⟩)
  | some e =>
    obtain ⟨hmem, hle⟩ := List.min?_eq_some_iff.mp hmin
    exact firstExpire_eq_some.mpr ⟨(h e).mp hmem, fun d a ha => hle d ((h d).mpr ⟨a, ha⟩)⟩

/-- An insertion arms a wait only for a new earliest expiration. -/
theorem firstExpire_inserted_of_earliest (h : q.earliest t.expiration_ = true) :
    (q.inserted a t).firstExpire = some t.expiration_ := by
  refine firstExpire_eq_some.mpr ⟨⟨a, OrderedSet.mem_emplace.mpr (Or.inl rfl)⟩, ?_⟩
  intro d b hmem
  rcases OrderedSet.mem_emplace.mp hmem with heq | hmem
  · exact le_of_eq (Prod.mk.inj heq).1.symm
  · exact le_of_lt (earliest_iff.mp h hmem)

/-- A timer that is not the earliest does not change it. -/
theorem firstExpire_inserted (h : ¬ q.earliest t.expiration_ = true) :
    (q.inserted a t).firstExpire = q.firstExpire := by
  obtain ⟨d, b, hd, hle⟩ := le_of_not_earliest h
  cases hfirst : q.firstExpire with
  | none => exact absurd hd (firstExpire_eq_none.mp hfirst d b)
  | some e =>
    obtain ⟨⟨c, hc⟩, hmin⟩ := firstExpire_eq_some.mp hfirst
    refine firstExpire_eq_some.mpr ⟨⟨c, OrderedSet.mem_emplace.mpr (Or.inr hc)⟩, ?_⟩
    intro d' b' hmem
    rcases OrderedSet.mem_emplace.mp hmem with heq | hmem
    · rw [(Prod.mk.inj heq).1]
      exact le_trans (hmin d b hd) hle
    · exact hmin _ _ hmem

/-- The end of `reset` arms for the first expiration, if there is a valid one. -/
theorem rearmed_eq (q : TimerQueue) : q.rearmed =
    match q.firstExpire.filter Timestamp.vaild with
    | none => q
    | some when => q.resetTimer when := by
  rw [rearmed, firstExpire]
  cases q.timers_.first with
  | none => rfl
  | some entry =>
    dsimp only [Option.map_some]
    rw [Option.filter_some, Timestamp.vaild]
    simp only [decide_eq_true_eq]
    split <;> rfl

/-! ## What `reset` leaves in the sets

  It is computed from the state before `reset`, so that the condition can be. -/

/-- The expirations in `timers_` when `reset` has gone over the batch `ran`. A timer that was
    cancelled by a callback is in neither part. -/
def remaining (q : TimerQueue) (now : Timestamp) (ran : List Entry) : List Timestamp :=
  q.timers_.elems.map (fun x => (ofLex x).1) ++ ran.filterMap fun x =>
    match q.heap (ofLex x).2 with
    | none => none
    | some t =>
      if t.repeat_ = true ∧ toLex ((ofLex x).2, t.sequence_) ∉ q.cancelingTimers_ then
        some (Timestamp.addTime now t.interval_.micros)
      else
        none

/-- `nextExpire`, as `reset` finds it. -/
def nextExpire (q : TimerQueue) (now : Timestamp) (ran : List Entry) : Option Timestamp :=
  (q.remaining now ran).min?

/-- What will be in the sets at the end of the batch: what is there, and what repeats and was not
    cancelled. -/
theorem mem_remaining {ran : List Entry} : e ∈ q.remaining now ran ↔
    (∃ a, toLex (e, a) ∈ q.timers_) ∨ ∃ a ∈ addrs ran, ∃ t, q.heap a = some t ∧ t.repeat_ = true ∧
      toLex (a, t.sequence_) ∉ q.cancelingTimers_ ∧
        e = Timestamp.addTime now t.interval_.micros := by
  rw [remaining, List.mem_append]
  refine or_congr ?_ ?_
  · rw [List.mem_map]
    constructor
    · rintro ⟨x, hx, rfl⟩
      exact ⟨_, hx⟩
    · rintro ⟨a, ha⟩
      exact ⟨_, ha, rfl⟩
  · rw [List.mem_filterMap]
    constructor
    · rintro ⟨x, hx, hsome⟩
      cases ht : q.heap (ofLex x).2 with
      | none =>
        rw [ht] at hsome
        cases hsome
      | some t =>
        rw [ht] at hsome
        obtain ⟨⟨hrepeat, hcanceling⟩, he⟩ := Option.ite_none_right_eq_some.mp hsome
        exact ⟨_, List.mem_map_of_mem hx, t, ht, hrepeat, hcanceling, (Option.some.inj he).symm⟩
    · rintro ⟨a, ha, t, ht, hrepeat, hcanceling, rfl⟩
      obtain ⟨x, hx, rfl⟩ := List.mem_map.mp ha
      refine ⟨x, hx, ?_⟩
      rw [ht]
      exact if_pos ⟨hrepeat, hcanceling⟩

/-- The loop of `reset` leaves the earliest of them. -/
theorem Renews.firstExpire_eq {ran : List Entry} {held : List Addr}
    (h : Renews now (addrs ran) q q') (howns : Owns q (addrs ran ++ held)) :
    q'.firstExpire = q.nextExpire now ran := by
  refine firstExpire_eq_min fun e => ?_
  rw [mem_remaining]
  constructor
  · rintro (⟨a, ha⟩ | ⟨a, ha, t, ht, hrepeat, hcanceling, rfl⟩)
    · refine ⟨a, h.keeps (fun hmem => ?_) ha⟩
      exact howns.held_apart (List.mem_append_left held hmem) ha
    · obtain ⟨-, hmem⟩ := h.restarts ha ht hrepeat hcanceling
      rw [Timer.restart, if_pos hrepeat] at hmem
      exact ⟨a, hmem⟩
  · rintro ⟨a, ha⟩
    rcases h.entries ha with hmem | ⟨t, ht, hmem, hrepeat, hcanceling, he⟩
    · exact Or.inl ⟨a, hmem⟩
    · exact Or.inr ⟨a, hmem, t, ht, hrepeat, hcanceling, he⟩

end TimerQueue

open TimerQueue

namespace IOLoop

variable {s s' : IOLoop} {e : Event} {when : Timestamp}

/-! ## The calls of `resetTimer`

  For each event, either it arms a wait, and for which time, or it arms none. -/

/-- The argument of the call of `resetTimer` that an event makes. It is `none` for an event
    that makes no such call. -/
def armedFor (s : IOLoop) : Event → Option Timestamp
  | .addTimer true timer when _ =>
    if (0 < timer ∧ timer < uintptrMax ∧ s.timerQueue_.heap timer = none) ∧
        s.timerQueue_.earliest when = true then
      some when
    else
      none
  | .runPosted i =>
    match s.running, s.posted[i]? with
    | none, some (.addTimerInThisThread timer) =>
      ((s.timerQueue_.heap timer).map Timer.expiration_).filter s.timerQueue_.earliest
    | _, _ => none
  | .expire i =>
    match s.running, s.timerQueue_.steadyTimer_[i]? with
    | none, some ⟨_, _, true⟩ =>
      if s.timerQueue_.due s.timerQueue_.clock = [] then
        (s.timerQueue_.nextExpire s.timerQueue_.clock []).filter Timestamp.vaild
      else
        none
    | _, _ => none
  | .returned =>
    match s.running with
    | some ⟨now, ran, []⟩ => (s.timerQueue_.nextExpire now ran).filter Timestamp.vaild
    | _ => none
  | _ => none

/-- The event starts the handler of the last wait of `steadyTimer_`. A new wait is put at the
    end of the list. -/
def startsLast (s : IOLoop) : Event → Bool
  | .expire i => s.running.isNone && i + 1 == s.timerQueue_.steadyTimer_.length &&
    s.timerQueue_.steadyTimer_[i]?.any Wait.completed
  | _ => false

/-- A wait was armed for `when`, and nothing in `timers_` is earlier. The waits before it have
    completed: those that had not were aborted. -/
structure Arms (s : IOLoop) (when : Timestamp) (s' : IOLoop) : Prop where
  waits : ∃ old, s'.timerQueue_.steadyTimer_ = old ++
      [⟨s.timerQueue_.clock, deadlineFor s.timerQueue_.clock when, false⟩] ∧
    ∀ w ∈ old, w.completed = true ∧ w ∈ s.timerQueue_.steadyTimer_
  first : s'.timerQueue_.firstExpire = some when
  clock_eq : s'.timerQueue_.clock = s.timerQueue_.clock

/-- No wait was armed. The waits may still become fewer, as one whose handler starts is gone. -/
structure Quiet (s : IOLoop) (e : Event) (s' : IOLoop) : Prop where
  waits : ∀ w ∈ s'.timerQueue_.steadyTimer_, w ∈ s.timerQueue_.steadyTimer_ ∨
    w.completed = true ∧ w.deadline ≤ s.timerQueue_.clock * 1000
  last : s.startsLast e = false → s'.timerQueue_.steadyTimer_.getLast?.map Wait.deadline =
    s.timerQueue_.steadyTimer_.getLast?.map Wait.deadline
  /-- Between two handlers the earliest expiration does not change, or it is not `vaild()`. -/
  first : s'.running = none →
    s.running = none ∧ s'.timerQueue_.firstExpire = s.timerQueue_.firstExpire ∨
      ∀ e ∈ s'.timerQueue_.firstExpire, e ≤ 0
  clock_le : s.timerQueue_.clock ≤ s'.timerQueue_.clock

/-- An insertion of `t` at `a`, which is owned outside the sets. -/
theorem arms_added {q : TimerQueue} {a : Addr} {t : Timer}
    (hq : s'.timerQueue_ = q.added a t) (htimers : q.timers_ = s.timerQueue_.timers_)
    (hwaits : q.steadyTimer_ = s.timerQueue_.steadyTimer_) (hclock : q.clock = s.timerQueue_.clock)
    (h : s.timerQueue_.earliest t.expiration_ = true) : Arms s t.expiration_ s' := by
  have hearliest : q.earliest t.expiration_ = true := by
    rwa [earliest, htimers]
  have hadded : s'.timerQueue_ = (q.inserted a t).resetTimer t.expiration_ :=
    hq.trans (if_pos hearliest)
  refine ⟨⟨q.steadyTimer_.filter (·.completed), ?_, ?_⟩, ?_, ?_⟩
  · rw [hadded, resetTimer_eq, ← hclock]
    rfl
  · intro w hw
    obtain ⟨hmem, hcompleted⟩ := List.mem_filter.mp hw
    exact ⟨hcompleted, hwaits ▸ hmem⟩
  · rw [hadded]
    exact firstExpire_inserted_of_earliest hearliest
  · rw [hadded]
    exact hclock

/-- Inserting a timer that is not the earliest arms nothing. -/
theorem quiet_added {q : TimerQueue} {a : Addr} {t : Timer}
    (hq : s'.timerQueue_ = q.added a t) (htimers : q.timers_ = s.timerQueue_.timers_)
    (hwaits : q.steadyTimer_ = s.timerQueue_.steadyTimer_) (hclock : q.clock = s.timerQueue_.clock)
    (hrun : s'.running = s.running) (h : ¬ s.timerQueue_.earliest t.expiration_ = true) :
    Quiet s e s' := by
  have hearliest : ¬ q.earliest t.expiration_ = true := by
    rwa [earliest, htimers]
  have hadded : s'.timerQueue_ = q.inserted a t := hq.trans (if_neg hearliest)
  have hsame : s'.timerQueue_.steadyTimer_ = s.timerQueue_.steadyTimer_ := by
    rw [hadded]
    exact hwaits
  refine ⟨fun w hw => Or.inl (hsame ▸ hw), fun _ => by rw [hsame], ?_, ?_⟩
  · intro hidle
    refine Or.inl ⟨hrun.symm.trans hidle, ?_⟩
    rw [hadded, firstExpire_inserted hearliest, firstExpire, htimers]
    rfl
  · rw [hadded]
    exact hclock.ge

/-- The waits and the earliest expiration are as they were. -/
theorem Quiet.of_same (hrun : s'.running = s.running)
    (htimers : s'.timerQueue_.timers_ = s.timerQueue_.timers_)
    (hwaits : s'.timerQueue_.steadyTimer_ = s.timerQueue_.steadyTimer_)
    (hclock : s.timerQueue_.clock ≤ s'.timerQueue_.clock) : Quiet s e s' := by
  refine ⟨fun w hw => Or.inl (hwaits ▸ hw), fun _ => by rw [hwaits], ?_, hclock⟩
  intro hidle
  refine Or.inl ⟨hrun.symm.trans hidle, ?_⟩
  rw [firstExpire, htimers]
  rfl

/-- What the end of a batch arms for can be told before it. -/
theorem armedFor_finishing {now : Timestamp} {ran : List Entry}
    (hrun : s.running = some ⟨now, ran, []⟩) :
    s.armedFor .returned = (s.timerQueue_.nextExpire now ran).filter Timestamp.vaild := by
  rw [armedFor, hrun]

/-- The first expiration behind the batch is the least of what remains. -/
theorem Represents.firstExpire_renewed {now : Timestamp} {ran : List Entry} {q : TimerQueue}
    (h : Represents s) (hrun : s.running = some ⟨now, ran, []⟩)
    (hrenews : Renews now (addrs ran) { s.timerQueue_ with callingExpiredTimers_ := false } q) :
    q.firstExpire = s.timerQueue_.nextExpire now ran := by
  have howns := h.owns
  rw [held_of_running hrun, List.append_nil] at howns
  have hbatch : Owns s.timerQueue_ (addrs ran ++ s.pendingAddrs) :=
    howns.of_perm List.perm_append_comm
  exact hrenews.firstExpire_eq (hbatch.of_same rfl rfl rfl rfl rfl)

/-- The wait handler finishes: it arms a wait for the earliest expiration left, if that is
    `vaild()`. -/
theorem advance_arms (h : Represents s) (hadv : Advance s s')
    (harmed : s.armedFor .returned = some when) : Arms s when s' := by
  cases hadv with
  | starts hrun ht =>
    rw [armedFor, hrun] at harmed
    cases harmed
  | finishes hrun hrenews howns =>
    rename_i now ran q
    rw [armedFor_finishing hrun] at harmed
    have hfirst := h.firstExpire_renewed hrun hrenews
    have hrearmed : q.rearmed = q.resetTimer when := by
      rw [rearmed_eq, hfirst, harmed]
    have hclock : q.clock = s.timerQueue_.clock := hrenews.clock_eq
    refine ⟨⟨q.steadyTimer_.filter (·.completed), ?_, ?_⟩, ?_, ?_⟩
    · show q.rearmed.steadyTimer_ = _
      rw [hrearmed, resetTimer_eq, hclock]
    · intro w hw
      obtain ⟨hmem, hcompleted⟩ := List.mem_filter.mp hw
      rw [hrenews.steadyTimer_eq] at hmem
      exact ⟨hcompleted, hmem⟩
    · show q.rearmed.firstExpire = _
      rw [hrearmed]
      exact hfirst.trans (Option.filter_eq_some_iff.mp harmed).1
    · show q.rearmed.clock = _
      rw [hrearmed]
      exact hclock

/-- A wait handler that arms for nothing is quiet. -/
theorem advance_quiet (h : Represents s) (hadv : Advance s s')
    (hnone : s.armedFor .returned = none) : Quiet s .returned s' := by
  cases hadv with
  | starts hrun ht => exact ⟨fun w => Or.inl, fun _ => rfl, fun hidle => (by cases hidle), le_rfl⟩
  | finishes hrun hrenews howns =>
    rename_i now ran q
    rw [armedFor_finishing hrun] at hnone
    have hfirst := h.firstExpire_renewed hrun hrenews
    have hrearmed : q.rearmed = q := by
      rw [rearmed_eq, hfirst, hnone]
    have hwaits : q.steadyTimer_ = s.timerQueue_.steadyTimer_ := hrenews.steadyTimer_eq
    refine ⟨fun w hw => Or.inl ?_, fun _ => ?_, fun _ => Or.inr ?_, ?_⟩
    · change w ∈ q.rearmed.steadyTimer_ at hw
      rwa [hrearmed, hwaits] at hw
    · show q.rearmed.steadyTimer_.getLast?.map Wait.deadline = _
      rw [hrearmed, hwaits]
    · intro e he
      change q.rearmed.firstExpire = some e at he
      rw [hrearmed, hfirst] at he
      by_contra hpos
      have hvalid : Timestamp.vaild e = true := decide_eq_true (not_le.mp hpos)
      cases hnone.symm.trans (Option.filter_eq_some_iff.mpr ⟨he, hvalid⟩)
    · show s.timerQueue_.clock ≤ q.rearmed.clock
      rw [hrearmed]
      exact hrenews.clock_eq.ge

/-- The handler of a completed wait takes its batch and arms what an empty one leaves. -/
theorem armedFor_opened {i : Nat} {w : Wait} (hrun : s.running = none)
    (hwait : s.timerQueue_.steadyTimer_[i]? = some w) (hcompleted : w.completed = true)
    (active : OrderedSet ActiveTimer) :
    (s.opened i active).armedFor .returned = s.armedFor (.expire i) := by
  obtain ⟨armedAt, deadline, completed⟩ := w
  obtain rfl : completed = true := hcompleted
  have hexpire : s.armedFor (.expire i) = if s.timerQueue_.due s.timerQueue_.clock = [] then
      (s.timerQueue_.nextExpire s.timerQueue_.clock []).filter Timestamp.vaild else none := by
    rw [armedFor, hrun, hwait]
  rw [hexpire]
  have hopened : (s.opened i active).running =
      some ⟨s.timerQueue_.clock, [], s.timerQueue_.due s.timerQueue_.clock⟩ := rfl
  by_cases hdue : s.timerQueue_.due s.timerQueue_.clock = []
  · rw [hdue] at hopened
    rw [if_pos hdue, armedFor_finishing hopened]
    -- nothing is taken out of `timers_`
    have helems : (s.timerQueue_.timers_.fromBound (sentinel s.timerQueue_.clock)).elems =
        s.timerQueue_.timers_.elems := by
      have hcut := List.takeWhile_append_dropWhile
        (p := fun x => decide (x < sentinel s.timerQueue_.clock)) (l := s.timerQueue_.timers_.elems)
      rw [due, OrderedSet.before] at hdue
      rwa [hdue, List.nil_append] at hcut
    have hremaining : (s.opened i active).timerQueue_.remaining s.timerQueue_.clock [] =
        s.timerQueue_.remaining s.timerQueue_.clock [] := by
      rw [remaining, remaining]
      exact congrArg (fun l => List.map (fun x => (ofLex x).1) l ++ _) helems
    rw [nextExpire, hremaining, nextExpire]
  · rw [if_neg hdue, armedFor, hopened]
    cases hbatch : s.timerQueue_.due s.timerQueue_.clock with
    | nil => exact absurd hbatch hdue
    | cons x l => rfl

/-- Taking out an earlier entry leaves the last. -/
theorem getLast_eraseIdx {α : Type} {l : List α} {i : Nat} (h : i + 1 < l.length) :
    (l.eraseIdx i).getLast? = l.getLast? := by
  rw [List.getLast?_eq_getElem?, List.getLast?_eq_getElem?, List.length_eraseIdx_of_lt (by omega),
    List.getElem?_eraseIdx_of_ge (by omega)]
  congr 1
  omega

/-- The start of a batch arms for what was foretold. -/
theorem expire_arms (h : Represents s) {i : Nat} (hstep : s.expire i = .ok s')
    (harmed : s.armedFor (.expire i) = some when) : Arms s when s' := by
  obtain ⟨hrun, w, hwait, hcompleted⟩ : s.running = none ∧
      ∃ w, s.timerQueue_.steadyTimer_[i]? = some w ∧ w.completed = true := by
    rw [armedFor] at harmed
    split at harmed
    case h_1 hrun hwait => exact ⟨hrun, _, hwait, rfl⟩
    case h_2 => cases harmed
  obtain ⟨active, s₁, hs₁, hopened, hadv, -⟩ := h.expire_completed hrun hwait hcompleted
  obtain rfl := Except.ok.inj (hs₁.symm.trans hstep)
  rw [← armedFor_opened hrun hwait hcompleted active] at harmed
  obtain ⟨⟨old, hwaits, hold⟩, hfirst, hclock⟩ := advance_arms hopened hadv harmed
  exact ⟨⟨old, hwaits, fun w hw => (hold w hw).imp_right List.mem_of_mem_eraseIdx⟩, hfirst, hclock⟩

/-- A start that arms for nothing is quiet. -/
theorem expire_quiet (h : Represents s) {i : Nat} (hstep : s.expire i = .ok s')
    (hnone : s.armedFor (.expire i) = none) : Quiet s (.expire i) s' := by
  by_cases hdue : s.running = none ∧ ∃ w, s.timerQueue_.steadyTimer_[i]? = some w ∧
      w.completed = true
  · obtain ⟨hrun, w, hwait, hcompleted⟩ := hdue
    obtain ⟨active, s₁, hs₁, hopened, hadv, -⟩ := h.expire_completed hrun hwait hcompleted
    obtain rfl := Except.ok.inj (hs₁.symm.trans hstep)
    rw [← armedFor_opened hrun hwait hcompleted active] at hnone
    obtain ⟨hwaits, hlast, hfirst, hclock⟩ := advance_quiet hopened hadv hnone
    refine ⟨fun w hw => (hwaits w hw).imp_left List.mem_of_mem_eraseIdx, ?_, ?_, hclock⟩
    · intro hother
      have hne : i + 1 ≠ s.timerQueue_.steadyTimer_.length := by
        intro hlen
        simp [startsLast, hrun, hwait, hcompleted, hlen] at hother
      have hlt := (List.getElem?_eq_some_iff.mp hwait).1
      have herase : (s.opened i active).timerQueue_.steadyTimer_.getLast? =
          s.timerQueue_.steadyTimer_.getLast? := getLast_eraseIdx (by omega)
      rw [hlast rfl, herase]
    · intro hidle
      refine Or.inr ((hfirst hidle).resolve_left ?_)
      rintro ⟨hnorun, -⟩
      cases hnorun
  · obtain rfl : s = s' := by
      unfold IOLoop.expire at hstep
      split at hstep
      case h_1 hrun hwait => exact absurd ⟨hrun, _, hwait, rfl⟩ hdue
      case h_2 => exact Except.ok.inj hstep
    exact .of_same rfl rfl rfl le_rfl

/-- A completion arms nothing. -/
theorem complete_quiet (s : IOLoop) (i : Nat) : Quiet s (.complete i) (s.complete i) := by
  unfold complete
  split
  case h_1 => exact .of_same rfl rfl rfl le_rfl
  case h_2 w hw =>
    split
    case isFalse => exact .of_same rfl rfl rfl le_rfl
    case isTrue hle =>
      refine ⟨fun w' hw' => ?_, fun _ => ?_, fun hidle => Or.inl ⟨hidle, rfl⟩, le_rfl⟩
      · rcases List.mem_or_eq_of_mem_set hw' with hmem | rfl
        · exact Or.inl hmem
        · exact Or.inr ⟨rfl, hle⟩
      · -- the wait that completes keeps its deadline
        have hmap : (s.timerQueue_.steadyTimer_.set i { w with completed := true }).map
            Wait.deadline = s.timerQueue_.steadyTimer_.map Wait.deadline := by
          refine List.ext_getElem? fun j => ?_
          rw [List.getElem?_map, List.getElem?_map]
          by_cases hji : i = j
          · subst hji
            rw [List.getElem?_set_self (List.getElem?_eq_some_iff.mp hw).1, hw]
            rfl
          · rw [List.getElem?_set_ne hji]
        show (s.timerQueue_.steadyTimer_.set i { w with completed := true }).getLast?.map _ = _
        rw [← List.getLast?_map, hmap, List.getLast?_map]

/-! ## One event -/

/-- The events other than a cancellation. -/
def Event.keeps : Event → Bool
  | .cancel _ _ => false
  | _ => true

/-- **Every event arms for what was foretold.** -/
theorem step_arms (h : Represents s) (hstep : step s e = .ok s')
    (harmed : s.armedFor e = some when) :
    Arms s when s' := by
  cases e with
  | addTimer isInLoopThread a when' interval =>
    cases isInLoopThread with
    | false => cases harmed
    | true =>
      obtain ⟨⟨hfree, hearliest⟩, heq⟩ := Option.ite_none_right_eq_some.mp harmed
      obtain rfl := Option.some.inj heq
      obtain rfl := Except.ok.inj ((h.addTimer_inLoop hfree).symm.trans hstep)
      exact arms_added (q := s.timerQueue_.allocate a when' interval)
        (t := .new when' interval (s.timerQueue_.s_numCreated_ + 1)) rfl rfl rfl rfl hearliest
  | runPosted i =>
    rw [armedFor] at harmed
    split at harmed
    case h_2 => cases harmed
    case h_1 a hrun hi =>
      obtain ⟨hmap, hearliest⟩ := Option.filter_eq_some_iff.mp harmed
      obtain ⟨t, ht, rfl⟩ := Option.map_eq_some_iff.mp hmap
      obtain rfl := Except.ok.inj ((h.runPosted_add hrun hi ht).symm.trans hstep)
      exact arms_added rfl rfl rfl rfl hearliest
  | expire i => exact expire_arms h hstep harmed
  | returned =>
    cases hrun : s.running with
    | none =>
      rw [armedFor, hrun] at harmed
      cases harmed
    | some x =>
      obtain ⟨s₁, hs₁, hadv, -⟩ := h.advance (hrun ▸ rfl)
      obtain rfl := Except.ok.inj (hs₁.symm.trans hstep)
      exact advance_arms h hadv harmed
  | _ => cases harmed

/-- No cancellation is posted. Without cancellations the earliest timer leaves `timers_` only
    with a batch. -/
def KeepsTimers (s : IOLoop) : Prop := ∀ timerId, .cancelInThisThread timerId ∉ s.posted

/-- `addTimer` of a timer that is not the earliest is quiet. -/
theorem addTimer_quiet (h : Represents s) {isInLoopThread : Bool} {a : Addr} {interval : Interval}
    (hstep : s.addTimer isInLoopThread a when interval = .ok s')
    (hnone : s.armedFor (.addTimer isInLoopThread a when interval) = none) :
    Quiet s (.addTimer isInLoopThread a when interval) s' := by
  by_cases hfree : 0 < a ∧ a < uintptrMax ∧ s.timerQueue_.heap a = none
  case neg =>
    rw [IOLoop.addTimer, if_neg hfree] at hstep
    obtain rfl := Except.ok.inj hstep
    exact .of_same rfl rfl rfl le_rfl
  case pos =>
    cases isInLoopThread with
    | false =>
      obtain ⟨s₁, hs₁, heff, -⟩ := h.addTimer false a when interval
      obtain rfl := Except.ok.inj (hs₁.symm.trans hstep)
      cases heff with
      | stays => exact .of_same rfl rfl rfl le_rfl
      | createsPosted => exact .of_same rfl rfl rfl le_rfl
    | true =>
      obtain rfl := Except.ok.inj ((h.addTimer_inLoop hfree).symm.trans hstep)
      refine quiet_added (q := s.timerQueue_.allocate a when interval)
        (t := .new when interval (s.timerQueue_.s_numCreated_ + 1)) rfl rfl rfl rfl rfl ?_
      intro hearliest
      cases hnone.symm.trans (if_pos ⟨hfree, hearliest⟩)

/-- So is a posted handler that inserts none. -/
theorem runPosted_quiet (h : Represents s) (hkeeps : KeepsTimers s) {i : Nat}
    (hstep : s.runPosted i = .ok s') (hnone : s.armedFor (.runPosted i) = none) :
    Quiet s (.runPosted i) s' := by
  obtain ⟨s₁, hs₁, heff, -⟩ := h.runPosted i
  obtain rfl := Except.ok.inj (hs₁.symm.trans hstep)
  cases heff with
  | stays => exact .of_same rfl rfl rfl le_rfl
  | insertsPosted hrun hi ht =>
    rename_i a t
    refine quiet_added rfl rfl rfl rfl rfl ?_
    intro hearliest
    rw [armedFor, hrun, hi] at hnone
    dsimp only at hnone
    rw [ht] at hnone
    cases hnone.symm.trans (Option.filter_eq_some_iff.mpr ⟨rfl, hearliest⟩)
  | cancelsPosted hrun hi => exact absurd (List.mem_of_getElem? hi) (hkeeps _)

/-- **Every event that arms for nothing is quiet.** -/
theorem step_quiet (h : Represents s) (hkeeps : KeepsTimers s) (he : e.keeps = true)
    (hstep : s.step e = .ok s') (hnone : s.armedFor e = none) : Quiet s e s' := by
  cases e with
  | addTimer isInLoopThread a when interval => exact addTimer_quiet h hstep hnone
  | cancel isInLoopThread i => cases he
  | runPosted i => exact runPosted_quiet h hkeeps hstep hnone
  | complete i =>
    obtain rfl := Except.ok.inj hstep
    exact complete_quiet s i
  | expire i => exact expire_quiet h hstep hnone
  | returned =>
    cases hrun : s.running with
    | none =>
      rw [step, advance, hrun] at hstep
      obtain rfl := Except.ok.inj hstep
      exact .of_same rfl rfl rfl le_rfl
    | some x =>
      obtain ⟨s₁, hs₁, hadv, -⟩ := h.advance (hrun ▸ rfl)
      obtain rfl := Except.ok.inj (hs₁.symm.trans hstep)
      exact advance_quiet h hadv hnone
  | tick d =>
    obtain rfl := Except.ok.inj hstep
    rw [tick]
    split
    · exact .of_same rfl rfl rfl (Int.le_add_of_nonneg_right (Int.natCast_nonneg d))
    · exact .of_same rfl rfl rfl le_rfl

/-- The sets lose no timer by events that cancel none. -/
theorem Effect.keepsTimers (heff : Effect s e s') (h : KeepsTimers s) (he : e.keeps = true) :
    KeepsTimers s' := by
  have hadvance : ∀ {r r' : IOLoop}, Advance r r' → r'.posted = r.posted := by
    rintro r r' (_ | _) <;> rfl
  cases heff with
  | stays | creates => exact h
  | createsPosted =>
    intro timerId hmem
    rcases List.mem_append.mp hmem with hmem | hmem
    · exact h timerId hmem
    · cases List.mem_singleton.mp hmem
  | postsCancel => cases he
  | cancels => cases he
  | insertsPosted | cancelsPosted =>
    exact fun timerId hmem => h timerId (List.mem_of_mem_eraseIdx hmem)
  | completes i =>
    rw [complete]
    split
    · exact h
    · split <;> exact h
  | ticks d =>
    rw [tick]
    split <;> exact h
  | expires hrun hopened hadv =>
    rw [KeepsTimers, hadvance hadv]
    exact h
  | advances hadv =>
    rw [KeepsTimers, hadvance hadv]
    exact h

end IOLoop

/-! ## The history of the waits

  What the property is about and the queue does not keep: the waits as they were armed, and
  what the handler of the last one has found. -/

/-- A wait as it was armed: when it ends, and the earliest expiration in `timers_`. -/
structure Armed where
  deadline : Int
  earliest : Timestamp

/-- A loop with the history of its waits.  `latest` tells that the handler of the wait armed last
    has not started; `armed` are the waits armed, and `found` tells for each handler of the wait
    armed last whether a timer was due when it started. -/
structure Watched where
  loop : IOLoop
  latest : Bool
  armed : List Armed
  found : List Bool

namespace Watched

variable {w w' : Watched} {s' : IOLoop} {when : Timestamp}

/-- A new loop: nothing armed, no handler started. -/
def start (now : Timestamp) : Watched := ⟨.new now, false, [], []⟩

/-- An event other than a cancellation. -/
abbrev Event := { e : IOLoop.Event // e.keeps = true }

/-- The wait armed last, when it has just been armed. -/
def lastArmed (s : IOLoop) : List Armed :=
  match s.timerQueue_.steadyTimer_.getLast?, s.timerQueue_.firstExpire with
  | some wait, some e => [⟨wait.deadline, e⟩]
  | _, _ => []

/-- There is a timer with an expiration `<= now`. -/
def anyDue (s : IOLoop) : Bool := s.timerQueue_.firstExpire.any (decide <| · ≤ s.timerQueue_.clock)

/-- The event starts the handler of the wait armed last. -/
def runsLatest (w : Watched) (e : Event) : Bool := w.latest && w.loop.startsLast e.1

/-- The history after an event that leads to `s'`. -/
def next (w : Watched) (e : Event) (s' : IOLoop) : Watched where
  loop := s'
  latest := (w.loop.armedFor e.1).isSome || w.latest && !w.loop.startsLast e.1
  armed := if (w.loop.armedFor e.1).isSome then w.armed ++ lastArmed s' else w.armed
  found := if w.runsLatest e then w.found ++ [anyDue w.loop] else w.found

/-- One event, with the waits it arms and the handlers it starts. -/
def step (w : Watched) (e : Event) : Outcome TimerQueue.Fault Watched Watched := do
  let s' ← within (fun s => { w with loop := s }) (w.loop.step e.1)
  return w.next e s'

/-- Every wait ended no earlier than the earliest expiration at the time it was armed, and every
    handler of the wait armed last found a timer that is due. -/
def NoSpurious (w : Watched) : Prop :=
  (∀ x ∈ w.armed, x.earliest * 1000 ≤ x.deadline) ∧ ∀ b ∈ w.found, b = true

/-! ## The condition

  On the event and on the state before it. -/

/-- What is armed has passed already or is a whole number of seconds away, and the handler of
    the wait armed last does not start with `timers_` empty. It is about what the event arms
    and about the handler that it starts, both read off the state before it. -/
def OnTime (w : Watched) (e : Event) : Prop :=
  (∀ when ∈ w.loop.armedFor e.1,
    when ≤ w.loop.timerQueue_.clock ∨ WholeSeconds w.loop.timerQueue_.clock when) ∧
  (w.runsLatest e = true → w.loop.timerQueue_.timers_.first ≠ none)

/-- Whether an event is on time can be computed. -/
instance (w : Watched) (e : Event) : Decidable (w.OnTime e) :=
  inferInstanceAs (Decidable ((∀ when ∈ w.loop.armedFor e.1, _ ∨ _) ∧ (_ → _)))

/-! ## One event -/

/-- While the wait armed last is there and no handler is running, it ends in time for the
    earliest timer, unless that is due anyway. While a handler is running nothing is asked,
    since `reset` arms the next wait. -/
structure OnTimeInv (w : Watched) : Prop where
  represents : w.loop.Represents
  keeps : w.loop.KeepsTimers
  clock_pos : 0 < w.loop.timerQueue_.clock
  completed : ∀ x ∈ w.loop.timerQueue_.steadyTimer_, x.completed = true →
    x.deadline ≤ w.loop.timerQueue_.clock * 1000
  wait : w.latest = true → w.loop.running = none → ∀ e ∈ w.loop.timerQueue_.firstExpire,
    e ≤ 0 ∨ ∃ d ∈ w.loop.timerQueue_.steadyTimer_.getLast?.map Wait.deadline, e * 1000 ≤ d
  noSpurious : NoSpurious w

/-- The wait that was armed last is that of the foretold time. -/
theorem lastArmed_of_arms {s : IOLoop} (h : s.Arms when s') :
    lastArmed s' = [⟨deadlineFor s.timerQueue_.clock when, when⟩] := by
  obtain ⟨⟨old, hwaits, -⟩, hfirst, -⟩ := h
  rw [lastArmed, hwaits, hfirst, List.getLast?_concat]

namespace OnTimeInv

/-- The wait armed last is over when its handler starts, so the earliest timer is due. -/
theorem anyDue (h : OnTimeInv w) {e : Event} (hruns : w.runsLatest e = true)
    (hsome : w.loop.timerQueue_.timers_.first ≠ none) : anyDue w.loop = true := by
  obtain ⟨hlatest, hstarts⟩ := Bool.and_eq_true_iff.mp hruns
  obtain ⟨x, hx⟩ := Option.ne_none_iff_exists'.mp hsome
  have hfirst : w.loop.timerQueue_.firstExpire = some (ofLex x).1 := congrArg (Option.map _) hx
  rw [Watched.anyDue, hfirst, Option.any_some, decide_eq_true_iff]
  unfold IOLoop.startsLast at hstarts
  split at hstarts
  case h_2 => cases hstarts
  case h_1 i _ =>
    simp only [Bool.and_eq_true, Option.isNone_iff_eq_none, beq_iff_eq,
      Option.any_eq_true] at hstarts
    obtain ⟨⟨hrun, hlen⟩, x', hx', hcompleted⟩ := hstarts
    rcases h.wait hlatest hrun _ hfirst with hle | ⟨d, hd, hle⟩
    · exact le_trans hle (le_of_lt h.clock_pos)
    · have hlast : w.loop.timerQueue_.steadyTimer_.getLast? = some x' := by
        rw [List.getLast?_eq_getElem?, ← hx', ← hlen]
        rfl
      rw [hlast] at hd
      obtain rfl := Option.some.inj hd
      have hover := h.completed x' (List.mem_of_getElem? hx') hcompleted
      exact Int.le_of_mul_le_mul_right (le_trans hle hover) (by decide)

/-- Each event on time keeps the invariant. -/
theorem next (h : OnTimeInv w) {e : Event} (hok : w.OnTime e) (hstep : w.loop.step e.1 = .ok s')
    (heff : w.loop.Effect e.1 s') (hrep : s'.Represents) : OnTimeInv (w.next e s') := by
  obtain ⟨harmed, hruns⟩ := hok
  -- a handler that starts on time finds a timer that is due, which is what `hruns` asks
  have hfound : ∀ b ∈ (w.next e s').found, b = true := by
    intro b hb
    rw [Watched.next] at hb
    dsimp only at hb
    split at hb
    case isFalse => exact h.noSpurious.2 b hb
    case isTrue hlatest =>
      rcases List.mem_append.mp hb with hb | hb
      · exact h.noSpurious.2 b hb
      · rw [List.mem_singleton.mp hb]
        exact h.anyDue hlatest (hruns hlatest)
  have hkeeps := heff.keepsTimers h.keeps e.2
  cases hwhen : w.loop.armedFor e.1 with
  | none =>
    -- nothing is armed, so the last wait is the one there was, or its handler starts now
    obtain ⟨hwaits, hlast, hfirst, hclock⟩ := IOLoop.step_quiet h.represents h.keeps e.2 hstep hwhen
    have hlatest : (w.next e s').latest = (w.latest && !w.loop.startsLast e.1) := by
      rw [Watched.next, hwhen]
      rfl
    refine ⟨hrep, hkeeps, lt_of_lt_of_le h.clock_pos hclock, ?_, ?_, ?_, hfound⟩
    · intro x hx hcompleted
      have hmono : w.loop.timerQueue_.clock * 1000 ≤ s'.timerQueue_.clock * 1000 :=
        Int.mul_le_mul_of_nonneg_right hclock (by decide)
      rcases hwaits x hx with hmem | ⟨-, hle⟩
      · exact le_trans (h.completed x hmem hcompleted) hmono
      · exact le_trans hle hmono
    · intro hlate hidle d hd
      rw [hlatest, Bool.and_eq_true, Bool.not_eq_true'] at hlate
      rcases hfirst hidle with ⟨hrun, hsame⟩ | hpast
      · change d ∈ s'.timerQueue_.firstExpire at hd
        rw [hsame] at hd
        have hwait := h.wait hlate.1 hrun d hd
        rwa [← hlast hlate.2] at hwait
      · exact Or.inl (hpast d hd)
    · rw [Watched.next, hwhen]
      exact h.noSpurious.1
  | some when =>
    -- the wait armed now is the last one, and it is for the first expiration
    have harms := IOLoop.step_arms h.represents hstep hwhen
    have hlast := lastArmed_of_arms harms
    obtain ⟨⟨old, hwaits, hold⟩, hfirst, hclock⟩ := harms
    have hdeadline := deadline_ge_iff.mpr (harmed when hwhen)
    refine ⟨hrep, hkeeps, hclock ▸ h.clock_pos, ?_, ?_, ?_, hfound⟩
    · intro x hx hcompleted
      change x ∈ s'.timerQueue_.steadyTimer_ at hx
      show x.deadline ≤ s'.timerQueue_.clock * 1000
      rw [hwaits] at hx
      rcases List.mem_append.mp hx with hx | hx
      · rw [hclock]
        exact h.completed x (hold x hx).2 hcompleted
      · obtain rfl := List.mem_singleton.mp hx
        cases hcompleted
    · intro _ _ d hd
      obtain rfl := Option.some.inj (hfirst.symm.trans hd)
      refine Or.inr ⟨_, ?_, hdeadline⟩
      show _ ∈ s'.timerQueue_.steadyTimer_.getLast?.map Wait.deadline
      rw [hwaits, List.getLast?_concat]
      rfl
    · rw [Watched.next, hwhen, hlast]
      intro x hx
      rcases List.mem_append.mp hx with hx | hx
      · exact h.noSpurious.1 x hx
      · rw [List.mem_singleton.mp hx]
        exact hdeadline

end OnTimeInv

/-- An event that is not on time is in the history. -/
theorem not_noSpurious {e : Event} (h : OnTimeInv w) (hnot : ¬ w.OnTime e)
    (hstep : w.loop.step e.1 = .ok s') : ¬ NoSpurious (w.next e s') := by
  rintro ⟨harmed, hfound⟩
  refine hnot ⟨?_, ?_⟩
  · intro when hwhen
    have hwhen' : w.loop.armedFor e.1 = some when := hwhen
    have hlast := lastArmed_of_arms (IOLoop.step_arms h.represents hstep hwhen')
    refine deadline_ge_iff.mp (harmed ⟨_, when⟩ ?_)
    rw [next, hwhen', hlast]
    exact List.mem_append_right _ (List.mem_singleton_self _)
  · intro hruns hempty
    have hnone : anyDue w.loop = false := by
      rw [anyDue, firstExpire, hempty]
      rfl
    have hfalse : false ∈ (w.next e s').found := by
      rw [next, if_pos hruns, hnone]
      exact List.mem_append_right _ (List.mem_singleton_self _)
    cases hfound false hfalse

/-! ## Every run -/

/-- In a new loop no handler has started. -/
theorem start_onTimeInv {now : Timestamp} (hpos : 0 < now) : OnTimeInv (start now) where
  represents := IOLoop.new_represents now
  keeps := fun _ h => absurd h List.not_mem_nil
  clock_pos := hpos
  completed := fun _ h => absurd h List.not_mem_nil
  wait := fun h => by cases h
  noSpurious := ⟨fun _ h => absurd h List.not_mem_nil, fun _ h => absurd h List.not_mem_nil⟩

/-- **No spurious wake-ups.**  The runs in which every wait ends no earlier than the earliest timer,
    and every handler of the wait armed last finds one that is due, are those in which each event is
    on time. -/
theorem no_spurious_iff {now : Timestamp} (hpos : 0 < now) (es : List Event) :
    Guarded step OnTime (start now) es ↔
      ∀ pre, pre <+: es → Holds NoSpurious (fun _ => False) (run step (start now) pre) := by
  have hnext : ∀ w e, OnTimeInv w → ∃ s', step w e = .ok (w.next e s') ∧
      w.loop.step e.1 = .ok s' ∧ w.loop.Effect e.1 s' ∧ s'.Represents := by
    intro w e h
    obtain ⟨s', hs', heff, hrep⟩ := IOLoop.step_effect h.represents e.1
    refine ⟨s', ?_, hs', heff, hrep⟩
    rw [step, hs']
    rfl
  refine guarded_iff (I := OnTimeInv) (fun w h => h.noSpurious) ?_ ?_ es _ (start_onTimeInv hpos)
  · intro w e h hok
    obtain ⟨s', hs', hstep, heff, hrep⟩ := hnext w e h
    rw [hs']
    exact .ok (h.next hok hstep heff hrep)
  · intro w e h hnot hholds
    obtain ⟨s', hs', hstep, -, -⟩ := hnext w e h
    rw [hs'] at hholds
    exact not_noSpurious h hnot hstep (holds_ok.mp hholds)

section Examples

/-- A timer two seconds ahead, and a repeating one that is added for a time that has passed. -/
def wholeSeconds : List Event :=
  [⟨.addTimer true 16 1700000002000000 ⟨false, 0⟩, rfl⟩, ⟨.tick 2000000, rfl⟩, ⟨.complete 0, rfl⟩,
    ⟨.addTimer true 32 1700000001500000 ⟨true, 3000000⟩, rfl⟩, ⟨.complete 1, rfl⟩, ⟨.expire 1, rfl⟩,
    ⟨.returned, rfl⟩, ⟨.returned, rfl⟩]

/-- The condition can be met: timers whole seconds ahead. -/
theorem no_spurious_wholeSeconds :
    ((0 : Int) < 1700000000000000 ∧ Guarded step OnTime (start 1700000000000000) wholeSeconds) ∧
    ∀ pre, pre <+: wholeSeconds →
      Holds NoSpurious (fun _ => False) (run step (start 1700000000000000) pre) := by
  have hpos : (0 : Int) < 1700000000000000 := by decide
  have hguard : Guarded step OnTime (start 1700000000000000) wholeSeconds := by decide +kernel
  exact ⟨⟨hpos, hguard⟩, (no_spurious_iff hpos wholeSeconds).mp hguard⟩

/-- A timer half a second ahead. -/
def halfSecond : List Event :=
  [⟨.addTimer true 16 1700000000500000 ⟨false, 0⟩, rfl⟩, ⟨.complete 0, rfl⟩, ⟨.expire 0, rfl⟩,
    ⟨.complete 0, rfl⟩, ⟨.expire 0, rfl⟩]

/-- **The loop spins** until then: each wait is armed for no time at all, and its handler finds
    nothing and arms the next. -/
theorem halfSecond_spins :
    ¬ Holds NoSpurious (fun _ => False) (run step (start 1700000000000000) halfSecond) := by
  have hend : (run step (start 1700000000000000) halfSecond).toOption.map
      (fun w => (w.armed.map fun x => (x.deadline - x.earliest * 1000), w.found)) =
      some ([-500000000, -500000000, -500000000], [false, false]) := by decide +kernel
  generalize run step (start 1700000000000000) halfSecond = r at hend
  intro h
  cases h with
  | ok h =>
    obtain ⟨-, hfound⟩ := Prod.mk.inj (Option.some.inj hend)
    cases h.2 false (hfound ▸ List.mem_cons_self)
  | error h => exact h

end Examples

end Watched

end IOEvent
