/-
  `Timestamp`, `Timer`, `TimerQueue` (Timestamp.h, Timer.cpp, TimerQueue.cpp) and the part of
  `IOLoop` (IOLoop.cpp) that runs them.

  A `Timer` lives in memory at an address.  The queue keeps the addresses of the timers it owns in
  two sets: `timers_`, ordered by expiration, and `activeTimers_`, ordered by address.  A timer
  created by `addTimer` on another thread is owned by the handler posted for it, and a timer whose
  expiration has passed by the wait handler that is executing it (`Expiry`).  The memory is part of
  the state, so a use of a deleted timer and a second delete are faults, as a failed `assert` is.

  `steadyTimer_` is asio's: `expires_from_now` aborts the waits that are still pending, and a wait
  whose deadline has passed may complete, after which its handler runs whatever is armed later.  An
  aborted wait calls its handler with an error, which does nothing, so it is dropped at once.

  `IOLoop.step` is the loop: calls from any thread, posted handlers in any order, completions,
  expiry handlers one callback at a time, with the calls a callback makes between `expire` and
  `returned`, and time.  What cannot happen in a state leaves the state as it is.
-/
import IOEvent.Foundation.OrderedSet
import IOEvent.Foundation.Runs
import IOEvent.Foundation.Words
import Mathlib.Data.Prod.Lex
import Mathlib.Logic.Function.Basic

open Foundation

namespace IOEvent

/-! ## Timestamps

  All times are microseconds in an `int64_t`, and a sum that overflows wraps around. -/

/-- `microSecondsSinceEpoch_`, an `int64_t`. -/
abbrev Timestamp := Int

namespace Timestamp

/-- `kMicroSecondsPerSecond`. -/
def kMicroSecondsPerSecond : Int := 1000 * 1000

/-- `Timestamp::invalid()`: zero. -/
def invalid : Timestamp := 0

/-- `vaild()`, in the spelling of the source: a time behind zero. -/
def vaild (t : Timestamp) : Bool := 0 < t

/-- `addTime(timestamp, seconds)`, with `delta` for
    `static_cast<int64_t>(seconds * kMicroSecondsPerSecond)`. -/
def addTime (timestamp : Timestamp) (delta : Int) : Timestamp := wrapInt64 (timestamp + delta)

end Timestamp

/-! ## Timers

  A timer is known by its address, as in the code, and by its number, which is never used
  again. -/

/-- The `double` interval of a timer, as far as it is read: whether it is `> 0.0`, and
    `static_cast<int64_t>(interval * kMicroSecondsPerSecond)`. -/
structure Interval where
  positive : Bool
  micros : Int
  deriving DecidableEq, Repr

/-- A `Timer`: when it expires, its interval, whether it repeats, and its number. -/
structure Timer where
  expiration_ : Timestamp
  interval_ : Interval
  repeat_ : Bool
  sequence_ : Nat
  deriving DecidableEq, Repr

/-- A `Timer *`. -/
abbrev Addr := Nat

/-- `UINTPTR_MAX`; no object starts there. -/
def uintptrMax : Addr := 2 ^ 64 - 1

namespace Timer

/-- The constructor; `sequence` is `++s_numCreated_`. -/
def new (expiration : Timestamp) (interval : Interval) (sequence : Nat) : Timer where
  expiration_ := expiration
  interval_ := interval
  repeat_ := interval.positive
  sequence_ := sequence

/-- `restart(now)`: the next expiration is counted from the time of the batch, not from the last
    expiration. A timer that does not repeat gets an invalid one. -/
def restart (t : Timer) (now : Timestamp) : Timer :=
  if t.repeat_ then
    { t with expiration_ := Timestamp.addTime now t.interval_.micros }
  else
    { t with expiration_ := Timestamp.invalid }

/-- A restarted timer keeps its number. -/
@[simp] theorem restart_sequence (t : Timer) (now : Timestamp) :
    (t.restart now).sequence_ = t.sequence_ := by
  rw [restart]
  split <;> rfl

end Timer

/-- What `addTimer` returns: the address of the timer and its number. The number tells a later
    timer at the same address apart. -/
structure TimerId where
  timer_ : Addr
  sequence_ : Nat
  deriving DecidableEq, Repr

/-! ## The queue

  The sets are sorted lists, so that `first` and the order of a batch are those of `std::set`. -/

/-- A wait on `steadyTimer_`: when it was armed, when it is due (in nanoseconds, the unit of
    `steady_clock`), and whether it has completed, that is, whether its handler is queued with
    success. -/
structure Wait where
  armedAt : Timestamp
  deadline : Int
  completed : Bool
  deriving DecidableEq, Repr

/-- The members of the queue, the `Timer`s in memory, and the clock.  `deleted` is the history of
    the sequence numbers of the timers deleted; no function reads it. -/
structure TimerQueue where
  steadyTimer_ : List Wait
  timers_ : OrderedSet (Timestamp ×ₗ Addr)
  activeTimers_ : OrderedSet (Addr ×ₗ Nat)
  callingExpiredTimers_ : Bool
  cancelingTimers_ : OrderedSet (Addr ×ₗ Nat)
  s_numCreated_ : Nat
  heap : Addr → Option Timer
  deleted : List Nat
  clock : Timestamp

namespace TimerQueue

/-- An element of `timers_`. -/
abbrev Entry := Timestamp ×ₗ Addr

/-- An element of `activeTimers_`. -/
abbrev ActiveTimer := Addr ×ₗ Nat

/-- The function whose `assert` fails. -/
inductive Site
  | cancelInThisThread
  | insert
  | getExpired
  deriving DecidableEq, Repr

/-- How an operation of the queue can go wrong. -/
inductive Fault
  | assertFailed (site : Site)
  /-- A read or write of a `Timer` that has been deleted. -/
  | useAfterFree
  /-- A `delete` of a `Timer` that has been deleted. -/
  | doubleFree
  deriving DecidableEq, Repr

/-- An operation returns with what it leaves behind, or stops with the fault. -/
abbrev M (α : Type) := Outcome Fault TimerQueue α

/-- The constructor, at the time `now`. -/
def new (now : Timestamp) : TimerQueue where
  steadyTimer_ := []
  timers_ := .empty
  activeTimers_ := .empty
  callingExpiredTimers_ := false
  cancelingTimers_ := .empty
  s_numCreated_ := 0
  heap := fun _ => none
  deleted := []
  clock := now

/-! ### Memory

  Every read, write and `delete` of a `Timer` goes through these, and is a fault when there is
  none at the address. -/

/-- `new Timer(cb, when, interval)` at the address `a`. -/
def allocate (q : TimerQueue) (a : Addr) (when : Timestamp) (interval : Interval) : TimerQueue :=
  { q with
    s_numCreated_ := q.s_numCreated_ + 1
    heap := Function.update q.heap a (some (.new when interval (q.s_numCreated_ + 1))) }

/-- The `Timer` a pointer points to. -/
def deref (q : TimerQueue) (a : Addr) : M Timer :=
  match q.heap a with
  | some t => .ok t
  | none => .error (.useAfterFree, q)

/-- `timer->restart(now)`. -/
def restart (q : TimerQueue) (a : Addr) (now : Timestamp) : M TimerQueue := do
  let t ← q.deref a
  return { q with heap := Function.update q.heap a (some (t.restart now)) }

/-- `delete timer`. -/
def delete (q : TimerQueue) (a : Addr) : M TimerQueue :=
  match q.heap a with
  | some t =>
    .ok { q with heap := Function.update q.heap a none, deleted := q.deleted ++ [t.sequence_] }
  | none => .error (.doubleFree, q)

/-! ### `steadyTimer_` -/

/-- `expires_from_now` and `async_wait`: the pending waits are aborted and a new one is armed.
    The `seconds` become nanoseconds in an `int64_t`. A wait that has completed already cannot
    be aborted; its handler is called later. -/
def update (q : TimerQueue) (sec : Int) : TimerQueue :=
  { q with steadyTimer_ := q.steadyTimer_.filter (·.completed) ++
      [⟨q.clock, q.clock * 1000 + wrapInt64 (sec * 1000000000), false⟩] }

/-- `resetTimer(when)`.  `Timestamp::now()` and the clock of `steadyTimer_` are read at one
    instant. -/
def resetTimer (q : TimerQueue) (when : Timestamp) : TimerQueue :=
  let microSeconds := wrapInt64 (when - q.clock)
  let microSeconds := if microSeconds < 100 then 100 else microSeconds
  let tv_sec := microSeconds / Timestamp.kMicroSecondsPerSecond
  q.update tv_sec

/-! ### The sets

  What the members of the class do to the two sets.  Their assertions are part of it. -/

/-- `assert(timers_.size() == activeTimers_.size())`. -/
def assertSizes (q : TimerQueue) (site : Site) : M Unit :=
  require (q.timers_.size = q.activeTimers_.size) (.assertFailed site) q

/-- `insert(timer)`; the second component is `earliestChanged`. -/
def insert (q : TimerQueue) (timer : Addr) : M (TimerQueue × Bool) := do
  q.assertSizes .insert
  let t ← q.deref timer
  let when := t.expiration_
  let earliestChanged :=
    match q.timers_.first with
    | none => true
    | some iter => decide (when < (ofLex iter).1)
  let (timers, result) := q.timers_.emplace (toLex (when, timer))
  require (result = true) (.assertFailed .insert) q
  let q := { q with timers_ := timers }
  let (active, result) := q.activeTimers_.emplace (toLex (timer, t.sequence_))
  require (result = true) (.assertFailed .insert) q
  let q := { q with activeTimers_ := active }
  q.assertSizes .insert
  return (q, earliestChanged)

/-- `addTimerInThisThread`: the timer is inserted, and `steadyTimer_` is set when it is the
    earliest one. -/
def addTimerInThisThread (q : TimerQueue) (timer : Addr) : M TimerQueue := do
  let (q, earliestChanged) ← q.insert timer
  if earliestChanged then
    let t ← q.deref timer
    return q.resetTimer t.expiration_
  else
    return q

/-- The branch of `cancelInThisThread` for a timer found in `activeTimers_`. -/
def cancelActive (q : TimerQueue) (timer : Addr) (sequence : Nat) : M TimerQueue := do
  let t ← q.deref timer
  let (timers, n) := q.timers_.erase (toLex (t.expiration_, timer))
  let q := { q with timers_ := timers }
  require (n = 1) (.assertFailed .cancelInThisThread) q
  let q ← q.delete timer
  return { q with activeTimers_ := (q.activeTimers_.erase (toLex (timer, sequence))).1 }

/-- `cancelInThisThread`: a timer in the sets is erased and deleted; one of the batch that is
    being executed is marked, so that it is not restarted. -/
def cancelInThisThread (q : TimerQueue) (timerId : TimerId) : M TimerQueue := do
  q.assertSizes .cancelInThisThread
  let timer : ActiveTimer := toLex (timerId.timer_, timerId.sequence_)
  let q ←
    if timer ∈ q.activeTimers_ then
      q.cancelActive timerId.timer_ timerId.sequence_
    else if q.callingExpiredTimers_ then
      .ok { q with cancelingTimers_ := (q.cancelingTimers_.emplace timer).1 }
    else
      .ok q
  q.assertSizes .cancelInThisThread
  return q

/-- The removal of one expired timer from `activeTimers_`. -/
def deactivate (q : TimerQueue) (exp : Entry) : M TimerQueue := do
  let t ← q.deref (ofLex exp).2
  let (active, n) := q.activeTimers_.erase (toLex ((ofLex exp).2, t.sequence_))
  let q := { q with activeTimers_ := active }
  require (n = 1) (.assertFailed .getExpired) q
  return q

/-- `getExpired(now)`: the timers that have expired are taken out of both sets. -/
def getExpired (q : TimerQueue) (now : Timestamp) : M (TimerQueue × List Entry) := do
  q.assertSizes .getExpired
  let entry : Entry := toLex (now, uintptrMax)
  let expired := q.timers_.before entry
  let rest := q.timers_.fromBound entry
  require (∀ e ∈ rest.first, now < (ofLex e).1) (.assertFailed .getExpired) q
  let q := { q with timers_ := rest }
  let q ← run deactivate q expired
  q.assertSizes .getExpired
  return (q, expired)

/-- What `reset` does with one expired timer. -/
def renew (now : Timestamp) (q : TimerQueue) (entry : Entry) : M TimerQueue := do
  let t ← q.deref (ofLex entry).2
  let timer : ActiveTimer := toLex ((ofLex entry).2, t.sequence_)
  if t.repeat_ = true ∧ timer ∉ q.cancelingTimers_ then
    let q ← q.restart (ofLex entry).2 now
    let (q, _) ← q.insert (ofLex entry).2
    return q
  else
    q.delete (ofLex entry).2

/-- The end of `reset`: arm the timer for the earliest expiration. -/
def rearm (q : TimerQueue) : M TimerQueue := do
  let nextExpire ←
    match q.timers_.first with
    | none => .ok Timestamp.invalid
    | some entry => (q.deref (ofLex entry).2).map Timer.expiration_
  if Timestamp.vaild nextExpire then
    return q.resetTimer nextExpire
  else
    return q

/-- `reset`: what is to be repeated goes back into the sets, the rest is deleted, and
    `steadyTimer_` is set again. -/
def reset (q : TimerQueue) (expired : List Entry) (now : Timestamp) : M TimerQueue := do
  let q ← run (renew now) q expired
  q.rearm

end TimerQueue

/-! ## The loop

  What runs the queue: the handlers that other threads have posted, and the handler of
  `steadyTimer_`, with the callbacks that it calls. -/

/-- A handler posted to the loop. -/
inductive TimerTask
  | addTimerInThisThread (timer : Addr)
  | cancelInThisThread (timerId : TimerId)
  deriving DecidableEq, Repr

/-- The locals of the wait handler while it executes `expired`: the callbacks of `ran` have been
    started, the last of them is running, and those of `left` have not been started. -/
structure Expiry where
  now : Timestamp
  ran : List TimerQueue.Entry
  left : List TimerQueue.Entry
  deriving DecidableEq

/-- What the trace of a loop records, with the sequence number of the timer. -/
inductive TimerMark
  /-- The callback was started. -/
  | started (sequence : Nat)
  /-- `cancelInThisThread` was executed. -/
  | cancelled (sequence : Nat)
  deriving DecidableEq, Repr

/-- The queue on its loop: the posted handlers, the wait handler that is running, the `TimerId`s
    that `addTimer` has returned, and the trace. -/
structure IOLoop where
  timerQueue_ : TimerQueue
  posted : List TimerTask
  running : Option Expiry
  timerIds : List TimerId
  trace : List TimerMark

namespace IOLoop

/-- A step leaves a loop, or stops with a fault of its queue. -/
abbrev M := Outcome TimerQueue.Fault IOLoop IOLoop

/-- A new loop at a time. -/
def new (now : Timestamp) : IOLoop := ⟨.new now, [], none, [], []⟩

/-- The loop with another state of its queue. -/
def setQueue (s : IOLoop) (q : TimerQueue) : IOLoop := { s with timerQueue_ := q }

/-- What the properties look at is entered in the trace. -/
def mark (s : IOLoop) (m : TimerMark) : IOLoop := { s with trace := s.trace ++ [m] }

/-- Run a handler of the queue on the loop thread. -/
def perform (s : IOLoop) : TimerTask → M
  | .addTimerInThisThread timer => do
    let q ← within s.setQueue (s.timerQueue_.addTimerInThisThread timer)
    return s.setQueue q
  | .cancelInThisThread timerId => do
    let q ← within s.setQueue (s.timerQueue_.cancelInThisThread timerId)
    return (s.setQueue q).mark (.cancelled timerId.sequence_)

/-- A handler is posted behind those that are posted already. -/
def post (s : IOLoop) (cb : TimerTask) : IOLoop := { s with posted := s.posted ++ [cb] }

/-- `dispatch`: at once on the loop thread, as a posted handler from another one. -/
def dispatch (s : IOLoop) (isInLoopThread : Bool) (cb : TimerTask) : M :=
  if isInLoopThread then s.perform cb else return s.post cb

/-- `addTimer(cb, when, interval)`; the allocator returns the address `timer`, which is free. -/
def addTimer (s : IOLoop) (isInLoopThread : Bool) (timer : Addr) (when : Timestamp)
    (interval : Interval) : M :=
  if 0 < timer ∧ timer < uintptrMax ∧ s.timerQueue_.heap timer = none then do
    let s := s.setQueue (s.timerQueue_.allocate timer when interval)
    let s ← s.dispatch isInLoopThread (.addTimerInThisThread timer)
    let t ← within s.setQueue (s.timerQueue_.deref timer)
    return { s with timerIds := s.timerIds ++ [⟨timer, t.sequence_⟩] }
  else
    return s

/-- `cancel` of the `i`-th `TimerId` ever returned. -/
def cancel (s : IOLoop) (isInLoopThread : Bool) (i : Nat) : M :=
  match s.timerIds[i]? with
  | none => return s
  | some timerId => s.dispatch isInLoopThread (.cancelInThisThread timerId)

/-- The loop runs the `i`-th posted handler, unless it is executing another handler. -/
def runPosted (s : IOLoop) (i : Nat) : M :=
  match s.running, s.posted[i]? with
  | none, some cb => ({ s with posted := s.posted.eraseIdx i } : IOLoop).perform cb
  | _, _ => return s

/-- The wait handler goes on: it starts the next callback, or finishes. -/
def advance (s : IOLoop) : M :=
  match s.running with
  | none => return s
  | some ⟨now, ran, entry :: left⟩ => do
    let t ← within s.setQueue (s.timerQueue_.deref (ofLex entry).2)
    return { s.mark (.started t.sequence_) with running := some ⟨now, ran ++ [entry], left⟩ }
  | some ⟨now, expired, []⟩ => do
    let q : TimerQueue := { s.timerQueue_ with callingExpiredTimers_ := false }
    let q ← within s.setQueue (q.reset expired now)
    return { s.setQueue q with running := none }

/-- The handler of the `i`-th wait starts, if that wait has completed. -/
def expire (s : IOLoop) (i : Nat) : M :=
  match s.running, s.timerQueue_.steadyTimer_[i]? with
  | none, some ⟨_, _, true⟩ => do
    let q : TimerQueue := { s.timerQueue_ with
      steadyTimer_ := s.timerQueue_.steadyTimer_.eraseIdx i }
    let now := q.clock
    let (q, expired) ← within s.setQueue (q.getExpired now)
    let q : TimerQueue := { q with cancelingTimers_ := .empty, callingExpiredTimers_ := true }
    ({ s.setQueue q with running := some ⟨now, [], expired⟩ } : IOLoop).advance
  | _, _ => return s

/-- The deadline of the `i`-th wait has passed and asio queues its handler. -/
def complete (s : IOLoop) (i : Nat) : IOLoop :=
  match s.timerQueue_.steadyTimer_[i]? with
  | none => s
  | some w =>
    if w.deadline ≤ s.timerQueue_.clock * 1000 then
      s.setQueue { s.timerQueue_ with
        steadyTimer_ := s.timerQueue_.steadyTimer_.set i { w with completed := true } }
    else
      s

/-- Time passes, as long as `Timestamp::now()` can tell it. -/
def tick (s : IOLoop) (d : Nat) : IOLoop :=
  if s.timerQueue_.clock + d < 2 ^ 63 then
    s.setQueue { s.timerQueue_ with clock := s.timerQueue_.clock + d }
  else
    s

/-- One step of the loop: a call from any thread, a posted handler, a wait that completes or whose
    handler starts, the return of a callback, or time. -/
inductive Event
  | addTimer (isInLoopThread : Bool) (timer : Addr) (when : Timestamp) (interval : Interval)
  | cancel (isInLoopThread : Bool) (i : Nat)
  | runPosted (i : Nat)
  | complete (i : Nat)
  | expire (i : Nat)
  /-- The running callback returns. -/
  | returned
  | tick (d : Nat)

/-- One step. -/
def step (s : IOLoop) : Event → M
  | .addTimer isInLoopThread timer when interval =>
    s.addTimer isInLoopThread timer when interval
  | .cancel isInLoopThread i => s.cancel isInLoopThread i
  | .runPosted i => s.runPosted i
  | .complete i => return s.complete i
  | .expire i => s.expire i
  | .returned => s.advance
  | .tick d => return s.tick d

end IOLoop

end IOEvent
