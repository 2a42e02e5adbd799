/-
  `IOLoopThread` (IOLoopThread.cpp), with what it uses of `Thread` (Thread.cpp) and of `IOLoop`
  (IOLoop.cpp).

  The state is the members of an `IOLoopThread` and of its `thread_`, the `IOLoop` that
  `threadFunc` constructs, and two threads: the owner, by its place in `start`, `stop` or the
  destructor, and the thread it creates, by its place in `runInThread` and `threadFunc`.  What a
  thread does with `mutex_` or the mutex of the latch held is one event.  The other threads, and
  the handlers of the loop themselves, use the pointer that `start` returns to post handlers;
  `dispatch` on the thread of the loop is a plain call, and on another thread it is `post`.  The
  `io_context` runs its handlers in order, since one thread calls `run`.  The timers of the loop
  are left out.

  A use of the loop after `threadFunc` has destroyed it, or of a member after the destructor of
  the `IOLoopThread` has returned, is a fault, as a failed `assert` and a `LOG(FATAL)` are.

  `posted` and `taken` are the history of the handlers posted and of those started, and `owed` is
  what had been posted when `stop` called `quit`; no function reads them.
-/
import IOEvent.CountDownLatch
import IOEvent.ThreadPool

open Foundation

namespace IOEvent

/-- `std::thread::id`; `0` is that of no thread. -/
abbrev ThreadId := Nat

/-! ## The loop

  The part of an `IOLoop` that its thread uses: a queue of handlers and the flags that end it. -/

/-- A handler in the queue of the `io_context`. -/
inductive LoopTask
  | task (n : Nat)
  | quitInThisThread
  deriving DecidableEq, Repr

/-- The local `loop` of `threadFunc`: an `IOLoop` with the queue of its `io_context`. -/
structure ThreadLoop where
  threadId_ : ThreadId
  quit_ : Bool
  work_ : Bool
  stopped : Bool
  queue : List LoopTask
  deriving DecidableEq, Repr

namespace ThreadLoop

/-- The constructor: the work that keeps the loop running, and nothing queued. -/
def new (tid : ThreadId) : ThreadLoop := ⟨tid, false, true, false, []⟩

/-- `isInLoopThread`: the thread that made the loop is the one that asks. -/
def isInLoopThread (l : ThreadLoop) (tid : ThreadId) : Bool := tid == l.threadId_

/-- `post`: behind all that is queued. -/
def post (l : ThreadLoop) (cb : LoopTask) : ThreadLoop := { l with queue := l.queue ++ [cb] }

/-- `quit`: the flag, and a handler that ends the loop when its turn comes. -/
def quit (l : ThreadLoop) : ThreadLoop := { l with quit_ := true }.post .quitInThisThread

/-- The end of `quitInThisThread`: `work_.reset()` and `ioContext_.stop()`. -/
def shut (l : ThreadLoop) : ThreadLoop := { l with work_ := false, stopped := true }

end ThreadLoop

/-- `join` marks the thread; what it waits for is where the created thread is. -/
def Thread.join (t : Thread) : Thread := { t with join_ := true }

/-! ## The threads

  Each by the place at which it is in the source.  What it does next is decided by the place and
  the shared members. -/

/-- Where the owner is.  In `quitting` and `joining` the flag says that the destructor has called
    `stop`. -/
inductive Owner
  /-- In none of the functions. -/
  | idle
  /-- In `latch_.wait()`, before it has acquired the mutex. -/
  | latching
  /-- Asleep in `latch_.wait()`. -/
  | latchWaiting
  /-- In `start`, before it has acquired `mutex_`. -/
  | locking
  /-- In `condition_.wait`. -/
  | waiting
  /-- In `stop`, which has seen `loop_ != nullptr`. -/
  | quitting (destroying : Bool)
  /-- In `thread_.join()`. -/
  | joining (destroying : Bool)
  /-- The destructor has returned. -/
  | destroyed
  deriving DecidableEq, Repr

/-- In `start`. -/
def Owner.starting : Owner → Bool
  | .latching => true
  | .latchWaiting => true
  | .locking => true
  | .waiting => true
  | _ => false

/-- Where the created thread is: what it does next. -/
inductive LoopThread
  | notCreated
  /-- `*tid_ = CurrentThread::tid()` -/
  | created
  /-- `latch_->countDown()` -/
  | tidStored
  /-- `IOLoop loop` -/
  | counted
  /-- `loop_ = &loop` and `condition_.notify_one()` -/
  | constructed
  /-- `loop.loop()` -/
  | stored
  /-- In `ioContext_.run()`, between two handlers. -/
  | polling
  /-- In a handler. -/
  | running (n : Nat)
  /-- `loop_ = nullptr` -/
  | left
  /-- `~IOLoop` -/
  | cleared
  | finished
  deriving DecidableEq, Repr

/-- In `loop.loop()`. -/
def LoopThread.looping : LoopThread → Bool
  | .stored => true
  | .polling => true
  | .running _ => true
  | _ => false

/-- A handler is being run. -/
def LoopThread.inHandler : LoopThread → Bool
  | .running _ => true
  | _ => false

/-- The members of the class, where its two threads are, the loop while it exists, and the history
    of the handlers. -/
structure IOLoopThread where
  started_ : Bool
  thread_ : Thread
  /-- `thread_.tid_` -/
  tid_ : ThreadId
  /-- `thread_.latch_` -/
  latch_ : CountDownLatch
  /-- Whether `loop_` points to `loop`; otherwise it is `nullptr`. -/
  loop_ : Bool
  condition_ : CondVar
  owner : Owner
  thread : LoopThread
  /-- `CurrentThread::tid()` on the created thread. -/
  self : ThreadId
  /-- `t_inThisThreadLoop != nullptr` on the created thread. -/
  t_inThisThreadLoop : Bool
  loop : Option ThreadLoop
  posted : List Nat
  taken : List Nat
  owed : List Nat
  deriving DecidableEq, Repr

namespace IOLoopThread

/-- The function whose `assert` fails. -/
inductive Site
  | start
  | threadStart
  | join
  deriving DecidableEq, Repr

/-- How a step can go wrong. -/
inductive Fault
  | assertFailed (site : Site)
  /-- `LOG(FATAL)`: a second loop in a thread, or a function of the loop called from another one. -/
  | fatal
  | useAfterFree
  /-- `--count_` in the latch. -/
  | overflows
  deriving DecidableEq, Repr

/-- A step leaves a state, or stops with a fault. -/
abbrev M := Outcome Fault IOLoopThread IOLoopThread

/-- The constructor: no thread, no loop. -/
def new : IOLoopThread where
  started_ := false
  thread_ := .new
  tid_ := 0
  latch_ := .new 1
  loop_ := false
  condition_ := .new
  owner := .idle
  thread := .notCreated
  self := 0
  t_inThisThreadLoop := false
  loop := none
  posted := []
  taken := []
  owed := []

/-- `start` has returned the pointer to the loop. -/
def returned (s : IOLoopThread) : Bool := s.thread_.started_ && !s.owner.starting

/-- The loop, through a pointer to it. -/
def deref (s : IOLoopThread) : Outcome Fault IOLoopThread ThreadLoop :=
  match s.loop with
  | some l => .ok l
  | none => .error (.useAfterFree, s)

/-- An access of the created thread to a member. -/
def member (s : IOLoopThread) : Outcome Fault IOLoopThread Unit :=
  require (s.owner ≠ .destroyed) .useAfterFree s

/-! ### The owner

  It is asleep at two places, in the latch and at `condition_`; at all others its next step is
  one of these functions. -/

/-- `Thread::start`, up to `latch_.wait()`; the new thread is `id`. -/
def startThread (s : IOLoopThread) (id : ThreadId) : M := do
  require (s.thread_.started_ = false) (.assertFailed .threadStart) s
  return { s with thread_ := s.thread_.start, owner := .latching, thread := .created, self := id }

/-- `start`: on a thread that is not in another function of the class. -/
def start (s : IOLoopThread) (id : ThreadId) : M :=
  if s.owner = .idle ∧ id ≠ 0 then do
    require (s.started_ = false) (.assertFailed .start) s
    require (s.thread_.started_ = false) (.assertFailed .start) s
    { s with started_ := true }.startThread id
  else
    return s

/-- The owner in the loop of `latch_.wait()`, and behind it the end of `Thread::start`. -/
def latchWait (s : IOLoopThread) : M :=
  let (latch, leaves) := s.latch_.wait 0
  let s := { s with latch_ := latch }
  if leaves = true then do
    require (s.tid_ ≠ 0) (.assertFailed .threadStart) s
    return { s with owner := .locking }
  else
    return { s with owner := .latchWaiting }

/-- The owner in `while (!loop_) { condition_.wait(lock); }`. -/
def loopWait (s : IOLoopThread) : IOLoopThread :=
  if s.loop_ = true then
    { s with owner := .idle }
  else
    { s with owner := .waiting, condition_ := s.condition_.wait 0 }

/-- The owner wakes at the latch. -/
def latchResume (s : IOLoopThread) : IOLoopThread := { s with latch_ := s.latch_.resume 0 }

/-- The owner wakes at `condition_`. -/
def loopResume (s : IOLoopThread) : IOLoopThread :=
  { s with condition_ := s.condition_.resume 0 }

/-- `stop` returns. -/
def stopped (s : IOLoopThread) (destroying : Bool) : IOLoopThread :=
  { s with owner := if destroying = true then .destroyed else .idle }

/-- `stop`, up to the call of `quit`. -/
def stop (s : IOLoopThread) (destroying : Bool) : IOLoopThread :=
  if s.loop_ = true then
    { s with started_ := false, owner := .quitting destroying }
  else
    stopped { s with started_ := false } destroying

/-- The beginning of `thread_.join()`. -/
def join (s : IOLoopThread) (destroying : Bool) : M := do
  require (s.thread_.started_ = true) (.assertFailed .join) s
  require (s.thread_.join_ = false) (.assertFailed .join) s
  return { s with thread_ := s.thread_.join, owner := .joining destroying }

/-- `loop_->quit()`, and then `thread_.join()`. -/
def quitLoop (s : IOLoopThread) (destroying : Bool) : M := do
  let l ← s.deref
  join { s with loop := some l.quit, owed := s.posted } destroying

/-- The destructor. -/
def destroy (s : IOLoopThread) : IOLoopThread :=
  if s.started_ = true then s.stop true else { s with owner := .destroyed }

/-- The owner goes on, unless it is asleep. -/
def stepOwner (s : IOLoopThread) : M :=
  match s.owner with
  | .latching => s.latchWait
  | .latchWaiting =>
    if 0 ∈ s.latch_.condition_.asleep then
      return s
    else
      s.latchResume.latchWait
  | .locking => return s.loopWait
  | .waiting =>
    if 0 ∈ s.condition_.asleep then
      return s
    else
      return s.loopResume.loopWait
  | .quitting destroying => s.quitLoop destroying
  | .joining destroying => return if s.thread = .finished then s.stopped destroying else s
  | .idle => return s
  | .destroyed => return s

/-! ### The created thread

  It writes the members one after the other, and each write is a step, as the owner may look
  at them in between. -/

/-- `ioContext_.run()` with the next handler. -/
def poll (s : IOLoopThread) (l : ThreadLoop) : M :=
  if l.stopped = true then
    return { s with thread := .left }
  else
    match l.queue with
    | [] => return if l.work_ = true then s else { s with thread := .left }
    | .task n :: queue =>
      return { s with
        loop := some { l with queue }
        thread := .running n
        taken := s.taken ++ [n] }
    | .quitInThisThread :: queue => do
      require (l.isInLoopThread s.self = true) .fatal s
      return { s with loop := some { l with queue }.shut }

/-- The created thread goes on: each case is what it does from one access of the shared members to
    the next. -/
def stepThread (s : IOLoopThread) : M :=
  match s.thread with
  | .notCreated => return s
  | .created => do
    s.member
    return { s with tid_ := s.self, thread := .tidStored }
  | .tidStored => do
    s.member
    match s.latch_.countDown with
    | .ok latch => return { s with latch_ := latch, thread := .counted }
    | .error _ => .error (.overflows, s)
  | .counted => do
    require (s.t_inThisThreadLoop = false) .fatal s
    return { s with loop := some (.new s.self), t_inThisThreadLoop := true, thread := .constructed }
  | .constructed => do
    s.member
    return { s with loop_ := true, condition_ := s.condition_.notifyOne 0, thread := .stored }
  | .stored => do
    let l ← s.deref
    require (l.isInLoopThread s.self = true) .fatal s
    return { s with thread := .polling }
  | .polling => do
    let l ← s.deref
    s.poll l
  | .running _ => return { s with thread := .polling }
  | .left => do
    s.member
    return { s with loop_ := false, thread := .cleared }
  -- `~IOLoop` calls `quit` when nobody has; the queue goes with the loop
  | .cleared => return { s with loop := none, thread := .finished }
  | .finished => return s

/-! ### The users of the loop

  They have the pointer, and may keep it for longer than the loop lives. -/

/-- The pointer to the loop is known: on another thread once `start` has returned it, and in a
    handler. -/
def known (s : IOLoopThread) (isInLoopThread : Bool) : Bool :=
  if isInLoopThread = true then s.thread.inHandler else s.returned

/-- Someone who knows the pointer posts a handler. -/
def post (s : IOLoopThread) (isInLoopThread : Bool) (n : Nat) : M :=
  if s.known isInLoopThread = true then do
    let l ← s.deref
    return { s with loop := some (l.post (.task n)), posted := s.posted ++ [n] }
  else
    return s

/-- A user of the loop calls `quit` itself. -/
def quit (s : IOLoopThread) (isInLoopThread : Bool) : M :=
  if s.known isInLoopThread = true then do
    let l ← s.deref
    return { s with loop := some l.quit }
  else
    return s

/-! ### The steps

  A thread that is asleep, or has nothing to do, leaves the state. -/

/-- One step of the owner, of the created thread, or of a user of the loop. -/
inductive Event
  | start (id : ThreadId)
  | stop
  | destroy
  /-- The owner goes on. -/
  | owner
  /-- The created thread goes on. -/
  | thread
  | spuriousLatch
  | spurious
  | post (isInLoopThread : Bool) (n : Nat)
  | quit (isInLoopThread : Bool)
  deriving DecidableEq, Repr

/-- One step. -/
def step (s : IOLoopThread) : Event → M
  | .start id => s.start id
  | .stop => return if s.owner = .idle then s.stop false else s
  | .destroy => return if s.owner = .idle then s.destroy else s
  | .owner => s.stepOwner
  | .thread => s.stepThread
  | .spuriousLatch => return { s with latch_ := s.latch_.spurious 0 }
  | .spurious => return { s with condition_ := s.condition_.spurious 0 }
  | .post isInLoopThread n => s.post isInLoopThread n
  | .quit isInLoopThread => s.quit isInLoopThread

end IOLoopThread

end IOEvent
