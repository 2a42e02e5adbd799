/-
  `ThreadPool` (ThreadPool.cpp) and what it uses of `Thread` (Thread.h).

  The state of a pool is its members and its threads: the workers, by their place in
  `threadFunc`, the calls of `post`, by their place in `post`, and the one call of `stop`.  A
  task that posts is a worker inside its task and a call of `post`, as any other thread that
  posts.

  What a thread does from the moment it acquires `mutex_` until it releases it, at the end or in
  `wait`, is one event.  The wait loop in it (`takeWait`, `postWait`) is a loop that need not
  end: a thread that is still in it after as many turns as matter holds the mutex from then on
  (`spinning`), and nobody else can acquire it.  The condition variables are those of `CondVar`:
  an event that notifies says which of the threads asleep is woken, and a thread may wake up
  spuriously.

  `accepted`, `taken` and `ran` are the history of the tasks pushed, of those taken out of the
  queue, and of the calls `task()`, with the worker; no function reads it.
-/
import IOEvent.Foundation.CondVar
import IOEvent.Foundation.Loops
import IOEvent.Foundation.Words

open Foundation

namespace IOEvent

/-! ## Threads -/

/-- A `Thread`, without what it runs. -/
structure Thread where
  started_ : Bool
  join_ : Bool
  deriving DecidableEq, Repr

namespace Thread

/-- A thread that was not started. -/
def new : Thread := ⟨false, false⟩

/-- `start()`. -/
def start (t : Thread) : Thread := { t with started_ := true }

/-- `joined()`. -/
def joined (t : Thread) : Bool := t.join_

end Thread

/-- Where a worker is in `threadFunc`. -/
inductive Worker (τ : Type)
  /-- Before the test of `while (runing_)`. -/
  | testing
  /-- In `take`, before it has acquired the mutex. -/
  | taking
  /-- In `notEmpty_.wait`. -/
  | waiting
  /-- `take` has returned; `none` is the empty `Task`. -/
  | calling (task : Option τ)
  /-- In `task()`. -/
  | running (task : τ)
  /-- `threadFunc` has returned. -/
  | exited
  deriving DecidableEq, Repr

/-- Where a call of `post` is. -/
inductive Place
  | locking
  /-- In `notFull_.wait`. -/
  | waiting
  /-- In the wait loop, with the mutex. -/
  | spinning
  | returned
  | threw (what : String)
  deriving DecidableEq, Repr

/-- A call of `post`. -/
structure Poster (τ : Type) where
  task : τ
  place : Place
  deriving DecidableEq, Repr

/-- Where the call of `stop` is. -/
inductive Stopper
  | notCalled
  | locking
  /-- In the loop over `threads_`. -/
  | joining (t : Nat)
  | returned
  deriving DecidableEq, Repr

/-- The pool: its members, its workers, the threads that are in `post` or `postFuture` or call
    `stop`, and the history of the tasks that were accepted, taken and run. -/
structure ThreadPool (τ : Type) where
  maxQueueSize_ : Int32
  queue_ : List τ
  threads_ : List Thread
  runing_ : Bool
  notFull_ : CondVar
  notEmpty_ : CondVar
  workers : List (Worker τ)
  posters : List (Poster τ)
  stopper : Stopper
  accepted : List τ
  taken : List (Nat × τ)
  ran : List (Nat × τ)

namespace ThreadPool

/-- How a step can end the process. -/
inductive Fault
  | assertFailed
  /-- A call of an empty `Task` throws `bad_function_call`, and `threadFunc` ends the process. -/
  | emptyTask
  /-- A task has thrown, and `threadFunc` ends the process. -/
  | taskThrew
  deriving DecidableEq, Repr

variable {τ : Type}

/-- A step leaves a pool, or ends the process. -/
abbrev M (τ α : Type) := Outcome Fault (ThreadPool τ) α

/-- The constructor: no bound, no threads. -/
def new : ThreadPool τ where
  maxQueueSize_ := 0
  queue_ := []
  threads_ := []
  runing_ := false
  notFull_ := .new
  notEmpty_ := .new
  workers := []
  posters := []
  stopper := .notCalled
  accepted := []
  taken := []
  ran := []

/-- `setmaxQueueSize`: the member is written without the mutex. -/
def setmaxQueueSize (p : ThreadPool τ) (max : Int32) : ThreadPool τ :=
  { p with maxQueueSize_ := max }

/-- The number of workers `start(threadNum)` creates. -/
def numThreads (threadNum : Int32) (hardware_concurrency : Nat) : Nat :=
  if threadNum.toInt ≤ 0 then hardware_concurrency else threadNum.toInt.toNat

/-- `start`: as many workers as are asked for, or as the hardware has. -/
def start (p : ThreadPool τ) (threadNum : Int32) (hardware_concurrency : Nat) :
    M τ (ThreadPool τ) := do
  require (p.threads_ = []) .assertFailed p
  let num := numThreads threadNum hardware_concurrency
  return { p with
    runing_ := true
    threads_ := List.replicate num Thread.new.start
    workers := List.replicate num .testing }

/-- The pool with one worker elsewhere. -/
def setWorker (p : ThreadPool τ) (i : Nat) (w : Worker τ) : ThreadPool τ :=
  { p with workers := p.workers.set i w }

/-- The pool with one poster elsewhere. -/
def setPoster (p : ThreadPool τ) (j : Nat) (task : τ) (place : Place) : ThreadPool τ :=
  { p with posters := p.posters.set j ⟨task, place⟩ }

/-- A call of `post` holds the mutex. -/
def locked (p : ThreadPool τ) : Bool := p.posters.any (·.place = .spinning)

/-! ## The wait loops

  Each is given as its turns, with the condition of the `while` and the predicate of the `wait`
  as two places.  So a loop that is not left is a loop here too, and not an undefined value. -/

/-- A place in a wait loop: before the test of the loop, or before that of the predicate of
    `wait`. -/
inductive WaitAt
  | test
  | predicate
  deriving DecidableEq, Repr

/-- How a thread comes out of its wait loop: past it, or asleep in it, without the mutex. -/
inductive WaitEnd
  | leaves
  | sleeps
  deriving DecidableEq, Repr

/-- `while (queue_.empty() && runing_) { notEmpty_.wait(lock, ..); }` -/
def takeWait (p : ThreadPool τ) : WaitAt → Except Fault (Turn WaitAt WaitEnd)
  | .test =>
    if p.queue_.isEmpty = true ∧ p.runing_ = true then .ok (.next .predicate)
    else .ok (.done .leaves)
  | .predicate => if 0 < p.queue_.length then .ok (.next .test) else .ok (.done .sleeps)

/-- `maxQueueSize_ > 0 && maxQueueSize_ == queue_.size()` -/
def full (p : ThreadPool τ) : Bool :=
  0 < p.maxQueueSize_.toInt && toUnsigned 64 p.maxQueueSize_.toInt == p.queue_.length

/-- `queue_.size() < maxQueueSize_ || !runing_` -/
def notFull (p : ThreadPool τ) : Bool :=
  p.queue_.length < toUnsigned 64 p.maxQueueSize_.toInt || !p.runing_

/-- `while ((maxQueueSize_ > 0 && maxQueueSize_ == queue_.size())) { notFull_.wait(lock, ..); }` -/
def postWait (p : ThreadPool τ) : WaitAt → Except Fault (Turn WaitAt WaitEnd)
  | .test => if p.full = true then .ok (.next .predicate) else .ok (.done .leaves)
  | .predicate => if p.notFull = true then .ok (.next .test) else .ok (.done .sleeps)

/-- As many turns as matter: a thread that is still in its loop then stays there. -/
def turns : Nat := 3

/-! ## The critical sections

  What a thread does with the mutex held, on a state that nobody else changes meanwhile.  Each
  runs up to the release of the mutex, or to the place at which it stays with it. -/

/-- The end of `post`. -/
def push (p : ThreadPool τ) (j : Nat) (task : τ) (wake : Nat) : ThreadPool τ :=
  { p.setPoster j task .returned with
    queue_ := p.queue_ ++ [task]
    accepted := p.accepted ++ [task]
    notEmpty_ := p.notEmpty_.notifyOne wake }

/-- `post` from its wait loop on. -/
def postFrom (p : ThreadPool τ) (j : Nat) (task : τ) (at_ : WaitAt) (wake : Nat) : ThreadPool τ :=
  match loop p.postWait turns at_ with
  | some (.ok .leaves) => p.push j task wake
  | some (.ok .sleeps) => { p.setPoster j task .waiting with notFull_ := p.notFull_.wait j }
  | _ => p.setPoster j task .spinning

/-- The text that `post` throws on a stopped pool. -/
def stoppedMessage : String := "thread pool has stopped"

/-- `post`, with the mutex acquired. -/
def post (p : ThreadPool τ) (j : Nat) (task : τ) (wake : Nat) : ThreadPool τ :=
  if p.runing_ = true then
    p.postFrom j task .test wake
  else
    p.setPoster j task (.threw stoppedMessage)

/-- The end of `take`. -/
def pop (p : ThreadPool τ) (i : Nat) (wake : Nat) : ThreadPool τ :=
  match p.queue_ with
  | [] => p.setWorker i (.calling none)
  | task :: queue =>
    { p.setWorker i (.calling (some task)) with
      queue_ := queue
      taken := p.taken ++ [(i, task)]
      notFull_ := if 0 < p.maxQueueSize_.toInt then p.notFull_.notifyOne wake else p.notFull_ }

/-- `take` from its wait loop on. -/
def takeFrom (p : ThreadPool τ) (i : Nat) (at_ : WaitAt) (wake : Nat) : ThreadPool τ :=
  match loop p.takeWait turns at_ with
  | some (.ok .leaves) => p.pop i wake
  | some (.ok .sleeps) => { p.setWorker i .waiting with notEmpty_ := p.notEmpty_.wait i }
  | _ => p

/-- The critical section of `stop`. -/
def stopRunning (p : ThreadPool τ) : ThreadPool τ :=
  { p with
    runing_ := false
    notEmpty_ := p.notEmpty_.notifyAll
    notFull_ := p.notFull_.notifyAll }

/-! ## The threads -/

/-- The call `j` of `post` goes on. -/
def stepPoster (p : ThreadPool τ) (j wake : Nat) : ThreadPool τ :=
  match p.posters[j]? with
  | some ⟨task, .locking⟩ => if p.locked = true then p else p.post j task wake
  | some ⟨task, .waiting⟩ =>
    if p.locked = true ∨ j ∈ p.notFull_.asleep then
      p
    else
      ({ p with notFull_ := p.notFull_.resume j } : ThreadPool τ).postFrom j task .predicate wake
  | some ⟨task, .spinning⟩ => p.postFrom j task .test wake
  | _ => p

/-- The worker `i` goes on. -/
def stepWorker (p : ThreadPool τ) (i wake : Nat) : M τ (ThreadPool τ) :=
  match p.workers[i]? with
  | some .testing => return p.setWorker i (if p.runing_ = true then .taking else .exited)
  | some .taking => return if p.locked = true then p else p.takeFrom i .test wake
  | some .waiting =>
    return if p.locked = true ∨ i ∈ p.notEmpty_.asleep then p else
      ({ p with notEmpty_ := p.notEmpty_.resume i } : ThreadPool τ).takeFrom i .predicate wake
  | some (.calling none) => .error (.emptyTask, p)
  | some (.calling (some task)) =>
    return { p.setWorker i (.running task) with ran := p.ran ++ [(i, task)] }
  | some (.running _) => return p.setWorker i .testing
  | _ => return p

/-- The task of the worker `i` throws. -/
def throwTask (p : ThreadPool τ) (i : Nat) : M τ (ThreadPool τ) :=
  match p.workers[i]? with
  | some (.running _) => .error (.taskThrew, p)
  | _ => return p

/-- The call of `stop` goes on. -/
def stop (p : ThreadPool τ) : M τ (ThreadPool τ) :=
  match p.stopper with
  | .notCalled => do
    require (p.runing_ = true) .assertFailed p
    return { p with stopper := .locking }
  | .locking => return if p.locked = true then p else { p.stopRunning with stopper := .joining 0 }
  | .joining t =>
    match p.threads_[t]? with
    | some thread =>
      -- nothing is done with the result
      let _ := thread.joined
      return { p with stopper := .joining (t + 1) }
    | none => return { p with stopper := .returned }
  | .returned => return p

/-- One step of a thread, a spurious wake-up, or a call. `wake` is which of the sleepers a
    notification of the step wakes, if there are any. -/
inductive Event (τ : Type)
  /-- A thread calls `post(task)`. -/
  | call (task : τ)
  | poster (j wake : Nat)
  | worker (i wake : Nat)
  | throws (i : Nat)
  | spuriousPoster (j : Nat)
  | spuriousWorker (i : Nat)
  | setmaxQueueSize (max : Int32)
  | stop

/-- One step. -/
def step (p : ThreadPool τ) : Event τ → M τ (ThreadPool τ)
  | .call task => return { p with posters := p.posters ++ [⟨task, .locking⟩] }
  | .poster j wake => return p.stepPoster j wake
  | .worker i wake => p.stepWorker i wake
  | .throws i => p.throwTask i
  | .spuriousPoster j => return { p with notFull_ := p.notFull_.spurious j }
  | .spuriousWorker i => return { p with notEmpty_ := p.notEmpty_.spurious i }
  | .setmaxQueueSize max => return p.setmaxQueueSize max
  | .stop => p.stop

/-- A pool that is given its bound, started and used. -/
def life (max threadNum : Int32) (hardware_concurrency : Nat) (es : List (Event τ)) :
    M τ (ThreadPool τ) :=
  (new.setmaxQueueSize max).start threadNum hardware_concurrency >>= fun p => run step p es

end ThreadPool

end IOEvent
