/-
  `IOLoopThreadPool::run` and `~IOLoopThreadPool` (IOLoopThreadPool.cpp), with the loop threads.

  For the server, `run` is one step that gives the pool the loops 1, 2, and so on, and all of
  them run.  Here it is the loop that creates one `IOLoopThread` after the other and waits in the
  `start` of each for its loop; and the destructor is a loop that calls `stop`, which joins the
  thread, before the members are destroyed.  Every loop thread is the machine `IOLoopThread`.
  While the owner is in one of these functions, the threads created so far go on, and so do the
  users of their loops.

  `hosts` is the refinement: when `run` has returned, the pool is the one that the step of the
  server leaves, and each of its loops runs.

  Each thread keeps the invariant of `Lifecycle`, and the place of the owner of the pool says at
  which stage it is (`PoolCall.stage`).  A step of a created thread or of a user leaves the
  stages; a step of the owner of the pool is one of the owner of a single thread.  So nothing
  about loops and handlers is proved again here.
-/
import IOEvent.IOLoopThread.Progress
import IOEvent.TcpServer

open Foundation

namespace IOEvent

/-- Where the owner is. The places with a number are turns of a loop; between two of them the
    owner is in a function of that thread. -/
inductive PoolCall
  | idle
  /-- In `run`, before the `i`-th turn of its loop. -/
  | run (i : Nat)
  /-- In `start` of the `i`-th thread. -/
  | start (i : Nat)
  /-- In the destructor, before the `i`-th turn of its loop. -/
  | destroy (i : Nat)
  /-- In `stop` of the `i`-th thread. -/
  | stop (i : Nat)
  /-- `threads_` is destroyed, from its `i`-th element on. -/
  | members (i : Nat)
  | destroyed
  deriving DecidableEq, Repr

/-- A pool with its threads; a loop is named by the number of its thread, from 1 on. The
    loops given out are those of `pool`, by their numbers, so the server's pool can be
    compared with it. -/
structure ThreadedPool where
  pool : IOLoopThreadPool
  threads_ : List IOLoopThread
  call : PoolCall

namespace ThreadedPool

/-- What a pool stops with is a fault of one of its threads, or an assertion of its own. -/
inductive Fault
  | thread (f : IOLoopThread.Fault)
  | assertFailed (site : ServerAssertion)
  deriving DecidableEq, Repr

/-- A step leaves a pool, or stops with a fault. -/
abbrev M := Outcome Fault ThreadedPool ThreadedPool

/-- A pool for which `setThreadNum` has been called. -/
def new (numThreads : Int) : ThreadedPool :=
  ⟨IOLoopThreadPool.new.setThreadNum numThreads, [], .idle⟩

/-- The pool in another call. -/
def enter (p : ThreadedPool) (call : PoolCall) : ThreadedPool := { p with call }

/-- The `i`-th thread takes a step. -/
def stepAt (p : ThreadedPool) (i : Nat) (e : IOLoopThread.Event) : M :=
  match p.threads_[i]? with
  | none => return p
  | some t =>
    match t.step e with
    | .ok t' => return { p with threads_ := p.threads_.set i t' }
    | .error (f, t') => .error (.thread f, { p with threads_ := p.threads_.set i t' })

/-- The end of a turn in `run`, when `start` has returned. -/
def started (p : ThreadedPool) (i : Nat) : M :=
  match p.threads_[i]? with
  | none => return p
  | some t =>
    if t.owner = .idle then do
      require (t.loop_ = true) (.assertFailed .run) p
      return { p with
        pool := { p.pool with io_contexts_ := p.pool.io_contexts_ ++ [i + 1] }
        call := .run (i + 1) }
    else
      return p

/-- The end of a turn in the destructor, when `stop` has returned. -/
def stopped (p : ThreadedPool) (i : Nat) : ThreadedPool :=
  match p.threads_[i]? with
  | none => p
  | some t => if t.owner = .idle then p.enter (.destroy (i + 1)) else p

/-- `run`: the threads are then started one after the other, each before the next. -/
def run (p : ThreadedPool) : M :=
  if p.call = .idle then do
    require (p.pool.started_ = false) (.assertFailed .run) p
    return { p with pool := { p.pool with started_ := true }, call := .run 0 }
  else
    return p

/-- The destructor: the threads are stopped one after the other. -/
def destroy (p : ThreadedPool) : ThreadedPool :=
  if p.call = .idle then p.enter (.destroy 0) else p

/-- The owner goes on; a thread it creates is `id`. -/
def stepOwner (p : ThreadedPool) (id : ThreadId) : M :=
  match p.call with
  | .run i =>
    if i < p.pool.numThreads_ then
      if id = 0 then
        return p
      else
        stepAt { p with threads_ := p.threads_ ++ [.new], call := .start i } i (.start id)
    else
      return p.enter .idle
  | .start i => do
    let p ← p.stepAt i .owner
    p.started i
  | .destroy i =>
    if i < p.threads_.length then (p.enter (.stop i)).stepAt i .stop
    else return p.enter (.members 0)
  | .stop i => do
    let p ← p.stepAt i .owner
    return p.stopped i
  | .members i =>
    if i < p.threads_.length then
      (p.enter (.members (i + 1))).stepAt i .destroy
    else
      return p.enter .destroyed
  | .idle => return p
  | .destroyed => return p

/-- One step of the owner, of one of the threads, or of a user of a loop. -/
inductive Event
  | run
  | destroy
  /-- The owner goes on. -/
  | owner (id : ThreadId)
  /-- The `i`-th thread goes on. -/
  | thread (i : Nat)
  | spuriousLatch (i : Nat)
  | spurious (i : Nat)
  | post (i : Nat) (isInLoopThread : Bool) (n : Nat)
  deriving DecidableEq, Repr

/-- One step. -/
def step (p : ThreadedPool) : Event → M
  | .run => p.run
  | .destroy => return p.destroy
  | .owner id => p.stepOwner id
  | .thread i => p.stepAt i .thread
  | .spuriousLatch i => p.stepAt i .spuriousLatch
  | .spurious i => p.stepAt i .spurious
  | .post i isInLoopThread n => p.stepAt i (.post isInLoopThread n)

/-- What the users of the pool know: `run` is called once, and nobody else posts to a loop whose
    `stop` has been called. -/
def Contract (p : ThreadedPool) : Event → Prop
  | .run => p.pool.started_ = false
  | .post i isInLoopThread _ => isInLoopThread = false → ∀ t ∈ p.threads_[i]?, t.started_ = true
  | _ => True

/-- Whether an event meets the contract can be computed. -/
instance (p : ThreadedPool) : ∀ e, Decidable (p.Contract e)
  | .run => inferInstanceAs (Decidable (_ = _))
  | .destroy => .isTrue trivial
  | .owner _ => .isTrue trivial
  | .thread _ => .isTrue trivial
  | .spuriousLatch _ => .isTrue trivial
  | .spurious _ => .isTrue trivial
  | .post _ _ _ => inferInstanceAs (Decidable (_ → _))

end ThreadedPool

/-! ## One thread of the pool

  The pool brings each of its threads from one stage to the next; in between the thread does
  what it does by itself. -/

namespace IOLoopThread

variable {s s' : IOLoopThread}

/-- How far the pool has got with a thread. The owner of the pool brings a thread to its next
    stage, and nothing else does. -/
inductive Stage
  | starting
  | serving
  | stopping
  | stopped
  | destroyed
  deriving DecidableEq, Repr

/-- What a stage of a thread means for it. -/
def At (s : IOLoopThread) : Stage → Prop
  | .starting => s.owner.starting = true ∧ s.thread_ = ⟨true, false⟩
  | .serving => s.owner = .idle ∧ s.thread_ = ⟨true, false⟩
  | .stopping => s.owner = .quitting false ∧ s.thread_ = ⟨true, false⟩ ∨
    (s.owner = .joining false ∨ s.owner = .idle) ∧ s.thread_ = ⟨true, true⟩
  | .stopped => s.owner = .idle ∧ s.thread_ = ⟨true, true⟩
  | .destroyed => s.owner = .destroyed ∧ s.thread_ = ⟨true, true⟩

/-- A thread of the pool, at a stage. -/
structure Pooled (stage : Stage) (s : IOLoopThread) : Prop where
  inv : s.Inv
  stage : s.At stage

/-- Only the owner takes a thread to another stage. -/
theorem At.of_frame {stage : Stage} (h : s.At stage) (howner : s'.owner = s.owner)
    (hthread : s'.thread_ = s.thread_) : s'.At stage := by
  cases stage <;> unfold At at h ⊢ <;> rwa [howner, hthread]

/-- The threads created, and the users of the loop. -/
def Event.Others : Event → Prop
  | .thread | .spuriousLatch | .spurious | .post _ _ => True
  | _ => False

/-- What others do moves neither the owner of a thread nor its object. -/
theorem others_frame {e : Event} (he : e.Others) (hs : s.step e = .ok s') :
    s'.owner = s.owner ∧ s'.thread_ = s.thread_ := by
  cases e with
  | thread => exact (stepThread_next hs).2
  | spuriousLatch =>
    obtain rfl := Except.ok.inj hs
    exact ⟨rfl, rfl⟩
  | spurious =>
    obtain rfl := Except.ok.inj hs
    exact ⟨rfl, rfl⟩
  | post isInLoopThread n => exact ⟨(post_frame hs).2.1, (post_frame hs).2.2.1⟩
  | _ => exact absurd he id

/-- Within the contract a step of a thread succeeds, and keeps its invariant. -/
theorem Inv.ok {e : Event} (h : s.Inv) (hC : s.Contract e) : ∃ s', s.step e = .ok s' ∧ s'.Inv := by
  have hstep := h.step e hC
  cases hs : s.step e with
  | error f =>
    rw [hs] at hstep
    exact (holds_error.mp hstep).elim
  | ok s' => exact ⟨s', rfl, step_inv h hC hs⟩

/-- So what others do keeps a thread at its stage. -/
theorem Pooled.others {stage : Stage} (h : s.Pooled stage) {e : Event} (he : e.Others)
    (hC : s.Contract e) : ∃ s', s.step e = .ok s' ∧ s'.Pooled stage := by
  obtain ⟨s', hs, hinv⟩ := h.inv.ok hC
  obtain ⟨howner, hthread⟩ := others_frame he hs
  exact ⟨s', hs, hinv, h.stage.of_frame howner hthread⟩

/-! ### The steps of the owner

  What the owner of the pool does is a step of the owner of the one thread that it is at. -/

/-- A new thread is started. -/
theorem start_pooled {id : ThreadId} (hid : id ≠ 0) :
    ∃ s', new.step (.start id) = .ok s' ∧ s'.Pooled .starting := by
  have hstart : new.step (.start id) = .ok { new with
      started_ := true
      thread_ := ⟨true, false⟩
      owner := .latching
      thread := .created
      self := id } := if_pos ⟨rfl, hid⟩
  have hfirst : new.Contract (.start id) := rfl
  exact ⟨_, hstart, step_inv inv_new hfirst hstart, rfl, rfl⟩

/-- At the latch `start` goes on. -/
theorem latchWait_starting (hs : s.latchWait = .ok s') :
    s'.owner.starting = true ∧ s'.thread_ = s.thread_ := by
  rw [latchWait] at hs
  rcases Int.lt_or_le 0 s.latch_.count_ with hshut | hopen
  · rw [CountDownLatch.wait_shut hshut] at hs
    obtain rfl := Except.ok.inj hs
    exact ⟨rfl, rfl⟩
  · rw [CountDownLatch.wait_open hopen] at hs
    obtain ⟨-, -, hs⟩ := bind_ok hs
    obtain rfl := Except.ok.inj hs
    exact ⟨rfl, rfl⟩

/-- At `condition_` it goes on or returns. -/
theorem loopWait_starting (s : IOLoopThread) :
    (s.loopWait.owner.starting = true ∨ s.loopWait.owner = .idle ∧ s.loopWait.loop_ = true) ∧
      s.loopWait.thread_ = s.thread_ := by
  rw [loopWait]
  split
  · next hloop => exact ⟨.inr ⟨rfl, hloop⟩, rfl⟩
  · exact ⟨.inl rfl, rfl⟩

/-- `start` goes on, or returns the loop. -/
theorem stepOwner_starting (hat : s.owner.starting = true) (hs : s.stepOwner = .ok s') :
    (s'.owner.starting = true ∨ s'.owner = .idle ∧ s'.loop_ = true) ∧ s'.thread_ = s.thread_ := by
  rw [stepOwner] at hs
  cases howner : s.owner with
  | latching =>
    rw [howner] at hs
    exact ⟨.inl (latchWait_starting hs).1, (latchWait_starting hs).2⟩
  | latchWaiting =>
    rw [howner] at hs
    dsimp only at hs
    split at hs
    · obtain rfl := Except.ok.inj hs
      exact ⟨.inl hat, rfl⟩
    · exact ⟨.inl (latchWait_starting hs).1, (latchWait_starting hs).2⟩
  | locking =>
    rw [howner] at hs
    obtain rfl := Except.ok.inj hs
    exact s.loopWait_starting
  | waiting =>
    rw [howner] at hs
    dsimp only at hs
    split at hs
    · obtain rfl := Except.ok.inj hs
      exact ⟨.inl hat, rfl⟩
    · obtain rfl := Except.ok.inj hs
      exact s.loopResume.loopWait_starting
  | _ =>
    rw [howner] at hat
    cases hat

/-- **A started thread goes on starting until it serves.** -/
theorem Pooled.starts (h : s.Pooled .starting) : ∃ s', s.step .owner = .ok s' ∧
    (s'.Pooled .starting ∧ s'.owner ≠ .idle ∨ s'.Pooled .serving ∧ s'.loop_ = true) := by
  obtain ⟨s', hs, hinv⟩ := h.inv.ok (e := .owner) trivial
  obtain ⟨hat, hthread⟩ := h.stage
  obtain ⟨hat' | ⟨hidle, hloop⟩, hthread'⟩ := stepOwner_starting hat hs
  · refine ⟨s', hs, .inl ⟨⟨hinv, hat', hthread'.trans hthread⟩, fun hidle => ?_⟩⟩
    rw [hidle] at hat'
    cases hat'
  · exact ⟨s', hs, .inr ⟨⟨hinv, hidle, hthread'.trans hthread⟩, hloop⟩⟩

/-- A thread that serves is started, and its loop is known. -/
theorem Pooled.serves_started (h : s.Pooled .serving) : s.started_ = true ∧ s.loop_ = true := by
  obtain ⟨howner, hthread⟩ := h.stage
  have hplaces := h.inv.places
  rw [Places, howner] at hplaces
  dsimp only at hplaces
  split at hplaces
  · next hstarted =>
    exact ⟨hstarted, h.inv.launch.stores.trans (LoopThread.stores_of_looping hplaces.2)⟩
  · rw [hthread] at hplaces
    rcases hplaces with hnew | ⟨hjoined, -⟩
    · cases hnew
    · cases hjoined

/-- `stop` finds the loop, and calls its `quit`. -/
theorem Pooled.stops (h : s.Pooled .serving) :
    ∃ s', s.step .stop = .ok s' ∧ s'.Pooled .stopping := by
  obtain ⟨s', hs, hinv⟩ := h.inv.ok (e := .stop) trivial
  have hstop : s.step .stop = .ok { s with started_ := false, owner := .quitting false } := by
    rw [step, if_pos h.stage.1, stop, if_pos h.serves_started.2]
    rfl
  obtain rfl := Except.ok.inj (hs.symm.trans hstop)
  exact ⟨_, hs, hinv, .inl ⟨rfl, h.stage.2⟩⟩

/-- `stop` goes on, and has returned when the owner is idle. -/
theorem Pooled.ends (h : s.Pooled .stopping) : ∃ s', s.step .owner = .ok s' ∧
    (s'.Pooled .stopping ∧ s'.owner ≠ .idle ∨ s'.Pooled .stopped) := by
  obtain ⟨s', hs, hinv⟩ := h.inv.ok (e := .owner) trivial
  refine ⟨s', hs, ?_⟩
  replace hs : s.stepOwner = .ok s' := hs
  rw [stepOwner] at hs
  rcases h.stage with ⟨howner, hthread⟩ | ⟨howner | howner, hthread⟩
  · rw [howner] at hs
    obtain ⟨l, -, hs⟩ := bind_ok hs
    obtain ⟨-, -, hs⟩ := bind_ok hs
    obtain ⟨-, -, hs⟩ := bind_ok hs
    obtain rfl := Except.ok.inj hs
    refine .inl ⟨⟨hinv, .inr ⟨.inl rfl, ?_⟩⟩, by simp⟩
    show s.thread_.join = _
    rw [hthread]
    rfl
  · rw [howner] at hs
    replace hs := Except.ok.inj hs
    by_cases hfinished : s.thread = .finished
    · rw [if_pos hfinished] at hs
      subst hs
      exact .inr ⟨hinv, rfl, hthread⟩
    · rw [if_neg hfinished] at hs
      subst hs
      exact .inl ⟨⟨hinv, .inr ⟨.inl howner, hthread⟩⟩, by simp [howner]⟩
  · rw [howner] at hs
    obtain rfl := Except.ok.inj hs
    exact .inr ⟨hinv, howner, hthread⟩

/-- One that was stopped is not. -/
theorem Pooled.not_started (h : s.Pooled .stopped) : s.started_ = false := by
  obtain ⟨howner, hthread⟩ := h.stage
  have hplaces := h.inv.places
  rw [Places, howner] at hplaces
  dsimp only at hplaces
  split at hplaces
  · rw [hthread] at hplaces
    cases hplaces.1
  · next hstarted => exact Bool.not_eq_true _ ▸ hstarted

/-- The destructor of the thread has nothing left to do. -/
theorem Pooled.destroys (h : s.Pooled .stopped) :
    ∃ s', s.step .destroy = .ok s' ∧ s'.Pooled .destroyed := by
  obtain ⟨s', hs, hinv⟩ := h.inv.ok (e := .destroy) trivial
  have hdestroy : s.step .destroy = .ok { s with owner := .destroyed } := by
    rw [step, if_pos h.stage.1, destroy, if_neg (by rw [h.not_started]; decide)]
    rfl
  obtain rfl := Except.ok.inj (hs.symm.trans hdestroy)
  exact ⟨_, hs, hinv, rfl, h.stage.2⟩

end IOLoopThread

/-! ## The pool

  The stage of a thread by its number and the place of the owner of the pool. -/

/-- The stage of the `j`-th thread. -/
def PoolCall.stage : PoolCall → Nat → IOLoopThread.Stage
  | .idle, _ => .serving
  | .run _, _ => .serving
  | .start i, j => if j < i then .serving else .starting
  | .destroy i, j => if j < i then .stopped else .serving
  | .stop i, j => if j < i then .stopped else if j = i then .stopping else .serving
  | .members i, j => if j < i then .destroyed else .stopped
  | .destroyed, _ => .destroyed

namespace ThreadedPool

variable {numThreads : Int} {p p' : ThreadedPool} {i : Nat}

/-! ### The invariant

  Every thread is at its stage and keeps its own invariant, and there are as many as have been
  started. -/

/-- Every thread is at the stage that the call of the pool has brought it to. -/
def Staged (call : PoolCall) (threads : List IOLoopThread) : Prop :=
  ∀ (j : Nat) (t : IOLoopThread), threads[j]? = some t → t.Pooled (call.stage j)

/-- The threads there are. A thread is added at the beginning of its turn of `run`. -/
def Counted (p : ThreadedPool) : Prop :=
  match p.call with
  | .run i => p.pool.started_ = true ∧ p.threads_.length = i ∧ i ≤ p.pool.numThreads_
  | .start i => p.pool.started_ = true ∧ p.threads_.length = i + 1 ∧ i < p.pool.numThreads_
  | _ => p.threads_.length = if p.pool.started_ = true then p.pool.numThreads_ else 0

/-- The threads whose `start` has returned. -/
def running (p : ThreadedPool) : Nat :=
  match p.call with
  | .start i => i
  | _ => p.threads_.length

/-- The invariant: the threads by the call of the pool, their number, and the loops that the pool
    gives out. -/
structure Inv (numThreads : Int) (p : ThreadedPool) : Prop where
  staged : Staged p.call p.threads_
  counted : p.Counted
  contexts : p.pool.io_contexts_ = (List.range p.running).map (· + 1)
  next : p.pool.next_ = 0
  asked : p.pool.numThreads_ = (IOLoopThreadPool.new.setThreadNum numThreads).numThreads_

/-- One thread goes on to its next stage, the others stay at theirs. -/
theorem Staged.set {call call' : PoolCall} {threads : List IOLoopThread} (h : Staged call threads)
    {t : IOLoopThread} (ht : t.Pooled (call'.stage i))
    (hothers : ∀ j, j < threads.length → j ≠ i → call'.stage j = call.stage j) :
    Staged call' (threads.set i t) := by
  intro j u hu
  rw [List.getElem?_set] at hu
  split at hu
  · next heq =>
    split at hu
    · obtain rfl := Option.some.inj hu
      exact heq ▸ ht
    · cases hu
  · next hne =>
    rw [hothers j (List.getElem?_eq_some_iff.mp hu).1 (Ne.symm hne)]
    exact h j u hu

/-- A thread is added at its stage. -/
theorem Staged.push {call call' : PoolCall} {threads : List IOLoopThread} (h : Staged call threads)
    {t : IOLoopThread} (ht : t.Pooled (call'.stage threads.length))
    (hothers : ∀ j, j < threads.length → call'.stage j = call.stage j) :
    Staged call' (threads ++ [t]) := by
  intro j u hu
  rcases Nat.lt_or_ge j threads.length with hj | hj
  · rw [List.getElem?_append_left hj] at hu
    rw [hothers j hj]
    exact h j u hu
  · rw [List.getElem?_append_right hj] at hu
    obtain ⟨hlt, rfl⟩ := List.getElem?_eq_some_iff.mp hu
    have hj : j = threads.length := by
      rw [List.length_singleton] at hlt
      omega
    subst hj
    simpa using ht

/-- The pool goes on where no thread takes a step. -/
theorem Staged.enter {call call' : PoolCall} {threads : List IOLoopThread} (h : Staged call threads)
    (hsame : ∀ j, j < threads.length → call'.stage j = call.stage j) : Staged call' threads := by
  intro j t ht
  rw [hsame j (List.getElem?_eq_some_iff.mp ht).1]
  exact h j t ht

/-- It holds of a new pool. -/
theorem new_inv (numThreads : Int) : (new numThreads).Inv numThreads where
  staged := by
    intro j t ht
    cases ht
  counted := rfl
  contexts := rfl
  next := rfl
  asked := rfl

/-! ### One step

  A step of one thread leaves the others; a turn of the owner brings one thread to its next
  stage. -/

/-- A step of one thread is a step of the pool. -/
theorem stepAt_eq {t t' : IOLoopThread} {e : IOLoopThread.Event} (ht : p.threads_[i]? = some t)
    (hs : t.step e = .ok t') : p.stepAt i e = .ok { p with threads_ := p.threads_.set i t' } := by
  rw [stepAt, ht]
  dsimp only
  rw [hs]
  rfl

/-- A step of a thread that is not there is none. -/
theorem stepAt_none {e : IOLoopThread.Event} (ht : p.threads_[i]? = none) :
    p.stepAt i e = .ok p := by
  rw [stepAt, ht]
  rfl

/-- The threads created and the users of the loops take steps of their own. -/
theorem Inv.others (h : p.Inv numThreads) {e : IOLoopThread.Event} (he : e.Others)
    (hC : ∀ t, p.threads_[i]? = some t → t.Contract e) :
    Holds (Inv numThreads) (fun _ => False) (p.stepAt i e) := by
  cases ht : p.threads_[i]? with
  | none =>
    rw [stepAt_none ht]
    exact .ok h
  | some t =>
    obtain ⟨t', hs, ht'⟩ := (h.staged i t ht).others he (hC t ht)
    rw [stepAt_eq ht hs]
    refine .ok ⟨h.staged.set ht' fun _ _ _ => rfl, ?_, ?_, h.next, h.asked⟩
    · have hcounted := h.counted
      unfold Counted at hcounted ⊢
      rwa [List.length_set]
    · have hcontexts := h.contexts
      unfold running at hcontexts ⊢
      rwa [List.length_set]

/-- The call of `run`. -/
theorem Inv.run (h : p.Inv numThreads) (hfirst : p.pool.started_ = false) :
    Holds (Inv numThreads) (fun _ => False) p.run := by
  rw [ThreadedPool.run]
  by_cases hidle : p.call = .idle
  · have hcounted := h.counted
    rw [Counted, hidle] at hcounted
    dsimp only at hcounted
    rw [if_neg (by rw [hfirst]; decide)] at hcounted
    have hcontexts := h.contexts
    rw [running, hidle] at hcontexts
    rw [if_pos hidle, require_pos _ _ hfirst, ok_bind]
    refine .ok ⟨?_, ⟨rfl, hcounted, Nat.zero_le _⟩, hcontexts, h.next, h.asked⟩
    refine h.staged.enter fun j _ => ?_
    rw [hidle]
    rfl
  · rw [if_neg hidle]
    exact .ok h

/-- The call of the destructor. -/
theorem Inv.destroy (h : p.Inv numThreads) : p.destroy.Inv numThreads := by
  rw [ThreadedPool.destroy]
  by_cases hidle : p.call = .idle
  · have hcounted := h.counted
    rw [Counted, hidle] at hcounted
    have hcontexts := h.contexts
    rw [running, hidle] at hcontexts
    rw [if_pos hidle]
    refine ⟨h.staged.enter fun j _ => ?_, hcounted, hcontexts, h.next, h.asked⟩
    show (PoolCall.destroy 0).stage j = p.call.stage j
    rw [hidle, PoolCall.stage, PoolCall.stage, if_neg (Nat.not_lt_zero j)]
  · rw [if_neg hidle]
    exact h

/-- A turn of `run` begins. -/
theorem Inv.runTurn (h : p.Inv numThreads) (hcall : p.call = .run i) (id : ThreadId) :
    Holds (Inv numThreads) (fun _ => False) (p.stepOwner id) := by
  obtain ⟨hstaged, hcounted, hcontexts, hnext, hasked⟩ := h
  rw [hcall] at hstaged
  rw [Counted, hcall] at hcounted
  rw [running, hcall] at hcontexts
  obtain ⟨hstarted, hlength, hle⟩ := hcounted
  rw [stepOwner, hcall]
  dsimp only at hlength hcontexts ⊢
  -- another thread to start, unless all of them run
  split
  · next hlt =>
    split
    · exact .ok ⟨hcall ▸ hstaged, by rw [Counted, hcall]; exact ⟨hstarted, hlength, hle⟩,
        by rw [running, hcall]; exact hcontexts, hnext, hasked⟩
    · next hid =>
      -- the new member is the last one, and its `start` begins
      obtain ⟨t', hs, ht'⟩ := IOLoopThread.start_pooled hid
      have hnew : (p.threads_ ++ [IOLoopThread.new])[i]? = some .new := by
        rw [← hlength, List.getElem?_concat_length]
      rw [stepAt_eq (p := { p with threads_ := p.threads_ ++ [.new], call := .start i }) hnew hs]
      refine .ok ⟨?_, ⟨hstarted, ?_, hlt⟩, ?_, hnext, hasked⟩
      · subst hlength
        show Staged _ ((p.threads_ ++ [IOLoopThread.new]).set p.threads_.length t')
        rw [List.set_append_right _ _ (Nat.le_refl _), Nat.sub_self, List.set_cons_zero]
        refine hstaged.push ?_ fun j hj => if_pos hj
        rwa [PoolCall.stage, if_neg (Nat.lt_irrefl _)]
      · simp [hlength]
      · show p.pool.io_contexts_ = (List.range i).map (· + 1)
        rw [hcontexts, hlength]
  · -- the last one runs, and `start` of the pool returns
    next hlt =>
    refine .ok ⟨hstaged.enter fun j _ => rfl, ?_, hcontexts, hnext, hasked⟩
    show p.threads_.length = if p.pool.started_ = true then p.pool.numThreads_ else 0
    rw [if_pos hstarted]
    omega

/-- A turn of `run` goes on, or ends. -/
theorem Inv.startTurn (h : p.Inv numThreads) (hcall : p.call = .start i) (id : ThreadId) :
    Holds (Inv numThreads) (fun _ => False) (p.stepOwner id) := by
  obtain ⟨hstaged, hcounted, hcontexts, hnext, hasked⟩ := h
  rw [hcall] at hstaged
  rw [Counted, hcall] at hcounted
  rw [running, hcall] at hcontexts
  obtain ⟨hstarted, hlength, hlt⟩ := hcounted
  obtain ⟨t, ht⟩ : ∃ t, p.threads_[i]? = some t :=
    ⟨_, List.getElem?_eq_getElem (by omega)⟩
  -- the member in question is being started
  have hpooled : t.Pooled .starting := by
    have hpooled := hstaged i t ht
    rwa [PoolCall.stage, if_neg (Nat.lt_irrefl i)] at hpooled
  rw [stepOwner, hcall]
  dsimp only
  obtain ⟨t', hs, hnow⟩ := hpooled.starts
  have hset : (p.threads_.set i t')[i]? = some t' := List.getElem?_set_self (by omega)
  rw [stepAt_eq ht hs, ok_bind, started, hset]
  dsimp only
  -- it is still waiting for its loop, or `start` returns the loop
  rcases hnow with ⟨ht', hbusy⟩ | ⟨ht', hloop⟩
  · rw [if_neg hbusy]
    refine .ok ⟨?_, ?_, ?_, hnext, hasked⟩
    · refine (hcall ▸ hstaged.set ?_ fun _ _ _ => rfl)
      rwa [PoolCall.stage, if_neg (Nat.lt_irrefl i)]
    · show Counted { p with threads_ := p.threads_.set i t' }
      rw [Counted, hcall]
      exact ⟨hstarted, by rw [List.length_set, hlength], hlt⟩
    · rw [running, hcall]
      exact hcontexts
  · rw [if_pos ht'.stage.1, require_pos _ _ hloop, ok_bind]
    refine .ok ⟨?_, ⟨hstarted, by rw [List.length_set, hlength], hlt⟩, ?_, hnext, hasked⟩
    · refine hstaged.set (ht' : t'.Pooled ((PoolCall.run (i + 1)).stage i)) fun j hj hne => ?_
      rw [PoolCall.stage, PoolCall.stage, if_pos (by omega)]
    · show p.pool.io_contexts_ ++ [i + 1] = (List.range (p.threads_.set i t').length).map (· + 1)
      rw [hcontexts, List.length_set, hlength, List.range_succ, List.map_append]
      rfl

/-- A turn of the destructor begins. -/
theorem Inv.destroyTurn (h : p.Inv numThreads) (hcall : p.call = .destroy i) (id : ThreadId) :
    Holds (Inv numThreads) (fun _ => False) (p.stepOwner id) := by
  obtain ⟨hstaged, hcounted, hcontexts, hnext, hasked⟩ := h
  rw [hcall] at hstaged
  rw [Counted, hcall] at hcounted
  rw [running, hcall] at hcontexts
  rw [stepOwner, hcall]
  dsimp only
  -- the next member to stop
  split
  · next hlt =>
    obtain ⟨t, ht⟩ : ∃ t, p.threads_[i]? = some t := ⟨_, List.getElem?_eq_getElem hlt⟩
    have hpooled : t.Pooled .serving := by
      have hpooled := hstaged i t ht
      rwa [PoolCall.stage, if_neg (Nat.lt_irrefl i)] at hpooled
    obtain ⟨t', hs, ht'⟩ := hpooled.stops
    rw [stepAt_eq (p := p.enter (.stop i)) ht hs]
    refine .ok ⟨?_, ?_, ?_, hnext, hasked⟩
    · refine hstaged.set ?_ fun j hj hne => ?_
      · show t'.Pooled ((PoolCall.stop i).stage i)
        rwa [PoolCall.stage, if_neg (Nat.lt_irrefl i), if_pos rfl]
      · show (PoolCall.stop i).stage j = (PoolCall.destroy i).stage j
        rw [PoolCall.stage, PoolCall.stage, if_neg hne]
    · show (p.threads_.set i t').length = _
      rw [List.length_set]
      exact hcounted
    · show p.pool.io_contexts_ = (List.range (p.threads_.set i t').length).map (· + 1)
      rw [List.length_set]
      exact hcontexts
  · -- none is left, and the members follow
    next hlt =>
    refine .ok ⟨hstaged.enter fun j hj => ?_, hcounted, hcontexts, hnext, hasked⟩
    show (PoolCall.members 0).stage j = (PoolCall.destroy i).stage j
    rw [PoolCall.stage, PoolCall.stage, if_neg (Nat.not_lt_zero j), if_pos (by omega)]

/-- A turn of the destructor goes on, or ends. -/
theorem Inv.stopTurn (h : p.Inv numThreads) (hcall : p.call = .stop i) (id : ThreadId) :
    Holds (Inv numThreads) (fun _ => False) (p.stepOwner id) := by
  obtain ⟨hstaged, hcounted, hcontexts, hnext, hasked⟩ := h
  rw [hcall] at hstaged
  rw [Counted, hcall] at hcounted
  rw [running, hcall] at hcontexts
  rw [stepOwner, hcall]
  dsimp only
  cases ht : p.threads_[i]? with
  | none =>
    rw [stepAt_none ht, ok_bind, stopped, ht]
    exact .ok ⟨hcall ▸ hstaged, by rw [Counted, hcall]; exact hcounted,
      by rw [running, hcall]; exact hcontexts, hnext, hasked⟩
  -- it is still joining, or it is stopped
  | some t =>
    have hlt := (List.getElem?_eq_some_iff.mp ht).1
    have hpooled : t.Pooled .stopping := by
      have hpooled := hstaged i t ht
      rwa [PoolCall.stage, if_neg (Nat.lt_irrefl i), if_pos rfl] at hpooled
    obtain ⟨t', hs, hnow⟩ := hpooled.ends
    have hset : (p.threads_.set i t')[i]? = some t' := List.getElem?_set_self hlt
    have hcounted' : (p.threads_.set i t').length =
        if p.pool.started_ = true then p.pool.numThreads_ else 0 := by
      rw [List.length_set]
      exact hcounted
    have hcontexts' : p.pool.io_contexts_ =
        (List.range (p.threads_.set i t').length).map (· + 1) := by
      rw [List.length_set]
      exact hcontexts
    rw [stepAt_eq ht hs, ok_bind, stopped, hset]
    dsimp only
    rcases hnow with ⟨ht', hbusy⟩ | ht'
    · rw [if_neg hbusy]
      refine .ok ⟨?_, by rw [Counted, hcall]; exact hcounted',
        by rw [running, hcall]; exact hcontexts', hnext, hasked⟩
      refine hcall ▸ hstaged.set ?_ fun _ _ _ => rfl
      rwa [PoolCall.stage, if_neg (Nat.lt_irrefl i), if_pos rfl]
    · rw [if_pos ht'.stage.1]
      refine .ok ⟨?_, hcounted', hcontexts', hnext, hasked⟩
      refine hstaged.set ?_ fun j hj hne => ?_
      · show t'.Pooled ((PoolCall.destroy (i + 1)).stage i)
        rwa [PoolCall.stage, if_pos (Nat.lt_succ_self i)]
      · show (PoolCall.destroy (i + 1)).stage j = (PoolCall.stop i).stage j
        rw [PoolCall.stage, PoolCall.stage, if_neg hne]
        by_cases hlt' : j < i
        · rw [if_pos hlt', if_pos (by omega)]
        · rw [if_neg hlt', if_neg (by omega)]

/-- A member is destroyed. -/
theorem Inv.membersTurn (h : p.Inv numThreads) (hcall : p.call = .members i) (id : ThreadId) :
    Holds (Inv numThreads) (fun _ => False) (p.stepOwner id) := by
  obtain ⟨hstaged, hcounted, hcontexts, hnext, hasked⟩ := h
  rw [hcall] at hstaged
  rw [Counted, hcall] at hcounted
  rw [running, hcall] at hcontexts
  rw [stepOwner, hcall]
  dsimp only
  -- the destructor of the next member
  split
  · next hlt =>
    obtain ⟨t, ht⟩ : ∃ t, p.threads_[i]? = some t := ⟨_, List.getElem?_eq_getElem hlt⟩
    have hpooled : t.Pooled .stopped := by
      have hpooled := hstaged i t ht
      rwa [PoolCall.stage, if_neg (Nat.lt_irrefl i)] at hpooled
    obtain ⟨t', hs, ht'⟩ := hpooled.destroys
    rw [stepAt_eq (p := p.enter (.members (i + 1))) ht hs]
    refine .ok ⟨?_, ?_, ?_, hnext, hasked⟩
    · refine hstaged.set ?_ fun j hj hne => ?_
      · show t'.Pooled ((PoolCall.members (i + 1)).stage i)
        rwa [PoolCall.stage, if_pos (Nat.lt_succ_self i)]
      · show (PoolCall.members (i + 1)).stage j = (PoolCall.members i).stage j
        rw [PoolCall.stage, PoolCall.stage]
        by_cases hlt' : j < i
        · rw [if_pos hlt', if_pos (by omega)]
        · rw [if_neg hlt', if_neg (by omega)]
    · show (p.threads_.set i t').length = _
      rw [List.length_set]
      exact hcounted
    · show p.pool.io_contexts_ = (List.range (p.threads_.set i t').length).map (· + 1)
      rw [List.length_set]
      exact hcontexts
  · next hlt =>
    refine .ok ⟨hstaged.enter fun j hj => ?_, hcounted, hcontexts, hnext, hasked⟩
    show PoolCall.destroyed.stage j = (PoolCall.members i).stage j
    rw [PoolCall.stage, PoolCall.stage, if_pos (by omega)]

/-- **Every step keeps it**, and none fails. -/
theorem Inv.step (h : p.Inv numThreads) (e : Event) (hC : p.Contract e) :
    Holds (Inv numThreads) (fun _ => False) (p.step e) := by
  cases e with
  | run => exact h.run hC
  | destroy => exact .ok h.destroy
  | owner id =>
    cases hcall : p.call with
    | idle =>
      rw [ThreadedPool.step, stepOwner, hcall]
      exact .ok h
    | destroyed =>
      rw [ThreadedPool.step, stepOwner, hcall]
      exact .ok h
    | run i => exact h.runTurn hcall id
    | start i => exact h.startTurn hcall id
    | destroy i => exact h.destroyTurn hcall id
    | stop i => exact h.stopTurn hcall id
    | members i => exact h.membersTurn hcall id
  | thread i => exact h.others (e := .thread) trivial fun _ _ => trivial
  | spuriousLatch i => exact h.others (e := .spuriousLatch) trivial fun _ _ => trivial
  | spurious i => exact h.others (e := .spurious) trivial fun _ _ => trivial
  | post i isInLoopThread n =>
    exact h.others (e := .post isInLoopThread n) trivial fun t ht hout => hC hout t ht

/-! ### Every run

  No fault occurs, and the property holds in all states. -/

/-- What the owner of the pool and the users of its loops rely on. The loop with the number
    `k` is that of the `k`-th thread. -/
structure Hosts (numThreads : Int) (p : ThreadedPool) : Prop where
  /-- `run` has returned. -/
  runs : p.call = .idle → p.pool.started_ = true →
    (IOLoopThreadPool.new.setThreadNum numThreads).run = .ok p.pool ∧
    ∀ ios ∈ p.pool.io_contexts_, ∃ t l, p.threads_[ios - 1]? = some t ∧
      t.thread.looping = true ∧ t.loop = some l ∧ l.stopped = false ∧
      l.threadId_ = t.tid_ ∧ t.tid_ ≠ 0
  order : ∀ t ∈ p.threads_, t.taken <+: t.posted
  /-- The destructor has returned. -/
  ends : p.call = .destroyed → ∀ t ∈ p.threads_,
    t.thread = .finished ∧ t.loop = none ∧ t.taken = t.owed

/-- The pool after the one step of the server. -/
theorem Inv.pool_eq (h : p.Inv numThreads) (hstarted : p.pool.started_ = true)
    (hall : p.running = p.pool.numThreads_) :
    (IOLoopThreadPool.new.setThreadNum numThreads).run = .ok p.pool := by
  have hcontexts := h.contexts
  have hnext := h.next
  have hasked := h.asked
  rw [hall] at hcontexts
  cases hpool : p.pool with
  | mk contexts next started num =>
    rw [hpool] at hcontexts hnext hasked hstarted
    dsimp only at hcontexts hnext hasked hstarted
    subst hcontexts hnext hasked hstarted
    rfl

/-- The invariant has the property in it. -/
theorem Inv.pool_hosts (h : p.Inv numThreads) : p.Hosts numThreads where
  runs := by
    -- while the pool is started and idle each member serves
    intro hidle hstarted
    have hcounted := h.counted
    rw [Counted, hidle] at hcounted
    dsimp only at hcounted
    rw [if_pos hstarted] at hcounted
    have hcontexts := h.contexts
    rw [running, hidle] at hcontexts
    dsimp only at hcontexts
    refine ⟨h.pool_eq hstarted ?_, fun ios hios => ?_⟩
    · rw [running, hidle]
      exact hcounted
    · rw [hcontexts] at hios
      obtain ⟨i, hi, rfl⟩ := List.mem_map.mp hios
      obtain ⟨t, ht⟩ : ∃ t, p.threads_[i]? = some t :=
        ⟨_, List.getElem?_eq_getElem (List.mem_range.mp hi)⟩
      have hpooled := h.staged i t ht
      rw [hidle] at hpooled
      replace hpooled : t.Pooled .serving := hpooled
      obtain ⟨hlooping, htid, l, hl, hruns, hsame⟩ :=
        hpooled.inv.lives.runs hpooled.stage.1 hpooled.serves_started.1
      exact ⟨t, l, ht, hlooping, hl, hruns, hsame, htid⟩
  order := by
    intro t ht
    obtain ⟨i, hi⟩ := List.getElem?_of_mem ht
    exact (h.staged i t hi).inv.queue.taken
  -- after the destructor each member has finished
  ends := by
    intro hdestroyed t ht
    obtain ⟨i, hi⟩ := List.getElem?_of_mem ht
    have hpooled := h.staged i t hi
    rw [hdestroyed] at hpooled
    replace hpooled : t.Pooled .destroyed := hpooled
    have hplaces := hpooled.inv.places
    rw [IOLoopThread.Places, hpooled.stage.1] at hplaces
    refine hpooled.inv.lives.ends ?_ hplaces.1 (.inr hpooled.stage.1)
    rw [hpooled.stage.2]

/-- **The pool hosts its loops**: in every interleaving of the owner with the threads it starts
    and the users of their loops, no `assert` fails and nothing is used after it has been
    destroyed.  When `run` has returned, the pool is the one that the step of the server leaves,
    and each of its loops runs, in a thread of its own.  When the destructor has returned, every
    thread has finished, and has run the handlers posted before its `stop` called `quit`, and no
    others. -/
theorem hosts (numThreads : Int) {es : List Event} (h : Guarded step Contract (new numThreads) es) :
    Holds (Hosts numThreads) (fun _ => False) (Foundation.run step (new numThreads) es) :=
  (run_holds (fun _ e hp hC => Inv.step hp e hC) es _ (new_inv numThreads) h).mono
    (fun _ hp => hp.pool_hosts) fun _ hf => hf

/-- A pool of two threads.  Two handlers are posted to the first loop, and the destructor runs
    before they do. -/
def twoThreads : List Event :=
  [.run, .owner 7, .owner 0, .thread 0, .thread 0, .spuriousLatch 0, .thread 0, .thread 0, .owner 0,
    .owner 0, .owner 8, .thread 1, .thread 1, .thread 1, .thread 0, .thread 1, .owner 0, .owner 0,
    .owner 0, .post 0 false 1, .post 0 false 2, .destroy, .owner 0, .owner 0] ++
    .replicate 8 (.thread 0) ++ [.owner 0, .owner 0, .owner 0] ++ .replicate 5 (.thread 1) ++
    .replicate 5 (.owner 0)

/-- The contract can be met: two threads are started, serve and are stopped. -/
theorem hosts_twoThreads : Guarded step Contract (new 2) twoThreads ∧
    Holds (Hosts 2) (fun _ => False) (Foundation.run step (new 2) twoThreads) ∧
    (Foundation.run step (new 2) twoThreads).toOption.map
      (fun p => (p.call, p.pool.io_contexts_, p.threads_.map (·.taken))) =
      some (.destroyed, [1, 2], [[1, 2], []]) :=
  have hguard : Guarded step Contract (new 2) twoThreads := by decide +kernel
  ⟨hguard, hosts 2 hguard, by decide +kernel⟩

end ThreadedPool

end IOEvent
