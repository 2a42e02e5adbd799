/-
  `start` and `stop` return.

  Neither can be decided by a single thread, so each has two ranks: one that every step of the
  created thread lowers and nothing raises, and, when that is zero, one that every step of the
  owner lowers.  `returns` says how many steps of the two threads are enough, whatever the other
  threads do in between and however often the owner wakes up without having been notified.  A
  handler is taken to return: its return is a step of the created thread.

  First come the ranks and what one step changes of them; `stepThread_next` and
  `stepOwner_frame` go through the steps of the two threads.  Along a run each rank then goes
  down with the number of steps of its own thread, until it is zero, whatever comes in between.
-/
import IOEvent.IOLoopThread.Lifecycle

open Foundation

namespace IOEvent

namespace LoopThread

/-- The steps up to `loop_ = &loop`. It is `0` from there on, and `0` for a thread that was
    not created. -/
def toStored : LoopThread → Nat
  | .created => 4
  | .tidStored => 3
  | .counted => 2
  | .constructed => 1
  | _ => 0

/-- The steps up to the end of the thread, when `run` needs `shut` of them to execute
    `quitInThisThread`. -/
def toFinished (shut : Nat) : LoopThread → Nat
  | .stored => shut + 4
  | .running _ => shut + 4
  | .polling => shut + 3
  | .left => 2
  | .cleared => 1
  | _ => 0

/-- One step of the created thread. From `polling` there are three ways on; which of them is
    taken is up to the queue. -/
inductive Next : LoopThread → LoopThread → Prop
  | notCreated : Next .notCreated .notCreated
  | created : Next .created .tidStored
  | tidStored : Next .tidStored .counted
  | counted : Next .counted .constructed
  | constructed : Next .constructed .stored
  | stored : Next .stored .polling
  | idles : Next .polling .polling
  | takes (n : Nat) : Next .polling (.running n)
  | leaves : Next .polling .left
  | returns (n : Nat) : Next (.running n) .polling
  | left : Next .left .cleared
  | cleared : Next .cleared .finished
  | finished : Next .finished .finished

/-- Each step on the way to the loop makes it one shorter. -/
theorem Next.toStored {t t' : LoopThread} (h : Next t t') : t'.toStored ≤ t.toStored - 1 := by
  cases h <;> exact Nat.le_refl _

/-- A thread that was created stays so. -/
theorem Next.enters {t t' : LoopThread} (h : Next t t') (hnew : t ≠ .notCreated) :
    t' ≠ .notCreated := by
  cases h <;> first | exact hnew | nofun

/-- Behind the loop each step makes the way to the end one shorter. -/
theorem Next.toFinished {t t' : LoopThread} (h : Next t t') (hleaving : t.leaving = true)
    (shut shut' : Nat) : t'.toFinished shut' ≤ t.toFinished shut - 1 := by
  cases h <;> first | exact Nat.le_refl _ | cases hleaving

end LoopThread

/-- The steps of the owner up to the return of `start`. It counts the two waits that are still
    to be left. -/
def Owner.toReturned : Owner → Nat
  | .latching => 2
  | .latchWaiting => 2
  | .locking => 1
  | .waiting => 1
  | _ => 0

/-- The steps of the owner up to the return of `thread_.join()`. -/
def Owner.toJoined : Owner → Nat
  | .joining _ => 1
  | _ => 0

/-- The steps of `run` up to the end of `quitInThisThread`. A handler is two steps, its start
    and its return, and `quitInThisThread` is one. -/
def ThreadLoop.toShut (l : ThreadLoop) : Nat :=
  if l.stopped = true then 0 else 2 * l.queue.idxOf .quitInThisThread + 1

namespace ThreadLoop

variable {l : ThreadLoop} {owed taken : List Nat} {n : Nat} {queue : List LoopTask}

/-- A handler that is run makes the way to the end of the loop two shorter: its beginning and its
    end. -/
theorem toShut_task (hruns : l.stopped = false) (hqueue : l.queue = .task n :: queue) :
    ({ l with queue } : ThreadLoop).toShut + 2 = l.toShut := by
  have hnot : ¬ l.stopped = true := by rw [hruns]; decide
  have hne : LoopTask.task n ≠ .quitInThisThread := nofun
  rw [toShut, toShut, if_neg hnot, if_neg hnot, hqueue, List.idxOf_cons_ne _ hne]
  rfl

/-- The loop's own handler is the last step of it. -/
theorem toShut_quit (hruns : l.stopped = false) (hqueue : l.queue = .quitInThisThread :: queue) :
    l.toShut = 1 := by
  rw [toShut, if_neg (by rw [hruns]; decide), hqueue, List.idxOf_cons_self]

/-- What is posted behind `quitInThisThread` does not delay it. -/
theorem Quits.toShut_post (h : l.Quits owed taken) (n : Nat) :
    (l.post (.task n)).toShut = l.toShut := by
  rw [toShut, toShut]
  cases h with
  | shut hstopped howed =>
    rw [if_pos hstopped, if_pos (show (l.post (.task n)).stopped = true from hstopped)]
  | queued ahead behind hqueue hahead hruns howed =>
    have hmem : .quitInThisThread ∈ l.queue := by
      rw [hqueue]
      exact List.mem_append_right _ List.mem_cons_self
    have hnot : ¬ l.stopped = true := by rw [hruns]; decide
    rw [if_neg hnot, if_neg (show ¬ (l.post (.task n)).stopped = true from hnot), ThreadLoop.post,
      List.idxOf_append_of_mem hmem]

/-- Ahead of the loop's own every handler counts. -/
theorem length_numbers : ∀ {queue : List LoopTask}, .quitInThisThread ∉ queue →
    (LoopTask.numbers queue).length = queue.length
  | [], _ => rfl
  | .task n :: queue, h => by
    rw [LoopTask.numbers_task, List.length_cons, List.length_cons,
      length_numbers fun hmem => h (List.mem_cons_of_mem _ hmem)]
  | .quitInThisThread :: _, h => absurd List.mem_cons_self h

/-- Behind `quit` the way to the end of the loop is bounded by the handlers that still run; those
    posted later lie behind it. -/
theorem Quits.toShut_le (h : l.Quits owed taken) :
    l.toShut ≤ 2 * (owed.length - taken.length) + 1 := by
  rw [toShut]
  cases h with
  | shut hstopped howed =>
    rw [if_pos hstopped]
    exact Nat.zero_le _
  | queued ahead behind hqueue hahead hruns howed =>
    rw [if_neg (by rw [hruns]; decide), hqueue, List.idxOf_append_of_notMem hahead,
      List.idxOf_cons_self, howed, List.length_append, length_numbers hahead]
    omega

end ThreadLoop

namespace IOLoopThread

variable {s s' : IOLoopThread}

/-! ## What one step changes

  Frames: what a step of one thread leaves of what the rank of the other looks at. -/

/-- Running a handler is a step on the way, and moves nothing of the owner. -/
theorem poll_next {l : ThreadLoop} (h : s.poll l = .ok s') (hthread : s.thread = .polling) :
    s.thread.Next s'.thread ∧ s'.owner = s.owner ∧ s'.thread_ = s.thread_ := by
  rw [poll] at h
  by_cases hstopped : l.stopped = true
  · rw [if_pos hstopped] at h
    obtain rfl := Except.ok.inj h
    exact ⟨hthread ▸ .leaves, rfl, rfl⟩
  · rw [if_neg hstopped] at h
    cases hqueue : l.queue with
    | nil =>
      rw [hqueue] at h
      dsimp only at h
      by_cases hwork : l.work_ = true
      · rw [if_pos hwork] at h
        obtain rfl := Except.ok.inj h
        exact ⟨hthread.symm ▸ .idles, rfl, rfl⟩
      · rw [if_neg hwork] at h
        obtain rfl := Except.ok.inj h
        exact ⟨hthread ▸ .leaves, rfl, rfl⟩
    | cons task queue =>
      rw [hqueue] at h
      cases task with
      | task n =>
        obtain rfl := Except.ok.inj h
        exact ⟨hthread ▸ .takes n, rfl, rfl⟩
      | quitInThisThread =>
        obtain ⟨-, -, h⟩ := bind_ok h
        obtain rfl := Except.ok.inj h
        exact ⟨hthread.symm ▸ .idles, rfl, rfl⟩

/-- So is every step of the created thread. -/
theorem stepThread_next (h : s.stepThread = .ok s') :
    s.thread.Next s'.thread ∧ s'.owner = s.owner ∧ s'.thread_ = s.thread_ := by
  rw [stepThread] at h
  -- `threadFunc` goes on by one place, and touches neither the owner nor the handle
  cases hthread : s.thread with
  | notCreated =>
    rw [hthread] at h
    obtain rfl := Except.ok.inj h
    exact ⟨hthread.symm ▸ .notCreated, rfl, rfl⟩
  | created =>
    rw [hthread] at h
    obtain ⟨-, -, h⟩ := bind_ok h
    obtain rfl := Except.ok.inj h
    exact ⟨.created, rfl, rfl⟩
  | tidStored =>
    rw [hthread] at h
    obtain ⟨-, -, h⟩ := bind_ok h
    cases hlatch : s.latch_.countDown with
    | error f =>
      rw [hlatch] at h
      cases h
    | ok latch =>
      rw [hlatch] at h
      obtain rfl := Except.ok.inj h
      exact ⟨.tidStored, rfl, rfl⟩
  | counted =>
    rw [hthread] at h
    obtain ⟨-, -, h⟩ := bind_ok h
    obtain rfl := Except.ok.inj h
    exact ⟨.counted, rfl, rfl⟩
  | constructed =>
    rw [hthread] at h
    obtain ⟨-, -, h⟩ := bind_ok h
    obtain rfl := Except.ok.inj h
    exact ⟨.constructed, rfl, rfl⟩
  | stored =>
    rw [hthread] at h
    obtain ⟨l, -, h⟩ := bind_ok h
    obtain ⟨-, -, h⟩ := bind_ok h
    obtain rfl := Except.ok.inj h
    exact ⟨.stored, rfl, rfl⟩
  | polling =>
    rw [hthread] at h
    obtain ⟨l, -, h⟩ := bind_ok h
    have hnext := poll_next h hthread
    rwa [hthread] at hnext
  | running n =>
    rw [hthread] at h
    obtain rfl := Except.ok.inj h
    exact ⟨.returns n, rfl, rfl⟩
  | left =>
    rw [hthread] at h
    obtain ⟨-, -, h⟩ := bind_ok h
    obtain rfl := Except.ok.inj h
    exact ⟨.left, rfl, rfl⟩
  | cleared =>
    rw [hthread] at h
    obtain rfl := Except.ok.inj h
    exact ⟨.cleared, rfl, rfl⟩
  | finished =>
    rw [hthread] at h
    obtain rfl := Except.ok.inj h
    exact ⟨hthread.symm ▸ .finished, rfl, rfl⟩

/-- The events that are no step of either thread leave both where they are, unless the owner is in
    none of the functions. -/
theorem post_frame {isInLoopThread : Bool} {n : Nat} (h : s.post isInLoopThread n = .ok s') :
    s'.thread = s.thread ∧ s'.owner = s.owner ∧ s'.thread_ = s.thread_ ∧
      (s'.loop = s.loop ∨ ∃ l, s.loop = some l ∧ s'.loop = some (l.post (.task n))) := by
  rw [post] at h
  by_cases hknown : s.known isInLoopThread = true
  · rw [if_pos hknown, deref] at h
    cases hl : s.loop with
    | none =>
      rw [hl] at h
      cases h
    | some l =>
      rw [hl] at h
      obtain rfl := Except.ok.inj h
      exact ⟨rfl, rfl, rfl, Or.inr ⟨l, rfl, rfl⟩⟩
  · rw [if_neg hknown] at h
    obtain rfl := Except.ok.inj h
    exact ⟨rfl, rfl, rfl, Or.inl rfl⟩

/-- `stop` moves nothing of the created thread. -/
theorem stop_frame (s : IOLoopThread) (destroying : Bool) :
    (s.stop destroying).thread = s.thread ∧ (s.stop destroying).thread_ = s.thread_ ∧
      (s.stop destroying).loop = s.loop ∧ (s.stop destroying).owner.toReturned = 0 ∧
      (s.stop destroying).owner.toJoined = 0 := by
  rw [stop]
  split
  · exact ⟨rfl, rfl, rfl, rfl, rfl⟩
  · rw [stopped]
    cases destroying <;> exact ⟨rfl, rfl, rfl, rfl, rfl⟩

/-- Nor does the destructor. -/
theorem destroy_frame (s : IOLoopThread) :
    s.destroy.thread = s.thread ∧ s.destroy.thread_ = s.thread_ ∧ s.destroy.loop = s.loop ∧
      s.destroy.owner.toReturned = 0 ∧ s.destroy.owner.toJoined = 0 := by
  rw [destroy]
  split
  · exact s.stop_frame true
  · exact ⟨rfl, rfl, rfl, rfl, rfl⟩

/-- Waiting for `loop_` moves nothing of it, and ends where that is set. -/
theorem loopWait_frame (s : IOLoopThread) :
    s.loopWait.thread = s.thread ∧ s.loopWait.thread_ = s.thread_ ∧ s.loopWait.loop = s.loop ∧
      s.loopWait.owner.toReturned ≤ 1 ∧ (s.loop_ = true → s.loopWait.owner.toReturned = 0) := by
  rw [loopWait]
  split
  · exact ⟨rfl, rfl, rfl, Nat.zero_le _, fun _ => rfl⟩
  · next hnull => exact ⟨rfl, rfl, rfl, Nat.le_refl _, fun h => absurd h hnull⟩

/-- Waiting for the latch ends where the count has come down. -/
theorem latchWait_frame (h : s.latchWait = .ok s') :
    s'.thread = s.thread ∧ s'.thread_ = s.thread_ ∧ s'.loop = s.loop ∧ s'.owner.toReturned ≤ 2 ∧
      (s.latch_.count_ ≤ 0 → s'.owner.toReturned = 1) := by
  rw [latchWait] at h
  rcases Int.lt_or_le 0 s.latch_.count_ with hshut | hopen
  · rw [CountDownLatch.wait_shut hshut] at h
    obtain rfl := Except.ok.inj h
    exact ⟨rfl, rfl, rfl, Nat.le_refl _, fun hopen => absurd hshut (Int.not_lt.mpr hopen)⟩
  · rw [CountDownLatch.wait_open hopen] at h
    obtain ⟨-, -, h⟩ := bind_ok h
    obtain rfl := Except.ok.inj h
    exact ⟨rfl, rfl, rfl, Nat.le_succ _, fun _ => rfl⟩

/-- `stepOwner` leaves the created thread alone. -/
theorem stepOwner_frame (h : s.stepOwner = .ok s') :
    s'.thread = s.thread ∧ s'.owner.toReturned ≤ s.owner.toReturned ∧
      (s.thread_.join_ = true → s'.thread_ = s.thread_ ∧ s'.loop = s.loop) := by
  rw [stepOwner] at h
  -- one case per place of the owner
  cases howner : s.owner with
  | idle =>
    rw [howner] at h
    obtain rfl := Except.ok.inj h
    rw [howner]
    exact ⟨rfl, Nat.le_refl _, fun _ => ⟨rfl, rfl⟩⟩
  | destroyed =>
    rw [howner] at h
    obtain rfl := Except.ok.inj h
    rw [howner]
    exact ⟨rfl, Nat.le_refl _, fun _ => ⟨rfl, rfl⟩⟩
  | latching =>
    rw [howner] at h
    obtain ⟨hthread, hthread_, hloop, hle, -⟩ := latchWait_frame h
    exact ⟨hthread, hle, fun _ => ⟨hthread_, hloop⟩⟩
  | latchWaiting =>
    rw [howner] at h
    dsimp only at h
    split at h
    · obtain rfl := Except.ok.inj h
      rw [howner]
      exact ⟨rfl, Nat.le_refl _, fun _ => ⟨rfl, rfl⟩⟩
    · obtain ⟨hthread, hthread_, hloop, hle, -⟩ := latchWait_frame h
      exact ⟨hthread, hle, fun _ => ⟨hthread_, hloop⟩⟩
  | locking =>
    rw [howner] at h
    obtain rfl := Except.ok.inj h
    obtain ⟨hthread, hthread_, hloop, hle, -⟩ := s.loopWait_frame
    exact ⟨hthread, hle, fun _ => ⟨hthread_, hloop⟩⟩
  | waiting =>
    rw [howner] at h
    dsimp only at h
    split at h
    · obtain rfl := Except.ok.inj h
      rw [howner]
      exact ⟨rfl, Nat.le_refl _, fun _ => ⟨rfl, rfl⟩⟩
    · obtain rfl := Except.ok.inj h
      obtain ⟨hthread, hthread_, hloop, hle, -⟩ := s.loopResume.loopWait_frame
      exact ⟨hthread, hle, fun _ => ⟨hthread_, hloop⟩⟩
  | quitting destroying =>
    rw [howner] at h
    obtain ⟨l, -, h⟩ := bind_ok h
    obtain ⟨-, -, h⟩ := bind_ok h
    by_cases hjoin : s.thread_.join_ = false
    · rw [require_pos _ _ hjoin] at h
      obtain rfl := Except.ok.inj h
      exact ⟨rfl, Nat.le_refl _, fun hnot => by cases hjoin.symm.trans hnot⟩
    · rw [require_neg _ _ hjoin] at h
      cases h
  | joining destroying =>
    rw [howner] at h
    dsimp only at h
    obtain rfl := Except.ok.inj h
    split
    · refine ⟨rfl, ?_, fun _ => ⟨rfl, rfl⟩⟩
      rw [stopped]
      cases destroying <;> exact Nat.le_refl _
    · rw [howner]
      exact ⟨rfl, Nat.le_refl _, fun _ => ⟨rfl, rfl⟩⟩

/-- Everything but the steps of the created thread leaves that thread where it is. -/
theorem step_thread {e : Event} (hC : s.Contract e) (hrun : s.thread_.started_ = true)
    (h : s.step e = .ok s') (he : e ≠ .thread) :
    s'.thread = s.thread ∧ (s.thread_.join_ = true → s'.thread_ = s.thread_ ∧
      (s'.loop = s.loop ∨ ∃ l n, s.loop = some l ∧ s'.loop = some (l.post (.task n)))) ∧
      s'.owner.toReturned ≤ s.owner.toReturned := by
  -- the other events leave the thread where it is
  cases e with
  | start id => cases hrun.symm.trans hC
  | thread => exact absurd rfl he
  | stop =>
    obtain rfl := Except.ok.inj h
    split
    · obtain ⟨hthread, hthread_, hloop, hzero, -⟩ := s.stop_frame false
      exact ⟨hthread, fun _ => ⟨hthread_, Or.inl hloop⟩, hzero ▸ Nat.zero_le _⟩
    · exact ⟨rfl, fun _ => ⟨rfl, Or.inl rfl⟩, Nat.le_refl _⟩
  | destroy =>
    obtain rfl := Except.ok.inj h
    split
    · obtain ⟨hthread, hthread_, hloop, hzero, -⟩ := s.destroy_frame
      exact ⟨hthread, fun _ => ⟨hthread_, Or.inl hloop⟩, hzero ▸ Nat.zero_le _⟩
    · exact ⟨rfl, fun _ => ⟨rfl, Or.inl rfl⟩, Nat.le_refl _⟩
  | owner =>
    obtain ⟨hthread, hle, hrest⟩ := stepOwner_frame h
    exact ⟨hthread, fun hjoin => ⟨(hrest hjoin).1, Or.inl (hrest hjoin).2⟩, hle⟩
  | spuriousLatch =>
    obtain rfl := Except.ok.inj h
    exact ⟨rfl, fun _ => ⟨rfl, Or.inl rfl⟩, Nat.le_refl _⟩
  | spurious =>
    obtain rfl := Except.ok.inj h
    exact ⟨rfl, fun _ => ⟨rfl, Or.inl rfl⟩, Nat.le_refl _⟩
  | post isInLoopThread n =>
    obtain ⟨hthread, howner, hthread_, hloop⟩ := post_frame h
    refine ⟨hthread, fun _ => ⟨hthread_, ?_⟩, Nat.le_of_eq (congrArg Owner.toReturned howner)⟩
    rcases hloop with hloop | ⟨l, hl, hl'⟩
    · exact Or.inl hloop
    · exact Or.inr ⟨l, n, hl, hl'⟩
  | quit isInLoopThread => exact absurd hC id

/-- A step that has succeeded has kept the invariant. -/
theorem step_inv {e : Event} (h : s.Inv) (hC : s.Contract e) (hs : s.step e = .ok s') : s'.Inv := by
  have hnext := h.step e hC
  rw [hs] at hnext
  exact holds_ok.mp hnext

/-! ## `start`

  First the created thread stores the loop, then the owner returns. -/

/-- The first rank of `start`: the created thread gets as far as `loop_ = &loop`. -/
theorem toStored_step {e : Event} (h : s.Inv ∧ s.thread_.started_ = true) (hC : s.Contract e)
    (hs : s.step e = .ok s') :
    (s'.Inv ∧ s'.thread_.started_ = true) ∧ s'.thread.toStored ≤ s.thread.toStored ∧
      ((e == .thread) = true → s'.thread.toStored ≤ s.thread.toStored - 1) := by
  have hinv := step_inv h.1 hC hs
  have hnew : s.thread ≠ .notCreated := fun hnew => by
    cases h.2.symm.trans (h.1.launch.created.mp hnew)
  have hstill : s'.thread ≠ .notCreated → s'.thread_.started_ = true := fun hne =>
    Bool.not_eq_false _ ▸ fun hnot => hne (hinv.launch.created.mpr hnot)
  by_cases he : e = .thread
  · rw [he] at hs
    obtain ⟨hnext, -, -⟩ := stepThread_next hs
    have hle := hnext.toStored
    exact ⟨⟨hinv, hstill (hnext.enters hnew)⟩, by omega, fun _ => hle⟩
  · have hthread := (step_thread hC h.2 hs he).1
    refine ⟨⟨hinv, hstill (hthread ▸ hnew)⟩, Nat.le_of_eq (congrArg _ hthread), fun heq => ?_⟩
    exact absurd (beq_iff_eq.mp heq) he

/-- **Along a run each step of the created thread shortens its way to the loop**, whatever the
    others do in between. -/
theorem toStored_run {es : List Event} (h : s.Inv ∧ s.thread_.started_ = true)
    (hguard : Guarded step Contract s es) (hs : run step s es = .ok s') :
    (s'.Inv ∧ s'.thread_.started_ = true) ∧
      s'.thread.toStored ≤ s.thread.toStored - es.countP (· == .thread) :=
  run_ranks (fun _ _ _ h hC hs => toStored_step h hC hs) es s s' h hguard hs

/-- With `loop_` stored, neither wait of `start` holds the owner any longer. -/
theorem Inv.opened (h : s.Inv) (hat : s.owner.starting = true) (hstored : s.thread.toStored = 0) :
    s.latch_.count_ ≤ 0 ∧ s.loop_ = true := by
  have hthread := (places_starting hat h.places).2
  have hleaving := (h.queue.opened (by rw [hthread])).1
  have hlooping : s.thread.looping = true := by
    have hnew : s.thread ≠ .notCreated := by
      rw [ne_eq, h.launch.created, hthread]
      decide
    cases hplace : s.thread <;> rw [hplace] at hstored hleaving hnew <;>
      first | rfl | exact absurd rfl hnew | (cases hstored; done) | cases hleaving
  have hcount := h.launch.count
  rw [LoopThread.not_latched_of_enters (LoopThread.enters_of_looping hlooping)] at hcount
  exact ⟨Int.le_of_eq hcount, h.launch.stores.trans (LoopThread.stores_of_looping hlooping)⟩

/-- Once `loop_` is set, each step of the owner shortens its way out of `start`. -/
theorem toReturned_stepOwner (h : s.Inv) (hstored : s.thread.toStored = 0)
    (hs : s.stepOwner = .ok s') : s'.owner.toReturned ≤ s.owner.toReturned - 1 := by
  have hle := (stepOwner_frame hs).2.1
  rw [stepOwner] at hs
  -- only the places of `start` have something left to do
  cases howner : s.owner with
  | idle => rwa [howner] at hle
  | destroyed => rwa [howner] at hle
  | quitting destroying => rwa [howner] at hle
  | joining destroying => rwa [howner] at hle
  | latching =>
    have hopen := (h.opened (by rw [howner]; rfl) hstored).1
    rw [howner] at hs
    obtain ⟨-, -, -, -, hone⟩ := latchWait_frame hs
    exact Nat.le_of_eq (hone hopen)
  | latchWaiting =>
    have hopen := (h.opened (by rw [howner]; rfl) hstored).1
    rw [howner] at hs
    dsimp only at hs
    rw [h.wakes.latch hopen, if_neg List.not_mem_nil] at hs
    obtain ⟨-, -, -, -, hone⟩ := latchWait_frame hs
    exact Nat.le_of_eq (hone hopen)
  | locking =>
    have hloop := (h.opened (by rw [howner]; rfl) hstored).2
    rw [howner] at hs
    obtain rfl := Except.ok.inj hs
    exact Nat.le_of_eq (s.loopWait_frame.2.2.2.2 hloop)
  | waiting =>
    have hloop := (h.opened (by rw [howner]; rfl) hstored).2
    have hasleep : s.condition_.asleep = [] :=
      h.wakes.loop.resolve_right fun hw => by cases hloop.symm.trans hw.2.2
    rw [howner] at hs
    dsimp only at hs
    rw [hasleep, if_neg List.not_mem_nil] at hs
    obtain rfl := Except.ok.inj hs
    exact Nat.le_of_eq (s.loopResume.loopWait_frame.2.2.2.2 hloop)

/-- The second rank of `start`: the owner gets through its two waits. -/
theorem toReturned_step {e : Event}
    (h : (s.Inv ∧ s.thread_.started_ = true) ∧ s.thread.toStored = 0) (hC : s.Contract e)
    (hs : s.step e = .ok s') :
    ((s'.Inv ∧ s'.thread_.started_ = true) ∧ s'.thread.toStored = 0) ∧
      s'.owner.toReturned ≤ s.owner.toReturned ∧
      ((e == .owner) = true → s'.owner.toReturned ≤ s.owner.toReturned - 1) := by
  obtain ⟨hinv, hle, -⟩ := toStored_step h.1 hC hs
  refine ⟨⟨hinv, Nat.le_zero.mp (h.2 ▸ hle)⟩, ?_, fun heq => ?_⟩
  · by_cases he : e = .thread
    · rw [he] at hs
      exact Nat.le_of_eq (congrArg Owner.toReturned (stepThread_next hs).2.1)
    · exact (step_thread hC h.1.2 hs he).2.2
  · rw [beq_iff_eq.mp heq] at hs
    exact toReturned_stepOwner h.1.1 h.2 hs

/-- **So `start` returns** after as many steps of the owner as it has waits to leave. -/
theorem toReturned_run {es : List Event}
    (h : (s.Inv ∧ s.thread_.started_ = true) ∧ s.thread.toStored = 0)
    (hguard : Guarded step Contract s es) (hs : run step s es = .ok s') :
    s'.owner.toReturned ≤ s.owner.toReturned - es.countP (· == .owner) :=
  (run_ranks (fun _ _ _ h hC hs => toReturned_step h hC hs) es s s' h hguard hs).2

/-- There are two waits in `start`. -/
theorem toReturned_le_two (o : Owner) : o.toReturned ≤ 2 := by
  cases o <;> first | decide | exact Nat.zero_le 2

/-- There are four steps from the creation of the thread to the loop. -/
theorem toStored_le_four (t : LoopThread) : t.toStored ≤ 4 := by
  cases t <;> first | decide | exact Nat.zero_le 4

/-- An owner with nothing left of its way is out of `start`. -/
theorem not_starting_of_toReturned {o : Owner} (h : o.toReturned = 0) : o.starting = false := by
  cases o <;> first | rfl | cases h

/-- `start` returns: four steps of the created thread, and then two of the owner. -/
theorem start_ends {es₁ es₂ : List Event} (h : s.Inv) (hat : s.owner.starting = true)
    (hguard : Guarded step Contract s (es₁ ++ es₂)) (h₁ : 4 ≤ es₁.countP (· == .thread))
    (h₂ : 2 ≤ es₂.countP (· == .owner)) (hs : run step s (es₁ ++ es₂) = .ok s') :
    s'.owner.starting = false := by
  rw [run_append] at hs
  obtain ⟨s₁, hs₁, hs₂⟩ := bind_ok hs
  have hrun : s.thread_.started_ = true := by rw [(places_starting hat h.places).2]
  obtain ⟨hinv, hstored⟩ := toStored_run ⟨h, hrun⟩ hguard.of_append hs₁
  have hfour := toStored_le_four s.thread
  have hreturned := toReturned_run ⟨hinv, by omega⟩ (hguard.of_run hs₁) hs₂
  have htwo := toReturned_le_two s₁.owner
  exact not_starting_of_toReturned (by omega)

/-! ## `stop`

  First the created thread runs what is owed and ends, then the owner has joined it. -/

/-- The steps of the created thread up to its end, once `quit` has been called. What is queued
    behind `quitInThisThread` is not counted. -/
def toFinished (s : IOLoopThread) : Nat :=
  s.thread.toFinished ((s.loop.map ThreadLoop.toShut).getD 0)

/-- With `quit` called, the thread is in the loop or behind it. -/
theorem Inv.leaves (h : s.Inv) (hjoin : s.thread_.join_ = true) :
    (∃ l, s.loop = some l ∧ s.thread.looping = true ∧ l.Quits s.owed s.taken) ∨
      s.thread.leaving = true := by
  cases hlooping : s.thread.looping with
  | false => exact Or.inr ((h.queue.quits hjoin).2 hlooping).1
  | true =>
    obtain ⟨l, hl⟩ := h.launch.loop_of_looping hlooping
    exact Or.inl ⟨l, hl, rfl, (h.queue.quits hjoin).1 hlooping l hl⟩

/-- Once the thread is being joined its way to the end is bounded by the handlers that are owed. -/
theorem toFinished_le (h : s.Inv) (hjoin : s.thread_.join_ = true) :
    s.toFinished ≤ 2 * (s.owed.length - s.taken.length) + 5 := by
  rw [toFinished]
  rcases h.leaves hjoin with ⟨l, hl, hlooping, hquits⟩ | hleaving
  · have hle := hquits.toShut_le
    rw [hl]
    show s.thread.toFinished l.toShut ≤ _
    cases s.thread <;> dsimp only [LoopThread.toFinished] <;> omega
  · cases hthread : s.thread <;> rw [hthread] at hleaving <;>
      first | (cases hleaving; done) | (dsimp only [LoopThread.toFinished]; omega)

/-- One handler, or the end of `run`. -/
theorem toFinished_poll {l : ThreadLoop} (hthread : s.thread = .polling) (hl : s.loop = some l)
    (hquits : l.Quits s.owed s.taken) (hs : s.poll l = .ok s') :
    s'.toFinished ≤ s.toFinished - 1 := by
  have hrank : s.toFinished = l.toShut + 3 := by
    rw [toFinished, hthread, hl]
    rfl
  -- stopped, or a handler of the queue: each lowers the rank
  rw [poll] at hs
  by_cases hstopped : l.stopped = true
  · rw [if_pos hstopped] at hs
    obtain rfl := Except.ok.inj hs
    show 2 ≤ _
    omega
  · rw [if_neg hstopped] at hs
    replace hstopped : l.stopped = false := Bool.not_eq_true _ ▸ hstopped
    cases hqueue : l.queue with
    | nil => exact absurd hqueue (hquits.queue_ne_nil hstopped)
    | cons task queue =>
      rw [hqueue] at hs
      cases task with
      | task n =>
        have hshut := ThreadLoop.toShut_task hstopped hqueue
        obtain rfl := Except.ok.inj hs
        show ({ l with queue } : ThreadLoop).toShut + 4 ≤ _
        omega
      | quitInThisThread =>
        have hshut := ThreadLoop.toShut_quit hstopped hqueue
        obtain ⟨-, -, hs⟩ := bind_ok hs
        obtain rfl := Except.ok.inj hs
        show s.thread.toFinished 0 ≤ _
        rw [hthread]
        show 3 ≤ _
        omega

/-- Each of its steps makes that way one shorter. -/
theorem toFinished_stepThread (h : s.Inv) (hjoin : s.thread_.join_ = true)
    (hs : s.stepThread = .ok s') : s'.toFinished ≤ s.toFinished - 1 := by
  -- the thread is in the loop, or behind it
  rcases h.leaves hjoin with ⟨l, hl, hlooping, hquits⟩ | hleaving
  · rw [stepThread] at hs
    cases hthread : s.thread with
    | stored =>
      rw [hthread] at hs
      dsimp only at hs
      obtain ⟨l', -, hs⟩ := bind_ok hs
      obtain ⟨-, -, hs⟩ := bind_ok hs
      obtain rfl := Except.ok.inj hs
      rw [toFinished, toFinished, hthread]
      exact Nat.le_refl _
    | polling =>
      rw [hthread, deref, hl] at hs
      exact toFinished_poll hthread hl hquits hs
    | running n =>
      rw [hthread] at hs
      obtain rfl := Except.ok.inj hs
      rw [toFinished, toFinished, hthread]
      exact Nat.le_refl _
    | notCreated => rw [hthread] at hlooping; cases hlooping
    | created => rw [hthread] at hlooping; cases hlooping
    | tidStored => rw [hthread] at hlooping; cases hlooping
    | counted => rw [hthread] at hlooping; cases hlooping
    | constructed => rw [hthread] at hlooping; cases hlooping
    | left => rw [hthread] at hlooping; cases hlooping
    | cleared => rw [hthread] at hlooping; cases hlooping
    | finished => rw [hthread] at hlooping; cases hlooping
  · exact (stepThread_next hs).1.toFinished hleaving _ _

/-- A thread that is joined was started. -/
theorem Inv.started_of_join (h : s.Inv) (hjoin : s.thread_.join_ = true) :
    s.thread_.started_ = true := by
  rw [← Bool.not_eq_false]
  intro hnot
  have hnew := h.launch.created.mpr hnot
  rcases h.leaves hjoin with ⟨l, -, hlooping, -⟩ | hleaving
  · exact LoopThread.ne_notCreated_of_enters (LoopThread.enters_of_looping hlooping) hnew
  · exact LoopThread.ne_notCreated_of_enters (LoopThread.enters_of_leaving hleaving) hnew

/-- The first rank of `stop`: the created thread finishes. -/
theorem toFinished_step {e : Event} (h : s.Inv ∧ s.thread_.join_ = true) (hC : s.Contract e)
    (hs : s.step e = .ok s') :
    (s'.Inv ∧ s'.thread_.join_ = true) ∧ s'.toFinished ≤ s.toFinished ∧
      ((e == .thread) = true → s'.toFinished ≤ s.toFinished - 1) := by
  have hinv := step_inv h.1 hC hs
  have hrun := h.1.started_of_join h.2
  by_cases he : e = .thread
  · rw [he] at hs
    have hle := toFinished_stepThread h.1 h.2 hs
    exact ⟨⟨hinv, (stepThread_next hs).2.2 ▸ h.2⟩, by omega, fun _ => hle⟩
  · obtain ⟨hthread, hrest, -⟩ := step_thread hC hrun hs he
    obtain ⟨hthread_, hloop⟩ := hrest h.2
    refine ⟨⟨hinv, hthread_ ▸ h.2⟩, Nat.le_of_eq ?_, fun heq => absurd (beq_iff_eq.mp heq) he⟩
    rcases hloop with hloop | ⟨l, n, hl, hl'⟩
    · rw [toFinished, toFinished, hthread, hloop]
    · rw [toFinished, toFinished, hthread, hl, hl']
      rcases h.1.leaves h.2 with ⟨l', hl'', -, hquits⟩ | hleaving
      · obtain rfl := Option.some.inj (hl.symm.trans hl'')
        exact congrArg (fun shut => s.thread.toFinished shut) (hquits.toShut_post n)
      · cases hat : s.thread <;> rw [hat] at hleaving <;> first | rfl | cases hleaving

/-- **Along a run that way only gets shorter.** Posts cannot make it longer, as they lie behind
    the end of the loop. -/
theorem toFinished_run {es : List Event} (h : s.Inv ∧ s.thread_.join_ = true)
    (hguard : Guarded step Contract s es) (hs : run step s es = .ok s') :
    (s'.Inv ∧ s'.thread_.join_ = true) ∧
      s'.toFinished ≤ s.toFinished - es.countP (· == .thread) :=
  run_ranks (fun _ _ _ h hC hs => toFinished_step h hC hs) es s s' h hguard hs

/-- With nothing left of it the thread has finished. -/
theorem Inv.finished (h : s.Inv) (hjoin : s.thread_.join_ = true) (hzero : s.toFinished = 0) :
    s.thread = .finished := by
  rw [toFinished] at hzero
  rcases h.leaves hjoin with ⟨l, -, hlooping, -⟩ | hleaving
  · cases hthread : s.thread <;> rw [hthread] at hlooping hzero <;>
      first | (cases hlooping; done) | cases hzero
  · cases hthread : s.thread <;> rw [hthread] at hleaving hzero <;>
      first | rfl | (cases hleaving; done) | cases hzero

/-- Then the next step of the owner ends the join. -/
theorem toJoined_stepOwner (h : s.Inv) (hjoin : s.thread_.join_ = true)
    (hfinished : s.thread = .finished) (hs : s.stepOwner = .ok s') : s'.owner.toJoined = 0 := by
  rw [stepOwner] at hs
  rcases h.joins hjoin with howner | howner | ⟨d, howner⟩
  · rw [howner] at hs
    obtain rfl := Except.ok.inj hs
    rw [howner]
    rfl
  · rw [howner] at hs
    obtain rfl := Except.ok.inj hs
    rw [howner]
    rfl
  · rw [howner] at hs
    obtain rfl := Except.ok.inj hs
    rw [if_pos hfinished, stopped]
    cases d <;> rfl

/-- The second rank of `stop`: the owner returns from `thread_.join()`. -/
theorem toJoined_step {e : Event} (h : (s.Inv ∧ s.thread_.join_ = true) ∧ s.toFinished = 0)
    (hC : s.Contract e) (hs : s.step e = .ok s') :
    ((s'.Inv ∧ s'.thread_.join_ = true) ∧ s'.toFinished = 0) ∧
      s'.owner.toJoined ≤ s.owner.toJoined ∧
      ((e == .owner) = true → s'.owner.toJoined ≤ s.owner.toJoined - 1) := by
  obtain ⟨hinv, hle, -⟩ := toFinished_step h.1 hC hs
  have hfinished := h.1.1.finished h.1.2 h.2
  have howner : e = .owner → s'.owner.toJoined = 0 := by
    rintro rfl
    exact toJoined_stepOwner h.1.1 h.1.2 hfinished hs
  -- a step of the owner returns from `join`, as the thread has finished; the others change
  -- nothing
  refine ⟨⟨hinv, Nat.le_zero.mp (h.2 ▸ hle)⟩, ?_, fun heq => ?_⟩
  · cases e with
    | start id => cases (h.1.1.started_of_join h.1.2).symm.trans hC
    | owner => exact howner rfl ▸ Nat.zero_le _
    | thread => exact Nat.le_of_eq (congrArg Owner.toJoined (stepThread_next hs).2.1)
    | stop =>
      obtain rfl := Except.ok.inj hs
      split
      · rw [(s.stop_frame false).2.2.2.2]
        exact Nat.zero_le _
      · exact Nat.le_refl _
    | destroy =>
      obtain rfl := Except.ok.inj hs
      split
      · rw [s.destroy_frame.2.2.2.2]
        exact Nat.zero_le _
      · exact Nat.le_refl _
    | spuriousLatch =>
      obtain rfl := Except.ok.inj hs
      exact Nat.le_refl _
    | spurious =>
      obtain rfl := Except.ok.inj hs
      exact Nat.le_refl _
    | post isInLoopThread n =>
      exact Nat.le_of_eq (congrArg Owner.toJoined (post_frame hs).2.1)
    | quit isInLoopThread => exact absurd hC id
  · rw [howner (beq_iff_eq.mp heq)]
    exact Nat.zero_le _

/-- **So `stop` returns.** -/
theorem toJoined_run {es : List Event} (h : (s.Inv ∧ s.thread_.join_ = true) ∧ s.toFinished = 0)
    (hguard : Guarded step Contract s es) (hs : run step s es = .ok s') :
    ((s'.Inv ∧ s'.thread_.join_ = true) ∧ s'.toFinished = 0) ∧
      s'.owner.toJoined ≤ s.owner.toJoined - es.countP (· == .owner) :=
  run_ranks (fun _ _ _ h hC hs => toJoined_step h hC hs) es s s' h hguard hs

/-- `stop` returns: the handlers that are owed, with a start and an end each, the end of the created
    thread, and a step of the owner. -/
theorem stop_ends {es₁ es₂ : List Event} (h : s.Inv) {d : Bool} (hat : s.owner = .joining d)
    (hguard : Guarded step Contract s (es₁ ++ es₂))
    (h₁ : 2 * (s.owed.length - s.taken.length) + 5 ≤ es₁.countP (· == .thread))
    (h₂ : 1 ≤ es₂.countP (· == .owner)) (hs : run step s (es₁ ++ es₂) = .ok s') :
    (s'.owner = .idle ∨ s'.owner = .destroyed) ∧ s'.thread = .finished := by
  have hjoin : s.thread_.join_ = true := by
    have hplaces := h.places
    rw [Places, hat] at hplaces
    rw [hplaces.2]
  rw [run_append] at hs
  obtain ⟨s₁, hs₁, hs₂⟩ := bind_ok hs
  obtain ⟨hinv, hfinished⟩ := toFinished_run ⟨h, hjoin⟩ hguard.of_append hs₁
  have hbound := toFinished_le h hjoin
  obtain ⟨hend, hjoined⟩ := toJoined_run ⟨hinv, by omega⟩ (hguard.of_run hs₁) hs₂
  refine ⟨?_, hend.1.1.finished hend.1.2 hend.2⟩
  rcases hend.1.1.joins hend.1.2 with howner | howner | ⟨d', howner⟩
  · exact Or.inl howner
  · exact Or.inr howner
  · have hone : s₁.owner.toJoined ≤ 1 := by
      cases s₁.owner <;> first | exact Nat.le_refl 1 | exact Nat.zero_le 1
    rw [howner] at hjoined
    replace hjoined : 1 ≤ s₁.owner.toJoined - es₂.countP (· == .owner) := hjoined
    omega

/-- **`start` and `stop` return**: from whatever state a run has reached, and whatever else
    happens in between, `start` has returned when the created thread has taken four steps and the
    owner two more; and `stop`, once it has called `quit`, when the created thread has taken two
    steps for each handler still owed and five more, and the owner one.  Then the created thread
    has finished. -/
theorem start_stop_return (es : List Event) {es₁ es₂ : List Event} {s : IOLoopThread}
    (h : Guarded step Contract new (es ++ (es₁ ++ es₂))) (hs : run step new es = .ok s) :
    (s.owner.starting = true → 4 ≤ es₁.countP (· == .thread) → 2 ≤ es₂.countP (· == .owner) →
      Holds (fun s' => s'.owner.starting = false) (fun _ => False) (run step s (es₁ ++ es₂))) ∧
    (∀ d, s.owner = .joining d →
      2 * (s.owed.length - s.taken.length) + 5 ≤ es₁.countP (· == .thread) →
      1 ≤ es₂.countP (· == .owner) →
      Holds (fun s' => (s'.owner = .idle ∨ s'.owner = .destroyed) ∧ s'.thread = .finished)
        (fun _ => False) (run step s (es₁ ++ es₂))) := by
  have hinv : s.Inv := by
    have hrun := run_inv h.of_append
    rw [hs] at hrun
    exact holds_ok.mp hrun
  have hguard := h.of_run hs
  have hnext := run_holds (fun _ e hs hC => Inv.step hs e hC) (es₁ ++ es₂) s hinv hguard
  cases hrun : run step s (es₁ ++ es₂) with
  | error f =>
    rw [hrun] at hnext
    exact (holds_error.mp hnext).elim
  | ok s' =>
    exact ⟨fun hat h₁ h₂ => .ok (start_ends hinv hat hguard h₁ h₂ hrun),
      fun d hat h₁ h₂ => .ok (stop_ends hinv hat hguard h₁ h₂ hrun)⟩

/-- `start` has been called, and the owner sleeps in the latch. -/
def latched : List Event := [.start 7, .owner]

/-- Two handlers are owed, and `stop` has called `quit`. -/
def quitted : List Event :=
  [.start 7, .thread, .thread, .thread, .thread, .owner, .owner, .thread, .post false 1,
    .post false 2, .stop, .owner]

/-- The state that a run reaches. -/
def reached (es : List Event) : IOLoopThread := (run step new es).toOption.getD new

/-- The owner wakes up in the latch without having been notified; and the first handler posts a
    third, which is not run. -/
theorem start_stop_return_spurious :
    Holds (fun s' => s'.owner.starting = false) (fun _ => False)
        (run step (reached latched)
          ([.thread, .spuriousLatch, .owner, .thread, .thread, .thread] ++ [.owner, .owner])) ∧
      Holds (fun s' => (s'.owner = .idle ∨ s'.owner = .destroyed) ∧ s'.thread = .finished)
        (fun _ => False)
        (run step (reached quitted)
          ([.thread, .post true 3] ++ List.replicate 8 .thread ++ [.owner])) :=
  ⟨(start_stop_return latched (by decide +kernel) (by decide +kernel)).1
      (by decide +kernel) (by decide +kernel) (by decide +kernel),
    (start_stop_return quitted (by decide +kernel) (by decide +kernel)).2 false
      (by decide +kernel) (by decide +kernel) (by decide +kernel)⟩

end IOLoopThread

end IOEvent
