/-
  The life of an `IOLoopThread`.

  Most of the state is a function of where the created thread is (`Launch`): the members it has
  written, the latch, and whether the loop exists.  `Queue` is about the handlers: what has been
  posted is what has been taken and what is queued, and `quit` splits the queue into what still runs
  and what does not.  `Places` is what the owner can rely on at each place.

  `serves` assumes of the users of the class what they must know (`Contract`): `start` is called at
  most once, the pointer to the loop is used by other threads between `start` and `stop` only, and
  nobody but `stop` calls `quit`.

  The proof is one lemma for each place of the owner and of the created thread.  The loop is
  there whenever it is used: the created thread uses it between its construction and its end, a
  user between the return of `start` and the call of `stop` or inside a handler, and the owner
  in `quitLoop`, before it joins.
-/
import IOEvent.IOLoopThread

open Foundation

namespace IOEvent

/-! ## Where the created thread is

  Its places are in a row, and these tell which part of the row it has come to. -/

namespace LoopThread

/-- Before `latch_->countDown()`. -/
def latched : LoopThread → Bool
  | .notCreated => true
  | .created => true
  | .tidStored => true
  | _ => false

/-- Behind `*tid_ = CurrentThread::tid()`. -/
def identified : LoopThread → Bool
  | .notCreated => false
  | .created => false
  | _ => true

/-- `loop_` points to the loop. -/
def stores : LoopThread → Bool
  | .stored => true
  | .polling => true
  | .running _ => true
  | .left => true
  | _ => false

/-- The loop has been constructed. -/
def enters : LoopThread → Bool
  | .notCreated => false
  | .created => false
  | .tidStored => false
  | .counted => false
  | _ => true

/-- Behind `loop.loop()`. -/
def leaving : LoopThread → Bool
  | .left => true
  | .cleared => true
  | .finished => true
  | _ => false

variable {t : LoopThread}

/-- Where `loop_` points to the loop and its end is not behind, it is being run. -/
theorem looping_of_stores (h : t.stores = true) (hleaving : t.leaving = false) :
    t.looping = true := by
  cases t <;> first | rfl | (cases h; done) | cases hleaving

/-- While it is being run `loop_` points to it. -/
theorem stores_of_looping (h : t.looping = true) : t.stores = true := by
  cases t <;> first | rfl | cases h

/-- Behind the latch the thread has stored its number. -/
theorem identified_of_not_latched (h : t.latched = false) : t.identified = true := by
  cases t <;> first | rfl | cases h

/-- A loop that is run exists. -/
theorem enters_of_looping (h : t.looping = true) : t.enters = true := by
  cases t <;> first | rfl | cases h

/-- So did one that was run. -/
theorem enters_of_leaving (h : t.leaving = true) : t.enters = true := by
  cases t <;> first | rfl | cases h

/-- The loop is made behind the latch. -/
theorem not_latched_of_enters (h : t.enters = true) : t.latched = false := by
  cases t <;> first | rfl | cases h

/-- The loop is made by a thread that exists. -/
theorem ne_notCreated_of_enters (h : t.enters = true) : t ≠ .notCreated :=
  fun heq => by cases (heq ▸ h : notCreated.enters = true)

/-- A loop that is run has not ended. -/
theorem not_leaving_of_looping (h : t.looping = true) : t.leaving = false := by
  cases t <;> first | rfl | cases h

/-- One that has ended is not run. -/
theorem not_looping_of_leaving (h : t.leaving = true) : t.looping = false := by
  cases t <;> first | rfl | cases h

/-- Nor has its thread finished. -/
theorem not_finished_of_looping (h : t.looping = true) : t ≠ .finished :=
  fun heq => by cases (heq ▸ h : finished.looping = true)

end LoopThread

/-! ## The handlers

  The order of the queue, and what `quit` does to it: the handlers in front of
  `quitInThisThread` still run, those behind it do not. -/

namespace LoopTask

/-- The number of a handler that was posted from outside. -/
def number : LoopTask → Option Nat
  | .task n => some n
  | .quitInThisThread => none

/-- The handlers in a queue that are not the loop's own. -/
def numbers (queue : List LoopTask) : List Nat := queue.filterMap number

/-- An empty queue has none. -/
@[simp] theorem numbers_nil : numbers [] = [] := rfl

/-- A handler from outside counts. -/
@[simp] theorem numbers_task (n : Nat) (queue : List LoopTask) :
    numbers (.task n :: queue) = n :: numbers queue := rfl

/-- The loop's own does not. -/
@[simp] theorem numbers_quit (queue : List LoopTask) :
    numbers (.quitInThisThread :: queue) = numbers queue := rfl

/-- Queues are counted in parts. -/
@[simp] theorem numbers_append (a b : List LoopTask) :
    numbers (a ++ b) = numbers a ++ numbers b := List.filterMap_append

end LoopTask

namespace ThreadLoop

variable {l : ThreadLoop} {owed taken : List Nat} {n : Nat} {queue : List LoopTask}

/-- Nobody has called `quit`. `quitInThisThread` is not queued, so that nothing ends the loop. -/
structure Open (l : ThreadLoop) : Prop where
  work : l.work_ = true
  runs : l.stopped = false
  unasked : .quitInThisThread ∉ l.queue

/-- `quit` has been called, and the handlers that run before the loop ends are those of
    `owed`. Before it is run the queue is split by it; after it has run the loop has stopped,
    with the rest of the queue left. -/
inductive Quits (l : ThreadLoop) (owed taken : List Nat) : Prop
  | queued (ahead behind : List LoopTask) (hqueue : l.queue = ahead ++ .quitInThisThread :: behind)
      (hahead : .quitInThisThread ∉ ahead) (hruns : l.stopped = false)
      (howed : owed = taken ++ LoopTask.numbers ahead)
  | shut (hstopped : l.stopped = true) (howed : owed = taken)

/-- A new loop is open. -/
theorem open_new (tid : ThreadId) : (new tid).Open := ⟨rfl, rfl, List.not_mem_nil⟩

/-- A post leaves it open. -/
theorem Open.post (h : l.Open) (n : Nat) : (l.post (.task n)).Open :=
  ⟨h.work, h.runs, fun hmem => (List.mem_append.mp hmem).elim h.unasked
    fun hmem => by cases List.mem_singleton.mp hmem⟩

/-- So does running a handler. -/
theorem Open.take (h : l.Open) (hqueue : l.queue = .task n :: queue) :
    ({ l with queue } : ThreadLoop).Open :=
  ⟨h.work, h.runs, fun hmem => h.unasked (hqueue ▸ List.mem_cons_of_mem _ hmem)⟩

/-- What is queued when `quit` is called runs before the loop ends. -/
theorem Open.quit (h : l.Open) (taken : List Nat) :
    l.quit.Quits (taken ++ LoopTask.numbers l.queue) taken :=
  .queued l.queue [] rfl h.unasked h.runs rfl

/-- A handler posted behind `quit` is behind the one that ends the loop, so it is not among those
    that still run. -/
theorem Quits.post (h : l.Quits owed taken) (n : Nat) : (l.post (.task n)).Quits owed taken := by
  cases h with
  | queued ahead behind hqueue hahead hruns howed =>
    refine .queued ahead (behind ++ [.task n]) ?_ hahead hruns howed
    show l.queue ++ [.task n] = _
    rw [hqueue, List.append_assoc, List.cons_append]
  | shut hstopped howed => exact .shut hstopped howed

/-- A handler that is run goes from the queue to those taken; the sum is what was owed. -/
theorem Quits.take (h : l.Quits owed taken) (hruns : l.stopped = false)
    (hqueue : l.queue = .task n :: queue) :
    ({ l with queue } : ThreadLoop).Quits owed (taken ++ [n]) := by
  cases h with
  | shut hstopped howed => cases hruns.symm.trans hstopped
  | queued ahead behind hsplit hahead hruns howed =>
    rw [hqueue] at hsplit
    cases ahead with
    | nil => cases hsplit
    | cons task ahead =>
      obtain ⟨rfl, hrest⟩ := List.cons.inj hsplit
      refine .queued ahead behind hrest (fun hmem => hahead (List.mem_cons_of_mem _ hmem)) hruns ?_
      rw [howed, LoopTask.numbers_task, List.append_assoc, List.singleton_append]

/-- `quitInThisThread` runs when everything owed has. -/
theorem Quits.owed_eq (h : l.Quits owed taken) (hqueue : l.queue = .quitInThisThread :: queue) :
    owed = taken := by
  cases h with
  | shut hstopped howed => exact howed
  | queued ahead behind hsplit hahead hruns howed =>
    rw [hqueue] at hsplit
    cases ahead with
    | nil => rw [howed, LoopTask.numbers_nil, List.append_nil]
    | cons task ahead =>
      obtain ⟨rfl, -⟩ := List.cons.inj hsplit
      exact absurd List.mem_cons_self hahead

/-- While the loop has not stopped, its own handler is still in the queue. -/
theorem Quits.queue_ne_nil (h : l.Quits owed taken) (hruns : l.stopped = false) : l.queue ≠ [] := by
  cases h with
  | shut hstopped howed => cases hruns.symm.trans hstopped
  | queued ahead behind hsplit hahead hruns howed =>
    rw [hsplit]
    exact List.append_ne_nil_of_right_ne_nil _ (List.cons_ne_nil _ _)

end ThreadLoop

namespace IOLoopThread

variable {s : IOLoopThread}

/-! ## The invariant

  Four parts, so that a step that concerns one of them leaves the others as they are. -/

/-- What is determined by the place of the created thread. It is indexed by a place, so a step
    of the created thread moves from one set of values to the next. -/
structure Launch (s : IOLoopThread) : Prop where
  created : s.thread = .notCreated ↔ s.thread_.started_ = false
  self : s.thread_.started_ = true → s.self ≠ 0
  tid : s.thread.identified = true → s.tid_ = s.self
  count : s.latch_.count_ = if s.thread.latched = true then 1 else 0
  stores : s.loop_ = s.thread.stores
  alone : s.t_inThisThreadLoop = s.thread.enters
  alive : s.loop.isSome = (s.thread.enters && s.thread != .finished)
  owner : ∀ l, s.loop = some l → l.threadId_ = s.self

/-- Nobody sleeps through a notification. The owner may be asleep in the latch or at
    `condition_` only as long as what it waits for has not come. -/
structure Wakes (s : IOLoopThread) : Prop where
  latch : s.latch_.Rests
  loop : s.condition_.asleep = [] ∨
    s.condition_.asleep = [0] ∧ s.owner = .waiting ∧ s.loop_ = false

/-- The handlers. The history is compared with what is queued, as long as there is a queue. -/
structure Queue (s : IOLoopThread) : Prop where
  order : ∀ l, s.loop = some l → s.posted = s.taken ++ LoopTask.numbers l.queue
  taken : s.taken <+: s.posted
  fresh : s.thread.enters = false → s.posted = s.taken
  opened : s.thread_.join_ = false → s.thread.leaving = false ∧ ∀ l, s.loop = some l → l.Open
  quits : s.thread_.join_ = true →
    (s.thread.looping = true → ∀ l, s.loop = some l → l.Quits s.owed s.taken) ∧
    (s.thread.looping = false → s.thread.leaving = true ∧ s.owed = s.taken)

/-- The owner at its place. -/
def Places (s : IOLoopThread) : Prop :=
  match s.owner with
  | .idle =>
    if s.started_ = true then
      s.thread_ = ⟨true, false⟩ ∧ s.thread.looping = true
    else
      s.thread_ = ⟨false, false⟩ ∨ s.thread_ = ⟨true, true⟩ ∧ s.thread = .finished
  | .quitting _ => s.started_ = false ∧ s.thread_ = ⟨true, false⟩ ∧ s.thread.looping = true
  | .joining _ => s.started_ = false ∧ s.thread_ = ⟨true, true⟩
  | .destroyed => s.started_ = false ∧
      (s.thread_ = ⟨false, false⟩ ∨ s.thread_ = ⟨true, true⟩ ∧ s.thread = .finished)
  | _ => s.started_ = true ∧ s.thread_ = ⟨true, false⟩

/-- The invariant, in four parts: the members by where the created thread is, that nobody sleeps
    where it would not be woken, the handlers, and what the owner can rely on at its place. -/
structure Inv (s : IOLoopThread) : Prop where
  launch : s.Launch
  wakes : s.Wakes
  queue : s.Queue
  places : s.Places

/-- It holds of a new object. -/
theorem inv_new : new.Inv where
  launch := ⟨⟨fun _ => rfl, fun _ => rfl⟩, nofun, nofun, rfl, rfl, rfl, rfl, nofun⟩
  wakes := ⟨CountDownLatch.rests_new 1, Or.inl rfl⟩
  queue := ⟨nofun, List.prefix_rfl, fun _ => rfl, fun _ => ⟨rfl, nofun⟩, nofun⟩
  places := Or.inl rfl

/-- What the users of the class know. A handler of the loop may post at any time, as the loop
    is there while it runs. -/
def Contract (s : IOLoopThread) : Event → Prop
  | .start _ => s.thread_.started_ = false
  | .post isInLoopThread _ => isInLoopThread = false → s.started_ = true
  | .quit _ => False
  | _ => True

/-- Whether an event meets the contract can be computed. -/
instance (s : IOLoopThread) : ∀ e, Decidable (s.Contract e)
  | .start _ => inferInstanceAs (Decidable (_ = _))
  | .stop => .isTrue trivial
  | .destroy => .isTrue trivial
  | .owner => .isTrue trivial
  | .thread => .isTrue trivial
  | .spuriousLatch => .isTrue trivial
  | .spurious => .isTrue trivial
  | .post _ _ => inferInstanceAs (Decidable (_ → _))
  | .quit _ => .isFalse id

/-! ## The owner

  For each of its steps, what it finds at its place and where it goes. -/

/-- In `start` the object is started, and its thread has not been joined. -/
theorem places_starting (hat : s.owner.starting = true) (h : s.Places) :
    s.started_ = true ∧ s.thread_ = ⟨true, false⟩ := by
  rw [Places] at h
  cases howner : s.owner <;> rw [howner] at h hat <;> first | exact h | cases hat

/-- That is all that is asked for there. -/
theorem places_of_starting (hat : s.owner.starting = true)
    (h : s.started_ = true ∧ s.thread_ = ⟨true, false⟩) : s.Places := by
  rw [Places]
  cases howner : s.owner <;> rw [howner] at hat <;> first | exact h | cases hat

/-- The owner goes from one place in `start` to another. -/
theorem Inv.move (h : s.Inv) (hat : s.owner.starting = true) (hawake : s.owner ≠ .waiting)
    {o : Owner} (ho : o.starting = true) : ({ s with owner := o } : IOLoopThread).Inv where
  launch := { h.launch with }
  wakes := ⟨h.wakes.latch, Or.inl (h.wakes.loop.resolve_right fun hw => hawake hw.2.1)⟩
  queue := { h.queue with }
  places := places_of_starting ho (places_starting (s := s) hat h.places)

/-- **`start` keeps it**, when it is the first. -/
theorem Inv.start (h : s.Inv) (hfirst : s.thread_.started_ = false) (id : ThreadId) :
    Holds Inv (fun _ => False) (s.start id) := by
  -- the call counts only from `idle`, with a thread id the system gives out
  rw [IOLoopThread.start]
  by_cases hcall : s.owner = .idle ∧ id ≠ 0
  · have hplaces := h.places
    rw [Places, hcall.1] at hplaces
    dsimp only at hplaces
    have hthread := h.launch.created.mpr hfirst
    have hloop := h.launch.alive
    rw [hthread] at hloop
    replace hloop : s.loop = none := Option.isSome_eq_false_iff.mp hloop |>
      Option.isNone_iff_eq_none.mp
    -- by `hfirst` the object has not been started, so both assertions of the two classes hold
    by_cases hstarted : s.started_ = true
    · rw [if_pos hstarted] at hplaces
      rw [hplaces.1] at hfirst
      cases hfirst
    · rw [if_neg hstarted] at hplaces
      have hnew : s.thread_ = ⟨false, false⟩ := by
        rcases hplaces with hnew | hdone
        · exact hnew
        · rw [hdone.1] at hfirst
          cases hfirst
      rw [if_pos hcall, require_pos _ _ (Bool.not_eq_true _ ▸ hstarted), ok_bind,
        require_pos _ _ hfirst, ok_bind, startThread, require_pos _ _ hfirst, ok_bind]
      have hcount := h.launch.count
      have hstores := h.launch.stores
      have halone := h.launch.alone
      rw [hthread] at hcount hstores halone
      -- the new thread is created, and has done nothing
      refine .ok ⟨⟨?_, fun _ => hcall.2, nofun, hcount, hstores, halone, ?_, ?_⟩, ?_, ?_, ?_⟩
      · simp [hnew, Thread.start]
      · show s.loop.isSome = _
        rw [hloop]
        rfl
      · intro l hl
        cases hloop.symm.trans hl
      · refine ⟨h.wakes.latch, Or.inl (h.wakes.loop.resolve_right fun hw => ?_)⟩
        cases hcall.1.symm.trans hw.2.1
      · refine ⟨h.queue.order, h.queue.taken, fun _ => h.queue.fresh (by rw [hthread]; rfl),
          fun _ => ⟨rfl, fun l hl => ?_⟩, fun hjoin => ?_⟩
        · cases hloop.symm.trans hl
        · replace hjoin : s.thread_.join_ = true := hjoin
          rw [hnew] at hjoin
          cases hjoin
      · exact ⟨rfl, by show s.thread_.start = _; rw [hnew]; rfl⟩
  · rw [if_neg hcall]
    exact .ok h

/-- What the thread has announced once the latch is open. -/
theorem Launch.announced (h : s.Launch) (hstarted : s.thread_.started_ = true)
    (hopen : s.latch_.count_ ≤ 0) : s.tid_ ≠ 0 := by
  have hlatched : s.thread.latched = false := by
    refine Bool.eq_false_iff.mpr fun hlatched => ?_
    have hcount := h.count
    rw [if_pos hlatched] at hcount
    omega
  rw [h.tid (LoopThread.identified_of_not_latched hlatched)]
  exact h.self hstarted

/-- Waiting for the latch keeps it: the owner sleeps only where the count is still to come down. -/
theorem Inv.latchWait (h : s.Inv) (hat : s.owner = .latching ∨ s.owner = .latchWaiting) :
    Holds Inv (fun _ => False) s.latchWait := by
  have hstarting : s.owner.starting = true := by rcases hat with hat | hat <;> rw [hat] <;> rfl
  have hawake : s.owner ≠ .waiting := by rcases hat with hat | hat <;> rw [hat] <;> nofun
  have hthread := (places_starting hstarting h.places).2
  rw [IOLoopThread.latchWait]
  rcases Int.lt_or_le 0 s.latch_.count_ with hshut | hopen
  · rw [CountDownLatch.wait_shut hshut]
    have hmove := h.move hstarting hawake (o := .latchWaiting) rfl
    exact .ok { hmove with
      launch := { hmove.launch with }
      wakes := ⟨fun hle => absurd hshut (Int.not_lt.mpr hle), hmove.wakes.loop⟩
      queue := { hmove.queue with } }
  · have htid := h.launch.announced (by rw [hthread]) hopen
    rw [CountDownLatch.wait_open hopen]
    dsimp only
    rw [if_pos rfl, require_pos _ _ htid, ok_bind]
    exact .ok (h.move hstarting hawake rfl)

/-- `start` returns when it finds `loop_`, and goes to sleep when it does not. -/
theorem Inv.loopWait (h : s.Inv) (hat : s.owner.starting = true)
    (hasleep : s.condition_.asleep = []) : s.loopWait.Inv := by
  have hplaces := places_starting hat h.places
  rw [IOLoopThread.loopWait]
  by_cases hloop : s.loop_ = true
  · rw [if_pos hloop]
    have hstores := h.launch.stores.symm.trans hloop
    have hopen := (h.queue.opened (by rw [hplaces.2])).1
    refine ⟨{ h.launch with }, ⟨h.wakes.latch, Or.inl hasleep⟩, { h.queue with }, ?_⟩
    rw [Places]
    dsimp only
    rw [if_pos hplaces.1]
    exact ⟨hplaces.2, LoopThread.looping_of_stores hstores hopen⟩
  · rw [if_neg hloop]
    refine ⟨{ h.launch with }, ⟨h.wakes.latch, Or.inr ⟨?_, rfl, Bool.not_eq_true _ ▸ hloop⟩⟩,
      { h.queue with }, hplaces⟩
    show s.condition_.asleep ++ [0] = [0]
    rw [hasleep]
    rfl

/-- A call of `stop` between the other calls of the owner. -/
theorem Inv.stop (h : s.Inv) (hidle : s.owner = .idle) (destroying : Bool) :
    (s.stop destroying).Inv := by
  have hplaces := h.places
  have hasleep := h.wakes.loop.resolve_right fun hw => by cases hidle.symm.trans hw.2.1
  rw [Places, hidle] at hplaces
  dsimp only at hplaces
  rw [IOLoopThread.stop]
  by_cases hstarted : s.started_ = true
  · rw [if_pos hstarted] at hplaces
    have hloop : s.loop_ = true := h.launch.stores.trans (LoopThread.stores_of_looping hplaces.2)
    rw [if_pos hloop]
    exact ⟨{ h.launch with }, ⟨h.wakes.latch, Or.inl hasleep⟩, { h.queue with }, rfl, hplaces⟩
  · rw [if_neg hstarted] at hplaces
    have hloop : ¬ s.loop_ = true := by
      rw [h.launch.stores]
      rcases hplaces with hnew | hdone
      · rw [h.launch.created.mpr (by rw [hnew])]
        exact Bool.false_ne_true
      · rw [hdone.2]
        exact Bool.false_ne_true
    rw [if_neg hloop, stopped]
    refine ⟨{ h.launch with }, ⟨h.wakes.latch, Or.inl hasleep⟩, { h.queue with }, ?_⟩
    cases destroying with
    | false => exact hplaces
    | true => exact ⟨rfl, hplaces⟩

/-- The destructor keeps it. -/
theorem Inv.destroy (h : s.Inv) (hidle : s.owner = .idle) : s.destroy.Inv := by
  rw [IOLoopThread.destroy]
  by_cases hstarted : s.started_ = true
  · rw [if_pos hstarted]
    exact h.stop hidle true
  · rw [if_neg hstarted]
    have hplaces := h.places
    rw [Places, hidle] at hplaces
    dsimp only at hplaces
    rw [if_neg hstarted] at hplaces
    refine ⟨{ h.launch with }, ⟨h.wakes.latch, Or.inl ?_⟩, { h.queue with },
      Bool.not_eq_true _ ▸ hstarted, hplaces⟩
    exact h.wakes.loop.resolve_right fun hw => by cases hidle.symm.trans hw.2.1

/-- The loop exists while the thread is in it. -/
theorem Launch.loop_of_looping (h : s.Launch) (hlooping : s.thread.looping = true) :
    ∃ l, s.loop = some l := by
  refine Option.isSome_iff_exists.mp ?_
  rw [h.alive, LoopThread.enters_of_looping hlooping, Bool.true_and, bne_iff_ne]
  exact LoopThread.not_finished_of_looping hlooping

/-- **`quit` splits the queue** into what still runs and what does not, and `join` follows at
    once. -/
theorem Inv.quitLoop (h : s.Inv) {destroying : Bool} (hat : s.owner = .quitting destroying) :
    Holds Inv (fun _ => False) (s.quitLoop destroying) := by
  -- in this state the loop runs, so `loop_` is not dangling
  have hplaces := h.places
  rw [Places, hat] at hplaces
  obtain ⟨hstarted, hthread, hlooping⟩ := hplaces
  obtain ⟨l, hl⟩ := h.launch.loop_of_looping hlooping
  have hjoin : s.thread_.join_ = false := by rw [hthread]
  have hrun : s.thread_.started_ = true := by rw [hthread]
  rw [IOLoopThread.quitLoop, deref, hl]
  dsimp only
  rw [ok_bind, join, require_pos _ _ hrun, ok_bind, require_pos _ _ hjoin, ok_bind]
  have horder := h.queue.order l hl
  -- `quitInThisThread` is posted behind all the tasks
  refine .ok ⟨{ h.launch with alive := ?_, owner := ?_ }, ⟨h.wakes.latch, Or.inl ?_⟩,
    ⟨?_, h.queue.taken, h.queue.fresh, nofun, fun _ => ⟨fun _ l' hl' => ?_, fun hnot => ?_⟩⟩,
    hstarted, ?_⟩
  · have halive := h.launch.alive
    rw [hl] at halive
    exact halive
  · intro l' hl'
    obtain rfl := Option.some.inj hl'
    exact h.launch.owner l hl
  · exact h.wakes.loop.resolve_right fun hw => by cases hat.symm.trans hw.2.1
  · intro l' hl'
    obtain rfl := Option.some.inj hl'
    show s.posted = s.taken ++ LoopTask.numbers (l.queue ++ [.quitInThisThread])
    rw [LoopTask.numbers_append, LoopTask.numbers_quit, LoopTask.numbers_nil, List.append_nil]
    exact horder
  · obtain rfl := Option.some.inj hl'
    show l.quit.Quits s.posted s.taken
    rw [horder]
    exact ((h.queue.opened hjoin).2 l hl).quit s.taken
  · cases hlooping.symm.trans hnot
  · show s.thread_.join = _
    rw [hthread]
    rfl

/-- **Every step of the owner keeps it**, and fails nowhere. -/
theorem Inv.stepOwner (h : s.Inv) : Holds Inv (fun _ => False) s.stepOwner := by
  rw [IOLoopThread.stepOwner]
  cases howner : s.owner with
  | idle => exact .ok h
  | destroyed => exact .ok h
  -- the latch, then the condition variable: an owner that is notified goes on
  | latching => exact h.latchWait (Or.inl howner)
  | latchWaiting =>
    dsimp only
    split
    · exact .ok h
    · refine Inv.latchWait ?_ (Or.inr howner)
      exact { h with
        launch := { h.launch with }
        wakes := ⟨h.wakes.latch.resume 0, h.wakes.loop⟩
        queue := { h.queue with } }
  | locking =>
    refine .ok (h.loopWait (by rw [howner]; rfl) ?_)
    exact h.wakes.loop.resolve_right fun hw => by cases howner.symm.trans hw.2.1
  | waiting =>
    dsimp only
    split
    · exact .ok h
    · next hawake =>
      have hasleep : s.condition_.asleep = [] :=
        h.wakes.loop.resolve_right fun hw => hawake (by rw [hw.1]; exact List.mem_cons_self)
      refine .ok (Inv.loopWait ?_ (congrArg Owner.starting howner) hasleep)
      exact { h with
        launch := { h.launch with }
        wakes := ⟨h.wakes.latch, Or.inl hasleep⟩
        queue := { h.queue with } }
  | quitting destroying => exact h.quitLoop howner
  -- `join` waits for the thread to finish
  | joining destroying =>
    dsimp only
    split
    · next hfinished =>
      have hplaces := h.places
      rw [Places, howner] at hplaces
      obtain ⟨hstarted, hthread⟩ := hplaces
      refine .ok ⟨{ h.launch with }, ⟨h.wakes.latch, Or.inl ?_⟩, { h.queue with }, ?_⟩
      · exact h.wakes.loop.resolve_right fun hw => by cases howner.symm.trans hw.2.1
      · rw [Places, stopped]
        cases destroying with
        | false =>
          dsimp only
          rw [if_neg Bool.false_ne_true]
          dsimp only
          rw [if_neg (by rw [hstarted]; decide)]
          exact Or.inr ⟨hthread, hfinished⟩
        | true => exact ⟨hstarted, Or.inr ⟨hthread, hfinished⟩⟩
    · exact .ok h

/-! ## The created thread

  For each of its steps, in the order of `threadFunc`. -/

/-- The owner stays in `start` until the created thread has stored `loop_`. -/
theorem Inv.entering (h : s.Inv) (hnew : s.thread ≠ .notCreated)
    (hlooping : s.thread.looping = false) (hleaving : s.thread.leaving = false) :
    s.owner.starting = true := by
  have hstarted : s.thread_ ≠ ⟨false, false⟩ := fun heq =>
    hnew (h.launch.created.mpr (by rw [heq]))
  have hfinished : ¬ (s.thread_ = ⟨true, true⟩ ∧ s.thread = .finished) := by
    rintro ⟨-, heq⟩
    rw [heq] at hleaving
    cases hleaving
  have hplaces := h.places
  rw [Places] at hplaces
  -- by cases of what the owner does; `start` is the only call it can be in
  cases howner : s.owner with
  | idle =>
    rw [howner] at hplaces
    dsimp only at hplaces
    split at hplaces
    · cases hlooping.symm.trans hplaces.2
    · exact (hplaces.elim hstarted hfinished).elim
  | quitting d =>
    rw [howner] at hplaces
    cases hlooping.symm.trans hplaces.2.2
  | joining d =>
    rw [howner] at hplaces
    have hleft := ((h.queue.quits (by rw [hplaces.2])).2 hlooping).1
    cases hleaving.symm.trans hleft
  | destroyed =>
    rw [howner] at hplaces
    exact (hplaces.2.elim hstarted hfinished).elim
  | latching => rfl
  | latchWaiting => rfl
  | locking => rfl
  | waiting => rfl

/-- In `start` the object is there. -/
theorem not_destroyed_of_starting (hat : s.owner.starting = true) : s.owner ≠ .destroyed := by
  intro heq
  rw [heq] at hat
  cases hat

/-- Before its construction there is no loop. -/
theorem Launch.loop_none (h : s.Launch) (henters : s.thread.enters = false) : s.loop = none := by
  have halive := h.alive
  rw [henters, Bool.false_and] at halive
  exact Option.isNone_iff_eq_none.mp (Option.isSome_eq_false_iff.mp halive)

/-- What `Queue` says before the loop has been constructed. -/
theorem Queue.of_loop_none {s' : IOLoopThread} (h : s.Queue) (henters : s.thread.enters = false)
    (hloop : s'.loop = none) (hjoin : s'.thread_.join_ = false)
    (hleaving : s'.thread.leaving = false) (hposted : s'.posted = s.posted)
    (htaken : s'.taken = s.taken) : s'.Queue where
  order := fun _ hl => by cases hloop.symm.trans hl
  taken := by
    rw [hposted, htaken]
    exact h.taken
  fresh := by
    rw [hposted, htaken]
    exact fun _ => h.fresh henters
  opened := fun _ => ⟨hleaving, fun _ hl => by cases hloop.symm.trans hl⟩
  quits := fun h => by cases hjoin.symm.trans h

/-- The created thread stores its number. -/
theorem Inv.created (h : s.Inv) (hthread : s.thread = .created) :
    Holds Inv (fun _ => False) s.stepThread := by
  have hat := h.entering (by rw [hthread]; nofun) (by rw [hthread]; rfl) (by rw [hthread]; rfl)
  have hplaces := places_starting hat h.places
  have hloop := h.launch.loop_none (by rw [hthread]; rfl)
  obtain ⟨-, hself, -, hcount, hstores, halone, -, -⟩ := h.launch
  rw [hthread] at hcount hstores halone
  rw [stepThread, hthread]
  dsimp only
  rw [member, require_pos _ _ (not_destroyed_of_starting hat), ok_bind]
  refine .ok ⟨⟨?_, hself, fun _ => rfl, hcount, hstores, halone, ?_, ?_⟩, { h.wakes with }, ?_, ?_⟩
  · simp [hplaces.2]
  · exact congrArg Option.isSome hloop
  · exact fun l hl => by cases hloop.symm.trans hl
  · exact h.queue.of_loop_none (by rw [hthread]; rfl) hloop (by rw [hplaces.2]) rfl rfl rfl
  · exact places_of_starting hat hplaces

/-- The latch is counted down once, and everybody who waits for it is woken. -/
theorem Inv.tidStored (h : s.Inv) (hthread : s.thread = .tidStored) :
    Holds Inv (fun _ => False) s.stepThread := by
  have hat := h.entering (by rw [hthread]; nofun) (by rw [hthread]; rfl) (by rw [hthread]; rfl)
  have hplaces := places_starting hat h.places
  have hloop := h.launch.loop_none (by rw [hthread]; rfl)
  obtain ⟨-, hself, htid, hcount, hstores, halone, -, -⟩ := h.launch
  rw [hthread] at htid hcount hstores halone
  replace hcount : s.latch_.count_ = 1 := hcount
  have hdown := h.wakes.latch.countDown
  rw [stepThread, hthread]
  dsimp only
  rw [member, require_pos _ _ (not_destroyed_of_starting hat), ok_bind]
  cases hlatch : s.latch_.countDown with
  | error f =>
    rw [hlatch, holds_error] at hdown
    omega
  | ok l =>
    rw [hlatch, holds_ok] at hdown
    refine .ok ⟨⟨?_, hself, htid, ?_, hstores, halone, ?_, ?_⟩, ⟨hdown.1, h.wakes.loop⟩, ?_, ?_⟩
    · simp [hplaces.2]
    · show l.count_ = 0
      omega
    · exact congrArg Option.isSome hloop
    · exact fun l hl => by cases hloop.symm.trans hl
    · exact h.queue.of_loop_none (by rw [hthread]; rfl) hloop (by rw [hplaces.2]) rfl rfl rfl
    · exact places_of_starting hat hplaces

/-- It constructs the loop. -/
theorem Inv.counted (h : s.Inv) (hthread : s.thread = .counted) :
    Holds Inv (fun _ => False) s.stepThread := by
  have hat := h.entering (by rw [hthread]; nofun) (by rw [hthread]; rfl) (by rw [hthread]; rfl)
  have hplaces := places_starting hat h.places
  have hfresh := h.queue.fresh (by rw [hthread]; rfl)
  obtain ⟨-, hself, htid, hcount, hstores, halone, -, -⟩ := h.launch
  rw [hthread] at htid hcount hstores halone
  replace halone : s.t_inThisThreadLoop = false := halone
  rw [stepThread, hthread]
  dsimp only
  rw [require_pos _ _ halone, ok_bind]
  refine .ok ⟨⟨?_, hself, htid, hcount, hstores, rfl, rfl, ?_⟩, { h.wakes with },
    ⟨fun l hl => ?_, h.queue.taken, nofun, fun _ => ⟨rfl, fun l hl => ?_⟩, fun hjoin => ?_⟩, ?_⟩
  · simp [hplaces.2]
  · intro l hl
    obtain rfl := Option.some.inj hl
    rfl
  · obtain rfl := Option.some.inj hl
    exact hfresh.trans (List.append_nil _).symm
  · obtain rfl := Option.some.inj hl
    exact ThreadLoop.open_new s.self
  · replace hjoin : s.thread_.join_ = true := hjoin
    rw [hplaces.2] at hjoin
    cases hjoin
  · exact places_of_starting hat hplaces

/-- The owner, if it sleeps, is woken. -/
theorem Inv.constructed (h : s.Inv) (hthread : s.thread = .constructed) :
    Holds Inv (fun _ => False) s.stepThread := by
  have hat := h.entering (by rw [hthread]; nofun) (by rw [hthread]; rfl) (by rw [hthread]; rfl)
  have hplaces := places_starting hat h.places
  have hopen := h.queue.opened (by rw [hplaces.2])
  obtain ⟨-, hself, htid, hcount, -, halone, halive, howner⟩ := h.launch
  rw [hthread] at htid hcount halone halive
  rw [stepThread, hthread]
  dsimp only
  rw [member, require_pos _ _ (not_destroyed_of_starting hat), ok_bind]
  refine .ok ⟨⟨?_, hself, htid, hcount, rfl, halone, halive, howner⟩,
    ⟨h.wakes.latch, Or.inl ?_⟩,
    ⟨h.queue.order, h.queue.taken, nofun, fun _ => ⟨rfl, hopen.2⟩, fun hjoin => ?_⟩, ?_⟩
  · simp [hplaces.2]
  · show (s.condition_.notifyOne 0).asleep = []
    rw [CondVar.notifyOne]
    rcases h.wakes.loop with hnone | ⟨hone, -, -⟩
    · rw [hnone]
      exact hnone
    · rw [hone]
      rfl
  · replace hjoin : s.thread_.join_ = true := hjoin
    rw [hplaces.2] at hjoin
    cases hjoin
  · exact places_of_starting hat hplaces

/-- While the loop is run the owner's place asks for nothing that the created thread changes. -/
theorem Places.looping (h : s.Places) (hlooping : s.thread.looping = true) {s' : IOLoopThread}
    (howner : s'.owner = s.owner) (hstarted : s'.started_ = s.started_)
    (hthread : s'.thread_ = s.thread_) (hlooping' : s'.thread.looping = true) : s'.Places := by
  have hnot := LoopThread.not_finished_of_looping hlooping
  rw [Places] at h ⊢
  rw [howner, hstarted, hthread]
  cases hat : s.owner with
  | idle =>
    rw [hat] at h
    dsimp only at h ⊢
    split at h
    · next hrun => exact (if_pos hrun).symm ▸ ⟨h.1, hlooping'⟩
    · next hrun =>
      rw [if_neg hrun]
      exact h.imp_right fun hdone => absurd hdone.2 hnot
  | quitting d =>
    rw [hat] at h
    exact ⟨h.1, h.2.1, hlooping'⟩
  | destroyed =>
    rw [hat] at h
    exact ⟨h.1, h.2.imp_right fun hdone => absurd hdone.2 hnot⟩
  | joining d => rwa [hat] at h
  | latching => rwa [hat] at h
  | latchWaiting => rwa [hat] at h
  | locking => rwa [hat] at h
  | waiting => rwa [hat] at h

/-- What the thread, or a user of the loop, does to the loop while the thread is in it. -/
theorem Inv.handle (h : s.Inv) (hlooping : s.thread.looping = true) {l q : ThreadLoop}
    (hl : s.loop = some l) {t : LoopThread} (ht : t.looping = true) {posted taken : List Nat}
    (hid : q.threadId_ = l.threadId_) (horder : posted = taken ++ LoopTask.numbers q.queue)
    (hopen : l.Open → q.Open) (hquits : l.Quits s.owed s.taken → q.Quits s.owed taken) :
    ({ s with loop := some q, thread := t, posted, taken } : IOLoopThread).Inv := by
  -- the thread stays between `enters` and `leaving`, so only the loop differs
  have henters := LoopThread.enters_of_looping hlooping
  have henters' := LoopThread.enters_of_looping ht
  obtain ⟨hcreated, hself, htid, hcount, hstores, halone, halive, howner⟩ := h.launch
  have hlatched := LoopThread.not_latched_of_enters henters
  -- the eight parts of `launch`, then the queue
  refine ⟨⟨?_, hself, fun _ => htid ?_, ?_, ?_, ?_, ?_, ?_⟩, ⟨h.wakes.latch, ?_⟩,
    ⟨?_, ?_, ?_, ?_, ?_⟩, ?_⟩
  · exact iff_of_false (LoopThread.ne_notCreated_of_enters henters') fun hnew =>
      LoopThread.ne_notCreated_of_enters henters (hcreated.mpr hnew)
  · exact LoopThread.identified_of_not_latched hlatched
  · show s.latch_.count_ = _
    rw [hcount, hlatched, LoopThread.not_latched_of_enters henters']
  · show s.loop_ = _
    rw [hstores, LoopThread.stores_of_looping hlooping, LoopThread.stores_of_looping ht]
  · show s.t_inThisThreadLoop = _
    rw [halone, henters, henters']
  · rw [henters', Bool.true_and]
    exact (bne_iff_ne.mpr (LoopThread.not_finished_of_looping ht)).symm
  · intro q' hl''
    obtain rfl := Option.some.inj hl''
    rw [hid]
    exact howner l hl
  · exact h.wakes.loop
  · intro q' hl''
    obtain rfl := Option.some.inj hl''
    exact horder
  · exact ⟨_, horder.symm⟩
  · exact fun hnot => by cases henters'.symm.trans hnot
  · intro hjoin
    refine ⟨LoopThread.not_leaving_of_looping ht, fun q' hl'' => ?_⟩
    obtain rfl := Option.some.inj hl''
    exact hopen ((h.queue.opened hjoin).2 l hl)
  · intro hjoin
    refine ⟨fun _ q' hl'' => ?_, fun hnot => by cases ht.symm.trans hnot⟩
    obtain rfl := Option.some.inj hl''
    exact hquits ((h.queue.quits hjoin).1 hlooping l hl)
  · exact h.places.looping hlooping rfl rfl rfl ht

/-- It enters `loop.loop()`. -/
theorem Inv.stored (h : s.Inv) (hthread : s.thread = .stored) :
    Holds Inv (fun _ => False) s.stepThread := by
  have hlooping : s.thread.looping = true := by rw [hthread]; rfl
  obtain ⟨l, hl⟩ := h.launch.loop_of_looping hlooping
  have hid : l.isInLoopThread s.self = true := beq_iff_eq.mpr (h.launch.owner l hl).symm
  rw [stepThread, hthread]
  dsimp only
  rw [deref, hl]
  dsimp only
  rw [ok_bind, require_pos _ _ hid, ok_bind]
  exact .ok (h.handle hlooping hl rfl rfl (h.queue.order l hl) id id)

/-- With `quit` called, the owner is in `join` or behind it. -/
theorem Inv.joins (h : s.Inv) (hjoin : s.thread_.join_ = true) :
    s.owner = .idle ∨ s.owner = .destroyed ∨ ∃ d, s.owner = .joining d := by
  have hopen : ∀ b, s.thread_ ≠ ⟨b, false⟩ := by
    intro b heq
    rw [heq] at hjoin
    cases hjoin
  cases howner : s.owner with
  | idle => exact Or.inl rfl
  | destroyed => exact Or.inr (Or.inl rfl)
  | joining d => exact Or.inr (Or.inr ⟨d, rfl⟩)
  | quitting d =>
    have hplaces := h.places
    rw [Places, howner] at hplaces
    exact absurd hplaces.2.1 (hopen _)
  | latching => exact absurd (places_starting (by rw [howner]; rfl) h.places).2 (hopen _)
  | latchWaiting => exact absurd (places_starting (by rw [howner]; rfl) h.places).2 (hopen _)
  | locking => exact absurd (places_starting (by rw [howner]; rfl) h.places).2 (hopen _)
  | waiting => exact absurd (places_starting (by rw [howner]; rfl) h.places).2 (hopen _)

/-- Until the thread has finished, the owner is in `join`. -/
theorem Inv.departs (h : s.Inv) (hjoin : s.thread_.join_ = true) (hnot : s.thread ≠ .finished) :
    s.started_ = false ∧ s.thread_ = ⟨true, true⟩ ∧ ∃ d, s.owner = .joining d := by
  have hplaces := h.places
  rw [Places] at hplaces
  have hopen : ∀ b, s.thread_ ≠ ⟨b, false⟩ := by
    intro b heq
    rw [heq] at hjoin
    cases hjoin
  rcases h.joins hjoin with howner | howner | ⟨d, howner⟩
  · rw [howner] at hplaces
    dsimp only at hplaces
    split at hplaces
    · exact absurd hplaces.1 (hopen _)
    · exact (hplaces.elim (hopen _) fun hdone => hnot hdone.2).elim
  · rw [howner] at hplaces
    exact (hplaces.2.elim (hopen _) fun hdone => hnot hdone.2).elim
  · rw [howner] at hplaces
    exact ⟨hplaces.1, hplaces.2, d, howner⟩

/-- The thread leaves the loop only when `quitInThisThread` has run. -/
theorem Inv.leave (h : s.Inv) (hlooping : s.thread.looping = true) {l : ThreadLoop}
    (hl : s.loop = some l) (hend : l.stopped = true ∨ l.queue = [] ∧ l.work_ = false) :
    ({ s with thread := .left } : IOLoopThread).Inv := by
  -- the loop ends only because it was asked to quit
  have hjoin : s.thread_.join_ = true := by
    by_contra hjoin
    have hopen := (h.queue.opened (Bool.not_eq_true _ ▸ hjoin)).2 l hl
    rcases hend with hstopped | ⟨-, hwork⟩
    · cases hopen.runs.symm.trans hstopped
    · cases hopen.work.symm.trans hwork
  have hquits := (h.queue.quits hjoin).1 hlooping l hl
  -- and by then all that is owed has been taken
  have howed : s.owed = s.taken := by
    cases hstopped : l.stopped with
    | false =>
      rcases hend with hend | ⟨hnil, -⟩
      · cases hstopped.symm.trans hend
      · exact absurd hnil (hquits.queue_ne_nil hstopped)
    | true =>
      cases hquits with
      | queued ahead behind hqueue hahead hruns howed => cases hruns.symm.trans hstopped
      | shut hstopped howed => exact howed
  obtain ⟨hstarted, hthread, d, hat⟩ :=
    h.departs hjoin (LoopThread.not_finished_of_looping hlooping)
  have henters := LoopThread.enters_of_looping hlooping
  have hlatched := LoopThread.not_latched_of_enters henters
  obtain ⟨hcreated, hself, htid, hcount, hstores, halone, -, howner⟩ := h.launch
  rw [hlatched] at hcount
  rw [LoopThread.stores_of_looping hlooping] at hstores
  rw [henters] at halone
  refine ⟨⟨?_, hself, fun _ => htid ?_, hcount, hstores, halone, ?_, howner⟩,
    ⟨h.wakes.latch, h.wakes.loop⟩,
    ⟨h.queue.order, h.queue.taken, nofun, ?_, fun _ => ⟨nofun, fun _ => ⟨rfl, howed⟩⟩⟩, ?_⟩
  · simp [hthread]
  · exact LoopThread.identified_of_not_latched hlatched
  · show s.loop.isSome = true
    rw [hl]
    rfl
  · exact fun hopen => by cases hjoin.symm.trans hopen
  · rw [Places]
    dsimp only
    rw [hat]
    exact ⟨hstarted, hthread⟩

/-- **The loop runs its next handler**, or ends because its own has been run. -/
theorem Inv.poll (h : s.Inv) (hthread : s.thread = .polling) {l : ThreadLoop}
    (hl : s.loop = some l) : Holds Inv (fun _ => False) (s.poll l) := by
  have hlooping : s.thread.looping = true := by rw [hthread]; rfl
  have horder := h.queue.order l hl
  rw [IOLoopThread.poll]
  -- stopped, out of work, or a handler to run
  by_cases hstopped : l.stopped = true
  · rw [if_pos hstopped]
    exact .ok (h.leave hlooping hl (Or.inl hstopped))
  · rw [if_neg hstopped]
    replace hstopped : l.stopped = false := Bool.not_eq_true _ ▸ hstopped
    cases hqueue : l.queue with
    | nil =>
      dsimp only
      by_cases hwork : l.work_ = true
      · rw [if_pos hwork]
        exact .ok h
      · rw [if_neg hwork]
        exact .ok (h.leave hlooping hl (Or.inr ⟨hqueue, Bool.not_eq_true _ ▸ hwork⟩))
    | cons task queue =>
      rw [hqueue] at horder
      cases task with
      | task n =>
        refine .ok (h.handle hlooping hl (t := .running n) (q := { l with queue }) rfl rfl ?_
          (fun hopen => hopen.take hqueue) fun hquits => hquits.take hstopped hqueue)
        rw [horder, LoopTask.numbers_task, List.append_assoc, List.singleton_append]
      | quitInThisThread =>
        have hid : l.isInLoopThread s.self = true := beq_iff_eq.mpr (h.launch.owner l hl).symm
        dsimp only
        rw [require_pos _ _ hid, ok_bind]
        have hnext := h.handle hlooping hl (t := .polling)
          (q := ({ l with queue } : ThreadLoop).shut) rfl rfl horder
          (fun hopen => absurd (hqueue ▸ List.mem_cons_self) hopen.unasked)
          fun hquits => .shut rfl (hquits.owed_eq hqueue)
        rw [← hthread] at hnext
        exact .ok hnext

/-- The thread goes from `left` to `finished`. -/
theorem Inv.depart (h : s.Inv) (hleaving : s.thread.leaving = true) (hnot : s.thread ≠ .finished)
    {t : LoopThread} (ht : t.leaving = true) {loop : Option ThreadLoop}
    (halive : loop.isSome = (t != .finished)) (hloop : ∀ l, loop = some l → s.loop = some l) :
    ({ s with loop_ := t.stores, thread := t, loop } : IOLoopThread).Inv ∧
      s.owner ≠ .destroyed := by
  -- the same as in `leave`: the loop was asked to quit, and nothing is left of it
  have hjoin : s.thread_.join_ = true := by
    by_contra hjoin
    cases (h.queue.opened (Bool.not_eq_true _ ▸ hjoin)).1.symm.trans hleaving
  obtain ⟨hstarted, hthread, d, hat⟩ := h.departs hjoin hnot
  have hquits := (h.queue.quits hjoin).2 (LoopThread.not_looping_of_leaving hleaving)
  have henters := LoopThread.enters_of_leaving hleaving
  have henters' := LoopThread.enters_of_leaving ht
  have hlatched := LoopThread.not_latched_of_enters henters
  have hlooping' := LoopThread.not_looping_of_leaving ht
  obtain ⟨hcreated, hself, htid, hcount, hstores, halone, -, howner⟩ := h.launch
  refine ⟨⟨⟨?_, hself, fun _ => htid ?_, ?_, rfl, ?_, ?_, fun l hl => howner l (hloop l hl)⟩,
    ⟨h.wakes.latch, Or.inl ?_⟩,
    ⟨fun l hl => h.queue.order l (hloop l hl), h.queue.taken, fun hnot => ?_, fun hopen => ?_,
      fun _ => ⟨fun hnot => ?_, fun _ => ⟨ht, hquits.2⟩⟩⟩, ?_⟩, ?_⟩
  · exact iff_of_false (LoopThread.ne_notCreated_of_enters henters') (by rw [hthread]; decide)
  · exact LoopThread.identified_of_not_latched hlatched
  · show s.latch_.count_ = _
    rw [hcount, hlatched, LoopThread.not_latched_of_enters henters']
  · show s.t_inThisThreadLoop = _
    rw [halone, henters, henters']
  · rw [henters', Bool.true_and]
    exact halive
  · exact h.wakes.loop.resolve_right fun hw => by cases hat.symm.trans hw.2.1
  · cases henters'.symm.trans hnot
  · cases hjoin.symm.trans hopen
  · cases hlooping'.symm.trans hnot
  · rw [Places]
    dsimp only
    rw [hat]
    exact ⟨hstarted, hthread⟩
  · rw [hat]
    nofun

/-- **Every step of the created thread keeps it**, and fails nowhere: the members it uses are
    there until the owner has joined it. -/
theorem Inv.stepThread (h : s.Inv) : Holds Inv (fun _ => False) s.stepThread := by
  -- one case per place in `threadFunc`, in its order
  cases hthread : s.thread with
  | notCreated =>
    rw [IOLoopThread.stepThread, hthread]
    exact .ok h
  | created => exact h.created hthread
  | tidStored => exact h.tidStored hthread
  | counted => exact h.counted hthread
  | constructed => exact h.constructed hthread
  | stored => exact h.stored hthread
  | polling =>
    obtain ⟨l, hl⟩ := h.launch.loop_of_looping (by rw [hthread]; rfl)
    rw [IOLoopThread.stepThread, hthread]
    dsimp only
    rw [deref, hl]
    exact h.poll hthread hl
  | running n =>
    have hlooping : s.thread.looping = true := by rw [hthread]; rfl
    obtain ⟨l, hl⟩ := h.launch.loop_of_looping hlooping
    have hnext := h.handle hlooping hl (t := .polling) rfl rfl (h.queue.order l hl) id id
    rw [← hl] at hnext
    rw [IOLoopThread.stepThread, hthread]
    exact .ok hnext
  | left =>
    have halive := h.launch.alive
    rw [hthread] at halive
    obtain ⟨hnext, hmember⟩ := h.depart (t := .cleared) (by rw [hthread]; rfl)
      (by rw [hthread]; nofun)
      rfl halive fun _ hl => hl
    rw [IOLoopThread.stepThread, hthread]
    dsimp only
    rw [member, require_pos _ _ hmember, ok_bind]
    exact .ok hnext
  | cleared =>
    have hstores := h.launch.stores
    rw [hthread] at hstores
    have hnext := (h.depart (by rw [hthread]; rfl) (by rw [hthread]; nofun)
      (show LoopThread.finished.leaving = true from rfl)
      (show (none : Option ThreadLoop).isSome = _ from rfl) nofun).1
    rw [IOLoopThread.stepThread, hthread]
    replace hstores : LoopThread.finished.stores = s.loop_ := hstores.symm
    rw [hstores] at hnext
    exact .ok hnext
  | finished =>
    rw [IOLoopThread.stepThread, hthread]
    exact .ok h

/-! ## The users of the loop

  A post goes behind everything else, also behind a `quitInThisThread`. -/

/-- Whoever knows the pointer finds the loop there. -/
theorem Inv.known_looping (h : s.Inv) {isInLoopThread : Bool}
    (hstarted : isInLoopThread = false → s.started_ = true)
    (hknown : s.known isInLoopThread = true) : s.thread.looping = true := by
  rw [known] at hknown
  cases isInLoopThread with
  | true =>
    -- on the loop thread itself, or on another one after `start` has returned
    rw [if_pos rfl] at hknown
    cases hthread : s.thread <;> rw [hthread] at hknown <;> first | rfl | cases hknown
  | false =>
    rw [if_neg Bool.false_ne_true, returned, Bool.and_eq_true, Bool.not_eq_true'] at hknown
    have hrun := hstarted rfl
    have hplaces := h.places
    rw [Places] at hplaces
    cases howner : s.owner with
    | idle =>
      rw [howner] at hplaces
      dsimp only at hplaces
      rw [if_pos hrun] at hplaces
      exact hplaces.2
    | quitting d =>
      rw [howner] at hplaces
      cases hrun.symm.trans hplaces.1
    | joining d =>
      rw [howner] at hplaces
      cases hrun.symm.trans hplaces.1
    | destroyed =>
      rw [howner] at hplaces
      cases hrun.symm.trans hplaces.1
    | latching => cases (congrArg Owner.starting howner).symm.trans hknown.2
    | latchWaiting => cases (congrArg Owner.starting howner).symm.trans hknown.2
    | locking => cases (congrArg Owner.starting howner).symm.trans hknown.2
    | waiting => cases (congrArg Owner.starting howner).symm.trans hknown.2

/-- A post keeps it, by someone who has the pointer while it is good. -/
theorem Inv.post (h : s.Inv) {isInLoopThread : Bool}
    (hstarted : isInLoopThread = false → s.started_ = true) (n : Nat) :
    Holds Inv (fun _ => False) (s.post isInLoopThread n) := by
  rw [IOLoopThread.post]
  by_cases hknown : s.known isInLoopThread = true
  · have hlooping := h.known_looping hstarted hknown
    obtain ⟨l, hl⟩ := h.launch.loop_of_looping hlooping
    rw [if_pos hknown, deref, hl]
    refine .ok (h.handle hlooping hl hlooping rfl ?_ (fun hopen => hopen.post n)
      fun hquits => hquits.post n)
    show s.posted ++ [n] = s.taken ++ LoopTask.numbers (l.queue ++ [.task n])
    rw [h.queue.order l hl, LoopTask.numbers_append, List.append_assoc]
    rfl
  · rw [if_neg hknown]
    exact .ok h

/-! ## Over every run

  The contract is asked of every event; then no step fails, and the property holds in all
  states. -/

/-- **Every step keeps it**, within the contract. -/
theorem Inv.step (h : s.Inv) (e : Event) (hcontract : s.Contract e) :
    Holds Inv (fun _ => False) (s.step e) := by
  cases e with
  | start id => exact h.start hcontract id
  | stop =>
    rw [IOLoopThread.step]
    split
    · next hidle => exact .ok (h.stop hidle false)
    · exact .ok h
  | destroy =>
    rw [IOLoopThread.step]
    split
    · next hidle => exact .ok (h.destroy hidle)
    · exact .ok h
  | owner => exact h.stepOwner
  | thread => exact h.stepThread
  -- a spurious wakeup changes no more than who is asleep
  | spuriousLatch =>
    exact .ok { h with
      launch := { h.launch with }
      wakes := ⟨h.wakes.latch.spurious 0, h.wakes.loop⟩
      queue := { h.queue with } }
  | spurious =>
    refine .ok { h with
      launch := { h.launch with }
      wakes := ⟨h.wakes.latch, Or.inl ?_⟩
      queue := { h.queue with } }
    show s.condition_.asleep.erase 0 = []
    rcases h.wakes.loop with hnone | hone
    · rw [hnone]
      rfl
    · rw [hone.1]
      rfl
  | post isInLoopThread n => exact h.post hcontract n
  | quit isInLoopThread => exact absurd hcontract id

/-- So does every run from a new object. -/
theorem run_inv {es : List Event} (h : Guarded step Contract new es) :
    Holds Inv (fun _ => False) (run step new es) :=
  run_holds (fun _ e hs hC => Inv.step hs e hC) es new inv_new h

/-- What the users of an `IOLoopThread` rely on. The first part and the last are about the
    owner between two of its calls. -/
structure Lives (s : IOLoopThread) : Prop where
  /-- Between the return of `start` and the call of `stop`. -/
  runs : s.owner = .idle → s.started_ = true → s.thread.looping = true ∧ s.tid_ ≠ 0 ∧
    ∃ l, s.loop = some l ∧ l.stopped = false ∧ l.threadId_ = s.tid_
  order : s.taken <+: s.posted
  /-- After `stop`, or the destructor, has returned. -/
  ends : s.thread_.started_ = true → s.started_ = false → s.owner = .idle ∨ s.owner = .destroyed →
    s.thread = .finished ∧ s.loop = none ∧ s.taken = s.owed

/-- The invariant has the property in it. -/
theorem Inv.lives (h : s.Inv) : s.Lives := by
  refine ⟨fun hidle hstarted => ?_, h.queue.taken, ?_⟩
  · -- while it is started the owner is idle, and the loop runs
    have hplaces := h.places
    rw [Places, hidle] at hplaces
    dsimp only at hplaces
    rw [if_pos hstarted] at hplaces
    obtain ⟨hthread, hlooping⟩ := hplaces
    obtain ⟨l, hl⟩ := h.launch.loop_of_looping hlooping
    have henters := LoopThread.enters_of_looping hlooping
    have htid := h.launch.tid
      (LoopThread.identified_of_not_latched (LoopThread.not_latched_of_enters henters))
    refine ⟨hlooping, ?_, l, hl, ((h.queue.opened (by rw [hthread])).2 l hl).runs, ?_⟩
    · rw [htid]
      exact h.launch.self (by rw [hthread])
    · rw [htid]
      exact h.launch.owner l hl
  · -- when it was started and is stopped, the thread is joined
    intro hrun hstarted hat
    have hnew : s.thread_ ≠ ⟨false, false⟩ := by
      intro heq
      rw [heq] at hrun
      cases hrun
    have hdone : s.thread_ = ⟨true, true⟩ ∧ s.thread = .finished := by
      have hplaces := h.places
      rw [Places] at hplaces
      rcases hat with hat | hat
      · rw [hat] at hplaces
        dsimp only at hplaces
        rw [if_neg (by rw [hstarted]; decide)] at hplaces
        exact hplaces.resolve_left hnew
      · rw [hat] at hplaces
        exact hplaces.2.resolve_left hnew
    obtain ⟨hjoin, hfinished⟩ := hdone
    have halive := h.launch.alive
    rw [hfinished] at halive
    refine ⟨hfinished, Option.isNone_iff_eq_none.mp (Option.isSome_eq_false_iff.mp halive), ?_⟩
    have hquits := (h.queue.quits (by rw [hjoin])).2 (by rw [hfinished]; rfl)
    exact hquits.2.symm

/-- **The life of a loop thread**: in every interleaving no `assert` fails, nothing is used after
    it has been destroyed, and every function of the loop is called in its thread.  From the
    return of `start` to the call of `stop` the loop runs, with the thread id that `start` has
    checked.  Handlers are taken in the order in which they have been posted; and when `stop` or
    the destructor has returned, the thread has finished, the loop is destroyed, and the handlers
    taken are exactly those posted before `stop` called `quit`. -/
theorem serves {es : List Event} (h : Guarded step Contract new es) :
    Holds Lives (fun _ => False) (run step new es) :=
  (run_inv h).mono (fun _ hs => hs.lives) fun _ hf => hf

/-- One call of `start` and one of `stop`: the owner sleeps in both waits, wakes up once without
    having been notified, posts two handlers, of which the first posts a third, and stops. -/
def oneLife : List Event :=
  [.start 7, .owner, .spuriousLatch, .owner, .thread, .thread, .owner, .owner, .thread,
    .thread, .owner, .post false 1, .post false 2, .thread, .thread, .stop, .post true 3, .owner,
    .thread, .thread,
    .thread, .thread, .thread, .thread, .thread, .thread, .thread, .owner, .destroy]

/-- The contract can be met: a whole life, with two handlers posted and run. -/
theorem serves_oneLife : Guarded step Contract new oneLife ∧
    Holds Lives (fun _ => False) (run step new oneLife) ∧
    (run step new oneLife).toOption.map (fun s => (s.owner, s.thread, s.taken, s.owed)) =
      some (.destroyed, .finished, [1, 2, 3], [1, 2, 3]) :=
  have hguard : Guarded step Contract new oneLife := by decide +kernel
  ⟨hguard, serves hguard, by decide +kernel⟩

end IOLoopThread

end IOEvent
