/-
  No connection lingers.

  `connection_table` says that the handlers which establish, remove and destroy a connection are
  posted once each, and in which order they run.  Here they do run.  A loop is a queue: it runs
  the first handler posted to it, and then the next; and the way of a connection leads from its
  own loop to the base loop and back, so each handler is posted by the one before it.  `GoesOn`
  is all that is required: a loop with something posted to it runs a handler, sooner or later.

  That a posted handler is run is an induction on its place in the queue (`posted_run`).  The
  rest is the invariant of the table, read at a later moment: a connection whose handler has
  been run is at the next stage, for which the next handler is posted.
-/
import IOEvent.Foundation.Fairness
import IOEvent.TcpServer.Table

open Foundation

namespace IOEvent

/-- The handler has been run. -/
def ServerTask.Logged (log : List ServerObs) : ServerTask → Prop
  | .connectEstablished conn => .connectEstablished conn ∈ log
  | .removeConnectionInThisThread conn => ∃ erased, .removed conn erased ∈ log
  | .connectDestroyed conn => .connectDestroyed conn ∈ log

namespace TcpServer

variable {s s' : TcpServer} {conn loop : Nat} {task : ServerTask}

/-! ## What one event does to the queues

  The queue of a loop only grows at its end and loses its first handler when that is run.  So
  the first handler of a loop stays the first until it is run. -/

/-- More has been posted, and more has been run. -/
structure Grows (s s' : TcpServer) : Prop where
  posted : s.posted <+: s'.posted
  log : s.log <+: s'.log
  length : s.accepted.length ≤ s'.accepted.length

/-- Nothing done, nothing lost. -/
theorem Grows.refl (s : TcpServer) : Grows s s :=
  ⟨List.prefix_rfl, List.prefix_rfl, Nat.le_refl _⟩

/-- Growing composes. -/
theorem Grows.trans {s'' : TcpServer} (h : Grows s s') (h' : Grows s' s'') : Grows s s'' :=
  ⟨h.posted.trans h'.posted, h.log.trans h'.log, Nat.le_trans h.length h'.length⟩

/-- A change within a connection loses nothing of the log. -/
theorem Grows.setConnection (s : TcpServer) (conn : Nat) (c : TcpConnection) :
    Grows s (s.setConnection conn c) :=
  ⟨List.prefix_rfl, List.prefix_rfl, Nat.le_of_eq length_setConnection.symm⟩

/-- Neither does a post. -/
theorem Grows.post (s : TcpServer) (loop : Nat) (task : ServerTask) : Grows s (s.post loop task) :=
  ⟨⟨_, rfl⟩, List.prefix_rfl, Nat.le_refl _⟩

/-- Neither does an entry. -/
theorem Grows.observe (s : TcpServer) (o : ServerObs) : Grows s (s.observe o) :=
  ⟨List.prefix_rfl, ⟨_, rfl⟩, Nat.le_refl _⟩

/-- Neither does an operation within a connection. -/
theorem inConnection_grows {r : Outcome Fault TcpConnection TcpConnection}
    (h : s.inConnection conn r = .ok s') : Grows s s' := by
  cases r with
  | error e => cases h
  | ok c =>
    obtain rfl := Except.ok.inj h
    exact .setConnection s conn c

/-- One event, as far as the posted handlers go: more are posted, after the first one of a loop
    has been run. -/
inductive Turn (s : TcpServer) (e : Event) (s' : TcpServer) : Prop
  | grows (h : Grows s s')
  | runs {i : Nat} {onConnection : List Act} {loop : Nat} {task : ServerTask}
      (he : e = .runPosted i onConnection) (hi : s.posted[i]? = some (loop, task))
      (hfirst : ∀ p ∈ s.posted.take i, p.1 ≠ loop)
      (h : Grows { s with posted := s.posted.eraseIdx i } s')
      (hlogged : task.conn < s.accepted.length → task.Logged s'.log)

/-- The event runs the first handler posted to the loop. -/
def RunsFirst (s : TcpServer) (loop : Nat) : Event → Prop
  | .runPosted i _ => s.posted[i]?.map Prod.fst = some loop ∧ ∀ p ∈ s.posted.take i, p.1 ≠ loop
  | _ => False

/-- Whether an event runs the first handler of a loop can be computed. -/
instance (s : TcpServer) (loop : Nat) (e : Event) : Decidable (s.RunsFirst loop e) :=
  e.casesOn (fun _ => .isFalse id) (.isFalse id) (fun _ => .isFalse id)
    (fun i _ => decidable_of_iff (s.posted[i]?.map Prod.fst = some loop ∧
      ∀ p ∈ s.posted.take i, p.1 ≠ loop) Iff.rfl)
    (fun _ _ => .isFalse id) (fun _ => .isFalse id) fun _ => .isFalse id

/-- A posted handler is about a connection that has been accepted. -/
theorem ServerInv.conn_lt (h : ServerInv s) (hmem : (loop, task) ∈ s.posted) :
    task.conn < s.accepted.length := by
  have hsome := home_isSome (h.homes _ hmem)
  rw [loopOf, Option.isSome_map] at hsome
  by_contra hnot
  rw [List.getElem?_eq_none (Nat.le_of_not_lt hnot)] at hsome
  cases hsome

/-- A handler that is counted as posted has been posted to some loop. -/
theorem mem_of_pending (h : s.pending task = 1) : ∃ loop, (loop, task) ∈ s.posted := by
  have hmem : task ∈ s.posted.map Prod.snd := List.count_pos_iff.mp (by
    show 0 < s.pending task
    rw [h]
    exact Nat.one_pos)
  obtain ⟨⟨loop, task'⟩, hposted, rfl⟩ := List.mem_map.mp hmem
  exact ⟨loop, hposted⟩

/-- The connection is not in the table. -/
def Absent (s : TcpServer) (conn : Nat) : Prop := ∀ name, s.connections_.lookup name ≠ some conn

/-- A connection whose removal was processed is in the table no more. -/
theorem ServerInv.absent (h : ServerInv s) (hremoved : s.Removed conn) : s.Absent conn :=
  fun name hlookup => ((h.tableOk.table name conn).mp hlookup).2 hremoved

section Handlers

variable [VectorImpl]

/-- **A handler leaves its mark**: what it was posted for is in the log behind it. -/
theorem handle_grows {onConnection : List Act} (h : s.handle loop onConnection task = .ok s') :
    Grows s s' ∧ (task.conn < s.accepted.length → task.Logged s'.log) := by
  -- what the two handlers that run in the connection have in common
  have hobserved (o : ServerObs) (conn : Nat) (r : Outcome Fault TcpConnection TcpConnection)
      (h : (s.observe o).inConnection conn r = .ok s') : Grows s s' ∧ o ∈ s'.log := by
    have hgrows := inConnection_grows h
    exact ⟨(Grows.observe s o).trans hgrows,
      hgrows.log.subset (List.mem_append_right _ (List.mem_singleton_self _))⟩
  cases task with
  | connectEstablished conn =>
    rw [handle, connectEstablished] at h
    split at h
    case h_1 hnone =>
      obtain rfl := Except.ok.inj h
      exact ⟨.refl s, fun hlt => absurd hlt (Nat.not_lt.mpr (List.getElem?_eq_none_iff.mp hnone))⟩
    case h_2 served hserved =>
      obtain ⟨-, -, h⟩ := bind_ok h
      exact (hobserved _ _ _ h).imp_right fun hmem _ => hmem
  | connectDestroyed conn =>
    rw [handle, connectDestroyed] at h
    split at h
    case h_1 hnone =>
      obtain rfl := Except.ok.inj h
      exact ⟨.refl s, fun hlt => absurd hlt (Nat.not_lt.mpr (List.getElem?_eq_none_iff.mp hnone))⟩
    case h_2 served hserved =>
      obtain ⟨-, -, h⟩ := bind_ok h
      exact (hobserved _ _ _ h).imp_right fun hmem _ => hmem
  -- the table, then a post to the loop of the connection
  | removeConnectionInThisThread conn =>
    rw [handle, removeConnectionInThisThread] at h
    split at h
    case h_1 hnone =>
      obtain rfl := Except.ok.inj h
      exact ⟨.refl s, fun hlt => absurd hlt (Nat.not_lt.mpr (List.getElem?_eq_none_iff.mp hnone))⟩
    case h_2 served hserved =>
      obtain ⟨-, -, h⟩ := bind_ok h
      obtain ⟨-, -, h⟩ := bind_ok h
      obtain rfl := Except.ok.inj h
      exact ⟨⟨⟨_, rfl⟩, ⟨_, rfl⟩, Nat.le_refl _⟩,
        fun _ => ⟨_, List.mem_append_right _ (List.mem_singleton_self _)⟩⟩

/-- A dispatch loses nothing. -/
theorem dispatch_grows {current target : Nat} {onConnection : List Act}
    (h : s.dispatch current target onConnection task = .ok s') : Grows s s' := by
  rw [dispatch] at h
  split at h
  · exact (handle_grows h).1
  · obtain rfl := Except.ok.inj h
    exact .post s target task

/-- What happens on a connection loses nothing. -/
theorem io_grows {e : Io} (h : s.io conn e = .ok s') : Grows s s' := by
  rw [io] at h
  split at h
  · obtain rfl := Except.ok.inj h
    exact .refl s
  · split at h
    · cases h
    · split at h
      · obtain rfl := Except.ok.inj h
        exact .setConnection s conn _
      · exact (Grows.setConnection s conn _).trans (dispatch_grows h)

/-- An acceptance loses nothing. -/
theorem newConnection_grows {onConnection : List Act} (h : s.newConnection onConnection = .ok s') :
    Grows s s' := by
  obtain ⟨⟨ioLoop, pool⟩, -, h⟩ := bind_ok h
  refine Grows.trans ?_ (dispatch_grows h)
  refine ⟨List.prefix_rfl, List.prefix_rfl, ?_⟩
  show s.accepted.length ≤ (s.accepted ++ [_]).length
  rw [List.length_append]
  exact Nat.le_add_right _ _

/-- **One event**: it posts, or it takes the first handler of a loop out and runs it. -/
theorem step_turn {e : Event} (h : s.step e = .ok s') : Turn s e s' := by
  -- one case per event; only `runPosted` takes a handler out
  cases e with
  | setThreadNum numThreads =>
    obtain rfl := Except.ok.inj h
    exact .grows ⟨List.prefix_rfl, List.prefix_rfl, Nat.le_refl _⟩
  | start =>
    rw [step, start] at h
    split at h
    · obtain rfl := Except.ok.inj h
      exact .grows (.refl s)
    · obtain ⟨p, -, h⟩ := bind_ok h
      obtain rfl := Except.ok.inj h
      exact .grows ⟨List.prefix_rfl, List.prefix_rfl, Nat.le_refl _⟩
  | accept onConnection =>
    rw [step] at h
    split at h
    · exact .grows (newConnection_grows h)
    · obtain rfl := Except.ok.inj h
      exact .grows (.refl s)
  | runPosted i onConnection =>
    rw [step, runPosted] at h
    split at h
    · obtain rfl := Except.ok.inj h
      exact .grows (.refl s)
    case h_2 loop task hi =>
      split at h
      case isTrue hfirst =>
        obtain ⟨hgrows, hlogged⟩ := handle_grows h
        exact .runs rfl hi hfirst hgrows hlogged
      case isFalse =>
        obtain rfl := Except.ok.inj h
        exact .grows (.refl s)
  | io conn e => exact .grows (io_grows h)
  | callShutdown conn =>
    obtain rfl := Except.ok.inj h
    refine .grows ?_
    unfold callShutdown
    split
    · exact .refl s
    · split
      · exact ⟨List.prefix_rfl, List.prefix_rfl, Nat.le_refl _⟩
      · exact .refl s
  | setShutdown i =>
    obtain rfl := Except.ok.inj h
    refine .grows ?_
    unfold setShutdown
    split
    · exact .refl s
    · split
      · exact .refl s
      · have hcalls : Grows s { s with calls := s.calls.eraseIdx i } :=
          ⟨List.prefix_rfl, List.prefix_rfl, Nat.le_refl _⟩
        exact hcalls.trans (.setConnection _ _ _)

/-- An event that runs the first handler of a loop takes that handler out, and what it does is in
    the log. -/
theorem RunsFirst.runs {e : Event} (h : s.RunsFirst loop e) (hs' : s.step e = .ok s') :
    ∃ i task, s.posted[i]? = some (loop, task) ∧ (∀ p ∈ s.posted.take i, p.1 ≠ loop) ∧
      Grows { s with posted := s.posted.eraseIdx i } s' ∧
      (task.conn < s.accepted.length → task.Logged s'.log) := by
  cases e with
  | runPosted i onConnection =>
    obtain ⟨hloop, hfirst⟩ := h
    obtain ⟨⟨loop', task⟩, hi, rfl⟩ := Option.map_eq_some_iff.mp hloop
    rw [step, runPosted, hi] at hs'
    dsimp only at hs' hfirst
    rw [if_pos hfirst] at hs'
    obtain ⟨hgrows, hlogged⟩ := handle_grows hs'
    exact ⟨i, task, hi, hfirst, hgrows, hlogged⟩
  | setThreadNum => exact h.elim
  | start => exact h.elim
  | accept => exact h.elim
  | io => exact h.elim
  | callShutdown => exact h.elim
  | setShutdown => exact h.elim

end Handlers

/-! ## Every run that does not end

  By induction on the place in the queue: a fair loop runs the first handler, and what was
  second is first then.  A connection passes its stages with the handlers posted for it. -/

section Runs

variable [VectorImpl] {states : Nat → TcpServer} {events : Nat → Event} {k m : Nat}

/-- A loop to which something is posted runs a handler. -/
def GoesOn (states : Nat → TcpServer) (events : Nat → Event) : Prop :=
  ∀ loop k, queued (states k).posted loop ≠ [] →
    Eventually (fun m => (states m).RunsFirst loop (events m)) k

/-- Every posted handler is run. -/
theorem posted_run (hrun : Forever step states events) (hinv : ∀ k, ServerInv (states k))
    (hgoes : GoesOn states events) (hmem : (loop, task) ∈ (states k).posted) :
    Eventually (fun m => task.Logged (states m).log) k := by
  -- the handler that runs first is at the head of its queue
  have hserved : ∀ m i task, (states m).posted[i]? = some (loop, task) →
      (∀ p ∈ (states m).posted.take i, p.1 ≠ loop) →
      Grows { states m with posted := (states m).posted.eraseIdx i } (states (m + 1)) →
      ∃ rest new, queued (states m).posted loop = task :: rest ∧
        queued (states (m + 1)).posted loop = rest ++ new := by
    intro m i task hi hfirst hgrows
    obtain ⟨new, hnew⟩ := hgrows.posted
    exact ⟨_, queued new loop, queued_first hi hfirst, by rw [← hnew, queued_append]⟩
  refine eventually_served (q := fun m => queued (states m).posted loop)
    (D := fun task m => task.Logged (states m).log)
    (T := fun m => (states m).RunsFirst loop (events m)) ?_ (hgoes loop) ?_ (mem_queued.mpr hmem)
  · -- a step leaves the queue of the loop in place, or serves its head
    intro m
    cases step_turn (hrun m) with
    | grows h =>
      obtain ⟨new, hnew⟩ := h.posted
      exact .waits (queued new loop) (by rw [← hnew, queued_append])
    | @runs i onConnection loop' task he hi hfirst h hlogged =>
      by_cases hloop : loop' = loop
      · subst hloop
        obtain ⟨rest, new, hq, hq'⟩ := hserved m i task hi hfirst h
        exact .serves task rest new hq hq' (hlogged ((hinv m).conn_lt (List.mem_of_getElem? hi)))
      · obtain ⟨new, hnew⟩ := h.posted
        refine .waits (queued new loop) ?_
        rw [← hnew, queued_append, queued_other hi hloop]
  · -- and a turn of the loop does serve it
    intro m hturn
    obtain ⟨i, task, hi, hfirst, hgrows, hlogged⟩ := hturn.runs (hrun m)
    obtain ⟨rest, new, hq, hq'⟩ := hserved m i task hi hfirst hgrows
    exact ⟨task, rest, new, hq, hq', hlogged ((hinv m).conn_lt (List.mem_of_getElem? hi))⟩

/-- Along a run the log only grows, and so does the number of connections. -/
theorem grows_of_le (hrun : Forever step states events) (hle : k ≤ m) :
    (states k).log <+: (states m).log ∧ (states k).accepted.length ≤
      (states m).accepted.length := by
  induction hle with
  | refl => exact ⟨List.prefix_rfl, Nat.le_refl _⟩
  | @step m _ ih =>
    have hstep : (states m).log <+: (states (m + 1)).log ∧
        (states m).accepted.length ≤ (states (m + 1)).accepted.length := by
      cases step_turn (hrun m) with
      | grows h => exact ⟨h.log, h.length⟩
      | runs he hi hfirst h hlogged => exact ⟨h.log, h.length⟩
    exact ⟨ih.1.trans hstep.1, Nat.le_trans ih.2 hstep.2⟩

/-- The stage of a connection at a later moment. -/
theorem stage_later (hrun : Forever step states events) (hinv : ∀ k, ServerInv (states k))
    (hlt : conn < (states k).accepted.length) (hle : k ≤ m) :
    ∃ c g, AtStage (states m) conn c g := by
  have hlt' := Nat.lt_of_lt_of_le hlt (grows_of_le hrun hle).2
  obtain ⟨g, hg⟩ := (hinv m).stages conn _ (List.getElem?_eq_getElem hlt')
  exact ⟨_, g, hg⟩

/-- From its removal on, a connection is absent; and it is destroyed. -/
theorem destroyed_of_removed (hrun : Forever step states events) (hinv : ∀ k, ServerInv (states k))
    (hgoes : GoesOn states events) (hlt : conn < (states k).accepted.length)
    (hremoved : (states k).Removed conn) :
    Eventually (fun m => .connectDestroyed conn ∈ (states m).log ∧
      ∀ j, m ≤ j → (states j).Absent conn) k := by
  have habsent : ∀ j, k ≤ j → (states j).Absent conn := fun j hj =>
    (hinv j).absent (hremoved.imp fun _ hmem => (grows_of_le hrun hj).1.subset hmem)
  have hdestroyed : Eventually (fun m => .connectDestroyed conn ∈ (states m).log) k := by
    obtain ⟨c, g, hg⟩ := stage_later hrun hinv hlt (Nat.le_refl k)
    rcases hg.removed.mp hremoved with rfl | rfl
    · obtain ⟨loop, hposted⟩ := mem_of_pending hg.toDestroy
      exact posted_run hrun hinv hgoes hposted
    · refine .now (List.count_pos_iff.mp ?_)
      rw [hg.destroyed]
      exact Nat.one_pos
  obtain ⟨m, hm, hmem⟩ := hdestroyed
  exact ⟨m, hm, hmem, fun j hj => habsent j (Nat.le_trans hm hj)⟩

/-- **No connection lingers**: in every run without force close in which the loops go on, a
    connection that has been accepted is established, and one that has called its close callback
    leaves the table, for ever, and is destroyed. -/
theorem none_lingers {ip : AddressV4} {cc mc : Bool} (hzero : states 0 = new ip cc mc)
    (hrun : Forever step states events) (hpeaceful : ∀ k, (states k).Peaceful (events k))
    (hgoes : GoesOn states events) {conn : Nat} {served : Served}
    (hserved : (states k).accepted[conn]? = some served) :
    Eventually (fun m => .connectEstablished conn ∈ (states m).log) k ∧
    (.closeCallback ∈ served.connection.trace →
      Eventually (fun m => .connectDestroyed conn ∈ (states m).log ∧
        ∀ j, m ≤ j → (states j).Absent conn) k) := by
  -- the invariant holds all along
  have hinv : ∀ k, ServerInv (states k) := by
    refine hrun.keeps ?_ hpeaceful (hzero ▸ new_inv ip cc mc)
    intro s e s' hs hg hs'
    have hkeeps := step_keepsServer hs e hg
    rw [hs'] at hkeeps
    exact holds_ok.mp hkeeps
  have hlt : conn < (states k).accepted.length := (List.getElem?_eq_some_iff.mp hserved).1
  obtain ⟨g, hg⟩ := (hinv k).stages conn served hserved
  -- either the handler is still posted, or it has run
  refine ⟨?_, fun hclosed => ?_⟩
  · by_cases hnew : g = .accepted
    · have hpending := hg.toEstablish
      rw [if_pos hnew] at hpending
      obtain ⟨loop, hposted⟩ := mem_of_pending hpending
      exact posted_run hrun hinv hgoes hposted
    · refine .now (List.count_pos_iff.mp ?_)
      rw [hg.established, if_neg hnew]
      exact Nat.one_pos
  · -- the close callback has been called once, so the connection is past `established`
    have hcount := List.count_pos_iff.mpr hclosed
    rw [hg.standing.closes] at hcount
    have hremoved : Eventually (fun m => (states m).Removed conn) k := by
      by_cases hclosing : g = .closed
      · have hpending := hg.toRemove
        rw [if_pos hclosing] at hpending
        obtain ⟨loop, hposted⟩ := mem_of_pending hpending
        exact posted_run hrun hinv hgoes hposted
      · refine .now (hg.removed.mpr ?_)
        cases g with
        | accepted => exact absurd hcount (Nat.lt_irrefl 0)
        | established => exact absurd hcount (Nat.lt_irrefl 0)
        | closed => exact absurd rfl hclosing
        | removed => exact .inl rfl
        | destroyed => exact .inr rfl
    exact hremoved.bind fun m hm hrem => destroyed_of_removed hrun hinv hgoes
      (Nat.lt_of_lt_of_le hlt (grows_of_le hrun hm).2) hrem

end Runs

section Examples

attribute [local instance] VectorImpl.exact

/-- A connection on the loop of a thread closes while another one is being established. -/
def oneCloses : List Event :=
  [.setThreadNum 2, .start, .accept [], .runPosted 0 [], .accept [],
    .io 0 (.socket (.readError [])), .runPosted 1 [], .runPosted 0 [], .runPosted 0 []]

/-- The states of the run in which one connection closes. -/
def oneClosesAt (k : Nat) : TcpServer := statesOf step (new ⟨10, 0, 0, 1⟩ true true) oneCloses k

/-- In it every posted handler is run: behind its end nothing is posted. -/
theorem oneCloses_goesOn {s : TcpServer}
    (hrun : run step (new ⟨10, 0, 0, 1⟩ true true) oneCloses = .ok s)
    (hposted : s.posted = []) : GoesOn oneClosesAt (eventsOf oneCloses (.runPosted 0 [])) := by
  intro loop k hne
  obtain ⟨task, htask⟩ := List.exists_mem_of_ne_nil _ hne
  have hmem := mem_queued.mp htask
  by_cases hlt : k < 9
  · have hall : ∀ k < 9, ∀ p ∈ (oneClosesAt k).posted, ∃ m < 9, k ≤ m ∧
        (oneClosesAt m).RunsFirst p.1 (eventsOf oneCloses (.runPosted 0 []) m) := by decide +kernel
    obtain ⟨m, -, hle, hruns⟩ := hall k hlt _ hmem
    exact ⟨m, hle, hruns⟩
  · have hend : oneClosesAt k = s := statesOf_of_le hrun (by show 9 ≤ k; omega)
    rw [hend, hposted] at hmem
    exact absurd hmem List.not_mem_nil

/-- The conditions can be met: one connection is accepted, closes, and is gone for good. -/
theorem none_lingers_oneCloses : ∃ states events served, states 0 = new ⟨10, 0, 0, 1⟩ true true ∧
    Forever step states events ∧ (∀ k, (states k).Peaceful (events k)) ∧ GoesOn states events ∧
    (states 6).accepted[0]? = some served ∧
    Eventually (fun m => .connectDestroyed 0 ∈ (states m).log ∧ ∀ j, m ≤ j →
      (states j).Absent 0) 6 := by
  have hend : (run step (new ⟨10, 0, 0, 1⟩ true true) oneCloses).toOption.map (·.posted) =
      some [] := by
    decide +kernel
  cases hrun : run step (new ⟨10, 0, 0, 1⟩ true true) oneCloses with
  | error e =>
    rw [hrun] at hend
    cases hend
  | ok s =>
    rw [hrun] at hend
    have hposted : s.posted = [] := Option.some.inj hend
    have hidle : step s (.runPosted 0 []) = .ok s := by
      rw [step, runPosted, hposted]
      rfl
    have hguard : Guarded step Peaceful (new ⟨10, 0, 0, 1⟩ true true) oneCloses := by decide +kernel
    have hpeaceful := hguard.forever hrun (show s.Peaceful (.runPosted 0 []) from unforced_nil)
    have hforever := forever_of_run hrun hidle
    have hgoes := oneCloses_goesOn hrun hposted
    have hclosed : ∃ served, (oneClosesAt 6).accepted[0]? = some served ∧
        .closeCallback ∈ served.connection.trace := by
      have hdone : ((oneClosesAt 6).accepted[0]?.map fun served =>
          decide (.closeCallback ∈ served.connection.trace)) = some true := by decide +kernel
      obtain ⟨served, hserved, hmem⟩ := Option.map_eq_some_iff.mp hdone
      exact ⟨served, hserved, of_decide_eq_true hmem⟩
    obtain ⟨served, hserved, hmem⟩ := hclosed
    exact ⟨oneClosesAt, _, served, rfl, hforever, hpeaceful, hgoes, hserved,
      (none_lingers rfl hforever hpeaceful hgoes hserved).2 hmem⟩

end Examples

end TcpServer

end IOEvent
