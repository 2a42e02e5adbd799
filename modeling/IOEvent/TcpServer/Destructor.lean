/-
  The destructor of a server, and what its connections do afterwards.

  `~TcpServer` dispatches `connectDestroyed` to every connection in the table.  That handler acts
  on a connected connection only, cancels no read, and leaves the close callback, which is bound
  to the server that is going.  Then the members are destroyed, the pool among them, and the pool
  stops its loops one after the other and joins their threads.  When the destructor is through, a
  connection on a loop of the pool does nothing any more; but without threads the connections are
  on the base loop, which goes on running.

  `Teardown` is what is left: the connections with the posted handlers, the loops that have not
  been stopped yet, and the connections that have called the close callback since the destructor
  was through.  `Parted` is the condition, on the server before its destructor, under which there
  are none, whatever happens later: a read error of a `kDisconnecting` connection is what calls
  it.

  `destructor_quiet` leaves some things out.  A `shutdown()` that another thread has begun before
  the destructor is no event of `Teardown`, and neither is one that a callback called by
  `~TcpServer` makes on another connection than its own.  A close callback called between the end
  of the destructor's body and the stop of the pool, while the members are going, counts as one
  of the living server: `invoked` begins when the last loop has been stopped.  And a removal that
  was posted before that and is run later is a fault of its own (`serverDestroyed`), not an entry
  of `invoked`.
-/
import IOEvent.TcpServer.Parting
import IOEvent.TcpServer.Table

open Foundation

namespace IOEvent

namespace TcpServer

/-! ## The destructor

  `~TcpServer`, and what can happen behind it: posted handlers and completions on the loops
  that are alive, and the stop of these loops, one after the other. -/

/-- An accepted connection. -/
def connectionOf (s : TcpServer) (conn : Nat) : Option TcpConnection :=
  s.accepted[conn]?.map Served.connection

/-- The connections in the table. -/
def live (s : TcpServer) : List Nat := s.connections_.entries.map Sigma.snd

/-- What is left of a server. -/
structure Teardown where
  server : TcpServer
  /-- The loops of the pool that have not been stopped. -/
  running : List Nat
  /-- The connections that have called the close callback of the server that is no more. -/
  invoked : List Nat

section Machine

variable [VectorImpl]

/-- One turn of the destructor's loop, on the base loop. -/
def destroyItem (onConnection : Nat → List Act) (s : TcpServer) (conn : Nat) : M :=
  match s.accepted[conn]? with
  | none => return s
  | some served => s.dispatch 0 served.loop_ (onConnection conn) (.connectDestroyed conn)

/-- `~TcpServer`.  In which order the table is gone through makes no difference to what follows. -/
def destroy (s : TcpServer) (onConnection : Nat → List Act) :
    Outcome ServerFault TcpServer Teardown := do
  let s ← run (destroyItem onConnection) s s.live
  return ⟨s, s.threadPool_.io_contexts_, []⟩

namespace Teardown

/-- What is left, with another state of the server. -/
def setServer (t : Teardown) (s : TcpServer) : Teardown := { t with server := s }

/-- The loop runs handlers: one of the pool until it is stopped, the base loop when the destructor
    is through. -/
def Alive (t : Teardown) (loop : Nat) : Prop :=
  if loop = 0 then t.running = [] else loop ∈ t.running

/-- Whether a loop still runs can be computed. -/
instance (t : Teardown) (loop : Nat) : Decidable (t.Alive loop) :=
  inferInstanceAs (Decidable (ite _ _ _))

/-- What can happen while the pool is being stopped, and after that. -/
inductive Event
  | runPosted (i : Nat) (onConnection : List Act)
  | socket (conn : Nat) (e : SocketEvent)
  /-- The next loop of the pool is stopped. -/
  | stop

/-- A step leaves something behind, or stops with a fault. -/
abbrev M := Outcome ServerFault Teardown Teardown

/-- A handler bound to the server cannot be run once that is no more. -/
def handle (t : Teardown) (loop : Nat) (onConnection : List Act) (task : ServerTask) : M :=
  match t.running, task with
  | [], .removeConnectionInThisThread _ => .error (.serverDestroyed, t)
  | _, _ => do
    let s ← within t.setServer (t.server.handle loop onConnection task)
    return t.setServer s

/-- A posted handler is run, if its loop is alive and none before it is for the same loop. -/
def runPosted (t : Teardown) (i : Nat) (onConnection : List Act) : M :=
  match t.server.posted[i]? with
  | none => return t
  | some (loop, task) =>
    if t.Alive loop ∧ ∀ p ∈ t.server.posted.take i, p.1 ≠ loop then
      (t.setServer { t.server with posted := t.server.posted.eraseIdx i }).handle loop
        onConnection task
    else
      return t

/-- A handler of a connection, when the server is no more. -/
def orphan (t : Teardown) (conn : Nat) (served : Served) (e : SocketEvent) : M :=
  match served.connection.step e.event with
  | .error (f, c) => .error (.connection f, t.setServer (t.server.setConnection conn c))
  | .ok c =>
    let t := t.setServer (t.server.setConnection conn c)
    if c.trace.count .closeCallback = served.connection.trace.count .closeCallback then
      return t
    else
      .error (.serverDestroyed, { t with invoked := t.invoked ++ [conn] })

/-- Something happens on the socket of a connection, if its loop is alive. While the server is
    still there the close callback reaches it; afterwards the connection is an orphan. -/
def socket (t : Teardown) (conn : Nat) (e : SocketEvent) : M :=
  match t.server.accepted[conn]? with
  | none => return t
  | some served =>
    if t.Alive served.loop_ then
      if t.running = [] then
        t.orphan conn served e
      else do
        let s ← within t.setServer (t.server.io conn (.socket e))
        return t.setServer s
    else
      return t

/-- One step. -/
def step (t : Teardown) : Event → M
  | .runPosted i onConnection => t.runPosted i onConnection
  | .socket conn e => t.socket conn e
  | .stop => return { t with running := t.running.tail }

end Teardown

/-! ## The property and the condition

  The property is about every later order of events; the condition looks at the server before
  the destructor and at nothing else. -/

/-- The close callback has not been called since the server is gone. -/
def Teardown.Silent (r : Teardown.M) : Prop :=
  Holds (fun t => t.invoked = []) (fun e => e.2.invoked = []) r

/-- Whatever happens after the destructor, the close callback is not called. -/
def Quiet (s : TcpServer) (onConnection : Nat → List Act) : Prop :=
  ∀ t, s.destroy onConnection = .ok t → ∀ es, Teardown.Silent (run Teardown.step t es)

end Machine

/-- What a running server guarantees of its connections, whatever states they are in. -/
structure Live (s : TcpServer) : Prop where
  loops : ∀ conn loop, s.loopOf conn = some loop → (loop = 0 ↔ s.threadPool_.io_contexts_ = [])
  listed : ∀ conn c, s.connectionOf conn = some c → conn ∈ s.live ∨ c.reading = none
  callback : ∀ conn c, s.connectionOf conn = some c → c.closeCallback_ = true
  output : ∀ conn c, s.connectionOf conn = some c → c.outputBuffer_.Ok
  /-- Without threads only `connectDestroyed` is ever posted. -/
  posted : s.threadPool_.io_contexts_ = [] → ∀ p ∈ s.posted, ∃ conn, p.2 = .connectDestroyed conn

/-- The server has threads; or its destructor fails, as it calls an empty connection callback;
    or no connection that is disconnecting has a read outstanding. A connection of the third
    kind is one that was shut down, and waits for its peer to close. -/
def Parted (s : TcpServer) : Prop :=
  s.threadPool_.io_contexts_ ≠ [] ∨
  (∃ conn ∈ s.live, ∃ c, s.connectionOf conn = some c ∧ c.state_ = .kConnected ∧
    c.connectionCallback_ = false) ∨
  ∀ conn ∈ s.live, ∀ c, s.connectionOf conn = some c → c.state_ = .kDisconnecting → c.reading = none

/-! ## The destructor, connection by connection

  It goes through the table, which may be in any order.  What it does to a connection depends on
  that one alone. -/

section Frames

variable {s s' : TcpServer} {conn : Nat} {c : TcpConnection}

/-- The connections behind a change of one of them. -/
@[simp] theorem connectionOf_setConnection (i : Nat) : (s.setConnection conn c).connectionOf i =
    if conn = i then (s.connectionOf i).map fun _ => c else s.connectionOf i := by
  rw [connectionOf, connectionOf, accepted_setConnection]
  split <;> simp [Function.comp_def]

/-- A connection that there is was accepted. -/
theorem connectionOf_eq_some : s.connectionOf conn = some c ↔
    ∃ served, s.accepted[conn]? = some served ∧ served.connection = c := Option.map_eq_some_iff

/-- Having a connection and having a loop is one thing. -/
theorem connectionOf_isSome : (s.connectionOf conn).isSome = (s.loopOf conn).isSome := by
  rw [connectionOf, loopOf, Option.isSome_map, Option.isSome_map]

/-- The destructor has been through the connections `l`, on the base loop. -/
structure WentThrough (l : List Nat) (s s' : TcpServer) : Prop where
  loops : ∀ i, s'.loopOf i = s.loopOf i
  pool : s'.threadPool_ = s.threadPool_
  posted : s'.posted = s.posted
  others : ∀ i ∉ l, s'.connectionOf i = s.connectionOf i
  dropped : ∀ i ∈ l, ∀ c, s.connectionOf i = some c → ∃ c', s'.connectionOf i = some c' ∧
    c.Dropped c'

/-- At the start the loop has been through none. -/
theorem WentThrough.refl (s : TcpServer) : WentThrough [] s s :=
  ⟨fun _ => rfl, rfl, rfl, fun _ _ => rfl, nofun⟩

/-- It goes through the connections one after the other. -/
theorem WentThrough.cons {s'' : TcpServer} {l : List Nat} (h : WentThrough [conn] s s')
    (h' : WentThrough l s' s'') : WentThrough (conn :: l) s s'' where
  loops := fun i => (h'.loops i).trans (h.loops i)
  pool := h'.pool.trans h.pool
  posted := h'.posted.trans h.posted
  others := by
    intro i hi
    have hl : i ∉ l := fun hmem => hi (List.mem_cons_of_mem conn hmem)
    have hne : i ∉ [conn] := fun hmem => hi (by simp [List.mem_singleton.mp hmem])
    rw [h'.others i hl, h.others i hne]
  dropped := by
    intro i hi c hc
    by_cases hconn : i ∈ [conn]
    · obtain ⟨c₁, hc₁, hdrop⟩ := h.dropped i hconn c hc
      by_cases hl : i ∈ l
      · obtain ⟨c₂, hc₂, hdrop'⟩ := h'.dropped i hl c₁ hc₁
        exact ⟨c₂, hc₂, hdrop.trans hdrop'⟩
      · exact ⟨c₁, (h'.others i hl).trans hc₁, hdrop⟩
    · have hl : i ∈ l := (List.mem_cons.mp hi).resolve_left (by simpa using hconn)
      exact h'.dropped i hl c ((h.others i hconn).trans hc)

/-- What the connection was before the destructor got to it. -/
theorem WentThrough.before {l : List Nat} (h : WentThrough l s s')
    (hc : s'.connectionOf conn = some c) :
    ∃ c₀, s.connectionOf conn = some c₀ := by
  rw [← Option.isSome_iff_exists, connectionOf_isSome, ← h.loops, ← connectionOf_isSome, hc]
  rfl

/-- Every connection is on the base loop. -/
structure OnBase (s : TcpServer) : Prop where
  loops : ∀ conn loop, s.loopOf conn = some loop → loop = 0
  output : ∀ conn c, s.connectionOf conn = some c → c.outputBuffer_.Ok

/-- On the way every connection stays on the base loop. -/
theorem OnBase.through {l : List Nat} (h : OnBase s) (hl : WentThrough l s s') : OnBase s' where
  loops := by
    intro i loop hi
    rw [hl.loops] at hi
    exact h.loops i loop hi
  output := by
    intro i c hc
    obtain ⟨c₀, hc₀⟩ := hl.before hc
    by_cases hi : i ∈ l
    · obtain ⟨c', hc', hdrop⟩ := hl.dropped i hi c₀ hc₀
      obtain rfl := Option.some.inj (hc.symm.trans hc')
      exact hdrop.output
    · rw [hl.others i hi] at hc
      exact h.output i c hc

/-- A connected connection without a connection callback makes the destructor fail. -/
def Crashes (s : TcpServer) (conn : Nat) : Prop :=
  ∃ c, s.connectionOf conn = some c ∧ c.state_ = .kConnected ∧ c.connectionCallback_ = false

/-- Whether another connection makes it fail does not change. -/
theorem WentThrough.crashes (h : WentThrough [conn] s s')
    (hno : ¬ s.Crashes conn) (i : Nat) : s'.Crashes i ↔ s.Crashes i := by
  by_cases hi : i ∈ [conn]
  · obtain rfl := List.mem_singleton.mp hi
    refine ⟨fun ⟨c', hc', hstate, _⟩ => ?_, fun hcrash => absurd hcrash hno⟩
    obtain ⟨c, hc⟩ := h.before hc'
    obtain ⟨c₁, hc₁, hdrop⟩ := h.dropped i hi c hc
    obtain rfl := Option.some.inj (hc'.symm.trans hc₁)
    exact absurd hstate hdrop.not_connected
  · unfold Crashes
    rw [h.others i hi]

end Frames

section Steps

variable [VectorImpl] {s : TcpServer} {onConnection : Nat → List Act}

/-- **One turn of the loop of the destructor** without threads: it takes the connection down at
    once, or fails because the connection callback is empty. -/
theorem destroyItem_cases (h : OnBase s) (conn : Nat) :
    (∃ s', destroyItem onConnection s conn = .ok s' ∧ WentThrough [conn] s s' ∧ ¬ s.Crashes conn) ∨
    (s.Crashes conn ∧ ∃ e, destroyItem onConnection s conn = .error e) := by
  rw [destroyItem]
  split
  case h_1 hnone =>
    have hc : s.connectionOf conn = none := by rw [connectionOf, hnone, Option.map_none]
    refine .inl ⟨s, rfl, ⟨fun _ => rfl, rfl, rfl, fun _ _ => rfl, fun i hi c hi' => ?_⟩, ?_⟩
    · rw [List.mem_singleton.mp hi, hc] at hi'
      cases hi'
    · rintro ⟨c, hc', -⟩
      rw [hc] at hc'
      cases hc'
  case h_2 served hserved =>
    have hloop : served.loop_ = 0 := h.loops conn _ (by rw [loopOf, hserved, Option.map_some])
    have hc : s.connectionOf conn = some served.connection := by
      rw [connectionOf, hserved, Option.map_some]
    have hone : ∀ c, s.connectionOf conn = some c → c = served.connection :=
      fun c hc' => Option.some.inj (hc'.symm.trans hc)
    rw [hloop, dispatch, if_pos rfl, handle, connectDestroyed, hserved]
    dsimp only
    rw [require_pos _ _ hloop.symm, ok_bind]
    -- `connectDestroyed` fails exactly when it has to call a callback that is not there
    rcases TcpConnection.connectDestroyed_cases (h.output conn _ hc) (onConnection conn) with
      ⟨c', hc', hdrop, hcb⟩ | ⟨hstate, hcb, e, he⟩
    · rw [hc']
      refine .inl ⟨_, rfl, ⟨?_, rfl, rfl, ?_, ?_⟩, ?_⟩
      · exact fun i => loopOf_setConnection i
      · intro i hi
        rw [connectionOf_setConnection, if_neg (Ne.symm (by simpa using hi))]
        rfl
      · intro i hi c hi'
        obtain rfl := List.mem_singleton.mp hi
        rw [connectionOf_setConnection, if_pos rfl]
        refine ⟨c', ?_, hone c hi' ▸ hdrop⟩
        show (s.connectionOf i).map _ = _
        rw [hc, Option.map_some]
      · rintro ⟨c, hc', hstate, hno⟩
        rw [hone c hc'] at hstate hno
        exact absurd ((hcb hstate).symm.trans hno) (by decide)
    · rw [he]
      exact .inr ⟨⟨_, hc, hstate, hcb⟩, _, rfl⟩

/-- **The destructor** goes through all of them, or fails at one. -/
theorem destroyAll_cases (onConnection : Nat → List Act) (l : List Nat) :
    ∀ {s : TcpServer}, OnBase s →
      (∃ s', run (destroyItem onConnection) s l = .ok s' ∧ WentThrough l s s' ∧
      ∀ conn ∈ l, ¬ s.Crashes conn) ∨
    ((∃ conn ∈ l, s.Crashes conn) ∧ ∃ e, run (destroyItem onConnection) s l = .error e) := by
  induction l with
  | nil => exact fun _ => .inl ⟨_, rfl, WentThrough.refl _, nofun⟩
  | cons conn l ih =>
    intro s h
    rw [run_cons]
    rcases destroyItem_cases h conn with ⟨s₁, hs₁, hone, hno⟩ | ⟨hcrash, e, he⟩
    · rw [hs₁, ok_bind]
      rcases ih (h.through hone) with ⟨s', hs', hl, hnone⟩ | ⟨⟨i, hi, hcrash⟩, e, he⟩
      · refine .inl ⟨s', hs', hone.cons hl, fun i hi => ?_⟩
        rcases List.mem_cons.mp hi with rfl | hi
        · exact hno
        · exact (hone.crashes hno i).not.mp (hnone i hi)
      · exact .inr ⟨⟨i, List.mem_cons_of_mem conn hi, (hone.crashes hno i).mp hcrash⟩, e, he⟩
    · rw [he, error_bind]
      exact .inr ⟨⟨conn, List.mem_cons_self, hcrash⟩, e, rfl⟩

end Steps

/-! ## What the handlers leave alone

  A handler that was posted before the destructor may be run behind it, as long as its loop is
  alive.  Neither the loops nor the pool change with it. -/

section Handlers

variable {s s' : TcpServer}

/-- What no handler of a server changes. -/
structure SameLoops (s s' : TcpServer) : Prop where
  loops : ∀ i, s'.loopOf i = s.loopOf i
  pool : s'.threadPool_ = s.threadPool_

/-- What a handler that has been dispatched changes: it posts nothing but `connectDestroyed`. -/
structure Handled (s s' : TcpServer) : Prop extends SameLoops s s' where
  posted : ∀ p ∈ s'.posted, p ∈ s.posted ∨ ∃ conn, p.2 = .connectDestroyed conn

/-- Keeping the loops composes. -/
theorem SameLoops.trans {s'' : TcpServer} (h : SameLoops s s') (h' : SameLoops s' s'') :
    SameLoops s s'' :=
  ⟨fun i => (h'.loops i).trans (h.loops i), h'.pool.trans h.pool⟩

/-- Nothing done, nothing handled. -/
theorem Handled.refl (s : TcpServer) : Handled s s := ⟨⟨fun _ => rfl, rfl⟩, fun _ => .inl⟩

/-- A change within a connection is no new handler. -/
theorem setConnection_handled (h : Handled s s') (conn : Nat) (c : TcpConnection) :
    Handled s (s'.setConnection conn c) where
  loops := fun i => (loopOf_setConnection i).trans (h.loops i)
  pool := h.pool
  posted := h.posted

/-- An operation within a connection posts nothing to the server. -/
theorem inConnection_handled (h : Handled s s') (conn : Nat)
    (r : Outcome Fault TcpConnection TcpConnection) :
    Holds (Handled s) (fun e => Handled s e.2) (s'.inConnection conn r) := by
  cases r with
  | ok c => exact .ok (setConnection_handled h conn c)
  | error e => exact .error (setConnection_handled h conn e.2)

/-- **A removal posts the destruction and nothing else.** -/
theorem removeConnectionInThisThread_handled (loop conn : Nat) :
    Holds (Handled s) (fun e => Handled s e.2) (s.removeConnectionInThisThread loop conn) := by
  rw [removeConnectionInThisThread]
  split
  · exact .ok (.refl s)
  · unfold require
    split
    · rw [ok_bind]
      dsimp only
      split
      · refine .ok ⟨⟨fun _ => rfl, rfl⟩, fun p hp => ?_⟩
        rcases List.mem_append.mp hp with hp | hp
        · exact .inl hp
        · rw [List.mem_singleton.mp hp]
          exact .inr ⟨conn, rfl⟩
      · exact .error ⟨⟨fun _ => rfl, rfl⟩, fun _ => .inl⟩
    · exact .error (.refl s)

variable [VectorImpl]

/-- So the handlers that a handler posts are destructions. -/
theorem handle_handled (loop : Nat) (onConnection : List Act) (task : ServerTask) :
    Holds (Handled s) (fun e => Handled s e.2) (s.handle loop onConnection task) := by
  have hobs : ∀ o, Handled s (s.observe o) := fun _ => ⟨⟨fun _ => rfl, rfl⟩, fun _ => .inl⟩
  cases task with
  | connectEstablished conn =>
    show Holds _ _ (s.connectEstablished loop conn onConnection)
    rw [connectEstablished]
    split
    · exact .ok (.refl s)
    · rw [require]
      split
      · exact inConnection_handled (hobs (.connectEstablished conn)) conn _
      · exact .error (.refl s)
  | removeConnectionInThisThread conn => exact removeConnectionInThisThread_handled loop conn
  | connectDestroyed conn =>
    show Holds _ _ (s.connectDestroyed loop conn onConnection)
    rw [connectDestroyed]
    split
    · exact .ok (.refl s)
    · rw [require]
      split
      · exact inConnection_handled (hobs (.connectDestroyed conn)) conn _
      · exact .error (.refl s)

/-- What a handler leaves of the loops, whether it returns or fails. -/
def KeepsLoops (s : TcpServer) (r : M) : Prop := Holds (SameLoops s) (fun e => SameLoops s e.2) r

/-- A handler leaves each connection on its loop. -/
theorem handle_loops (loop : Nat) (onConnection : List Act) (task : ServerTask) :
    KeepsLoops s (s.handle loop onConnection task) :=
  (handle_handled loop onConnection task).mono (fun _ h => h.toSameLoops) fun _ h => h.toSameLoops

/-- So does a dispatch. -/
theorem dispatch_loops (current target : Nat) (onConnection : List Act) (task : ServerTask) :
    KeepsLoops s (s.dispatch current target onConnection task) := by
  rw [dispatch]
  split
  · exact handle_loops target onConnection task
  · exact .ok ⟨fun _ => rfl, rfl⟩

/-- So does what happens on a connection. -/
theorem io_loops (conn : Nat) (e : Io) : KeepsLoops s (s.io conn e) := by
  rw [io]
  split
  · exact .ok (Handled.refl s).toSameLoops
  · split
    case h_1 f c _ => exact .error (setConnection_handled (.refl s) conn c).toSameLoops
    case h_2 c _ =>
      have hset := (setConnection_handled (.refl s) conn c).toSameLoops
      split
      · exact .ok hset
      · exact (dispatch_loops _ _ _ _).mono (fun _ h => hset.trans h) fun _ h => hset.trans h

end Handlers

/-! ## Every later order of events

  With threads, a connection is on a loop of the pool and that has been stopped.  Without, it
  goes on, and then `Resting` says that no read of it can close it.  The other direction builds
  the failing order: the read of a disconnecting connection fails. -/

namespace Teardown

variable {t : Teardown}

/-- The connections are on loops of the pool. -/
structure OnThreads (t : Teardown) : Prop where
  invoked : t.invoked = []
  loops : ∀ conn loop, t.server.loopOf conn = some loop → loop ≠ 0

/-- With the loops as they were, what lives on threads still does. -/
theorem OnThreads.setServer (h : OnThreads t) {s : TcpServer} (hs : SameLoops t.server s) :
    OnThreads (t.setServer s) where
  invoked := h.invoked
  loops := by
    intro i loop hi
    exact h.loops i loop ((hs.loops i).symm.trans hi)

/-- The connections are on the base loop, and none of them can be closed by a read error. -/
structure Resting (t : Teardown) : Prop where
  invoked : t.invoked = []
  running : t.running = []
  spared : ∀ conn c, t.server.connectionOf conn = some c → c.Spared
  posted : ∀ p ∈ t.server.posted, ∃ conn, p.2 = .connectDestroyed conn

/-- A connection that is spared may change; the others rest. -/
theorem Resting.setConnection (h : Resting t) (conn : Nat) {c : TcpConnection} (hc : c.Spared) :
    Resting (t.setServer (t.server.setConnection conn c)) where
  invoked := h.invoked
  running := h.running
  spared := by
    intro i c' hi
    change (t.server.setConnection conn c).connectionOf i = some c' at hi
    rw [connectionOf_setConnection] at hi
    split at hi
    · obtain ⟨c₀, -, rfl⟩ := Option.map_eq_some_iff.mp hi
      exact hc
    · exact h.spared i c' hi
  posted := h.posted

/-- A handler of the server, in what is left of it. -/
theorem within_onThreads (h : OnThreads t) {r : TcpServer.M} (hr : KeepsLoops t.server r) :
    Holds OnThreads (fun e => e.2.invoked = [])
      (within t.setServer r >>= fun s => .ok (t.setServer s)) := by
  cases hr with
  | ok hs => exact .ok (h.setServer hs)
  | error _ => exact .error h.invoked

variable [VectorImpl]

/-- **With threads no step calls the close callback**: the loops of the connections are stopped
    before the server is gone, and a stopped loop runs nothing. -/
theorem step_onThreads (h : OnThreads t) (e : Event) :
    Holds OnThreads (fun e => e.2.invoked = []) (t.step e) := by
  -- `stop` and the posted handlers only add work for loops of the pool
  cases e with
  | stop => exact .ok ⟨h.invoked, h.loops⟩
  | runPosted i onConnection =>
    show Holds _ _ (t.runPosted i onConnection)
    rw [runPosted]
    split
    · exact .ok h
    · split
      · have hrest : OnThreads
            (t.setServer { t.server with posted := t.server.posted.eraseIdx i }) :=
          ⟨h.invoked, h.loops⟩
        unfold handle
        split
        · exact .error h.invoked
        · exact within_onThreads hrest (handle_loops _ _ _)
      · exact .ok h
  -- an event of a socket needs a loop of the pool that still runs
  | socket conn e =>
    show Holds _ _ (t.socket conn e)
    rw [socket]
    split
    · exact .ok h
    case h_2 served hserved =>
      have hloop : served.loop_ ≠ 0 := h.loops conn _ (by rw [loopOf, hserved, Option.map_some])
      split
      case isTrue halive =>
        split
        case isTrue hnone =>
          rw [Alive, if_neg hloop, hnone] at halive
          exact absurd halive List.not_mem_nil
        case isFalse => exact within_onThreads h (io_loops conn _)
      case isFalse => exact .ok h

/-- The posted destruction of a resting connection finds it down and does nothing. -/
theorem connectDestroyed_resting (h : Resting t) (loop conn : Nat) (onConnection : List Act) :
    Holds Resting (fun e => e.2.invoked = [])
    (t.handle loop onConnection (.connectDestroyed conn)) := by
  -- the pool is down, so the handler runs on the server as it is
  have hhandle : t.handle loop onConnection (.connectDestroyed conn) =
      within t.setServer (t.server.connectDestroyed loop conn onConnection) >>=
        fun s => .ok (t.setServer s) := by
    unfold handle
    rw [h.running]
    rfl
  rw [hhandle, connectDestroyed]
  split
  · exact .ok h
  case h_2 served hserved =>
    have hc := h.spared conn served.connection (by rw [connectionOf, hserved, Option.map_some])
    rw [require]
    split
    · rw [ok_bind]
      have hobs : Resting (t.setServer (t.server.observe (.connectDestroyed conn))) :=
        ⟨h.invoked, h.running, h.spared, h.posted⟩
      -- the connection may be up or down by now; either way no close callback is called
      rcases TcpConnection.connectDestroyed_cases hc.output onConnection with
        ⟨c', hc', hdrop, -⟩ | ⟨-, -, e, he⟩
      · rw [hc']
        apply Holds.ok
        apply hobs.setConnection conn
        apply hdrop.spared
        intro hstate
        refine hc.safe.resolve_right ?_
        rw [hstate]
        decide
      · rw [he]
        exact .error h.invoked
    · exact .error h.invoked

/-- **Without threads, resting connections call nobody**: none of them has both a read outstanding
    and a state in which its failure closes. -/
theorem step_resting (h : Resting t) (e : Event) :
    Holds Resting (fun e => e.2.invoked = []) (t.step e) := by
  -- after the destructor only `connectDestroyed` handlers are left
  cases e with
  | stop => exact .ok ⟨h.invoked, by rw [h.running]; rfl, h.spared, h.posted⟩
  | runPosted i onConnection =>
    show Holds _ _ (t.runPosted i onConnection)
    rw [runPosted]
    split
    · exact .ok h
    case h_2 loop task hposted =>
      split
      · -- the handler of the queue is one of these
        obtain ⟨conn, htask⟩ := h.posted _ (List.mem_of_getElem? hposted)
        obtain rfl : task = .connectDestroyed conn := htask
        have hrest : Resting (t.setServer { t.server with posted := t.server.posted.eraseIdx i }) :=
          ⟨h.invoked, h.running, h.spared, fun p hp => h.posted p (List.mem_of_mem_eraseIdx hp)⟩
        generalize t.setServer { t.server with posted := t.server.posted.eraseIdx i } = t' at hrest
        exact connectDestroyed_resting hrest loop conn onConnection
      · exact .ok h
  | socket conn e =>
    show Holds _ _ (t.socket conn e)
    rw [socket]
    split
    · exact .ok h
    case h_2 served hserved =>
      split
      -- the server is gone, so the socket has its connection only
      case isTrue =>
        rw [if_pos h.running]
        have hc := h.spared conn served.connection (by rw [connectionOf, hserved, Option.map_some])
        have hstep := TcpConnection.socket_spared hc e
        rw [orphan]
        split
        · exact .error h.invoked
        case h_2 c' hc' =>
          rw [hc'] at hstep
          obtain ⟨hspared, hcloses⟩ := holds_ok.mp hstep
          dsimp only
          rw [if_pos hcloses]
          exact .ok (h.setConnection conn hspared)
      case isFalse => exact .ok h

end Teardown

section Quiet

variable {s : TcpServer} {onConnection : Nat → List Act}

/-- A live server without threads has every connection on the base loop. -/
theorem Live.onBase (h : Live s) (hnone : s.threadPool_.io_contexts_ = []) : OnBase s where
  loops := fun conn loop hloop => (h.loops conn loop hloop).mpr hnone
  output := h.output

variable [VectorImpl]

/-- With threads the destructor is quiet, whatever states its connections are in. -/
theorem quiet_of_threads (h : Live s) (hthreads : s.threadPool_.io_contexts_ ≠ []) :
    Quiet s onConnection := by
  intro t ht es
  obtain ⟨s', hs', ht'⟩ := bind_ok ht
  cases ht'
  have hitem : ∀ s₁ conn, SameLoops s s₁ →
      Holds (SameLoops s) (fun _ => True) (destroyItem onConnection s₁ conn) := by
    intro s₁ conn hsame
    rw [destroyItem]
    split
    · exact .ok hsame
    · exact (dispatch_loops _ _ _ _).mono (fun _ h' => hsame.trans h') fun _ _ => trivial
  have hall := run_keeps hitem s.live s (Handled.refl s).toSameLoops
  rw [hs'] at hall
  have hsame := holds_ok.mp hall
  have hstart : Teardown.OnThreads ⟨s', s'.threadPool_.io_contexts_, []⟩ := by
    refine ⟨rfl, fun conn loop hloop hzero => ?_⟩
    rw [show s'.loopOf conn = s.loopOf conn from hsame.loops conn] at hloop
    exact hthreads ((h.loops conn loop hloop).mp hzero)
  exact (run_keeps (fun t e ht => Teardown.step_onThreads ht e) es _ hstart).mono
    (fun _ ht => ht.invoked) fun _ => id

/-- On the base loop, when the destructor gets through. -/
theorem quiet_of_parted (h : Live s) (hnone : s.threadPool_.io_contexts_ = [])
    (hparted : ∀ conn ∈ s.live, ∀ c, s.connectionOf conn = some c →
      c.state_ = .kDisconnecting → c.reading = none) : Quiet s onConnection := by
  intro t ht es
  obtain ⟨s', hs', ht'⟩ := bind_ok ht
  cases ht'
  rcases destroyAll_cases onConnection s.live (h.onBase hnone) with
    ⟨s₁, hs₁, hthrough, -⟩ | ⟨-, e, he⟩
  · obtain rfl := Except.ok.inj (hs'.symm.trans hs₁)
    have hstart : Teardown.Resting ⟨s', s'.threadPool_.io_contexts_, []⟩ := by
      refine ⟨rfl, ?_, fun conn c hc => ?_, ?_⟩
      · show s'.threadPool_.io_contexts_ = []
        rw [hthrough.pool, hnone]
      · change s'.connectionOf conn = some c at hc
        obtain ⟨c₀, hc₀⟩ := hthrough.before hc
        by_cases hlive : conn ∈ s.live
        · obtain ⟨c', hc', hdrop⟩ := hthrough.dropped conn hlive c₀ hc₀
          obtain rfl := Option.some.inj (hc.symm.trans hc')
          exact hdrop.spared (hparted conn hlive c₀ hc₀)
        · rw [hthrough.others conn hlive] at hc
          exact ⟨h.output conn c hc, .inl ((h.listed conn c hc).resolve_left hlive)⟩
      · show ∀ p ∈ s'.posted, _
        rw [hthrough.posted]
        exact h.posted hnone
    exact (run_keeps (fun t e ht => Teardown.step_resting ht e) es _ hstart).mono
      (fun _ ht => ht.invoked) fun _ => id
  · cases hs'.symm.trans he

/-- A read error of a disconnecting connection gets to the callback. -/
theorem not_quiet (h : Live s) (hnone : s.threadPool_.io_contexts_ = [])
    (hno : ∀ conn ∈ s.live, ¬ s.Crashes conn) {conn : Nat} (hlive : conn ∈ s.live)
    {c : TcpConnection} (hc : s.connectionOf conn = some c) (hstate : c.state_ = .kDisconnecting)
    {op : AsyncRead}
    (hread : c.reading = some op) : ¬ Quiet s onConnection := by
  intro hquiet
  rcases destroyAll_cases onConnection s.live (h.onBase hnone) with
    ⟨s', hs', hthrough, -⟩ | ⟨⟨i, hi, hcrash⟩, -⟩
  · obtain ⟨c', hc', hdrop⟩ := hthrough.dropped conn hlive c hc
    obtain ⟨served, hserved, rfl⟩ := connectionOf_eq_some.mp hc'
    have hloop : served.loop_ = 0 := by
      apply (h.onBase hnone).loops conn
      rw [← hthrough.loops, loopOf, hserved, Option.map_some]
    -- `connectDestroyed` has left the connection as it was
    have hup : served.connection.state_ = .kConnected ∨ served.connection.state_ =
        .kDisconnecting := by
      right
      rw [hdrop.state, if_neg (by rw [hstate]; decide), hstate]
    obtain ⟨c'', hc'', hcloses⟩ := TcpConnection.readError_closes (hdrop.reading.trans hread) hup
      (hdrop.callbacks.1.trans (h.callback conn c hc))
    have hempty : s'.threadPool_.io_contexts_ = [] := by rw [hthrough.pool, hnone]
    have hdestroy : s.destroy onConnection = .ok ⟨s', [], []⟩ := by
      rw [destroy, hs', ok_bind, hempty]
      rfl
    have hsilent := hquiet _ hdestroy [.socket conn (.readError [])]
    have hstep : Teardown.step ⟨s', [], []⟩ (.socket conn (.readError [])) =
        .error (.serverDestroyed, ⟨s'.setConnection conn c'', [], [conn]⟩) := by
      have hevent : served.connection.step (SocketEvent.readError []).event = .ok c'' := hc''
      show Teardown.socket ⟨s', [], []⟩ conn (.readError []) = _
      rw [Teardown.socket, hserved]
      dsimp only
      rw [hloop, if_pos (show Teardown.Alive ⟨s', [], []⟩ 0 from rfl), if_pos rfl, Teardown.orphan,
        hevent]
      dsimp only
      rw [if_neg (by omega)]
      rfl
    rw [run_cons, hstep, error_bind] at hsilent
    cases holds_error.mp hsilent
  · exact hno i hi hcrash

/-- **After the destructor** the close callback is never called, whatever the remaining handlers and
    the sockets do, exactly when the server has parted with its connections. -/
theorem destructor_quiet (s : TcpServer) (onConnection : Nat → List Act) (h : Live s) :
    Quiet s onConnection ↔ Parted s := by
  by_cases hnone : s.threadPool_.io_contexts_ = []
  · constructor
    · intro hquiet
      by_contra hparted
      rw [Parted] at hparted
      push Not at hparted
      obtain ⟨-, hcb, conn, hlive, c, hc, hstate, hread⟩ := hparted
      obtain ⟨op, hop⟩ := Option.ne_none_iff_exists'.mp hread
      refine not_quiet h hnone ?_ hlive hc hstate hop hquiet
      rintro i hi ⟨c', hc', hconn, hempty⟩
      exact hcb i hi c' hc' hconn hempty
    · rintro (hthreads | ⟨conn, hlive, hcrash⟩ | hparted)
      · exact absurd hnone hthreads
      · intro t ht
        rcases destroyAll_cases onConnection s.live (h.onBase hnone) with
          ⟨-, -, -, hno⟩ | ⟨-, e, he⟩
        · exact absurd hcrash (hno conn hlive)
        · rw [destroy, he, error_bind] at ht
          cases ht
      · exact quiet_of_parted h hnone hparted
  · exact ⟨fun _ => .inl hnone, fun _ => quiet_of_threads h hnone⟩

end Quiet

/-! ## Every server that is reached is live

  `Live` is what the condition needs of a server, and it holds at the end of every peaceful run
  without a fault.  Only the case without threads takes an argument, as all handlers are run
  inside one another there. -/

section Reached

variable {s s' : TcpServer}

/-- Without threads every handler is run at once, but for the `connectDestroyed` that
    `removeConnectionInThisThread` posts. -/
def Inline (s : TcpServer) : Prop :=
  s.threadPool_.io_contexts_ = [] → ∀ p ∈ s.posted, ∃ conn, p.2 = .connectDestroyed conn

/-- Without a new post there is nothing new to be posted. -/
theorem Inline.same (h : Inline s)
    (hpool : s'.threadPool_.io_contexts_ = s.threadPool_.io_contexts_)
    (hposted : s'.posted = s.posted) : Inline s' := by
  rw [Inline, hpool, hposted]
  exact h

/-- What a handler posts is a destruction. -/
theorem Inline.handled (h : Inline s) (hs : Handled s s') : Inline s' := by
  intro hnone p hp
  rw [hs.pool] at hnone
  exact (hs.posted p hp).elim (h hnone p) id

/-- `start()` posts nothing. -/
theorem start_inline (h : Inline s) : Holds Inline (fun _ => True) s.start := by
  unfold start IOLoopThreadPool.run
  split
  · exact .ok h
  · unfold require
    dsimp only
    split
    · exact .ok fun hnone => h (List.append_eq_nil_iff.mp hnone).1
    · exact .error trivial

variable [VectorImpl]

/-- A handler posts destructions only. -/
theorem handle_inline (h : Inline s) (loop : Nat) (onConnection : List Act) (task : ServerTask) :
    Holds Inline (fun _ => True) (s.handle loop onConnection task) :=
  (handle_handled loop onConnection task).mono (fun _ hs => h.handled hs) fun _ _ => trivial

/-- A handler for a loop that is the caller's when there are no threads. -/
theorem dispatch_inline (h : Inline s) {current target : Nat}
    (hsame : s.threadPool_.io_contexts_ = [] → current = target) (onConnection : List Act)
    (task : ServerTask) :
    Holds Inline (fun _ => True) (s.dispatch current target onConnection task) := by
  by_cases hnone : s.threadPool_.io_contexts_ = []
  · rw [dispatch, if_pos (hsame hnone)]
    exact handle_inline h target onConnection task
  · refine (dispatch_loops current target onConnection task).mono (fun s' hs hnone' => ?_)
      fun _ _ => trivial
    rw [hs.pool] at hnone'
    exact absurd hnone' hnone

/-- **Without threads an acceptance establishes the connection at once**, so no establishment is
    posted. -/
theorem newConnection_inline (h : ServerInv s) (hi : Inline s) (hstarted : s.started_ = true)
    (onConnection : List Act) : Holds Inline (fun _ => True) (s.newConnection onConnection) := by
  obtain ⟨ioLoop, pool, hnext, -, -, hcontexts, hzero⟩ :=
    getNextIOLoop_spec h.setup.pool (h.setup.started.trans hstarted)
  rw [newConnection, hnext, within_ok, ok_bind]
  apply dispatch_inline
  · exact hi.same hcontexts rfl
  · intro hnone
    exact (hzero.mpr (hcontexts.symm.trans hnone)).symm

/-- Nor is a removal, as the close callback runs on the base loop already. -/
theorem io_inline (h : ServerInv s) (hi : Inline s) (conn : Nat) (e : Io) :
    Holds Inline (fun _ => True) (s.io conn e) := by
  rw [io]
  split
  · exact .ok hi
  case h_2 served hserved =>
    split
    · exact .error trivial
    case h_2 c _ =>
      have hset : Inline (s.setConnection conn c) := hi.same rfl rfl
      split
      · exact .ok hset
      · apply dispatch_inline hset
        intro hnone
        exact (h.setup.loops conn _ (by rw [loopOf, hserved, Option.map_some])).mpr hnone

/-- **Every step keeps it.** -/
theorem step_inline (h : ServerInv s) (hi : Inline s) (e : Event) :
    Holds Inline (fun _ => True) (s.step e) := by
  cases e with
  | setThreadNum numThreads => exact .ok hi
  | start => exact start_inline hi
  -- `accept`, only after `start`
  | accept onConnection =>
    show Holds _ _ (if s.started_ then _ else _)
    split
    · exact newConnection_inline h hi ‹_› onConnection
    · exact .ok hi
  | runPosted i onConnection =>
    show Holds _ _ (s.runPosted i onConnection)
    -- a posted handler, when it is the first of its loop
    rw [runPosted]
    split
    · exact .ok hi
    · split
      · have hrest : Inline { s with posted := s.posted.eraseIdx i } :=
          fun hnone p hp => hi hnone p (List.mem_of_mem_eraseIdx hp)
        exact handle_inline hrest _ _ _
      · exact .ok hi
  | io conn e => exact io_inline h hi conn e
  | callShutdown conn =>
    apply Holds.ok
    rw [callShutdown]
    split
    · exact hi
    · split <;> exact hi
  | setShutdown i =>
    apply Holds.ok
    rw [setShutdown]
    split
    · exact hi
    · split
      · exact hi
      · exact hi.same rfl rfl

omit [VectorImpl] in
/-- The invariant of the server gives what the destructor relies on. -/
theorem ServerInv.live (h : ServerInv s) (hi : Inline s) : Live s where
  loops := h.setup.loops
  listed := by
    intro conn c hc
    obtain ⟨served, hserved, rfl⟩ := connectionOf_eq_some.mp hc
    obtain ⟨g, hg⟩ := h.stages conn served hserved
    by_cases hclosed : g.standing = .closed
    · have hfits := hg.standing.fits
      rw [hclosed] at hfits
      exact .inr hfits.2.2
    · have hnot : ¬ s.Removed conn := by
        rw [hg.removed]
        rintro (rfl | rfl) <;> exact hclosed rfl
      have hin : s.connections_.lookup served.name_ = some conn :=
        (h.tableOk.table _ _).mpr ⟨by rw [nameOf, hserved, Option.map_some], hnot⟩
      exact .inl (List.mem_map_of_mem (f := Sigma.snd) (AList.mem_lookup_iff.mp hin))
  callback := by
    intro conn c hc
    obtain ⟨served, hserved, rfl⟩ := connectionOf_eq_some.mp hc
    obtain ⟨g, hg⟩ := h.stages conn served hserved
    exact hg.standing.callback
  output := by
    intro conn c hc
    obtain ⟨served, hserved, rfl⟩ := connectionOf_eq_some.mp hc
    obtain ⟨g, hg⟩ := h.stages conn served hserved
    exact hg.standing.output
  posted := hi

/-- **Every server that is reached** without a force close is live. -/
theorem live_of_run (ip : AddressV4) (cc mc : Bool) (es : List Event)
    (h : Guarded step Peaceful (new ip cc mc) es) :
    Holds Live (fun _ => True) (run step (new ip cc mc) es) := by
  have hstep : ∀ s e, ServerInv s ∧ Inline s → s.Peaceful e →
      Holds (fun s => ServerInv s ∧ Inline s) (fun _ => True) (s.step e) := by
    rintro s e ⟨hs, hi⟩ hg
    have hkeeps := step_keepsServer hs e hg
    have hinline := step_inline hs hi e
    cases hr : s.step e with
    | error e => exact .error trivial
    | ok s' =>
      rw [hr] at hkeeps hinline
      exact .ok ⟨holds_ok.mp hkeeps, holds_ok.mp hinline⟩
  exact (run_holds hstep es _ ⟨new_inv ip cc mc, nofun⟩ h).mono (fun _ hs => hs.1.live hs.2)
    fun _ => id

end Reached

section Examples

attribute [local instance] VectorImpl.exact

/-- A server without threads and with two connections. -/
def twoOnBase : List Event := [.start, .accept [], .accept []]

/-- One of them is being shut down, and waits for the peer to close. -/
def oneShutDown : List Event := [.start, .accept [], .accept [], .io 0 (.shutdown true)]

/-- The server a run ends with. -/
def reached (es : List Event) : TcpServer :=
  match run step (new ⟨10, 0, 0, 2⟩ true true) es with
  | .ok s => s
  | .error e => e.2

/-- So every server that a run reaches can be destroyed. -/
theorem reached_live {es : List Event} (h : Guarded step Peaceful (new ⟨10, 0, 0, 2⟩ true true) es)
    (hok : (run step (new ⟨10, 0, 0, 2⟩ true true) es).isOk = true) : Live (reached es) := by
  have hlive := live_of_run _ _ _ es h
  rw [reached]
  generalize run step (new ⟨10, 0, 0, 2⟩ true true) es = r at hlive hok
  cases hlive with
  | ok hs => exact hs
  | error => cases hok

/-- The condition can be met: two connections on the base loop, and the equivalence on them. -/
theorem destructor_quiet_twoOnBase : Live (reached twoOnBase) ∧
    (Quiet (reached twoOnBase) (fun _ => []) ↔ Parted (reached twoOnBase)) := by
  have hlive : Live (reached twoOnBase) := reached_live (by decide +kernel) (by decide +kernel)
  exact ⟨hlive, destructor_quiet (reached twoOnBase) (fun _ => []) hlive⟩

/-- **The callback of the destroyed server is called** by a connection that was being shut down,
    when its peer closes. -/
theorem called_after_destructor : ¬ Quiet (reached oneShutDown) (fun _ => []) := by
  have hend : (match (reached oneShutDown).destroy fun _ => [] with
      | .ok t => (match run Teardown.step t [.socket 0 (.readError [])] with
        | .ok t => t.invoked
        | .error e => e.2.invoked)
      | .error _ => []) = [0] := by decide +kernel
  intro hquiet
  cases hdestroy : (reached oneShutDown).destroy fun _ => [] with
  | error e =>
    rw [hdestroy] at hend
    cases hend
  | ok t =>
    rw [hdestroy] at hend
    have hsilent := hquiet t hdestroy [.socket 0 (.readError [])]
    dsimp only at hend
    generalize run Teardown.step t [.socket 0 (.readError [])] = r at hend hsilent
    cases hsilent with
    | ok hnone => cases hnone.symm.trans hend
    | error hnone => cases hnone.symm.trans hend

end Examples

end TcpServer

end IOEvent
