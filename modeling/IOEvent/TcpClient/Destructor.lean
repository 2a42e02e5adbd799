/-
  The destructor of a client, and what is left of it.

  `~TcpClient` finds either no connection, and then stops the connector, or one, and then gives
  that one another close callback, `detail::removeConnection`, which does not know the client.
  Everything else goes on as it was: the connection lives as long as somebody has it, an attempt
  in flight and an armed retry timer hold the connector, and `newConnectionCallback_` and the
  close callbacks of the other connections are still bound to the client.  So are the handlers
  that `start()` and `stop()` post to a connector that nothing holds any more.

  `Orphans` is what is left, on the loop: a step that calls the client or the connector when
  these are gone fails.  `outlived` says that none does, for a client that is destroyed on its
  loop, between two handlers.  The precondition is that no other thread is inside a call of the
  client, that no handler of the connector is posted, and that a client that is connected does
  not also try to connect.
-/
import IOEvent.TcpClient.OneConnection

open Foundation

namespace IOEvent

namespace Connector

/-- Only `start()` and `stop()` post. -/
theorem posted_retry (s : Connector) : s.retry.posted = s.posted := by
  rw [retry]
  split <;> rfl

/-- `stopInThisThread` of the connector posts nothing. -/
theorem posted_stopInThisThread (s : Connector) : s.stopInThisThread.posted = s.posted := by
  rw [stopInThisThread]
  split
  · exact posted_retry _
  · rfl

/-- `connecting` posts nothing. -/
theorem posted_connecting (s : Connector) (getOption : GetOption) :
    (s.connecting getOption).posted = s.posted := by
  unfold connecting
  cases getOption with
  | ec => rfl
  | error errNum =>
    dsimp only
    split
    · exact posted_retry _
    · split <;> rfl

/-- The handler of an attempt posts nothing. What the connector still has to run is therefore what
    was posted from outside. -/
theorem posted_complete (s : Connector) (i : Nat) (error : Errc) (getOption : GetOption) :
    (s.complete i error getOption).posted = s.posted := by
  unfold complete
  split
  · rfl
  · unfold completed
    cases error with
    | success => exact posted_connecting _ getOption
    | operation_in_progress => exact posted_connecting _ getOption
    | interrupted => exact posted_connecting _ getOption
    | already_connected => exact posted_connecting _ getOption
    | resource_unavailable_try_again => exact posted_retry _
    | address_in_use => exact posted_retry _
    | address_not_available => exact posted_retry _
    | connection_refused => exact posted_retry _
    | network_unreachable => exact posted_retry _
    | _ => rfl

/-- A start that is not wanted any more. -/
theorem startInThisThread_stopped {s : Connector} (h : s.connect_ = false) :
    s.startInThisThread = .ok s ∨
      s.startInThisThread = .error (.assertFailed .startInThisThread, s) := by
  rw [startInThisThread]
  by_cases hstate : s.state_ = .kDisconnected
  · rw [require_pos _ _ hstate, ok_bind, if_neg (by rw [h]; decide)]
    exact .inl rfl
  · rw [require_neg _ _ hstate]
    exact .inr rfl

end Connector

namespace TcpClient

/-! ## The destructor

  The client is gone, and what it has begun goes on.  The events are those of the client,
  without the calls of user code; a handler that would call the client stops with a fault. -/

/-- What can go wrong behind the destructor: something inside that has nothing to do with the
    client, or a call into an object that is no more. -/
inductive OrphanFault
  | client (f : ClientFault)
  /-- A handler calls the client. -/
  | clientDestroyed
  /-- A handler calls the connector, and nothing holds that. -/
  | connectorDestroyed
  deriving DecidableEq, Repr

/-- What is left of a client. -/
structure Orphans where
  client : TcpClient
  /-- The connection that has `detail::removeConnection` for its close callback. -/
  detached : Option Nat

/-- `~TcpClient`, on the loop thread. -/
def destroy (s : TcpClient) : Orphans :=
  match s.connector_.connection_ with
  | none => ⟨s.setConnector (s.connector_.stop true), none⟩
  | some conn => ⟨s, some conn⟩

namespace Orphans

/-- A step leaves something behind, or stops with such a fault. -/
abbrev M := Outcome OrphanFault Orphans Orphans

/-- A handler that does not need the client. -/
def inClient (t : Orphans) : TcpClient.M → M
  | .ok s => .ok { t with client := s }
  | .error (f, s) => .error (.client f, { t with client := s })

/-- Somebody holds the connector. -/
def Held (t : Orphans) : Prop :=
  t.client.connector_.inFlight ≠ [] ∨ t.client.connector_.retryTimers ≠ []

/-- Whether the connector is still held can be computed. -/
instance (t : Orphans) : Decidable t.Held := inferInstanceAs (Decidable (_ ∨ _))

section Machine

variable [VectorImpl]

/-- Another thread goes on with its call. -/
def proceed (t : Orphans) (i : Nat) : M :=
  match t.client.calls[i]? with
  | none => return t
  | some _ => .error (.clientDestroyed, t)

/-- A handler of the connector is run: its pointer is a plain one, so somebody else has to hold
    the connector. -/
def runPosted (t : Orphans) (i : Nat) : M :=
  match t.client.connector_.posted[i]? with
  | none => return t
  | some _ => if t.Held then t.inClient (t.client.runPosted i) else .error (.connectorDestroyed, t)

/-- The connector is `c` now, and has called its callback if it has handed a socket over. -/
def setConnector (t : Orphans) (c : Connector) : M :=
  if t.client.connector_.connections.length < c.connections.length then
    .error (.clientDestroyed, { t with client := t.client.setConnector c })
  else
    return { t with client := t.client.setConnector c }

/-- The handler of an attempt holds the connector. -/
def complete (t : Orphans) (i : Nat) (error : Errc) (getOption : Connector.GetOption) : M :=
  t.setConnector (t.client.connector_.complete i error getOption)

/-- A retry timer holds the connector. -/
def retryTimer (t : Orphans) (i : Nat) : M := t.inClient (t.client.retryTimer i)

/-- `detail::removeConnection`: on the loop thread, `dispatch` calls. -/
def removeConnection (t : Orphans) (conn : Nat) (onConnection : List Act) : M :=
  match t.client.opened conn with
  | none => return t
  | some o => t.inClient (t.client.inConnection conn (o.connection.connectDestroyed onConnection))

/-- A handler of a connection.  It calls the close callback last, if at all. -/
def io (t : Orphans) (conn : Nat) (e : TcpServer.Io) (onConnection : List Act) : M :=
  match t.client.opened conn with
  | none => return t
  | some o =>
    match o.connection.step e.event with
    | .error (f, c) => .error
      (.client (.connection f), { t with client := t.client.setConnection conn c })
    | .ok c =>
      if c.trace.count .closeCallback = o.connection.trace.count .closeCallback then
        return { t with client := t.client.setConnection conn c }
      else if t.detached = some conn then
        removeConnection { t with client := t.client.setConnection conn c } conn onConnection
      else
        .error (.clientDestroyed, { t with client := t.client.setConnection conn c })

/-- The loop runs the `i`-th posted `connectDestroyed`. -/
def connectDestroyed (t : Orphans) (i : Nat) (onConnection : List Act) : M :=
  t.inClient (t.client.connectDestroyed i onConnection [])

/-- What can happen behind the destructor. There is no call of user code: the client is gone. -/
inductive Event
  | proceed (i : Nat)
  | runPosted (i : Nat)
  | complete (i : Nat) (error : Errc) (getOption : Connector.GetOption)
  | retryTimer (i : Nat)
  | io (conn : Nat) (e : TcpServer.Io) (onConnection : List Act)
  | connectDestroyed (i : Nat) (onConnection : List Act)

/-- One step. -/
def step (t : Orphans) : Event → M
  | .proceed i => t.proceed i
  | .runPosted i => t.runPosted i
  | .complete i error getOption => t.complete i error getOption
  | .retryTimer i => t.retryTimer i
  | .io conn e onConnection => t.io conn e onConnection
  | .connectDestroyed i onConnection => t.connectDestroyed i onConnection

end Machine

end Orphans

/-! ## The property

  `Outlived` is what the theorem says, `Harmless` what is kept between two events behind the
  destructor. -/

/-- Nothing is begun after the client `s`, and no connection closes twice. -/
structure Outlived (s : TcpClient) (t : Orphans) : Prop where
  attempts : t.client.connector_.attempts = s.connector_.attempts
  timers : t.client.connector_.retryTimers.Sublist s.connector_.retryTimers
  closed_once : ∀ conn, t.client.closings conn ≤ 1

/-- No thread is inside a call and no handler of the connector is posted; a client that has a
    connection, and has not been stopped, has no attempt and no retry timer. -/
structure Settled (s : TcpClient) : Prop where
  calls : s.calls = []
  posted : s.connector_.posted = []
  connected : s.connector_.connection_ ≠ none → s.connector_.connect_ = true →
    s.connector_.inFlight = [] ∧ s.connector_.retryTimers = []

namespace Orphans

variable {s : TcpClient} {t : Orphans}

/-- The connection that is up is the detached one, and the connector has nothing to do. -/
structure Harmless (s : TcpClient) (t : Orphans) : Prop where
  calls : t.client.calls = []
  posted : t.client.connector_.posted = []
  idle : t.client.connector_.connect_ = false ∨
    t.client.connector_.inFlight = [] ∧ t.client.connector_.retryTimers = []
  attempts : t.client.connector_.attempts = s.connector_.attempts
  timers : t.client.connector_.retryTimers.Sublist s.connector_.retryTimers
  tracked : ∃ up, (∀ conn, up = some conn → t.detached = some conn) ∧
    Tracked t.client up t.detached

/-- A failure in which neither the client nor the connector is called. -/
def Unharmed (s : TcpClient) (e : OrphanFault × Orphans) : Prop :=
  Outlived s e.2 ∧ e.1 ≠ .clientDestroyed ∧ e.1 ≠ .connectorDestroyed

/-- A step keeps what is harmless, or fails without calling the client. -/
def KeepsHarmless (s : TcpClient) (r : M) : Prop := Holds (Harmless s) (Unharmed s) r

/-- The invariant has the property in it. -/
theorem Harmless.leaves (h : Harmless s t) : Outlived s t := by
  obtain ⟨up, -, htracked⟩ := h.tracked
  exact ⟨h.attempts, h.timers, htracked.oneConnection.closed_once⟩

/-- A fault inside a part that is left calls nobody. -/
theorem Harmless.unharmed (h : Harmless s t) (f : ClientFault) : Unharmed s (.client f, t) :=
  ⟨h.leaves, by simp, by simp⟩

/-- What a connection does. -/
theorem Harmless.setConnections (h : Harmless s t) (s' : TcpClient) {up : Option Nat}
    (hconnector : s'.connector_ = t.client.connector_) (hcalls : s'.calls = t.client.calls)
    (hup : ∀ conn, up = some conn → t.detached = some conn) (htracked : Tracked s' up t.detached) :
    Harmless s { t with client := s' } where
  calls := hcalls.trans h.calls
  posted := by
    rw [hconnector]
    exact h.posted
  idle := by
    rw [hconnector]
    exact h.idle
  attempts := by
    rw [hconnector]
    exact h.attempts
  timers := by
    rw [hconnector]
    exact h.timers
  tracked := ⟨up, hup, htracked⟩

/-- The connector does nothing. -/
theorem Harmless.setConnector (h : Harmless s t) :
    Harmless s { t with client := t.client.setConnector t.client.connector_ } := by
  obtain ⟨up, hup, htracked⟩ := h.tracked
  exact { h with tracked := ⟨up, hup, htracked.setConnector (.refl _)⟩ }

/-! ## One event

  Each kind of handler in turn.  The completion of an attempt is the one that could call the
  client: there is none in flight, or it finds the connector's flag off. -/

/-- **An attempt that completes after the client is gone** finds the connector's flag off and
    hands over nothing, or is not there. -/
theorem complete_harmless (h : Harmless s t) (i : Nat) (error : Errc)
    (getOption : Connector.GetOption) : KeepsHarmless s (t.complete i error getOption) := by
  obtain ⟨up, hup, htracked⟩ := h.tracked
  rw [complete, setConnector]
  -- no such attempt: nothing changes
  cases hconn : t.client.connector_.inFlight[i]? with
  | none =>
    have hsame : t.client.connector_.complete i error getOption = t.client.connector_ := by
      rw [Connector.complete, hconn]
    rw [hsame, if_neg (Nat.lt_irrefl _)]
    exact .ok h.setConnector
  | some conn =>
    -- an attempt in flight means that the connector was told to stop
    have hstopped : t.client.connector_.connect_ = false := by
      refine h.idle.resolve_right fun hnone => ?_
      rw [hnone.1] at hconn
      cases hconn
    -- so the completion cannot hand over a socket
    rcases Connector.complete_cases hconn error getOption with ⟨hhands, -⟩ | ⟨-, hbegins⟩
    · rw [Connector.Hands, hstopped] at hhands
      cases hhands.2.2
    · have hhalted := hbegins.halted hstopped
      have hlanded : Tracked { t.client with connector_ := { t.client.connector_ with
          inFlight := t.client.connector_.inFlight.eraseIdx i } } up t.detached :=
        htracked.of_same rfl (fun _ => id) (fun _ => rfl) rfl (htracked.numbered.lands i)
      rw [hbegins.connections, if_neg (Nat.lt_irrefl _)]
      exact .ok
        { calls := h.calls
          posted := (Connector.posted_complete _ i error getOption).trans h.posted
          idle := .inl hhalted.connect
          attempts := hhalted.attempts.trans h.attempts
          timers := hhalted.timers ▸ h.timers
          tracked := ⟨up, hup, hlanded.setConnector hbegins⟩ }

/-- **A retry timer that fires** finds the flag off and begins nothing, or is not there. -/
theorem retryTimer_harmless (h : Harmless s t) (i : Nat) : KeepsHarmless s (t.retryTimer i) := by
  obtain ⟨up, hup, htracked⟩ := h.tracked
  rw [retryTimer, TcpClient.retryTimer]
  cases htimer : t.client.connector_.retryTimers[i]? with
  | none => exact .ok h
  | some delay =>
    have hstopped : t.client.connector_.connect_ = false := by
      refine h.idle.resolve_right fun hnone => ?_
      rw [hnone.2] at htimer
      cases htimer
    have hfired := htracked.of_connector { t.client.connector_ with
      retryTimers := t.client.connector_.retryTimers.eraseIdx i } rfl rfl htracked.current_eq
      fun _ => id
    have hharmless : Harmless s { t with client := { t.client with
        connector_ := { t.client.connector_ with
          retryTimers := t.client.connector_.retryTimers.eraseIdx i } } } :=
      { calls := h.calls
        posted := h.posted
        idle := .inl hstopped
        attempts := h.attempts
        timers := (List.eraseIdx_sublist _ _).trans h.timers
        tracked := ⟨up, hup, hfired⟩ }
    have hstart := Connector.startInThisThread_stopped (s := { t.client.connector_ with
      retryTimers := t.client.connector_.retryTimers.eraseIdx i }) hstopped
    dsimp only at hstart ⊢
    rcases hstart with hr | hr
    · rw [hr]
      exact .ok hharmless.setConnector
    · rw [hr]
      exact .error (hharmless.setConnector.unharmed _)

section Steps

variable [VectorImpl]

/-- A connection that has closed has nothing left to do. -/
theorem connectDestroyed_down {c : TcpConnection} (hdown : c.state_ = .kDisconnected)
    (onConnection : List Act) : c.connectDestroyed onConnection = .ok c := by
  rw [TcpConnection.connectDestroyed, if_neg (by rw [hdown]; decide)]
  rfl

/-- What happens on a connection can close the detached one, whose close callback does not go
    through the client. -/
theorem io_harmless (h : Harmless s t) (conn : Nat) (e : TcpServer.Io) (onConnection : List Act) :
    KeepsHarmless s (t.io conn e onConnection) := by
  obtain ⟨up, hup, htracked⟩ := h.tracked
  rw [io]
  cases ho : t.client.opened conn with
  | none => exact .ok h
  | some o =>
    have howned := htracked.owned conn o ho
    have hstep := TcpConnection.io_closes howned.output howned.callback e
    dsimp only
    -- the connection may assert, go on, or close
    cases hr : o.connection.step e.event with
    | error r =>
      obtain ⟨f, c⟩ := r
      rw [hr] at hstep
      cases hstep with
      | error hsteady =>
        exact .error ((h.setConnections (t.client.setConnection conn c) rfl rfl hup
          (htracked.steady ho hsteady)).unharmed _)
    | ok c =>
      rw [hr] at hstep
      dsimp only
      rcases holds_ok.mp hstep with hsteady | hcloses
      · rw [if_pos hsteady.closes]
        exact .ok (h.setConnections _ rfl rfl hup (htracked.steady ho hsteady))
      · -- it is the one that is up, so the callback is the one that does not know the client
        obtain ⟨hconn, hclosed⟩ := htracked.closes ho hcloses
        have hopened : (t.client.setConnection conn c).opened conn =
            some { o with connection := c } := by
          rw [opened_setConnection ho, if_pos rfl]
        have hsame := hclosed.steady hopened (.refl (hclosed.owned conn _ hopened).output)
        rw [if_neg (by rw [hcloses.closes]; omega), if_pos (hup conn hconn),
          removeConnection, hopened]
        dsimp only
        rw [connectDestroyed_down hcloses.after]
        exact .ok (h.setConnections _ rfl rfl (fun _ hnone => by cases hnone) hsame)

/-- A posted destruction is about a connection that is down. -/
theorem connectDestroyed_harmless (h : Harmless s t) (i : Nat) (onConnection : List Act) :
    KeepsHarmless s (t.connectDestroyed i onConnection) := by
  obtain ⟨up, hup, htracked⟩ := h.tracked
  rw [connectDestroyed, TcpClient.connectDestroyed]
  cases hconn : t.client.posted[i]? with
  | none => exact .ok h
  | some conn =>
    obtain ⟨hopened, hdown⟩ := htracked.destroyed conn (List.mem_of_getElem? hconn)
    obtain ⟨o, ho⟩ := Option.ne_none_iff_exists'.mp hopened
    have hrest : Tracked { t.client with posted := t.client.posted.eraseIdx i } up t.detached :=
      htracked.of_same rfl (fun j hj => List.mem_of_mem_eraseIdx hj) (fun _ => rfl) rfl
        ⟨htracked.numbered.flight_nodup, htracked.numbered.flight_lt, htracked.numbered.opened⟩
    have hclosed : o.connection.state_ = .kDisconnected := by
      by_contra hne
      exact hdown ⟨o, ho, hne⟩
    dsimp only
    rw [ho]
    dsimp only
    rw [connectDestroyed_down hclosed]
    exact .ok (h.setConnections _ rfl rfl hup
      (hrest.steady ho (.refl (hrest.owned conn o ho).output)))

/-- **Every step behind the destructor is harmless.** -/
theorem step_harmless (h : Harmless s t) (e : Event) : KeepsHarmless s (t.step e) := by
  cases e with
  | proceed i =>
    show KeepsHarmless s (t.proceed i)
    rw [proceed, h.calls]
    exact .ok h
  | runPosted i =>
    show KeepsHarmless s (t.runPosted i)
    rw [runPosted, h.posted]
    exact .ok h
  | complete i error getOption => exact complete_harmless h i error getOption
  | retryTimer i => exact retryTimer_harmless h i
  | io conn e onConnection => exact io_harmless h conn e onConnection
  | connectDestroyed i onConnection => exact connectDestroyed_harmless h i onConnection

end Steps

end Orphans

/-! ## Every run

  The destructor leaves something harmless, and every event after it keeps that. -/

section Runs

variable [VectorImpl] {s : TcpClient}

omit [VectorImpl] in
/-- A settled client is harmless once it is destroyed: without a connection the destructor stops
    the connector, with one it detaches that. -/
theorem destroy_harmless (h : s.Attached) (hsettled : s.Settled) : s.destroy.Harmless s := by
  obtain ⟨current, htracked⟩ := h
  unfold destroy
  cases hconn : s.connector_.connection_ with
  | none =>
    obtain rfl : current = none := htracked.current_eq.symm.trans hconn
    have hbegins := Connector.stopInThisThread_begins { s.connector_ with connect_ := false }
    have hhalted := hbegins.halted rfl
    exact
      { calls := hsettled.calls
        posted := (Connector.posted_stopInThisThread _).trans hsettled.posted
        idle := .inl hhalted.connect
        attempts := hhalted.attempts
        timers := hhalted.timers ▸ List.Sublist.refl _
        tracked := ⟨none, by simp, (htracked.setConnectorFlag false).setConnector hbegins⟩ }
  | some conn =>
    obtain rfl : current = some conn := htracked.current_eq.symm.trans hconn
    refine ⟨hsettled.calls, hsettled.posted, ?_, rfl, List.Sublist.refl _, _, fun _ => id, htracked⟩
    cases hconnect : s.connector_.connect_ with
    | false => exact .inl rfl
    | true => exact .inr (hsettled.connected (by rw [hconn]; simp) hconnect)

/-- **What is left of a client** never calls the client or its connector, begins no attempt and arms
    no timer, and no connection closes twice, whatever happens. -/
theorem outlived (serverAddress : List Char) (cc mc : Bool) (nextConnId : Int) {es : List Event}
    (hguard : Guarded step Vacant (new serverAddress cc mc nextConnId) es)
    (hrun : run step (new serverAddress cc mc nextConnId) es = .ok s) (hsettled : s.Settled)
    (es' : List Orphans.Event) :
    Holds (Outlived s)
      (fun e => Outlived s e.2 ∧ e.1 ≠ .clientDestroyed ∧ e.1 ≠ .connectorDestroyed)
      (run Orphans.step s.destroy es') := by
  have hattached : s.Attached := by
    have hrunning := run_holds (fun _ e h hC => step_attached h e hC) es _
      ⟨none, new_tracked serverAddress cc mc nextConnId⟩ hguard
    rw [hrun] at hrunning
    exact holds_ok.mp hrunning
  exact (run_keeps (fun _ e h => Orphans.step_harmless h e) es' _
    (destroy_harmless hattached hsettled)).mono (fun _ h => h.leaves) fun _ he => he

end Runs

section Examples

attribute [local instance] VectorImpl.exact

/-- A client that is connected is destroyed, and then its connection closes. -/
theorem outlived_connected :
    ∃ s, run step (new [] true true 0)
        [.call .connect, .complete 0 .success (.error 0) [] []] = .ok s ∧
      s.destroy.detached = some 0 ∧
      Holds (Outlived s)
        (fun e => Outlived s e.2 ∧ e.1 ≠ .clientDestroyed ∧ e.1 ≠ .connectorDestroyed)
        (run Orphans.step s.destroy [.io 0 (.socket (.readError [])) [], .proceed 0]) := by
  -- the run has one connection
  have hguard : Guarded step Vacant (new [] true true 0)
      [.call .connect, .complete 0 .success (.error 0) [] []] := by
    refine ⟨trivial, fun s₁ h₁ => ⟨fun _ _ => ?_, fun _ _ => trivial⟩⟩
    obtain rfl := Except.ok.inj h₁
    rfl
  -- the client it ends in, by evaluation
  have hend : (run step (new [] true true 0)
      [.call .connect, .complete 0 .success (.error 0) [] []]).toOption.map (fun s =>
        (s.calls, s.connector_.posted, s.connector_.connection_, s.connector_.inFlight,
          s.connector_.retryTimers)) = some ([], [], some 0, [], []) := by decide +kernel
  cases hrun : run step (new [] true true 0)
      [.call .connect, .complete 0 .success (.error 0) [] []] with
  | error e =>
    rw [hrun] at hend
    cases hend
  | ok s =>
    rw [hrun] at hend
    have hfields := Option.some.inj hend
    obtain ⟨hcalls, hfields⟩ := Prod.ext_iff.mp hfields
    obtain ⟨hposted, hfields⟩ := Prod.ext_iff.mp hfields
    obtain ⟨hconn, hfields⟩ := Prod.ext_iff.mp hfields
    -- the destructor takes the connection along
    have hdetached : s.destroy.detached = some 0 := by
      have hconn : s.connector_.connection_ = some 0 := hconn
      rw [destroy, hconn]
    exact ⟨s, rfl, hdetached, outlived [] true true 0 hguard hrun
      ⟨hcalls, hposted, fun _ _ => Prod.ext_iff.mp hfields⟩ _⟩

end Examples

end TcpClient

end IOEvent
