/-
  `TcpClient` (TcpClient.h, TcpClient.cpp): a connector, and the connection it made last.

  Three state machines work together on one loop.  The connector is `Connector`, and it is its
  completion handler that hands the client a socket; each connection the client makes of one is a
  `TcpConnection`, known here by the attempt whose socket it has.  `connection_` is kept in the
  connector's state, where `removeConnection` looks at it.

  A call of `connect()` or `stop()` from another thread is three steps, as it sets a flag of the
  client, then a flag of the connector, then dispatches a handler; between them the loop goes on,
  and so do other threads.  `calls` says where these threads are.  Every other call is one step.  On
  the loop thread all calls run through, and user code may make them in a callback of a connection
  (`ClientCall`): these are made when the connection has done its part of the handler, and before
  the client does its own.

  `log` records what goes on, in order, as far as the statements need it.
-/
import IOEvent.Connector.Frame
import IOEvent.TcpServer

open Foundation

namespace IOEvent

/-- What a client stops with is a fault of its connector or of one of its connections. -/
inductive ClientFault
  | connector (f : Connector.Fault)
  | connection (f : Fault)
  deriving DecidableEq, Repr

/-- A connection of the client. -/
structure Opened where
  name_ : List Char
  connection : TcpConnection

/-- What a thread inside `connect()` or `stop()` does next. -/
inductive ClientStep
  /-- `Connector::connect_ = true`. -/
  | setConnect
  | dispatchStart
  /-- `Connector::connect_ = false`. -/
  | clearConnect
  | dispatchStop
  deriving DecidableEq, Repr

/-- A call of a member function of the client. -/
inductive ClientCall
  | connect
  | disconnect
  | stop
  | enableRetry
  deriving DecidableEq, Repr

/-- The entries of the log of a client. Those of the connector are read off what an operation of
    it has begun. -/
inductive ClientObs
  /-- `connect()` is called. -/
  | connect
  /-- `stop()` has returned. -/
  | stopped
  /-- An `async_connect` is started. -/
  | asyncConnect
  /-- A retry timer is armed. -/
  | retryTimer
  /-- `newConnectionCallback_` is called. -/
  | newConnection
  /-- `restart()` of the connector is called, as this connection has closed. -/
  | restart (conn : Nat)
  deriving DecidableEq, Repr

/-- A client with its connector, the connections it has made, the calls of other threads that are
    under way, and the destructions that are posted. -/
structure TcpClient where
  serverAddress : List Char
  connectionCallback_ : Bool
  messageCallback_ : Bool
  connect_ : Bool
  retry_ : Bool
  nextConnId_ : Int
  connector_ : Connector
  /-- The connections made so far, each under its attempt. -/
  opened : Nat → Option Opened
  /-- The connections whose `connectDestroyed` is posted. -/
  posted : List Nat
  calls : List ClientStep
  log : List ClientObs

namespace TcpClient

/-- A call returns with the client it leaves behind, or stops with a fault. -/
abbrev M := Outcome ClientFault TcpClient TcpClient

/-- The constructor does not initialize `nextConnId_`. -/
def new (serverAddress : List Char) (connectionCallback messageCallback : Bool) (nextConnId : Int) :
    TcpClient where
  serverAddress := serverAddress
  connectionCallback_ := connectionCallback
  messageCallback_ := messageCallback
  connect_ := false
  retry_ := false
  nextConnId_ := nextConnId
  connector_ := .new
  opened := fun _ => none
  posted := []
  calls := []
  log := []

/-- What the properties look at is entered in the log. -/
def observe (s : TcpClient) (o : ClientObs) : TcpClient := { s with log := s.log ++ [o] }

/-- What the connector begins when it goes from `c` to `c'`. The log is about the client, and
    `async_connect` and the timers are started inside the connector; the two states of it tell
    what was. -/
def begun (c c' : Connector) : List ClientObs :=
  .replicate (c'.attempts - c.attempts) .asyncConnect ++
    .replicate (c'.retryTimers.length - c.retryTimers.length) .retryTimer

/-- What an operation of the connector begins is an attempt or a retry timer, and nothing else. -/
theorem mem_begun {c c' : Connector} {o : ClientObs} (ho : o ∈ begun c c') :
    o = .asyncConnect ∨ o = .retryTimer := by
  rcases List.mem_append.mp ho with ho | ho
  · exact .inl (List.eq_of_mem_replicate ho)
  · exact .inr (List.eq_of_mem_replicate ho)

/-- The client with another state of its connector; what that has begun is entered in the log. -/
def setConnector (s : TcpClient) (c : Connector) : TcpClient :=
  { s with connector_ := c, log := s.log ++ begun s.connector_ c }

/-- What the connector does, as a step of the client. -/
def inConnector (s : TcpClient) : Outcome Connector.Fault Connector Connector → M
  | .ok c => .ok (s.setConnector c)
  | .error (f, c) => .error (.connector f, s.setConnector c)

/-- The client with another state of one of its connections. -/
def setConnection (s : TcpClient) (conn : Nat) (c : TcpConnection) : TcpClient :=
  { s with opened :=
      Function.update s.opened conn ((s.opened conn).map fun o => { o with connection := c }) }

/-- What a connection does, as a step of the client. -/
def inConnection (s : TcpClient) (conn : Nat) : Outcome Fault TcpConnection TcpConnection → M
  | .ok c => .ok (s.setConnection conn c)
  | .error (f, c) => .error (.connection f, s.setConnection conn c)

/-! ## The calls of user code

  On the loop thread a call runs through.  On another one it is cut where the code touches
  something that the loop touches as well: the flag of the client, that of the connector, and
  the queue of the loop. -/

/-- `connect()`, on the loop thread. -/
def connect (s : TcpClient) : M :=
  let s := { s with connect_ := true }.observe .connect
  s.inConnector (s.connector_.start true)

/-- `disconnect()`: the flag of the client is cleared, and the current connection is shut down if
    there is one. The flag of the connector stays. -/
def disconnect (s : TcpClient) (isInLoopThread : Bool) : TcpClient :=
  let s : TcpClient := { s with connect_ := false }
  match s.connector_.connection_ with
  | none => s
  | some conn =>
    match s.opened conn with
    | none => s
    | some o => s.setConnection conn (o.connection.shutdown isInLoopThread)

/-- `stop()`, on the loop thread. -/
def stop (s : TcpClient) : TcpClient :=
  let s : TcpClient := { s with connect_ := false }
  (s.setConnector (s.connector_.stop true)).observe .stopped

/-- `enableRetry()`: a connection that closes will be made again. -/
def enableRetry (s : TcpClient) : TcpClient := { s with retry_ := true }

/-- A call on the loop thread. -/
def call (s : TcpClient) : ClientCall → M
  | .connect => s.connect
  | .disconnect => return s.disconnect true
  | .stop => return s.stop
  | .enableRetry => return s.enableRetry

/-- The calls of a callback, in order. -/
def callAll (s : TcpClient) (calls : List ClientCall) : M := Foundation.run call s calls

/-- The first step of a call on another thread. -/
def callElsewhere (s : TcpClient) : ClientCall → TcpClient
  | .connect =>
    ({ s with connect_ := true, calls := s.calls ++ [.setConnect] } : TcpClient).observe .connect
  | .disconnect => s.disconnect false
  | .stop => { s with connect_ := false, calls := s.calls ++ [.clearConnect] }
  | .enableRetry => s.enableRetry

/-- The connector's own `connect_`, which other threads write directly. -/
def setConnectorFlag (s : TcpClient) (connect : Bool) : TcpClient :=
  { s with connector_ := { s.connector_ with connect_ := connect } }

/-- `loop_->dispatch(...)` of the connector, on another thread. -/
def post (s : TcpClient) (task : ConnectorTask) : TcpClient :=
  { s with connector_ := { s.connector_ with posted := s.connector_.posted ++ [task] } }

/-- The next step of the `i`-th of the calls on other threads. -/
def proceed (s : TcpClient) (i : Nat) : TcpClient :=
  match s.calls[i]? with
  | none => s
  | some .setConnect =>
    ({ s with calls := s.calls.set i .dispatchStart } : TcpClient).setConnectorFlag true
  | some .dispatchStart =>
    ({ s with calls := s.calls.eraseIdx i } : TcpClient).post .startInThisThread
  | some .clearConnect =>
    ({ s with calls := s.calls.set i .dispatchStop } : TcpClient).setConnectorFlag false
  | some .dispatchStop =>
    (({ s with calls := s.calls.eraseIdx i } : TcpClient).post .stopInThisThread).observe .stopped

section Handlers

variable [VectorImpl]

/-! ## The callbacks of the connector and of the connections

  The connector calls the first at the end of a completion handler, a connection the second at
  the end of one of its own. -/

/-- `snprintf(buf, 32, ":%s#%d", serverAddress, nextConnId_)`. -/
def connectionName (s : TcpClient) : List Char :=
  (':' :: s.serverAddress ++ '#' :: decimal s.nextConnId_).take 31

/-- The callback of the connector, for the socket of the attempt `conn`. `connection_` is
    written without a look at what it was. -/
def newConnection (s : TcpClient) (conn : Nat) (onConnection : List Act) : M :=
  let o : Opened := ⟨s.connectionName, .new s.connectionCallback_ s.messageCallback_ true⟩
  let s : TcpClient := { s with
    nextConnId_ := (s.nextConnId_ + 1).bmod (2 ^ 32)
    opened := Function.update s.opened conn (some o) }.observe .newConnection
  s.inConnection conn (o.connection.connectEstablished onConnection)

/-- The close callback of every connection. The flags are those of this moment, not those of
    the time the connection was made. -/
def removeConnection (s : TcpClient) (conn : Nat) : M := do
  let reconnect := s.retry_ && s.connect_
  let c : Connector := { s.connector_ with connections := s.connector_.connections.erase conn }
  let s ← s.inConnector (c.removeConnection conn reconnect)
  let s : TcpClient := { s with posted := s.posted ++ [conn] }
  if reconnect then return s.observe (.restart conn) else return s

/-! ## The client on its loop

  One event is one handler with everything it calls, or one step of another thread. -/

/-- The loop runs the `i`-th handler the connector has posted. -/
def runPosted (s : TcpClient) (i : Nat) : M := s.inConnector (s.connector_.runPosted i)

/-- asio calls the handler of the `i`-th attempt in flight. -/
def complete (s : TcpClient) (i : Nat) (error : Errc) (getOption : Connector.GetOption)
    (onConnection : List Act) (calls : List ClientCall) : M :=
  match s.connector_.inFlight[i]? with
  | none => return s
  | some conn =>
    let c := s.connector_.complete i error getOption
    if s.connector_.connections.length < c.connections.length then do
      let s ← (s.setConnector c).newConnection conn onConnection
      s.callAll calls
    else
      return s.setConnector c

/-- The `i`-th retry timer fires. -/
def retryTimer (s : TcpClient) (i : Nat) : M :=
  match s.connector_.retryTimers[i]? with
  | none => return s
  | some _ =>
    let c : Connector := { s.connector_ with retryTimers := s.connector_.retryTimers.eraseIdx i }
    { s with connector_ := c }.inConnector c.startInThisThread

/-- A handler of a connection.  It calls the close callback last, if at all. -/
def io (s : TcpClient) (conn : Nat) (e : TcpServer.Io) (calls : List ClientCall) : M :=
  match s.opened conn with
  | none => return s
  | some o => do
    match o.connection.step e.event with
    | .error (f, c) => .error (.connection f, s.setConnection conn c)
    | .ok c =>
      let s ← (s.setConnection conn c).callAll calls
      if c.trace.count .closeCallback = o.connection.trace.count .closeCallback then
        return s
      else
        s.removeConnection conn

/-- The loop runs the `i`-th posted `connectDestroyed`. -/
def connectDestroyed (s : TcpClient) (i : Nat) (onConnection : List Act) (calls : List ClientCall) :
    M :=
  match s.posted[i]? with
  | none => return s
  | some conn =>
    let s := { s with posted := s.posted.eraseIdx i }
    match s.opened conn with
    | none => return s
    | some o => do
      let s ← s.inConnection conn (o.connection.connectDestroyed onConnection)
      s.callAll calls

/-- One step of a client: a call of user code on the loop thread or on another one, the next step
    of such a call, a handler of the connector, or something that happens on a connection. User
    code in a callback makes calls of its own. -/
inductive Event
  | call (c : ClientCall)
  | callElsewhere (c : ClientCall)
  | proceed (i : Nat)
  | runPosted (i : Nat)
  | complete (i : Nat) (error : Errc) (getOption : Connector.GetOption) (onConnection : List Act)
      (calls : List ClientCall)
  | retryTimer (i : Nat)
  | io (conn : Nat) (e : TcpServer.Io) (calls : List ClientCall)
  | connectDestroyed (i : Nat) (onConnection : List Act) (calls : List ClientCall)

/-- One step. -/
def step (s : TcpClient) : Event → M
  | .call c => s.call c
  | .callElsewhere c => return s.callElsewhere c
  | .proceed i => return s.proceed i
  | .runPosted i => s.runPosted i
  | .complete i error getOption onConnection calls =>
    s.complete i error getOption onConnection calls
  | .retryTimer i => s.retryTimer i
  | .io conn e calls => s.io conn e calls
  | .connectDestroyed i onConnection calls => s.connectDestroyed i onConnection calls

/-- A completion makes a connection, or it is the connector's own affair. -/
theorem complete_cases {s : TcpClient} {i conn : Nat}
    (hconn : s.connector_.inFlight[i]? = some conn) (error : Errc)
    (getOption : Connector.GetOption) (onConnection : List Act) (calls : List ClientCall) :
    (s.connector_.Hands error getOption ∧
      Connector.HandsOver { s.connector_ with
        inFlight := s.connector_.inFlight.eraseIdx i, handler := some conn }
        (s.connector_.complete i error getOption) ∧
      s.complete i error getOption onConnection calls = (do
        let s ← (s.setConnector (s.connector_.complete i error getOption)).newConnection conn
          onConnection
        s.callAll calls)) ∨
    (¬ s.connector_.Hands error getOption ∧
      Connector.Begins { s.connector_ with inFlight := s.connector_.inFlight.eraseIdx i }
        (s.connector_.complete i error getOption) ∧
      s.complete i error getOption onConnection calls =
        .ok (s.setConnector (s.connector_.complete i error getOption))) := by
  rw [complete, hconn]
  dsimp only
  rcases Connector.complete_cases hconn error getOption with ⟨hhands, hover⟩ | ⟨hhands, hbegins⟩
  · refine .inl ⟨hhands, hover, ?_⟩
    rw [hover.connections, if_pos (by simp)]
  · refine .inr ⟨hhands, hbegins, ?_⟩
    rw [hbegins.connections, if_neg (Nat.lt_irrefl _)]
    rfl

end Handlers

end TcpClient

end IOEvent
