/-
  `TcpServer` (TcpServer.h, TcpServer.cpp) and `IOLoopThreadPool`: the connections of a server.

  The base loop accepts.  Each new connection is given a name and a loop: the base loop itself when
  the pool has no threads, and otherwise the next loop of the pool.  It enters `connections_` under
  its name, and from then on lives on its own loop; when it closes, its close callback
  (`removeConnection`) brings it back to the base loop, which takes it out of `connections_` and
  sends `connectDestroyed` to the connection's loop.

  Loops are numbered, the base loop is 0.  `dispatch` runs a handler at once when it is called on
  the loop it is for, and posts it otherwise; a loop runs what was posted to it in order, and
  different loops in any order.  What a connection does on its loop is `TcpConnection.step`.  The
  connections made so far are kept in `accepted`, a connection is known by its index there, and
  `log` records the handlers that cross from loop to loop.

  User code in a callback makes its calls on the callback's connection; a call on another connection
  is an event of its own.  A `shutdown` called from a thread that is not the connection's loop is
  two steps, as `state_` is looked at and set without a lock.
-/
import IOEvent.Foundation.Decimal
import IOEvent.TcpConnection
import Mathlib.Data.List.AList

open Foundation

namespace IOEvent

/-- The assertions of the server and of its pool, by the function they stand in. -/
inductive ServerAssertion
  | run
  | getNextIOLoop
  | removeConnectionInThisThread
  deriving DecidableEq, Repr

/-- The ways a handler of a server or of one of its connections ends without returning. -/
inductive ServerFault
  | assertFailed (site : ServerAssertion)
  /-- `assertInLoopThread`: `LOG(FATAL)`. -/
  | notInLoopThread
  /-- `io_contexts_[next_]` is no element. -/
  | outOfBounds
  /-- A call of a member function of a server that is no more. -/
  | serverDestroyed
  | connection (f : Fault)
  deriving DecidableEq, Repr

/-! ## `IOLoopThreadPool`

  The pool is filled once, by `run`, and only read after that.  Its loops are `1`, `2` and so
  on. -/

/-- `IOLoopThreadPool`: its loops by number, where `0` is the base loop, and the position from
    which the next one is given out. -/
structure IOLoopThreadPool where
  io_contexts_ : List Nat
  next_ : Nat
  started_ : Bool
  numThreads_ : Nat

namespace IOLoopThreadPool

/-- A new pool has no loops; they are made when it runs. -/
def new : IOLoopThreadPool where
  io_contexts_ := []
  next_ := 0
  started_ := false
  numThreads_ := 0

/-- The argument is an `int`, the member a `uint32_t`. -/
def setThreadNum (p : IOLoopThreadPool) (numThreads : Int) : IOLoopThreadPool :=
  { p with numThreads_ := toUnsigned 32 numThreads }

/-- `run`: one loop for each thread. -/
def run (p : IOLoopThreadPool) : Outcome ServerFault IOLoopThreadPool IOLoopThreadPool := do
  require (p.started_ = false) (.assertFailed .run) p
  return { p with
    started_ := true
    io_contexts_ := p.io_contexts_ ++ (List.range p.numThreads_).map (· + 1) }

/-- `getNextIOLoop`: round-robin, or the base loop when there are no others. The second result
    is the pool, whose position has moved on. -/
def getNextIOLoop (p : IOLoopThreadPool) :
    Outcome ServerFault IOLoopThreadPool (Nat × IOLoopThreadPool) := do
  require (p.started_ = true) (.assertFailed .getNextIOLoop) p
  if p.io_contexts_ = [] then
    return (0, p)
  else
    match p.io_contexts_[p.next_]? with
    | none => .error (.outOfBounds, p)
    | some ios =>
      let next := (p.next_ + 1) % 2 ^ 32
      return (ios, { p with next_ := if p.io_contexts_.length ≤ next then 0 else next })

end IOLoopThreadPool

/-! ## `TcpServer`

  The members of the class, and what the loops hold for it.  A connection that is not in the
  table any more is still in `accepted`: a posted handler may hold it. -/

/-- An IPv4 address. -/
structure AddressV4 where
  a : UInt8
  b : UInt8
  c : UInt8
  d : UInt8

/-- `ip.to_string()`: four decimal numbers and three points, so fifteen characters at most. -/
def AddressV4.toString (ip : AddressV4) : List Char :=
  decimal ip.a.toNat ++ '.' :: decimal ip.b.toNat ++ '.' :: decimal ip.c.toNat ++
    '.' :: decimal ip.d.toNat

/-- `snprintf(buf, 64, "-%s#%d", ipPort, id)`, the `uint32_t` printed as an `int`. -/
def connectionName (ipPort : List Char) (id : Nat) : List Char :=
  ('-' :: ipPort ++ '#' :: decimal (toSigned 32 id)).take 63

/-- A connection of the server. -/
structure Served where
  loop_ : Nat
  name_ : List Char
  connection : TcpConnection

/-- A handler that is dispatched to a loop, for the connection at an index. -/
inductive ServerTask
  | connectEstablished (conn : Nat)
  | removeConnectionInThisThread (conn : Nat)
  | connectDestroyed (conn : Nat)
  deriving DecidableEq, Repr

/-- A handler that was run. -/
inductive ServerObs
  | connectEstablished (conn : Nat)
  /-- Which connection was erased from the table, if one was. -/
  | removed (conn : Nat) (erased : Option Nat)
  | connectDestroyed (conn : Nat)
  deriving DecidableEq, Repr

/-- A server with the connections it has accepted and the handlers that are posted to its loops.
    The table is `connections_`; `accepted` keeps every connection there was, since one that has
    left the table still lives while a handler holds it. -/
structure TcpServer where
  nextConnId_ : Nat
  ipPort_ : List Char
  started_ : Bool
  threadPool_ : IOLoopThreadPool
  connectionCallback_ : Bool
  messageCallback_ : Bool
  connections_ : AList fun _ : List Char => Nat
  accepted : List Served
  /-- The posted handlers, each with its loop. -/
  posted : List (Nat × ServerTask)
  /-- The connections another thread is about to shut down. -/
  calls : List Nat
  log : List ServerObs

namespace TcpServer

/-- A call returns with the server it leaves behind, or stops with a fault. -/
abbrev M := Outcome ServerFault TcpServer TcpServer

/-- A new server: no threads, no connections, and `1` as the first number. -/
def new (ip : AddressV4) (connectionCallback messageCallback : Bool) : TcpServer where
  nextConnId_ := 1
  ipPort_ := ip.toString
  started_ := false
  threadPool_ := .new
  connectionCallback_ := connectionCallback
  messageCallback_ := messageCallback
  connections_ := ∅
  accepted := []
  posted := []
  calls := []
  log := []

/-- What the properties look at is entered in the log. -/
def observe (s : TcpServer) (o : ServerObs) : TcpServer := { s with log := s.log ++ [o] }

/-- A handler is posted behind those that are posted already. -/
def post (s : TcpServer) (loop : Nat) (task : ServerTask) : TcpServer :=
  { s with posted := s.posted ++ [(loop, task)] }

/-- The server with another pool. -/
def setPool (s : TcpServer) (p : IOLoopThreadPool) : TcpServer := { s with threadPool_ := p }

/-- The server with another state of one connection. An index that is out of range leaves the
    server as it is. -/
def setConnection (s : TcpServer) (conn : Nat) (c : TcpConnection) : TcpServer :=
  { s with accepted := s.accepted.modify conn fun served => { served with connection := c } }

/-- What a connection does, as a step of the server. -/
def inConnection (s : TcpServer) (conn : Nat) : Outcome Fault TcpConnection TcpConnection → M
  | .ok c => .ok (s.setConnection conn c)
  | .error (f, c) => .error (.connection f, s.setConnection conn c)

/-- `setThreadNum`: how many loops the pool will make. -/
def setThreadNum (s : TcpServer) (numThreads : Int) : TcpServer :=
  s.setPool (s.threadPool_.setThreadNum numThreads)

/-- `start()`: the second call does nothing, since the flag is set. The flag is never cleared,
    so the pool runs once. -/
def start (s : TcpServer) : M :=
  if s.started_ then
    return s
  else do
    let s := { s with started_ := true }
    let p ← within s.setPool s.threadPool_.run
    return s.setPool p

section Handlers

variable [VectorImpl]

/-! ## The handlers, run on the loop `loop`

  `dispatch` may run a handler inside the one that calls it, so these are functions of the
  loop they are run on, and not events of their own. -/

/-- The posted `connectEstablished` of a connection, which asserts that it is run by the loop of
    that connection. -/
def connectEstablished (s : TcpServer) (loop conn : Nat) (onConnection : List Act) : M :=
  match s.accepted[conn]? with
  | none => return s
  | some served => do
    require (loop = served.loop_) .notInLoopThread s
    (s.observe (.connectEstablished conn)).inConnection conn
      (served.connection.connectEstablished onConnection)

/-- The posted `connectDestroyed`, with the same assertion. -/
def connectDestroyed (s : TcpServer) (loop conn : Nat) (onConnection : List Act) : M :=
  match s.accepted[conn]? with
  | none => return s
  | some served => do
    require (loop = served.loop_) .notInLoopThread s
    (s.observe (.connectDestroyed conn)).inConnection conn
      (served.connection.connectDestroyed onConnection)

/-- `removeConnectionInThisThread`: on the base loop the name is erased from the table, and the
    destruction is posted to the loop of the connection. -/
def removeConnectionInThisThread (s : TcpServer) (loop conn : Nat) : M :=
  match s.accepted[conn]? with
  | none => return s
  | some served => do
    require (loop = 0) .notInLoopThread s
    let erased := s.connections_.lookup served.name_
    let n := erased.toList.length
    let s := { s with connections_ := s.connections_.erase served.name_ }.observe
      (.removed conn erased)
    require (n = 1) (.assertFailed .removeConnectionInThisThread) s
    return s.post served.loop_ (.connectDestroyed conn)

/-- The loop runs one handler. -/
def handle (s : TcpServer) (loop : Nat) (onConnection : List Act) : ServerTask → M
  | .connectEstablished conn => s.connectEstablished loop conn onConnection
  | .removeConnectionInThisThread conn => s.removeConnectionInThisThread loop conn
  | .connectDestroyed conn => s.connectDestroyed loop conn onConnection

/-- `IOLoop::dispatch` of the loop `target`, called on the loop `current`. -/
def dispatch (s : TcpServer) (current target : Nat) (onConnection : List Act)
    (task : ServerTask) : M :=
  if current = target then s.handle target onConnection task else return s.post target task

/-- The close callback of every connection. -/
def removeConnection (s : TcpServer) (current conn : Nat) : M :=
  s.dispatch current 0 [] (.removeConnectionInThisThread conn)

/-- The callback of the acceptor, on the base loop. The name is entered in the table before
    `connectEstablished` is dispatched. -/
def newConnection (s : TcpServer) (onConnection : List Act) : M := do
  let (ioLoop, pool) ← within s.setPool s.threadPool_.getNextIOLoop
  let buf := connectionName s.ipPort_ s.nextConnId_
  let conn := s.accepted.length
  let served : Served := ⟨ioLoop, buf, .new s.connectionCallback_ s.messageCallback_ true⟩
  let s := { s with
    threadPool_ := pool
    nextConnId_ := (s.nextConnId_ + 1) % 2 ^ 32
    accepted := s.accepted ++ [served]
    connections_ := s.connections_.insert buf conn }
  s.dispatch 0 ioLoop onConnection (.connectEstablished conn)

/-! ## What a connection does on its loop

  The part of `TcpConnection.step` that is not called by the server itself: calls of user code,
  tasks the connection has posted, and completions.  The server comes in when the close callback
  is called. -/

/-- What asio completes on the socket of a connection. -/
inductive SocketEvent
  | readDone (bytes : List UInt8) (consume : Nat) (onMessage : List Act)
  | readError (onConnection : List Act)
  | transmit (i n : Nat)
  | writeDone (i : Nat)
  | writeError (i : Nat)

/-- The close callback is the server's, and makes no calls of its own. -/
def SocketEvent.event : SocketEvent → TcpConnection.Event
  | .readDone bytes consume onMessage => .readDone bytes consume onMessage
  | .readError onConnection => .readError onConnection []
  | .transmit i n => .transmit i n
  | .writeDone i => .writeDone i
  | .writeError i => .writeError i

/-- What can happen to a connection besides the handlers of its server. -/
inductive Io
  | shutdown (isInLoopThread : Bool)
  | forceClose
  | send (isInLoopThread : Bool) (message : StringPiece)
  | runTask (i : Nat) (onConnection : List Act)
  | socket (e : SocketEvent)

/-- What the server sees of a connection as an event of that connection. -/
def Io.event : Io → TcpConnection.Event
  | .shutdown isInLoopThread => .shutdown isInLoopThread
  | .forceClose => .forceClose
  | .send isInLoopThread message => .send isInLoopThread message
  | .runTask i onConnection => .runTask i onConnection []
  | .socket e => e.event

/-- A handler of the connection.  It calls the close callback last, if at all. -/
def io (s : TcpServer) (conn : Nat) (e : Io) : M :=
  match s.accepted[conn]? with
  | none => return s
  | some served => do
    match served.connection.step e.event with
    | .error (f, c) => .error (.connection f, s.setConnection conn c)
    | .ok c =>
      if c.trace.count .closeCallback = served.connection.trace.count .closeCallback then
        return s.setConnection conn c
      else
        (s.setConnection conn c).removeConnection served.loop_ conn

/-- Another thread calls `shutdown` and finds the connection connected. -/
def callShutdown (s : TcpServer) (conn : Nat) : TcpServer :=
  match s.accepted[conn]? with
  | none => s
  | some served =>
    if served.connection.state_ = .kConnected then { s with calls := s.calls ++ [conn] } else s

/-- It sets the state, whatever that is by now, and posts `shutdownInThisThread`. Between the
    two steps the connection may have been disconnected. -/
def setShutdown (s : TcpServer) (i : Nat) : TcpServer :=
  match s.calls[i]? with
  | none => s
  | some conn =>
    match s.accepted[conn]? with
    | none => s
    | some served =>
      let c := served.connection.setState .kDisconnecting
      let c := { c with tasks := c.tasks ++ [.shutdownInThisThread] }
      { s with calls := s.calls.eraseIdx i }.setConnection conn c

/-! ## The server on its loops

  An event is one handler of one loop.  Two loops may be at work at the same time, but what they
  share, the table, belongs to the base loop, and a connection belongs to its own. -/

/-- One step of the server: a call of its owner, a new connection, a posted handler, or something
    that happens on one of its connections. -/
inductive Event
  | setThreadNum (numThreads : Int)
  | start
  | accept (onConnection : List Act)
  /-- A loop runs the `i`-th posted handler, when none before it is for the same loop. -/
  | runPosted (i : Nat) (onConnection : List Act)
  | io (conn : Nat) (e : Io)
  | callShutdown (conn : Nat)
  | setShutdown (i : Nat)

/-- The `i`-th posted handler is run, if no handler before it is for the same loop. The loops of
    the pool run side by side, and each of them runs its own handlers in the order of the posts. -/
def runPosted (s : TcpServer) (i : Nat) (onConnection : List Act) : M :=
  match s.posted[i]? with
  | none => return s
  | some (loop, task) =>
    if ∀ p ∈ s.posted.take i, p.1 ≠ loop then
      { s with posted := s.posted.eraseIdx i }.handle loop onConnection task
    else
      return s

/-- One step. -/
def step (s : TcpServer) : Event → M
  | .setThreadNum numThreads => return s.setThreadNum numThreads
  | .start => s.start
  | .accept onConnection => if s.started_ then s.newConnection onConnection else return s
  | .runPosted i onConnection => s.runPosted i onConnection
  | .io conn e => s.io conn e
  | .callShutdown conn => return s.callShutdown conn
  | .setShutdown i => return s.setShutdown i

end Handlers

end TcpServer

end IOEvent
