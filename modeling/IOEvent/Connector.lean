/-
  `Connector` (Connector.h, Connector.cpp) and the calls `TcpClient` (TcpClient.cpp) makes of it.

  Every call of `connect()` is an attempt, numbered in order, with a socket of its own.  All of them
  share the member `socket_`: it holds the socket of the latest attempt until that is replaced by
  the next one or moved into a connection.  asio holds the attempts in flight, those whose handler
  has not been called; the loop holds the posted handlers and the retry timers.

  The state keeps which attempt's handler is running, so that the trace can record, for every close
  and use of `socket_`, on whose behalf it happens and whose socket it is.

  `step` is the connector on its loop.  `start` and `stop` come from any thread.  An attempt may
  complete with any error code, also after its socket was replaced; `getOption` is what
  `socket_.get_option` gives then.  `restart` is called by `removeConnection`, when the connection
  of the client closes; `reconnect` is the client's `retry_ && connect_` at that time.
-/
import IOEvent.Foundation.Runs

open Foundation

namespace IOEvent

/-- The values of `error.value()` the handler of `async_connect` tells apart. -/
inductive Errc
  | success
  | operation_in_progress
  | interrupted
  | already_connected
  | resource_unavailable_try_again
  | address_in_use
  | address_not_available
  | connection_refused
  | network_unreachable
  | permission_denied
  | operation_not_permitted
  | address_family_not_supported
  | connection_already_in_progress
  | bad_file_descriptor
  | bad_address
  | not_a_socket
  /-- Any other one, `operation_aborted` and `timed_out` among them. -/
  | other (value : Int)
  deriving DecidableEq, Repr

/-- `States`: the three states of a connector. -/
inductive States
  | kDisconnected
  | kConnecting
  | kConnected
  deriving DecidableEq, Repr

/-- A handler posted to the loop. -/
inductive ConnectorTask
  | startInThisThread
  | stopInThisThread
  deriving DecidableEq, Repr

/-- A close or a use of `socket_`: the attempt whose completion handler does it, if it is one that
    does, and the attempt whose socket it is, if there is one in the member. -/
structure SocketUse where
  handler : Option Nat
  socket : Option Nat
  deriving DecidableEq, Repr

/-- A connector with what it has begun: the attempts in flight, the armed retry timers, the posted
    handlers, the sockets it has handed over, and a record of each use of its socket. -/
structure Connector where
  connect_ : Bool
  state_ : States
  retryDelayMs_ : Nat
  /-- The attempt whose socket the member holds. -/
  socket_ : Option Nat
  attempts : Nat
  inFlight : List Nat
  /-- The delays, in milliseconds, of the armed retry timers. -/
  retryTimers : List Nat
  posted : List ConnectorTask
  /-- The attempt whose completion handler is running. -/
  handler : Option Nat
  /-- The connections of the client that are not removed yet, each named by the attempt whose
      handler made it. -/
  connections : List Nat
  /-- `TcpClient::connection_`. -/
  connection_ : Option Nat
  trace : List SocketUse

namespace Connector

/-- The function whose `assert` fails. -/
inductive Site
  | startInThisThread
  | removeConnection
  deriving DecidableEq, Repr

/-- A connector stops only by a failed assertion. -/
inductive Fault
  | assertFailed (site : Site)
  deriving DecidableEq, Repr

/-- A call returns with the connector it leaves behind, or stops with the fault. -/
abbrev M := Outcome Fault Connector Connector

/-- `kMaxRetryDelayMs`: half a minute. -/
def kMaxRetryDelayMs : Nat := 30 * 1000

/-- `kInitRetryDelayMs`: a second. -/
def kInitRetryDelayMs : Nat := 1000

/-- A new connector: nothing begun, and the first delay. -/
def new : Connector where
  connect_ := false
  state_ := .kDisconnected
  retryDelayMs_ := kInitRetryDelayMs
  socket_ := none
  attempts := 0
  inFlight := []
  retryTimers := []
  posted := []
  handler := none
  connections := []
  connection_ := none
  trace := []

/-- `setState(s)`. -/
def setState (s : Connector) (state : States) : Connector := { s with state_ := state }

/-- A close or a use of `socket_`. -/
def useSocket (s : Connector) : Connector := { s with trace := s.trace ++ [⟨s.handler, s.socket_⟩] }

/-- `connect()`: a new socket in the member (the old one is closed, and its attempt still completes)
    and an attempt on it. -/
def connect (s : Connector) : Connector :=
  { s.useSocket with
    socket_ := some s.attempts
    inFlight := s.inFlight ++ [s.attempts]
    attempts := s.attempts + 1 }

/-- `retry`: the socket is closed, and a timer is armed with the delay, which is doubled up to the
    largest one, as long as the connector is wanted. -/
def retry (s : Connector) : Connector :=
  let s := s.useSocket.setState .kDisconnected
  if s.connect_ then
    { s with
      retryTimers := s.retryTimers ++ [s.retryDelayMs_]
      retryDelayMs_ := min (s.retryDelayMs_ * 2) kMaxRetryDelayMs }
  else
    s

/-- `startInThisThread`: an attempt, if the connector is wanted. -/
def startInThisThread (s : Connector) : M := do
  require (s.state_ = .kDisconnected) (.assertFailed .startInThisThread) s
  if s.connect_ then return s.connect else return s

/-- `stopInThisThread`: an attempt that is being looked at is given up. -/
def stopInThisThread (s : Connector) : Connector :=
  if s.state_ = .kConnecting then (s.setState .kDisconnected).retry else s

/-- `newConnectionCallback_(std::move(socket_))`, called by the completion handler of an attempt:
    the client makes a connection of the socket. -/
def newConnection (s : Connector) : Connector :=
  { s.useSocket with
    socket_ := none
    connections := s.connections ++ s.handler.toList
    connection_ := s.handler }

/-- What `socket_.get_option(error, ec)` gives. -/
inductive GetOption
  /-- It fails. -/
  | ec
  | error (value : Int)
  deriving DecidableEq, Repr

/-- `connecting`: the handler of a completed attempt looks at the error of the socket, and hands
    the socket over when there is none and the connector is wanted. -/
def connecting (s : Connector) (getOption : GetOption) : Connector :=
  let s := (s.setState .kConnecting).useSocket
  match getOption with
  | .ec => s.useSocket
  | .error errNum =>
    if errNum ≠ 0 then
      s.retry
    else
      let s := s.setState .kConnected
      if s.connect_ then s.newConnection else s.useSocket

/-- The `switch` of the lambda of `connect`. -/
def completed (s : Connector) (error : Errc) (getOption : GetOption) : Connector :=
  match error with
  | .success | .operation_in_progress | .interrupted | .already_connected => s.connecting getOption
  | .resource_unavailable_try_again | .address_in_use | .address_not_available
  | .connection_refused | .network_unreachable => s.retry
  | .permission_denied | .operation_not_permitted | .address_family_not_supported
  | .connection_already_in_progress | .bad_file_descriptor | .bad_address | .not_a_socket =>
    s.useSocket
  | .other _ => s.useSocket

/-- `start()`. -/
def start (s : Connector) (isInLoopThread : Bool) : M :=
  let s : Connector := { s with connect_ := true }
  if isInLoopThread then
    s.startInThisThread
  else
    return { s with posted := s.posted ++ [.startInThisThread] }

/-- `stop()`. -/
def stop (s : Connector) (isInLoopThread : Bool) : Connector :=
  let s : Connector := { s with connect_ := false }
  if isInLoopThread then
    s.stopInThisThread
  else
    { s with posted := s.posted ++ [.stopInThisThread] }

/-- `restart()`: back to the first delay and to the first state, and another attempt. -/
def restart (s : Connector) : M :=
  ({ s.setState .kDisconnected with
    retryDelayMs_ := kInitRetryDelayMs, connect_ := true } : Connector).startInThisThread

/-- `TcpClient::removeConnection`, for the connection made by the attempt `k`. -/
def removeConnection (s : Connector) (k : Nat) (reconnect : Bool) : M := do
  require (s.connection_ = some k) (.assertFailed .removeConnection) s
  let s : Connector := { s with connection_ := none }
  if reconnect then s.restart else return s

/-! ## The connector on its loop

  The events may come in any order.  One about an entry of a list names its position there, so
  handlers, completions and timers are taken in any order as well. -/

/-- One step of a connector: a call, a posted handler, the completion of an attempt, a retry
    timer, or the close of a connection that it has made. -/
inductive Event
  | start (isInLoopThread : Bool)
  | stop (isInLoopThread : Bool)
  /-- The loop runs the `i`-th posted handler. -/
  | runPosted (i : Nat)
  /-- asio calls the handler of the `i`-th attempt in flight. -/
  | complete (i : Nat) (error : Errc) (getOption : GetOption)
  /-- The `i`-th retry timer fires. -/
  | retryTimer (i : Nat)
  /-- The `i`-th connection closes. -/
  | closed (i : Nat) (reconnect : Bool)
  deriving DecidableEq

/-- The loop runs the `i`-th posted handler. -/
def runPosted (s : Connector) (i : Nat) : M :=
  match s.posted[i]? with
  | none => return s
  | some task =>
    let s : Connector := { s with posted := s.posted.eraseIdx i }
    match task with
    | .startInThisThread => s.startInThisThread
    | .stopInThisThread => return s.stopInThisThread

/-- The `i`-th attempt in flight completes. While its handler runs, the uses of the socket are
    entered under its number. -/
def complete (s : Connector) (i : Nat) (error : Errc) (getOption : GetOption) : Connector :=
  match s.inFlight[i]? with
  | none => s
  | some k =>
    let s : Connector := { s with inFlight := s.inFlight.eraseIdx i, handler := some k }
    { s.completed error getOption with handler := none }

/-- The `i`-th armed retry timer fires. -/
def retryTimer (s : Connector) (i : Nat) : M :=
  match s.retryTimers[i]? with
  | none => return s
  | some _ => ({ s with retryTimers := s.retryTimers.eraseIdx i } : Connector).startInThisThread

/-- The `i`-th connection closes; the client then asks for it again or not. -/
def closed (s : Connector) (i : Nat) (reconnect : Bool) : M :=
  match s.connections[i]? with
  | none => return s
  | some k =>
    ({ s with connections := s.connections.eraseIdx i } : Connector).removeConnection k reconnect

/-- One step. -/
def step (s : Connector) : Event → M
  | .start isInLoopThread => s.start isInLoopThread
  | .stop isInLoopThread => return s.stop isInLoopThread
  | .runPosted i => s.runPosted i
  | .complete i error getOption => return s.complete i error getOption
  | .retryTimer i => s.retryTimer i
  | .closed i reconnect => s.closed i reconnect

end Connector

end IOEvent
