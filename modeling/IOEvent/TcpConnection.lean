/-
  `TcpConnection` (TcpConnection.h, TcpConnection.cpp): one connection on its loop thread.

  The state is the members of the class together with what asio holds for it: the outstanding
  `async_read` and `async_write` operations, each with the address range it was given, and the
  handlers posted to the loop.  Three histories are kept for the statements: what the connection
  did (`trace`), the bytes asio put on the wire (`wire`), and for each write the bytes its range
  held when `write()` was called (`given`).

  Every function of the source is a function on this state under its own name; a lambda passed to
  asio is the function named after the operation it completes.  User code enters through callbacks.
  A message callback gets the input buffer and may retrieve from it; any callback may call
  `shutdown`, `forceClose` and `send` of the connection, and these calls are its `Act`s.

  `step` is the connection as its loop thread runs it, one handler at a time: whichever event comes
  next, in any order.  An event that cannot happen in a state (a completion of an operation that is
  not outstanding, say) leaves the state as it is.
-/
import IOEvent.Buffer

open Foundation

namespace IOEvent

/-- `StateE`: the states in the order in which a connection goes through them, the first of them
    apart, which is where it also ends. -/
inductive StateE
  | kDisconnected
  | kConnecting
  | kConnected
  | kDisconnecting
  deriving DecidableEq, Repr

/-- A `StringPiece`: the bytes it views.  Its length is an `int`. -/
structure StringPiece where
  bytes : List UInt8
  size_lt : bytes.length < 2 ^ 31

/-- Which lambda completes an `async_read`. -/
inductive ReadHandler
  | header
  | body
  deriving DecidableEq, Repr

/-- An outstanding `async_read`: `len` bytes to `inputBuffer_.begin() + pos`. The position is
    taken when the read is started; it is not looked at again. -/
structure AsyncRead where
  handler : ReadHandler
  pos : Nat
  len : Nat
  deriving DecidableEq, Repr

/-- An outstanding `async_write` of the `len` bytes at `pos` in a block of `outputBuffer_`'s
    storage, `sent` of them transmitted so far. `given` is what these bytes were at that time,
    a record for the statements which the code does not have. -/
structure AsyncWrite where
  block : Nat
  pos : Nat
  len : Nat
  sent : Nat
  given : List UInt8
  deriving DecidableEq, Repr

/-- A handler posted to the loop by a call from another thread (or by `forceClose`). The
    `StringPiece` of a posted send may view a string that is gone by then; `Strings` is
    about that. -/
inductive Task
  | sendInThisThread (str : StringPiece)
  | shutdownInThisThread
  | forceCloseInThisThread

/-- What user code does with the connection inside a callback. It is all that user code can do
    to its connection there, besides what it does to the input buffer. -/
inductive Act
  /-- A codec hands a message to its own callback. -/
  | deliver (message : List UInt8)
  | shutdown
  | forceClose
  | send (message : StringPiece)

/-- `MessageCallback`: what is left of the input buffer, and the calls made meanwhile. It may
    fail, as a codec has assertions of its own and reads the buffer. -/
abbrev MessageCallback := Buffer → Outcome Fault Buffer (Buffer × List Act)

/-- What a connection does, as its trace records it. -/
inductive Obs
  | connectionCallback (state : StateE)
  | messageCallback (state : StateE)
  | closeCallback
  /-- An `async_read` completed with so many bytes. -/
  | readDone (byte : Nat)
  /-- `readBody(len)` was called. -/
  | readBody (len : Nat)
  | deliver (message : List UInt8)
  /-- `socket_.shutdown(shutdown_send)`. -/
  | shutdownSend
  /-- An `async_write` completed with an error. -/
  | writeFailed
  deriving DecidableEq, Repr

/-- A connection with all that goes on around it: the members of the class, the asynchronous
    reads and writes that are outstanding on its socket, the handlers that are posted to its
    loop, what the socket has taken, and what the owner has seen. The fields from `reading` on
    are not members of the class: they are what asio and the loop keep for it, and the two
    histories. -/
structure TcpConnection where
  state_ : StateE
  inputBuffer_ : Buffer
  outputBuffer_ : Buffer
  connectionCallback_ : Bool
  messageCallback_ : Bool
  closeCallback_ : Bool
  reading : Option AsyncRead
  writing : List AsyncWrite
  tasks : List Task
  wire : List UInt8
  trace : List Obs

namespace TcpConnection

/-- An operation of a connection. -/
abbrev M := Outcome Fault TcpConnection TcpConnection

/-- Something the owner or the peer can see happens. -/
def observe (s : TcpConnection) (o : Obs) : TcpConnection := { s with trace := s.trace ++ [o] }

/-- `setState(s)`. -/
def setState (s : TcpConnection) (state : StateE) : TcpConnection := { s with state_ := state }

/-- The connection with another `inputBuffer_`. -/
def setInput (s : TcpConnection) (b : Buffer) : TcpConnection := { s with inputBuffer_ := b }

/-- The connection with another `outputBuffer_`. -/
def setOutput (s : TcpConnection) (b : Buffer) : TcpConnection := { s with outputBuffer_ := b }

section Members

variable [VectorImpl]

/-- The constructor, with the callbacks the owner sets right after it. -/
def new (connectionCallback messageCallback closeCallback : Bool) : TcpConnection where
  state_ := .kConnecting
  inputBuffer_ := .new Buffer.kInitialSize
  outputBuffer_ := .new Buffer.kInitialSize
  connectionCallback_ := connectionCallback
  messageCallback_ := messageCallback
  closeCallback_ := closeCallback
  reading := none
  writing := []
  tasks := []
  wire := []
  trace := []

/-! ## Sending

  A message is appended to `outputBuffer_`, and a write takes the address of the readable bytes.
  What is appended while that write is in flight goes into the same storage. -/

/-- `write()`: `async_write` captures the address of the readable bytes and their number. It
    does not look whether another write is outstanding. -/
def write (s : TcpConnection) : TcpConnection :=
  { s with writing := s.writing ++
      [{ block := s.outputBuffer_.buffer_.block
         pos := s.outputBuffer_.readerIndex_
         len := s.outputBuffer_.readableBytes
         sent := 0
         given := s.outputBuffer_.contents }] }

/-- `sendInThisThread`: a message is appended, and a write is started when the buffer was empty
    before. The name that the code gives the test says the opposite of what it holds. -/
def sendInThisThread (s : TcpConnection) (str : StringPiece) : M :=
  if s.state_ = .kDisconnected then
    return s
  else do
    let write_in_progress := s.outputBuffer_.readableBytes = 0
    let b ← within s.setOutput (s.outputBuffer_.append str.bytes)
    let s := s.setOutput b
    if write_in_progress then return s.write else return s

/-- `send`: at once on the loop thread, posted from any other. -/
def send (s : TcpConnection) (isInLoopThread : Bool) (message : StringPiece) : M :=
  if s.state_ = .kConnected then
    if isInLoopThread then
      s.sendInThisThread message
    else
      return { s with tasks := s.tasks ++ [.sendInThisThread message] }
  else
    return s

/-! ## Closing

  Both ways to close set `kDisconnecting` at once and do the rest on the loop thread.
  `handleClose` is where they meet with the read errors: it changes the state and calls the
  owner back, and leaves the socket and the outstanding read as they are. -/

/-- `shutdownInThisThread`: the sending side is closed if there is nothing left to write. -/
def shutdownInThisThread (s : TcpConnection) : TcpConnection :=
  if s.outputBuffer_.readableBytes = 0 then s.observe .shutdownSend else s

/-- `shutdown`: in the loop thread at once, from another thread as a posted handler; the state
    changes here in both cases. -/
def shutdown (s : TcpConnection) (isInLoopThread : Bool) : TcpConnection :=
  if s.state_ = .kConnected then
    let s := s.setState .kDisconnecting
    if isInLoopThread then
      s.shutdownInThisThread
    else
      { s with tasks := s.tasks ++ [.shutdownInThisThread] }
  else
    s

/-- `forceClose`: always as a posted handler. -/
def forceClose (s : TcpConnection) : TcpConnection :=
  if s.state_ = .kConnected ∨ s.state_ = .kDisconnecting then
    let s := s.setState .kDisconnecting
    { s with tasks := s.tasks ++ [.forceCloseInThisThread] }
  else
    s

/-- One call made inside a callback, on the loop thread. -/
def act (s : TcpConnection) : Act → M
  | .deliver message => return s.observe (.deliver message)
  | .shutdown => return s.shutdown true
  | .forceClose => return s.forceClose
  | .send message => s.send true message

/-- The calls made inside a callback, in order. -/
def acts (s : TcpConnection) (as : List Act) : M := run act s as

/-- `connectionCallback_(...)`, whose user code makes the calls `onConnection`. -/
def callConnection (s : TcpConnection) (onConnection : List Act) : M :=
  if s.connectionCallback_ then
    (s.observe (.connectionCallback s.state_)).acts onConnection
  else
    .error (.badFunctionCall, s)

/-- `if (connectionCallback_) connectionCallback_(...)`. -/
def notifyConnection (s : TcpConnection) (onConnection : List Act) : M :=
  if s.connectionCallback_ then s.callConnection onConnection else .ok s

/-- `if (closeCallback_) closeCallback_(...)`. -/
def notifyClose (s : TcpConnection) (onClose : List Act) : M :=
  if s.closeCallback_ then (s.observe .closeCallback).acts onClose else .ok s

/-- `handleClose`: the owner is told, and nothing is done to the socket. -/
def handleClose (s : TcpConnection) (onConnection onClose : List Act) : M := do
  require (s.state_ = .kConnected ∨ s.state_ = .kDisconnecting) (.assertFailed .handleClose) s
  let s ← (s.setState .kDisconnected).notifyConnection onConnection
  s.notifyClose onClose

/-- `forceCloseInThisThread`, which looks at the state again, since it may have changed since the
    post. -/
def forceCloseInThisThread (s : TcpConnection) (onConnection onClose : List Act) : M :=
  if s.state_ = .kConnected ∨ s.state_ = .kDisconnecting then
    s.handleClose onConnection onClose
  else
    return s

/-- `connectDestroyed`: a connection that is still up tells its owner that it goes down. -/
def connectDestroyed (s : TcpConnection) (onConnection : List Act) : M :=
  if s.state_ = .kConnected then
    (s.setState .kDisconnected).callConnection onConnection
  else
    return s

/-! ## Receiving

  A header is read, then a body of as many bytes as the header says, then the next header.
  Each read takes the address of the writable end of `inputBuffer_` when it is started. -/

/-- `readHeader`: an `async_read` of four bytes at the writable end of `inputBuffer_`. -/
def readHeader (s : TcpConnection) : TcpConnection :=
  { s with reading := some ⟨.header, s.inputBuffer_.writerIndex_, 4⟩ }

/-- `readBody`: an `async_read` of the body at the writable end, wherever that is by then. -/
def readBody (s : TcpConnection) (len : Nat) : TcpConnection :=
  { s.observe (.readBody len) with reading := some ⟨.body, s.inputBuffer_.writerIndex_, len⟩ }

/-- The lambda of `readHeader`, called without an error. The length is signed, and
    `ensureWritableBytes` takes a `size_t`. -/
def headerDone (s : TcpConnection) (byte : Nat) : M := do
  let b ← within s.setInput (s.inputBuffer_.hasWritten byte)
  let s := s.setInput b
  let len ← within s.setInput s.inputBuffer_.peekInt32
  let b ← within s.setInput (s.inputBuffer_.ensureWritableBytes (toUnsigned 64 len))
  let s := s.setInput b
  return s.readBody (toUnsigned 64 len)

/-- The lambda of `readBody`, called without an error. The state of the connection is not
    looked at, so the callback may run on one that is closed. -/
def bodyDone (s : TcpConnection) (messageCallback : MessageCallback) (byte : Nat) : M := do
  let b ← within s.setInput (s.inputBuffer_.hasWritten byte)
  let s := s.setInput b
  if s.messageCallback_ then do
    let s := s.observe (.messageCallback s.state_)
    let (b, as) ← within s.setInput (messageCallback s.inputBuffer_)
    let s ← (s.setInput b).acts as
    return s.readHeader
  else
    .error (.badFunctionCall, s)

/-- The outstanding `async_read` completes: asio has stored `bytes`, as many as were asked for, in
    the range it was given, and calls the lambda. -/
def readDone (s : TcpConnection) (messageCallback : MessageCallback) (bytes : List UInt8) : M :=
  match s.reading with
  | none => return s
  | some op =>
    if bytes.length = op.len then do
      let b ← within s.setInput (s.inputBuffer_.copyTo op.pos bytes)
      let s := { (s.setInput b).observe (.readDone op.len) with reading := none }
      match op.handler with
      | .header => s.headerDone op.len
      | .body => s.bodyDone messageCallback op.len
    else
      return s

/-- The outstanding `async_read` completes with an error; both lambdas close the connection. -/
def readError (s : TcpConnection) (onConnection onClose : List Act) : M :=
  match s.reading with
  | none => return s
  | some _ => ({ s with reading := none } : TcpConnection).handleClose onConnection onClose

/-- `connectEstablished`: the owner is told before the first read is started. -/
def connectEstablished (s : TcpConnection) (onConnection : List Act) : M := do
  require (s.state_ = .kConnecting) (.assertFailed .connectEstablished) s
  let s ← (s.setState .kConnected).notifyConnection onConnection
  return s.readHeader

/-! ## Writing

  What asio does with a range that it was given, and the two ways in which a write completes. -/

/-- asio reads the next `n` bytes (at least one) of the range of the `i`-th outstanding write, from
    the storage as it is now, and puts them on the wire. -/
def transmit (s : TcpConnection) (i n : Nat) : M :=
  match s.writing[i]? with
  | none => return s
  | some op =>
    if 0 < n ∧ op.sent + n ≤ op.len then
      if op.block = s.outputBuffer_.buffer_.block then do
        let bytes ← within s.setOutput (s.outputBuffer_.bytesAt (op.pos + op.sent) n)
        return { s with
          writing := s.writing.set i { op with sent := op.sent + n }, wire := s.wire ++ bytes }
      else
        .error (.useAfterFree, s)
    else
      return s

/-- The lambda of `write`, called without an error once the whole range of the `i`-th outstanding
    write has been transmitted. -/
def writeDone (s : TcpConnection) (i : Nat) : M :=
  match s.writing[i]? with
  | none => return s
  | some op =>
    if op.sent = op.len then do
      let s := { s with writing := s.writing.eraseIdx i }
      let b ← within s.setOutput (s.outputBuffer_.retrieve op.len)
      let s := s.setOutput b
      if s.outputBuffer_.readableBytes ≠ 0 then
        return s.write
      else if s.state_ = .kDisconnecting then
        return s.shutdownInThisThread
      else
        return s
    else
      return s

/-- The lambda of `write`, called with an error: whichever error it is, only a log line. The
    bytes stay in the buffer, and no write is started for them. -/
def writeError (s : TcpConnection) (i : Nat) : TcpConnection :=
  match s.writing[i]? with
  | none => s
  | some _ => ({ s with writing := s.writing.eraseIdx i } : TcpConnection).observe .writeFailed

/-! ## The connection on its loop

  All handlers of a connection run on one thread, one after the other.  So the events below are
  whole handlers, except for what asio does to the socket between them. -/

/-- A message callback that retrieves `consume` of the readable bytes (all of them when there are
    fewer) and makes the calls `as`. -/
def retrieving (consume : Nat) (as : List Act) : MessageCallback := fun b => do
  let b ← b.retrieve (min consume b.readableBytes)
  return (b, as)

/-- What can happen to a connection next, with what user code does meanwhile. -/
inductive Event
  | connectEstablished (onConnection : List Act)
  | connectDestroyed (onConnection : List Act)
  | shutdown (isInLoopThread : Bool)
  | forceClose
  | send (isInLoopThread : Bool) (message : StringPiece)
  /-- The loop runs the `i`-th posted handler. -/
  | runTask (i : Nat) (onConnection onClose : List Act)
  | readDone (bytes : List UInt8) (consume : Nat) (onMessage : List Act)
  | readError (onConnection onClose : List Act)
  | transmit (i n : Nat)
  | writeDone (i : Nat)
  | writeError (i : Nat)

/-- The loop runs the `i`-th posted handler. Handlers are taken out in any order here; what needs
    their order says so. -/
def runTask (s : TcpConnection) (i : Nat) (onConnection onClose : List Act) : M :=
  match s.tasks[i]? with
  | none => return s
  | some task =>
    let s := { s with tasks := s.tasks.eraseIdx i }
    match task with
    | .sendInThisThread str => s.sendInThisThread str
    | .shutdownInThisThread => return s.shutdownInThisThread
    | .forceCloseInThisThread => s.forceCloseInThisThread onConnection onClose

/-- One event: a call of the owner, a posted handler, or a completion of the socket. An event
    that does not apply leaves the state, so any list of events is a run. -/
def step (s : TcpConnection) : Event → M
  | .connectEstablished onConnection => s.connectEstablished onConnection
  | .connectDestroyed onConnection => s.connectDestroyed onConnection
  | .shutdown isInLoopThread => return s.shutdown isInLoopThread
  | .forceClose => return s.forceClose
  | .send isInLoopThread message => s.send isInLoopThread message
  | .runTask i onConnection onClose => s.runTask i onConnection onClose
  | .readDone bytes consume onMessage => s.readDone (retrieving consume onMessage) bytes
  | .readError onConnection onClose => s.readError onConnection onClose
  | .transmit i n => s.transmit i n
  | .writeDone i => s.writeDone i
  | .writeError i => return s.writeError i

end Members

end TcpConnection

end IOEvent
