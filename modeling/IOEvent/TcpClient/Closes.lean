/-
  A connection as its client sees it.

  The client depends on when a connection is disconnected and when it calls the close callback.
  Whatever happens to a connection leaves both as they are (`Steady`), or disconnects it and calls
  the close callback, once (`Closes`).  Here a force close is one of the things that happen, and a
  read may complete late; so there is no condition on the calls, as there is for the connections of
  a server.  `Owned` is the invariant: a connection has called the close callback if and only if it
  is disconnected.
-/
import IOEvent.TcpConnection.Steady
import IOEvent.TcpServer

open Foundation

namespace IOEvent

namespace TcpConnection

variable {c c' c'' : TcpConnection}

/-! ## What a handler does

  A handler is a few operations in a row, and at most one of them closes.  After one that has
  closed the rest is steady. -/

/-- Disconnected, and the close callback has been called. -/
structure Closes (c c' : TcpConnection) : Prop where
  output : c'.outputBuffer_.Ok
  callback : c'.closeCallback_ = c.closeCallback_
  before : c.state_ ≠ .kDisconnected
  after : c'.state_ = .kDisconnected
  closes : c'.trace.count .closeCallback = c.trace.count .closeCallback + 1

/-- A close behind a steady step is a close of the whole. -/
theorem Steady.closes_of (h : Steady c c') (h' : Closes c' c'') : Closes c c'' :=
  ⟨h'.output, h'.callback.trans h.callback, mt h.down_iff.mpr h'.before, h'.after,
    by rw [h'.closes, h.closes]⟩

/-- What any operation leaves. -/
def KeepsOrCloses (c : TcpConnection) (r : M) : Prop :=
  Holds (fun c' => Steady c c' ∨ Closes c c') (fun e => Steady c e.2) r

/-- What is steady is one of the two. -/
theorem KeepsSteady.keepsOrCloses {r : M} (h : KeepsSteady c r) : KeepsOrCloses c r :=
  h.mono (fun _ => .inl) fun _ => id

/-- Behind a steady step an operation that keeps or closes does so from the start. -/
theorem KeepsOrCloses.trans (h : Steady c c') {r : M} (hr : KeepsOrCloses c' r) :
    KeepsOrCloses c r :=
  hr.mono (fun _ h' => h'.imp h.trans h.closes_of) fun _ h' => h.trans h'

section Steps

variable [VectorImpl]

/-! ## The handlers that call the owner back

  `handleClose` calls the connection callback, in which user code may do anything, on a
  connection that is down already, and then the close callback. -/

/-- User code cannot fail in the callback of a disconnected connection. -/
theorem notifyConnection_down (h : c.outputBuffer_.Ok) (hdown : c.state_ = .kDisconnected)
    (onConnection : List Act) : ∃ c', c.notifyConnection onConnection = .ok c' ∧ Steady c c' := by
  have hsteady := notifyConnection_steady h onConnection
  unfold notifyConnection callConnection at hsteady ⊢
  split
  case isTrue hcb =>
    rw [if_pos hcb] at hsteady
    obtain ⟨c', hc', -⟩ := acts_down onConnection
      (c := c.observe (.connectionCallback c.state_)) h hdown
    rw [if_pos hcb, hc'] at hsteady
    exact ⟨c', hc', holds_ok.mp hsteady⟩
  case isFalse => exact ⟨c, rfl, .refl h⟩

/-- **`handleClose` closes**, and calls the close callback once. -/
theorem handleClose_closes (h : c.outputBuffer_.Ok) (hcb : c.closeCallback_ = true)
    (onConnection : List Act) : KeepsOrCloses c (c.handleClose onConnection []) := by
  rw [handleClose]
  by_cases hup : c.state_ = .kConnected ∨ c.state_ = .kDisconnecting
  · obtain ⟨c', hc', hsteady⟩ :=
      notifyConnection_down (c := c.setState .kDisconnected) h rfl onConnection
    rw [require_pos _ _ hup, ok_bind, hc', ok_bind, notifyClose]
    rw [if_pos (hsteady.callback.trans hcb)]
    refine .ok (.inr ⟨hsteady.output, hsteady.callback, ?_, hsteady.down_iff.mpr rfl, ?_⟩)
    · rcases hup with hup | hup <;> rw [hup] <;> decide
    · rw [count_observe, if_pos rfl, hsteady.closes]
      rfl
  · rw [require_neg _ _ hup, error_bind]
    exact .error (.refl h)

/-! ## One event

  One lemma for the socket, one for the tasks a connection has posted to itself, and the two
  together. -/

/-- What the socket does closes the connection once at most, by the failure of its read. -/
theorem socket_closes (h : c.outputBuffer_.Ok) (hcb : c.closeCallback_ = true)
    (e : TcpServer.SocketEvent) : KeepsOrCloses c (c.step e.event) := by
  cases e with
  | readDone bytes consume onMessage => exact (readDone_steady h _ bytes).keepsOrCloses
  | readError onConnection =>
    show KeepsOrCloses c (c.readError onConnection [])
    unfold readError
    split
    · exact .ok (.inl (.refl h))
    · have hread := (Steady.refl h).setReading none
      exact KeepsOrCloses.trans hread (handleClose_closes hread.output hcb onConnection)
  | transmit i n => exact (transmit_calm h i n).steady.keepsOrCloses
  | writeDone i => exact (writeDone_calm h i).steady.keepsOrCloses
  | writeError i => exact .ok (.inl (writeError_calm h i).steady)

/-- A posted handler closes it once at most, by a force close. -/
theorem runTask_closes (h : c.outputBuffer_.Ok) (hcb : c.closeCallback_ = true) (i : Nat)
    (onConnection : List Act) : KeepsOrCloses c (c.runTask i onConnection []) := by
  unfold runTask
  split
  · exact .ok (.inl (.refl h))
  case h_2 task _ =>
    have hrest : Steady c { c with tasks := c.tasks.eraseIdx i } := ⟨h, rfl, .inl rfl, rfl⟩
    apply KeepsOrCloses.trans hrest
    cases task with
    | sendInThisThread str => exact (sendInThisThread_calm hrest.output str).steady.keepsOrCloses
    | shutdownInThisThread => exact .ok (.inl (shutdownInThisThread_calm hrest.output).steady)
    | forceCloseInThisThread =>
      dsimp only
      unfold forceCloseInThisThread
      split
      · exact handleClose_closes hrest.output hcb onConnection
      · exact .ok (.inl (.refl hrest.output))

/-- **Whatever happens to a connection** besides the handlers of its owner. -/
theorem io_closes (h : c.outputBuffer_.Ok) (hcb : c.closeCallback_ = true) (e : TcpServer.Io) :
    KeepsOrCloses c (c.step e.event) := by
  cases e with
  | shutdown inLoop => exact .ok (.inl (shutdown_calm h inLoop).steady)
  | forceClose => exact .ok (.inl (forceClose_calm h).steady)
  | send inLoop message => exact (send_calm h inLoop message).steady.keepsOrCloses
  | runTask i onConnection => exact runTask_closes h hcb i onConnection
  | socket e => exact socket_closes h hcb e

end Steps

/-! ## The invariant

  What the client relies on.  It holds of a new connection and is kept by whatever happens to
  one. -/

/-- A connection in the hands of its client: the close callback is set, and was called exactly
    when the connection is down. -/
structure Owned (c : TcpConnection) : Prop where
  output : c.outputBuffer_.Ok
  callback : c.closeCallback_ = true
  closes : c.trace.count .closeCallback = if c.state_ = .kDisconnected then 1 else 0

/-- A steady step leaves it so. -/
theorem Owned.steady (h : Owned c) (hs : Steady c c') : Owned c' where
  output := hs.output
  callback := hs.callback.trans h.callback
  closes := by
    rw [hs.closes, h.closes]
    simp only [hs.down_iff]

/-- So does the close itself. -/
theorem Owned.closed (h : Owned c) (hs : Closes c c') : Owned c' where
  output := hs.output
  callback := hs.callback.trans h.callback
  closes := by
    rw [hs.closes, h.closes, if_neg hs.before, if_pos hs.after]

/-- A new connection is up, and has called nobody. -/
theorem new_owned [VectorImpl] (cc mc : Bool) : Owned (new cc mc true) :=
  ⟨Buffer.new_ok (by decide), rfl, rfl⟩

end TcpConnection

end IOEvent
