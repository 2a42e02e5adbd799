/-
  A connection whose server goes away.

  `connectDestroyed` disconnects a connected connection and leaves every other as it is
  (`Dropped`): it cancels no read, and does not touch the close callback.  What becomes of the
  connection is then up to the next read error.  A connection is `Spared` when that cannot get to
  the close callback: no read is outstanding, or `handleClose` stops at its `assert`.  No event
  of the socket changes that.
-/
import IOEvent.TcpConnection.Steady
import IOEvent.TcpServer.Standing

open Foundation

namespace IOEvent

namespace TcpConnection

variable {c c' : TcpConnection}

/-! ## What `connectDestroyed` and a read error do to a connection

  The first acts on a connected connection only.  The second closes one that is connected or
  disconnecting, and calls the close callback. -/

/-- `connectDestroyed` has been run: a connected connection is disconnected, and nothing else that
    matters here has changed. -/
structure Dropped (c c' : TcpConnection) : Prop where
  state : c'.state_ = if c.state_ = .kConnected then .kDisconnected else c.state_
  reading : c'.reading = c.reading
  callbacks : c'.closeCallback_ = c.closeCallback_ ∧ c'.connectionCallback_ = c.connectionCallback_
  output : c'.outputBuffer_.Ok

/-- A dropped connection is not connected. -/
theorem Dropped.not_connected (h : Dropped c c') : c'.state_ ≠ .kConnected := by
  rw [h.state]
  split
  · decide
  · assumption

/-- Dropping composes. -/
theorem Dropped.trans {c'' : TcpConnection} (h : Dropped c c') (h' : Dropped c' c'') :
    Dropped c c'' where
  state := by
    rw [h'.state, if_neg h.not_connected]
    exact h.state
  reading := h'.reading.trans h.reading
  callbacks := ⟨h'.callbacks.1.trans h.callbacks.1, h'.callbacks.2.trans h.callbacks.2⟩
  output := h'.output

section Steps

variable [VectorImpl]

/-- `connectDestroyed` fails only by a call of an empty connection callback. -/
theorem connectDestroyed_cases (h : c.outputBuffer_.Ok) (onConnection : List Act) :
    (∃ c', c.connectDestroyed onConnection = .ok c' ∧ Dropped c c' ∧
      (c.state_ = .kConnected → c.connectionCallback_ = true)) ∨
    (c.state_ = .kConnected ∧ c.connectionCallback_ = false ∧
      ∃ e, c.connectDestroyed onConnection = .error e) := by
  rw [connectDestroyed]
  split
  case isFalse hstate =>
    exact .inl ⟨c, rfl, ⟨(if_neg hstate).symm, rfl, ⟨rfl, rfl⟩, h⟩, fun hc => absurd hc hstate⟩
  case isTrue hstate =>
    rw [callConnection]
    by_cases hcb : (c.setState .kDisconnected).connectionCallback_
    · rw [if_pos hcb]
      obtain ⟨c', hc', hcalm⟩ := acts_down onConnection
        (c := (c.setState .kDisconnected).observe (.connectionCallback .kDisconnected)) h rfl
      have hdown : c'.state_ = .kDisconnected := by
        rcases hcalm.state with hsame | ⟨hconn, -⟩
        · exact hsame
        · cases hconn
      refine .inl ⟨c', hc',
        ⟨?_, hcalm.reading, ⟨hcalm.callbacks.2.2, hcalm.callbacks.1⟩, hcalm.output⟩,
        fun _ => hcb⟩
      rw [if_pos hstate, hdown]
    · rw [if_neg hcb]
      exact .inr ⟨hstate, Bool.not_eq_true _ ▸ hcb, _, rfl⟩

/-- A read error of a connection that is up calls the close callback. -/
theorem readError_closes {op : AsyncRead} (hread : c.reading = some op)
    (hup : c.state_ = .kConnected ∨ c.state_ = .kDisconnecting) (hcb : c.closeCallback_ = true) :
    ∃ c', c.readError [] [] = .ok c' ∧
      c'.trace.count .closeCallback = c.trace.count .closeCallback + 1 := by
  rw [readError, hread]
  dsimp only
  rw [handleClose, require_pos _ _ hup, ok_bind, notifyConnection, callConnection]
  split
  · refine ⟨_, by rw [acts, run_nil, ok_bind, notifyClose]; exact if_pos hcb, ?_⟩
    rw [count_observe, if_pos rfl, count_observe, if_neg (by simp)]
    rfl
  · refine ⟨_, by rw [ok_bind, notifyClose]; exact if_pos hcb, ?_⟩
    rw [count_observe, if_pos rfl]
    rfl

end Steps

/-! ## Connections that call nothing any more

  A connection that is `Spared` stays so, whatever completes on its socket: a read is started
  by the completion of another one, and the state is never set back. -/

/-- No read error can close the connection: it has no read outstanding, or is in a state in which
    `handleClose` does not get to the callback. -/
structure Spared (c : TcpConnection) : Prop where
  output : c.outputBuffer_.Ok
  safe : c.reading = none ∨ c.state_ = .kDisconnected ∨ c.state_ = .kConnecting

/-- What is calm spares. -/
theorem Spared.calm (h : Spared c) (hc : Calm c c') : Spared c' where
  output := hc.output
  safe := by
    rw [hc.reading]
    refine h.safe.imp_right fun hstate => ?_
    rcases hc.state with hsame | ⟨hconn, -⟩
    · rwa [hsame]
    · rw [hconn] at hstate
      exact absurd hstate (by decide)

/-- A connection that was not disconnecting with a read outstanding is spared once it is dropped. -/
theorem Dropped.spared (h : Dropped c c') (hc : c.state_ = .kDisconnecting → c.reading = none) :
    Spared c' where
  output := h.output
  safe := by
    rw [h.reading, h.state]
    cases hstate : c.state_ with
    | kConnected => exact .inr (.inl rfl)
    | kDisconnecting => exact .inl (hc hstate)
    | kDisconnected => exact .inr (.inl rfl)
    | kConnecting => exact .inr (.inr rfl)

/-- The state and the calls of the close callback are as they were. -/
structure Kept (c c' : TcpConnection) : Prop where
  output : c'.outputBuffer_.Ok
  state : c'.state_ = c.state_
  closes : c'.trace.count .closeCallback = c.trace.count .closeCallback

/-- A steady step of a connection that is not connected keeps its state: it can only begin to
    disconnect, and has done so. -/
theorem Steady.kept (hs : Steady c c') (hstate : c.state_ ≠ .kConnected) : Kept c c' :=
  ⟨hs.output, hs.state.resolve_right fun h => hstate h.1, hs.closes⟩

/-- What a read of a connection that is not connected leaves. -/
def KeepsState (c : TcpConnection) (r : M) : Prop := Holds (Kept c) (fun _ => True) r

section Steps

variable [VectorImpl]

/-- A completed read of such a connection keeps its state too, whatever the owner calls in the
    message callback. -/
theorem readDone_keepsState (h : c.outputBuffer_.Ok) (hstate : c.state_ ≠ .kConnected)
    (messageCallback : MessageCallback) (bytes : List UInt8) :
    KeepsState c (c.readDone messageCallback bytes) :=
  (readDone_steady h messageCallback bytes).mono (fun _ hs => hs.kept hstate) fun _ _ => trivial

/-- **A spared connection** calls nothing, whatever its socket does. -/
theorem socket_spared (h : Spared c) (e : TcpServer.SocketEvent) :
    Holds (fun c' => Spared c' ∧ c'.trace.count .closeCallback = c.trace.count .closeCallback)
      (fun _ => True) (c.step e.event) := by
  -- what keeps calm calls no close callback
  have hcalm : ∀ c', Calm c c' →
      Spared c' ∧ c'.trace.count .closeCallback = c.trace.count .closeCallback :=
    fun c' hc => ⟨h.calm hc, hc.uncalled.count rfl⟩
  cases e with
  | transmit i n => exact (transmit_calm h.output i n).mono hcalm fun _ _ => trivial
  | writeDone i => exact (writeDone_calm h.output i).mono hcalm fun _ _ => trivial
  | writeError i => exact .ok (hcalm _ (writeError_calm h.output i))
  | readError onConnection =>
    show Holds _ _ (c.readError onConnection [])
    rw [readError]
    split
    · exact .ok ⟨h, rfl⟩
    -- an error on an outstanding read would close the connection, which `Spared` excludes
    case h_2 op hread =>
      have hstate := h.safe.resolve_left (by simp [hread])
      rw [handleClose, require_neg, error_bind]
      · exact .error trivial
      · show ¬ (c.state_ = .kConnected ∨ c.state_ = .kDisconnecting)
        rcases hstate with hstate | hstate <;> rw [hstate] <;> decide
  | readDone bytes consume onMessage =>
    show Holds _ _ (c.readDone (retrieving consume onMessage) bytes)
    by_cases hread : c.reading = none
    · rw [readDone, hread]
      exact .ok ⟨h, rfl⟩
    · -- so would a message in state `kConnected`
      have hsafe := h.safe.resolve_left hread
      have hconn : c.state_ ≠ .kConnected := by
        rcases hsafe with hstate | hstate <;> rw [hstate] <;> decide
      apply (readDone_keepsState h.output hconn _ bytes).mono _ fun _ => id
      intro c' hc'
      exact ⟨⟨hc'.output, .inr (by rwa [hc'.state])⟩, hc'.closes⟩

end Steps

end TcpConnection

end IOEvent
