/-
  What an operation of a connection leaves alone that does not close it.

  `Calm` is about the sending side.  The receiving side changes more, but it does not disconnect the
  connection either, and does not call the close callback; `Steady` is what both have in common.
  Not steady are `connectEstablished`, `connectDestroyed` and `handleClose`, and what calls these.

  It is used where the connection is a part of a server or a client: there a step of a
  connection matters only if it disconnects it, or calls the close callback.
-/
import IOEvent.TcpConnection.Lifecycle

open Foundation

namespace IOEvent

namespace TcpConnection

variable {c c' c'' : TcpConnection}

/-- Neither disconnected nor closed; a connected one may have begun to disconnect. The count
    of the close callback is what an owner waits for, and it stays. -/
structure Steady (c c' : TcpConnection) : Prop where
  output : c'.outputBuffer_.Ok
  callback : c'.closeCallback_ = c.closeCallback_
  state : c'.state_ = c.state_ ∨ (c.state_ = .kConnected ∧ c'.state_ = .kDisconnecting)
  closes : c'.trace.count .closeCallback = c.trace.count .closeCallback

/-- Nothing done, nothing closed. -/
theorem Steady.refl (h : c.outputBuffer_.Ok) : Steady c c := ⟨h, rfl, .inl rfl, rfl⟩

/-- Two steps that close nothing are one; having begun to disconnect stays. -/
theorem Steady.trans (h : Steady c c') (h' : Steady c' c'') : Steady c c'' where
  output := h'.output
  callback := h'.callback.trans h.callback
  state := by
    rcases h'.state with hsame | ⟨hconn, hdisc⟩
    · rw [hsame]
      exact h.state
    · rcases h.state with hsame | ⟨-, hdisc'⟩
      · exact .inr ⟨hsame ▸ hconn, hdisc⟩
      · rw [hdisc'] at hconn
        cases hconn
  closes := h'.closes.trans h.closes

/-- A steady step neither takes the connection down nor brings it up, which is what the table of a
    server counts on. -/
theorem Steady.down_iff (h : Steady c c') :
    c'.state_ = .kDisconnected ↔ c.state_ = .kDisconnected := by
  rcases h.state with hsame | ⟨hconn, hdisc⟩
  · rw [hsame]
  · rw [hconn, hdisc]
    decide

/-- The sending side closes nothing. -/
theorem Calm.steady (h : Calm c c') : Steady c c' :=
  ⟨h.output, h.callbacks.2.2, h.state, h.uncalled.count rfl⟩

/-- Neither does anything seen, the close callback apart. -/
theorem Steady.observe (h : Steady c c') {o : Obs} (ho : o ≠ .closeCallback) :
    Steady c (c'.observe o) := by
  refine ⟨h.output, h.callback, h.state, ?_⟩
  rw [count_observe, if_neg ho]
  exact h.closes

/-- The input buffer has no part in it. -/
theorem Steady.setInput (h : Steady c c') (b : Buffer) : Steady c (c'.setInput b) :=
  ⟨h.output, h.callback, h.state, h.closes⟩

/-- Nor has the outstanding read. -/
theorem Steady.setReading (h : Steady c c') (op : Option AsyncRead) :
    Steady c { c' with reading := op } := ⟨h.output, h.callback, h.state, h.closes⟩

/-- What an operation that closes nothing leaves, whether it returns or fails. -/
def KeepsSteady (c : TcpConnection) (r : M) : Prop := Holds (Steady c) (fun e => Steady c e.2) r

/-- A calm operation is steady, faults included. -/
theorem StaysCalm.steady {r : M} (h : StaysCalm c r) : KeepsSteady c r :=
  h.mono (fun _ hc => hc.steady) fun _ he => he.1.steady

/-- Behind a steady step a steady operation is steady from the start. -/
theorem KeepsSteady.trans (h : Steady c c') {r : M} (hr : KeepsSteady c' r) : KeepsSteady c r :=
  hr.mono (fun _ h' => h.trans h') fun _ h' => h.trans h'

/-- A fault inside the input buffer. -/
theorem within_steady {α : Type} (h : Steady c c') (r : Outcome Fault Buffer α) :
    Holds (fun _ => True) (fun e => Steady c e.2) (within c'.setInput r) := by
  cases r with
  | ok a => exact .ok trivial
  | error e => exact .error (h.setInput e.2)

section Steps

variable [VectorImpl]

/-- **The connection callback is steady**: user code can ask for a close in it, but the close is a
    handler of its own. -/
theorem notifyConnection_steady (h : c.outputBuffer_.Ok) (onConnection : List Act) :
    KeepsSteady c (c.notifyConnection onConnection) := by
  unfold notifyConnection
  split
  case isTrue hcb =>
    rw [callConnection, if_pos hcb]
    have hcalled : Steady c (c.observe (.connectionCallback c.state_)) :=
      (Steady.refl h).observe (by simp)
    exact KeepsSteady.trans hcalled (acts_calm onConnection hcalled.output).steady
  case isFalse => exact .ok (.refl h)

/-- `connectEstablished` takes the connection up, and is steady from there on. -/
theorem connectEstablished_steady (h : c.outputBuffer_.Ok) (hstate : c.state_ = .kConnecting)
    (onConnection : List Act) :
    KeepsSteady (c.setState .kConnected) (c.connectEstablished onConnection) := by
  rw [connectEstablished, require_pos _ _ hstate, ok_bind]
  have hcalled := notifyConnection_steady (c := c.setState .kConnected) h onConnection
  exact Holds.bind hcalled fun c' hc' => .ok (hc'.setReading _)

/-! ## The completions of reads

  A read that completes with data may shut the connection down by what the message callback
  calls, but it does not disconnect it. -/

/-- A header that has arrived is steady. It makes room for the body and reads it; a length for
    which there is no room throws, which closes nothing either. -/
theorem headerDone_steady (h : c.outputBuffer_.Ok) (byte : Nat) :
    KeepsSteady c (c.headerDone byte) := by
  have hstart := Steady.refl h
  rw [headerDone]
  refine Holds.bind (within_steady hstart _) fun b _ => ?_
  refine Holds.bind (within_steady (hstart.setInput b) _) fun len _ => ?_
  refine Holds.bind (within_steady (hstart.setInput b) _) fun b' _ => ?_
  have hmore := (hstart.setInput b).setInput b'
  have hread := hmore.observe (o := .readBody (toUnsigned 64 len)) (by simp)
  exact .ok (hread.setReading _)

/-- A body that has arrived is steady, whatever the message callback does with it. -/
theorem bodyDone_steady (h : c.outputBuffer_.Ok) (messageCallback : MessageCallback) (byte : Nat) :
    KeepsSteady c (c.bodyDone messageCallback byte) := by
  have hstart := Steady.refl h
  rw [bodyDone]
  refine Holds.bind (within_steady hstart _) fun b _ => ?_
  dsimp only
  split
  · have hcalled : Steady c ((c.setInput b).observe (.messageCallback (c.setInput b).state_)) :=
      (hstart.setInput b).observe (by simp)
    refine Holds.bind (within_steady hcalled _) fun p _ => ?_
    have hset := hcalled.setInput p.1
    have hacts := KeepsSteady.trans hset (acts_calm p.2 hset.output).steady
    exact Holds.bind hacts fun c' hc' => .ok (hc'.setReading _)
  · exact .error (hstart.setInput b)

/-- **A completed read is steady.** Reads that fail are the ones that close, and are not here. -/
theorem readDone_steady (h : c.outputBuffer_.Ok) (messageCallback : MessageCallback)
    (bytes : List UInt8) : KeepsSteady c (c.readDone messageCallback bytes) := by
  have hstart := Steady.refl h
  unfold readDone
  split
  · exact .ok hstart
  case h_2 op _ =>
    split
    · refine Holds.bind (within_steady hstart _) fun b _ => ?_
      have hdone := ((hstart.setInput b).observe (o := .readDone op.len) (by simp)).setReading none
      dsimp only
      split
      · exact KeepsSteady.trans hdone (headerDone_steady hdone.output op.len)
      · exact KeepsSteady.trans hdone (bodyDone_steady hdone.output messageCallback op.len)
    · exact .ok hstart

end Steps

end TcpConnection

end IOEvent
