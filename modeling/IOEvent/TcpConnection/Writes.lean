/-
  A connection that has bytes to send is sending them.

  `sendInThisThread` starts a write only when `outputBuffer_` was empty, so it relies on a write
  being outstanding whenever the buffer is not.  `OneWrite` is this equivalence.  Two things break
  it for good:

  * a write completes with an error and the connection stays up: the lambda logs a line, whichever
    error it is, and leaves the bytes in the buffer without a write;
  * a message of no bytes is sent while the buffer is empty: it starts a write of an empty range.

  `Unwedged` excludes the two.  The rest of the connection either leaves the buffer and the writes
  alone (`Untouched`) or is one of `sendInThisThread`, `transmit` and `writeDone`, each of which
  keeps the writes as `Pending` says: none while the buffer is empty, and otherwise one, of no more
  than what is in the buffer.

  The comment at the error of a write says that `operation_would_block` is no real error, as the
  buffer of the peer may be full.  The lambda treats all errors alike and starts no write again,
  and `sendInThisThread` starts none either while there are bytes in the buffer; so a connection
  that has had one such error never writes again.
-/
import IOEvent.TcpConnection.Frame

open Foundation

namespace IOEvent

/-- The first message that user code sends in a callback before it closes the connection. -/
def firstSent : List Act → Option StringPiece
  | [] => none
  | .deliver _ :: as => firstSent as
  | .shutdown :: _ => none
  | .forceClose :: _ => none
  | .send message :: _ => some message

namespace TcpConnection

variable {s s' : TcpConnection}

/-! ## The property and the condition

  The condition is on the event and the state before it, the calls that user code will make in
  a callback included. -/

/-- While the connection is up, `outputBuffer_` is not empty if and only if one `async_write` is
    outstanding. -/
def OneWrite (s : TcpConnection) : Prop :=
  s.state_ = .kConnected ∨ s.state_ = .kDisconnecting →
    (s.outputBuffer_.readableBytes ≠ 0 ↔ s.writing.length = 1)

/-- The message does not start a write of an empty range. -/
def Starts (s : TcpConnection) (message : StringPiece) : Prop :=
  s.outputBuffer_.readableBytes = 0 → message.bytes ≠ []

/-- Whether a message starts a write is read off the buffer. -/
instance (s : TcpConnection) (message : StringPiece) : Decidable (s.Starts message) :=
  inferInstanceAs (Decidable (_ → _))

/-- No write fails while the connection is up, and no message of no bytes is sent while the
    buffer is empty, in a callback neither. Where the connection is down nothing is asked, as
    the property then asks nothing. -/
def Unwedged (s : TcpConnection) : Event → Prop
  | .writeError i => s.state_ ≠ .kDisconnected → s.writing[i]? = none
  | .send isInLoopThread message =>
    isInLoopThread = true → s.state_ = .kConnected → s.Starts message
  | .runTask i _ _ =>
    ∀ task ∈ s.tasks[i]?, match task with
      | .sendInThisThread str => s.state_ ≠ .kDisconnected → s.Starts str
      | _ => True
  | .connectEstablished onConnection =>
    s.connectionCallback_ = true → ∀ message ∈ firstSent onConnection, s.Starts message
  | .readDone bytes _ onMessage =>
    ∀ op ∈ s.reading, op.handler = .body → bytes.length = op.len → s.state_ = .kConnected →
      ∀ message ∈ firstSent onMessage, s.Starts message
  | _ => True

/-- So whether a step wedges the connection can be computed. -/
instance (s : TcpConnection) (e : Event) : Decidable (Unwedged s e) := by
  cases e <;> unfold Unwedged <;> try infer_instance
  case runTask i _ _ =>
    have hdec : ∀ task : Task, Decidable (match task with
        | .sendInThisThread str => s.state_ ≠ .kDisconnected → s.Starts str
        | _ => True) := by
      intro task
      cases task <;> infer_instance
    infer_instance

/-! ## The invariant

  `OneWrite` with the length of the write, which a later append must not fall below. -/

/-- The writes outstanding while `n` bytes are in the buffer. -/
inductive Pending (n : Nat) : List AsyncWrite → Prop
  | idle (h : n = 0) : Pending n []
  | busy (op : AsyncWrite) (h : n ≠ 0) (hle : op.len ≤ n) : Pending n [op]

/-- The invariant: the buffer is in order, and while the connection is up its contents and
    its outstanding writes fit each other. The property itself is read off it; what it adds
    is the length of the write. A connection that is down may have both, and nothing is said
    about it. -/
structure WriteInv (s : TcpConnection) : Prop where
  output : s.outputBuffer_.Ok
  pending : s.state_ ≠ .kDisconnected → Pending s.outputBuffer_.contents.length s.writing

/-- The invariant has the property in it. -/
theorem WriteInv.oneWrite (h : WriteInv s) : OneWrite s := by
  intro hup
  have hpending := h.pending (by rcases hup with hup | hup <;> rw [hup] <;> decide)
  rw [h.output.readableBytes_eq_length]
  generalize s.writing = writing at hpending
  cases hpending with
  | idle hzero => simp [hzero]
  | busy op hne _ => simp [hne]

/-- The buffer and the writes are as they were, and the connection has not come up again. -/
structure Untouched (s s' : TcpConnection) : Prop where
  output : s'.outputBuffer_ = s.outputBuffer_
  writing : s'.writing = s.writing
  up : s'.state_ ≠ .kDisconnected → s.state_ ≠ .kDisconnected

/-- With the buffer and the writes as they were it is the same. -/
theorem WriteInv.same (hs : WriteInv s) (h : Untouched s s') : WriteInv s' where
  output := by
    rw [h.output]
    exact hs.output
  pending := by
    intro hup
    rw [h.output, h.writing]
    exact hs.pending (h.up hup)

/-- What an operation keeps, whether it returns or fails. -/
def KeepsWrites (r : M) : Prop := Holds WriteInv (fun e => WriteInv e.2) r

/-- So an operation that touches neither keeps it. -/
theorem WriteInv.keeps (h : WriteInv s) (hsame : Untouched s s') : KeepsWrites (.ok s') :=
  .ok (h.same hsame)

/-- A fault in such an operation keeps it too. -/
theorem WriteInv.fails (h : WriteInv s) (hsame : Untouched s s') (f : Fault) :
    KeepsWrites (.error (f, s')) := .error (h.same hsame)

/-- A connection that is down promises nothing about its writes. -/
theorem down_inv (h : WriteInv s) : WriteInv (s.setState .kDisconnected) :=
  ⟨h.output, fun hup => absurd rfl hup⟩

/-- What is seen has no part in it. -/
theorem observe_inv (h : WriteInv s) (o : Obs) : WriteInv (s.observe o) :=
  h.same ⟨rfl, rfl, id⟩

/-- An operation on the input buffer leaves the writes alone. -/
theorem within_keepsWrites {α : Type} (h : WriteInv s) (r : Outcome Fault Buffer α) :
    Holds (fun _ => True) (fun e => WriteInv e.2) (within s.setInput r) := by
  cases r with
  | ok a => exact .ok trivial
  | error e => exact .error (h.same ⟨rfl, rfl, id⟩)

/-- The input has no part in it. -/
theorem setInput_inv (h : WriteInv s) (b : Buffer) : WriteInv (s.setInput b) :=
  h.same ⟨rfl, rfl, id⟩

/-- `shutdownInThisThread` closes the sending side of the socket, and leaves the buffer. -/
theorem shutdownInThisThread_untouched : Untouched s s.shutdownInThisThread := by
  rw [shutdownInThisThread]
  split
  · exact ⟨rfl, rfl, id⟩
  · exact ⟨rfl, rfl, id⟩

/-- `shutdown` leaves it too. -/
theorem shutdown_untouched (isInLoopThread : Bool) : Untouched s (s.shutdown isInLoopThread) := by
  rw [shutdown]
  split
  case isTrue hstate =>
    have hup : s.state_ ≠ .kDisconnected := by
      rw [hstate]
      decide
    dsimp only
    split
    · have hsame := shutdownInThisThread_untouched (s := s.setState .kDisconnecting)
      exact ⟨hsame.output, hsame.writing, fun _ => hup⟩
    · exact ⟨rfl, rfl, fun _ => hup⟩
  case isFalse => exact ⟨rfl, rfl, id⟩

/-- `forceClose` leaves it, since the closing is in the handler it posts. -/
theorem forceClose_untouched : Untouched s s.forceClose := by
  rw [forceClose]
  split
  case isTrue hstate =>
    refine ⟨rfl, rfl, fun _ => ?_⟩
    rcases hstate with hstate | hstate <;> rw [hstate] <;> decide
  case isFalse => exact ⟨rfl, rfl, id⟩

/-- Behind `shutdown` the connection is not connected. -/
theorem shutdown_down (isInLoopThread : Bool) :
    (s.shutdown isInLoopThread).state_ ≠ .kConnected := by
  rw [shutdown]
  split
  · dsimp only
    split
    · rw [shutdownInThisThread]
      split <;> intro hconn <;> cases hconn
    · intro hconn
      cases hconn
  case isFalse hstate => exact hstate

/-- Nor is it behind `forceClose`; a later `send` of the same callback is refused. -/
theorem forceClose_down : s.forceClose.state_ ≠ .kConnected := by
  rw [forceClose]
  split
  case isTrue =>
    intro hconn
    cases hconn
  case isFalse hstate => exact fun hconn => hstate (.inl hconn)

/-! ## The completions of writes

  A write that is done gives its bytes up, and starts the next one if there are more. -/

/-- `write` of a buffer that is not empty, with no write outstanding. -/
theorem write_pending (h : s.outputBuffer_.Ok) (hnone : s.writing = [])
    (hne : s.outputBuffer_.contents.length ≠ 0) : WriteInv s.write where
  output := h
  pending := by
    intro _
    show Pending s.outputBuffer_.contents.length (s.writing ++ _)
    rw [hnone, List.nil_append]
    exact .busy _ hne h.readableBytes_eq_length.le

/-- Once the connection is down nothing is asked of the writes any more. -/
theorem StaysCalm.keepsWrites {r : M} (h : StaysCalm s r) (hdown : s.state_ = .kDisconnected) :
    KeepsWrites r := by
  have hstays : ∀ s', Calm s s' → WriteInv s' := by
    intro s' hc
    refine ⟨hc.output, fun hup => ?_⟩
    rcases hc.state with hstate | ⟨hconn, -⟩
    · exact absurd (hstate.trans hdown) hup
    · rw [hdown] at hconn
      cases hconn
  exact h.mono (fun s' hc => hstays s' hc) (fun e hc => hstays e.2 hc.1)

/-- Bytes taken by the socket leave the length of the write. -/
theorem Pending.set {n i : Nat} {ops : List AsyncWrite} {op op' : AsyncWrite} (h : Pending n ops)
    (hop : ops[i]? = some op) (hlen : op'.len = op.len) : Pending n (ops.set i op') := by
  cases h with
  | idle => cases hop
  | busy op₀ hne hle =>
    cases i with
    | zero =>
      obtain rfl : op₀ = op := Option.some.inj hop
      exact .busy op' hne (hlen ▸ hle)
    | succ i => cases hop

/-- The write that completes was the only one. -/
theorem Pending.of_getElem? {n i : Nat} {ops : List AsyncWrite} {op : AsyncWrite}
    (h : Pending n ops) (hop : ops[i]? = some op) : ops.eraseIdx i = [] ∧ op.len ≤ n := by
  cases h with
  | idle => cases hop
  | busy op₀ hne hle =>
    cases i with
    | zero =>
      obtain rfl : op₀ = op := Option.some.inj hop
      exact ⟨rfl, hle⟩
    | succ i => cases hop

/-- They keep the invariant. -/
theorem transmit_keepsWrites (h : WriteInv s) (i n : Nat) : KeepsWrites (s.transmit i n) := by
  by_cases hdown : s.state_ = .kDisconnected
  · exact (transmit_calm h.output i n).keepsWrites hdown
  rw [transmit]
  split
  case h_1 => exact .ok h
  case h_2 op hop =>
    split
    · split
      · rw [Buffer.bytesAt]
        split
        · exact .ok ⟨h.output, fun hup => (h.pending hup).set hop rfl⟩
        · exact h.fails ⟨rfl, rfl, id⟩ _
      · exact .error h
    · exact .ok h

/-- What the write was given is retrieved, and the rest is written next. -/
theorem writeDone_keepsWrites (h : WriteInv s) (i : Nat) : KeepsWrites (s.writeDone i) := by
  by_cases hdown : s.state_ = .kDisconnected
  · exact (writeDone_calm h.output i).keepsWrites hdown
  rw [writeDone]
  split
  case h_1 => exact .ok h
  case h_2 op hop =>
    split
    case isFalse => exact .ok h
    case isTrue hsent =>
      obtain ⟨hnone, hlen⟩ := (h.pending hdown).of_getElem? hop
      obtain ⟨b, hb, hok, -⟩ := Buffer.retrieve_spec h.output hlen
      have hread := hok.readableBytes_eq_length
      dsimp only
      rw [hb, within_ok, ok_bind]
      split
      case isTrue hne =>
        -- what was appended in the meantime is written next
        apply Holds.ok
        apply write_pending
        · exact hok
        · exact hnone
        · exact fun hzero => hne (hread.trans hzero)
      case isFalse hzero =>
        have hempty : b.contents.length = 0 := hread.symm.trans (not_not.mp hzero)
        have hidle : WriteInv (({ s with writing := s.writing.eraseIdx i } :
            TcpConnection).setOutput b) := by
          refine ⟨hok, fun _ => ?_⟩
          show Pending b.contents.length (s.writing.eraseIdx i)
          rw [hnone]
          exact .idle hempty
        split
        · exact hidle.keeps shutdownInThisThread_untouched
        · exact .ok hidle

/-- **A failed write** keeps it only where there was none, or the connection is down: nothing
    starts the next one. -/
theorem writeError_keepsWrites (h : WriteInv s) (i : Nat)
    (hguard : s.state_ ≠ .kDisconnected → s.writing[i]? = none) : WriteInv (s.writeError i) := by
  rw [writeError]
  split
  case h_1 => exact h
  case h_2 op hop =>
    refine ⟨h.output, fun hup => ?_⟩
    rw [hguard hup] at hop
    cases hop

/-! ## Sending

  The bytes are appended.  If there were none before, a write is started for them. -/

section Sending

variable [VectorImpl]

/-- The message goes behind the bytes that are being written, or a write of it is started. -/
theorem sendInThisThread_keepsWrites (h : WriteInv s) (str : StringPiece)
    (hguard : s.state_ ≠ .kDisconnected → s.Starts str) :
    KeepsWrites (s.sendInThisThread str) := by
  -- the three outcomes of `sendInThisThread`
  rcases sendInThisThread_cases h.output str with ⟨-, hr⟩ | ⟨hup, b, -, hb, hcont, hr⟩ | ⟨-, hr⟩
  · rw [hr]
    exact .ok h
  · have hpending := h.pending hup
    have hread := h.output.readableBytes_eq_length
    have hlen : b.contents.length = s.outputBuffer_.contents.length + str.bytes.length := by
      rw [hcont, List.length_append]
    rw [hr]
    apply Holds.ok
    split
    -- nothing was pending, so a write starts
    case isTrue hempty =>
      have hzero : s.outputBuffer_.contents.length = 0 := List.length_eq_zero_iff.mpr hempty
      have hpos : 0 < str.bytes.length :=
        List.length_pos_of_ne_nil (hguard hup (hread.trans hzero))
      have hnone : s.writing = [] := by
        rw [hzero] at hpending
        generalize s.writing = writing at hpending
        cases hpending with
        | idle => rfl
        | busy op hne _ => exact absurd rfl hne
      apply write_pending
      · exact hb
      · exact hnone
      · show b.contents.length ≠ 0
        omega
    case isFalse hne =>
      -- a write is in flight, and is no longer than what is pending
      refine ⟨hb, fun _ => ?_⟩
      show Pending b.contents.length s.writing
      generalize s.writing = writing at hpending
      cases hpending with
      | idle hzero => exact absurd (List.length_eq_zero_iff.mp hzero) hne
      | busy op hne _ => exact .busy op (by omega) (by omega)
  · rw [hr]
    exact .error h

/-- After a message was sent the buffer is not empty. -/
theorem sendInThisThread_nonempty (h : s.outputBuffer_.Ok) (hup : s.state_ ≠ .kDisconnected)
    {str : StringPiece} (hstarts : s.Starts str) (hr : s.sendInThisThread str = .ok s') :
    s'.outputBuffer_.readableBytes ≠ 0 := by
  rcases sendInThisThread_cases h str with ⟨hdown, -⟩ | ⟨-, b, -, hb, hcont, hr'⟩ | ⟨-, hr'⟩
  · exact absurd hdown hup
  · have hsame : s'.outputBuffer_ = b := by
      cases hr'.symm.trans hr
      split <;> rfl
    rw [hsame, hb.readableBytes_eq_length, hcont, List.length_append]
    intro hzero
    have hread := h.readableBytes_eq_length
    exact hstarts (by omega) (List.length_eq_zero_iff.mp (by omega))
  · cases hr'.symm.trans hr

/-- `send` keeps it, if its message starts a write where there was none. -/
theorem send_keepsWrites (h : WriteInv s) (isInLoopThread : Bool) (message : StringPiece)
    (hguard : isInLoopThread = true → s.state_ = .kConnected → s.Starts message) :
    KeepsWrites (s.send isInLoopThread message) := by
  rw [send]
  split
  case isTrue hstate =>
    split
    · exact sendInThisThread_keepsWrites h message fun _ => hguard ‹_› hstate
    · exact h.keeps ⟨rfl, rfl, id⟩
  case isFalse => exact .ok h

/-- **The calls of user code in a callback**, by induction on the calls.  Only the first message can
    find the buffer empty, and none is sent after a call that closes the connection. -/
theorem acts_keepsWrites (as : List Act) :
    ∀ {s : TcpConnection}, WriteInv s →
      (s.state_ = .kConnected → ∀ message ∈ firstSent as, s.Starts message) →
      KeepsWrites (s.acts as) := by
  induction as with
  | nil => exact fun h _ => .ok h
  | cons a as ih =>
    intro s h hguard
    rw [acts, run_cons]
    cases a with
    | deliver message =>
      have hsame : Untouched s (s.observe (.deliver message)) := ⟨rfl, rfl, id⟩
      apply ih
      · exact h.same hsame
      · exact hguard
    | shutdown =>
      apply ih
      · exact h.same (shutdown_untouched true)
      · exact fun hconn => absurd hconn (shutdown_down true)
    | forceClose =>
      apply ih
      · exact h.same forceClose_untouched
      · exact fun hconn => absurd hconn forceClose_down
    | send message =>
      have hstarts : s.state_ = .kConnected → s.Starts message :=
        fun hconn => hguard hconn message rfl
      have hkeeps := send_keepsWrites h true message fun _ => hstarts
      show KeepsWrites (s.send true message >>= fun s' => s'.acts as)
      cases hsend : s.send true message with
      | error e =>
        rw [hsend] at hkeeps
        cases hkeeps with
        | error he => exact .error he
      | ok s' =>
        rw [hsend] at hkeeps
        -- a message sent leaves bytes in the buffer, so those after it may be of any length
        apply ih (holds_ok.mp hkeeps)
        intro hconn message' _
        by_cases hstate : s.state_ = .kConnected
        · rw [send, if_pos hstate, if_pos rfl] at hsend
          have hup : s.state_ ≠ .kDisconnected := by
            rw [hstate]
            decide
          have hne := sendInThisThread_nonempty h.output hup (hstarts hstate) hsend
          exact fun hzero => absurd hzero hne
        · rw [send, if_neg hstate] at hsend
          cases hsend
          exact absurd hconn hstate

end Sending

/-! ## The handlers that call the owner back

  What user code sends in a callback counts as well, up to the call that closes the connection
  (`firstSent`). -/

section Handlers

variable [VectorImpl]

/-- A callback of a connection that is not up. -/
theorem acts_keepsWrites_down (h : WriteInv s) (hdown : s.state_ = .kDisconnected) (as : List Act) :
    Holds (fun s' => WriteInv s' ∧ s'.state_ = .kDisconnected) (fun e => WriteInv e.2)
      (s.acts as) := by
  have hcalm := acts_calm as h.output
  have hkeeps := hcalm.keepsWrites hdown
  cases hacts : s.acts as with
  | error e =>
    rw [hacts] at hkeeps
    cases hkeeps with
    | error he => exact .error he
  | ok s' =>
    rw [hacts] at hkeeps hcalm
    refine .ok ⟨holds_ok.mp hkeeps, ?_⟩
    rcases (holds_ok.mp hcalm).state with hstate | ⟨hconn, -⟩
    · exact hstate.trans hdown
    · rw [hdown] at hconn
      cases hconn

/-- Going down keeps it. -/
theorem handleClose_keepsWrites (h : WriteInv s) (onConnection onClose : List Act) :
    KeepsWrites (s.handleClose onConnection onClose) := by
  rw [handleClose]
  by_cases hstate : s.state_ = .kConnected ∨ s.state_ = .kDisconnecting
  · rw [require_pos _ _ hstate, ok_bind]
    have hconnection : Holds (fun s' => WriteInv s' ∧ s'.state_ = .kDisconnected)
        (fun e => WriteInv e.2) ((s.setState .kDisconnected).notifyConnection onConnection) := by
      rw [notifyConnection, callConnection]
      split
      · exact acts_keepsWrites_down (observe_inv (down_inv h) _) rfl onConnection
      · exact .ok ⟨down_inv h, rfl⟩
    apply hconnection.bind
    rintro s' ⟨hs', hdown⟩
    rw [notifyClose]
    split
    · have hclose := acts_keepsWrites_down (observe_inv hs' .closeCallback) hdown onClose
      exact hclose.mono (fun _ hs => hs.1) (fun _ he => he)
    · exact .ok hs'
  · rw [require_neg _ _ hstate, error_bind]
    exact .error h

/-- So does being destroyed. -/
theorem connectDestroyed_keepsWrites (h : WriteInv s) (onConnection : List Act) :
    KeepsWrites (s.connectDestroyed onConnection) := by
  rw [connectDestroyed]
  split
  · rw [callConnection]
    split
    · have hdown := acts_keepsWrites_down
        (observe_inv (down_inv h) (.connectionCallback .kDisconnected)) rfl onConnection
      exact hdown.mono (fun _ hs => hs.1) (fun _ he => he)
    · exact .error (down_inv h)
  · exact .ok h

/-- The connection callback is the first place from which a message can be sent. -/
theorem connectEstablished_keepsWrites (h : WriteInv s) (onConnection : List Act)
    (hguard : s.connectionCallback_ = true → ∀ message ∈ firstSent onConnection, s.Starts message) :
    KeepsWrites (s.connectEstablished onConnection) := by
  rw [connectEstablished]
  by_cases hstate : s.state_ = .kConnecting
  · rw [require_pos _ _ hstate, ok_bind]
    have hup : s.state_ ≠ .kDisconnected := by
      rw [hstate]
      decide
    have hset : WriteInv (s.setState .kConnected) := ⟨h.output, fun _ => h.pending hup⟩
    have hconnection : KeepsWrites ((s.setState .kConnected).notifyConnection onConnection) := by
      rw [notifyConnection, callConnection]
      split
      case isTrue hcallback =>
        exact acts_keepsWrites onConnection (observe_inv hset _) fun _ => hguard hcallback
      case isFalse => exact .ok hset
    apply hconnection.bind
    intro s' hs'
    exact hs'.keeps ⟨rfl, rfl, id⟩
  · rw [require_neg _ _ hstate, error_bind]
    exact .error h

/-! ## Receiving

  A message callback may send; otherwise the output is untouched. -/

/-- A header that has arrived has nothing to do with the sending side. -/
theorem headerDone_keepsWrites (h : WriteInv s) (byte : Nat) : KeepsWrites (s.headerDone byte) := by
  rw [headerDone]
  refine (within_keepsWrites h _).bind fun b _ => ?_
  refine (within_keepsWrites (setInput_inv h b) _).bind fun len _ => ?_
  refine (within_keepsWrites (setInput_inv h b) _).bind fun b' _ => ?_
  exact (setInput_inv (setInput_inv h b) b').keeps ⟨rfl, rfl, id⟩

/-- The message callback sends its messages one after the other; only the first of them can find
    the buffer empty. -/
theorem bodyDone_keepsWrites (h : WriteInv s) (consume : Nat) (onMessage : List Act) (byte : Nat)
    (hguard : s.state_ = .kConnected → ∀ message ∈ firstSent onMessage, s.Starts message) :
    KeepsWrites (s.bodyDone (retrieving consume onMessage) byte) := by
  rw [bodyDone]
  refine (within_keepsWrites h _).bind fun b _ => ?_
  dsimp only
  split
  · have hobserved := observe_inv (setInput_inv h b) (.messageCallback s.state_)
    show KeepsWrites (within ((s.setInput b).observe (.messageCallback s.state_)).setInput
      (retrieving consume onMessage b) >>= fun r =>
        (((s.setInput b).observe (.messageCallback s.state_)).setInput r.1).acts r.2 >>=
          fun s' => .ok s'.readHeader)
    cases hmessage : retrieving consume onMessage b with
    | error e => exact .error (setInput_inv hobserved e.2)
    | ok r =>
      obtain ⟨b', -, hr⟩ := bind_ok hmessage
      obtain rfl : r = (b', onMessage) := (Except.ok.inj hr).symm
      have hacts : KeepsWrites ((((s.setInput b).observe (.messageCallback s.state_)).setInput
          b').acts onMessage) := acts_keepsWrites onMessage (setInput_inv hobserved b') hguard
      rw [within_ok, ok_bind]
      apply hacts.bind
      intro s' hs'
      exact hs'.keeps ⟨rfl, rfl, id⟩
  · exact .error (setInput_inv h b)

/-- A completed read keeps it, by what it has read. -/
theorem readDone_keepsWrites (h : WriteInv s) (bytes : List UInt8) (consume : Nat)
    (onMessage : List Act) (hguard : Unwedged s (.readDone bytes consume onMessage)) :
    KeepsWrites (s.readDone (retrieving consume onMessage) bytes) := by
  rw [readDone]
  split
  case h_1 => exact .ok h
  case h_2 op hread =>
    split
    case isFalse => exact .ok h
    case isTrue hlen =>
      refine (within_keepsWrites h _).bind fun b _ => ?_
      have hstored : WriteInv { (s.setInput b).observe (.readDone op.len) with reading := none } :=
        h.same ⟨rfl, rfl, id⟩
      dsimp only
      cases hhandler : op.handler with
      | header => exact headerDone_keepsWrites hstored op.len
      | body =>
        apply bodyDone_keepsWrites hstored
        exact hguard op hread hhandler hlen

end Handlers

/-! ## Every run

  One case for each event, and the induction. -/

section Runs

variable [VectorImpl]

/-- A posted handler keeps it. A posted message is checked when it is run, since the buffer may
    have emptied by then. -/
theorem runTask_keepsWrites (h : WriteInv s) (i : Nat) (onConnection onClose : List Act)
    (hguard : Unwedged s (.runTask i onConnection onClose)) :
    KeepsWrites (s.runTask i onConnection onClose) := by
  rw [runTask]
  split
  case h_1 => exact .ok h
  case h_2 task htask =>
    have htaken : WriteInv { s with tasks := s.tasks.eraseIdx i } :=
      h.same ⟨rfl, rfl, id⟩
    have htask' := hguard task htask
    cases task with
    | sendInThisThread str => exact sendInThisThread_keepsWrites htaken str htask'
    | shutdownInThisThread => exact htaken.keeps shutdownInThisThread_untouched
    | forceCloseInThisThread =>
      dsimp only
      rw [forceCloseInThisThread]
      split
      · exact handleClose_keepsWrites htaken onConnection onClose
      · exact .ok htaken

/-- **Every step that does not wedge keeps it.** -/
theorem step_keepsWrites (h : WriteInv s) (e : Event) (hguard : Unwedged s e) :
    KeepsWrites (s.step e) := by
  cases e with
  | connectEstablished onConnection => exact connectEstablished_keepsWrites h onConnection hguard
  | connectDestroyed onConnection => exact connectDestroyed_keepsWrites h onConnection
  | shutdown isInLoopThread => exact h.keeps (shutdown_untouched isInLoopThread)
  | forceClose => exact h.keeps forceClose_untouched
  | send isInLoopThread message => exact send_keepsWrites h isInLoopThread message hguard
  | runTask i onConnection onClose => exact runTask_keepsWrites h i onConnection onClose hguard
  | readDone bytes consume onMessage => exact readDone_keepsWrites h bytes consume onMessage hguard
  | readError onConnection onClose =>
    show KeepsWrites (s.readError onConnection onClose)
    rw [readError]
    split
    case h_1 => exact .ok h
    case h_2 =>
      apply handleClose_keepsWrites
      exact h.same ⟨rfl, rfl, id⟩
  | transmit i n => exact transmit_keepsWrites h i n
  | writeDone i => exact writeDone_keepsWrites h i
  | writeError i => exact .ok (writeError_keepsWrites h i hguard)

/-- A new connection has nothing to write. -/
theorem new_writeInv (cc mc clc : Bool) : WriteInv (new cc mc clc) where
  output := Buffer.new_ok (by decide)
  pending := by
    intro _
    show Pending (Buffer.new Buffer.kInitialSize).contents.length []
    rw [Buffer.contents_new]
    exact .idle rfl

/-- **One write**: as long as no write fails while the connection is up, and no message of no bytes
    is sent while the buffer is empty, a connection that is up has bytes in its output buffer if
    and only if it has one write outstanding. -/
theorem one_write (cc mc clc : Bool) (es : List Event)
    (h : Guarded step Unwedged (new cc mc clc) es) :
    Holds OneWrite (fun e => OneWrite e.2) (run step (new cc mc clc) es) := by
  have hrun := run_holds (fun s e hs hg => step_keepsWrites hs e hg) es _ (new_writeInv cc mc clc) h
  apply hrun.mono
  · exact fun s hs => hs.oneWrite
  · exact fun e he => he.oneWrite

end Runs

section Examples

attribute [local instance] VectorImpl.exact

/-- Two messages, the second while the first is being written; the message callback sends a third
    one, and the peer closes. -/
def threeMessages : List Event :=
  [.connectEstablished [.send ⟨[51, 52], by decide⟩], .send true ⟨[53], by decide⟩, .transmit 0 2,
    .writeDone 0, .transmit 0 1, .writeDone 0, .readDone [0, 0, 0, 1] 0 [],
    .readDone [7] 5 [.send ⟨[54], by decide⟩], .readError [] [], .writeError 0]

/-- The condition can be met: three messages, one from a callback, and a close. -/
theorem one_write_threeMessages :
    Holds OneWrite (fun e => OneWrite e.2) (run step (new true true true) threeMessages) :=
  one_write true true true threeMessages (by decide +kernel)

/-- The only write fails; a later message is queued and nothing sends it. -/
def failedWrite : List Event :=
  [.connectEstablished [], .send true ⟨[61], by decide⟩, .writeError 0,
    .send true ⟨[62], by decide⟩]

/-- **The connection is wedged.** -/
theorem failed_write_wedges :
    ¬ Holds OneWrite (fun e => OneWrite e.2) (run step (new true true true) failedWrite) := by
  have hend : (run step (new true true true) failedWrite).toOption.map (fun s =>
      (s.state_, s.outputBuffer_.readableBytes, s.writing)) = some (.kConnected, 2, []) := by
    decide +kernel
  generalize run step (new true true true) failedWrite = r at hend
  intro hholds
  cases hholds with
  | error h => cases hend
  | ok h =>
    rename_i s
    obtain ⟨hstate, hread, hwriting⟩ : s.state_ = .kConnected ∧
        s.outputBuffer_.readableBytes = 2 ∧ s.writing = [] := by
      simpa using Option.some.inj hend
    have hone := (h (.inl hstate)).mp (by omega)
    rw [hwriting] at hone
    cases hone

end Examples

end TcpConnection

end IOEvent
