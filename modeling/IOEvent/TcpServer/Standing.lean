/-
  A connection as its server sees it.

  Of all a connection does, its server depends on three things: that it has not started before
  `connectEstablished`, that it calls the close callback once, when it closes, and that nothing
  brings it back after that.  `At p n c` says where the connection stands (`Standing`) and that it
  has called the close callback `n` times.  Without a force close, no handler leaves a standing but
  two: `connectEstablished` takes a connection from `waiting` to `up`, and a read error from `up` to
  `closed`, with one call of the callback.

  A closed connection may be `kDisconnecting` again: another thread's `shutdown` may set the state
  late.  It has no read outstanding, and that is what keeps it closed.
-/
import IOEvent.TcpConnection.Lifecycle
import IOEvent.TcpServer

open Foundation

namespace IOEvent

/-! ## Without a force close

  A callback of user code may make calls on its own connection.  All but one leave the standing;
  `forceClose` posts a handler that disconnects. -/

/-- The one call of user code that closes a connection from inside. -/
def Act.isForceClose : Act → Bool
  | .forceClose => true
  | _ => false

/-- The posted handler that it leaves. -/
def Task.isForceClose : Task → Bool
  | .forceCloseInThisThread => true
  | _ => false

/-- None of the calls made in a callback is a force close. -/
def Unforced (as : List Act) : Prop := ∀ a ∈ as, a.isForceClose = false

/-- Whether user code forces a close is read off the calls it makes. -/
instance : DecidablePred Unforced := fun _ => inferInstanceAs (Decidable (∀ a ∈ _, _))

/-- Nor does the user code in the callbacks of a completion. -/
def TcpServer.SocketEvent.Unforced : TcpServer.SocketEvent → Prop
  | .readDone _ _ onMessage => IOEvent.Unforced onMessage
  | .readError onConnection => IOEvent.Unforced onConnection
  | _ => True

/-- That can be read off the completion. -/
instance : DecidablePred TcpServer.SocketEvent.Unforced := fun e => by
  cases e <;> unfold TcpServer.SocketEvent.Unforced <;> infer_instance

/-- Nor what happens on a connection as a whole. -/
def TcpServer.Io.Unforced : TcpServer.Io → Prop
  | .forceClose => False
  | .runTask _ onConnection => IOEvent.Unforced onConnection
  | .socket e => e.Unforced
  | _ => True

/-- That can be computed too. -/
instance : DecidablePred TcpServer.Io.Unforced := fun e => by
  cases e <;> unfold TcpServer.Io.Unforced <;> infer_instance

/-- Not a failed `assert` of the functions that change the standing. -/
def Fault.Inner (f : Fault) : Prop :=
  f ≠ .assertFailed .connectEstablished ∧ f ≠ .assertFailed .handleClose

/-- Whether a fault comes from inside a connection is read off its constructor. -/
instance : DecidablePred Fault.Inner := fun _ => inferInstanceAs (Decidable (_ ∧ _))

/-- A fault of a buffer is one from inside. -/
theorem Fault.inner_of_buffer {f : Fault} (h : f.ofBuffer = true) : f.Inner := by
  constructor <;> rintro rfl <;> cases h

/-- Where a connection stands for its server: it waits for its establishment, it is up, or it has
    closed. -/
inductive Standing
  | waiting
  | up
  | closed
  deriving DecidableEq, Repr

/-- The states of a connection that stands there, and whether it can have a read outstanding. -/
def Standing.Fits : Standing → StateE → Option AsyncRead → Prop
  | .waiting, state, reading => state = .kConnecting ∧ reading = none
  | .up, state, _ => state = .kConnected ∨ state = .kDisconnecting
  | .closed, state, reading => state ≠ .kConnecting ∧ state ≠ .kConnected ∧ reading = none

namespace TcpConnection

/-- What the server may rely on at a standing: the close callback is set and was called `n` times,
    no close is posted, and the state with its read fits the standing. -/
structure At (p : Standing) (n : Nat) (c : TcpConnection) : Prop where
  output : c.outputBuffer_.Ok
  callback : c.closeCallback_ = true
  unforced : ∀ t ∈ c.tasks, t.isForceClose = false
  closes : c.trace.count .closeCallback = n
  fits : p.Fits c.state_ c.reading

/-- What a handler leaves: the standing, or a fault inside the connection. -/
def KeepsAt (p : Standing) (n : Nat) (r : M) : Prop := Holds (At p n) (fun e => e.1.Inner) r

/-- What it does to the posted tasks. -/
def KeepsUnforced (r : M) : Prop :=
  Holds (fun c => ∀ t ∈ c.tasks, t.isForceClose = false) (fun e => e.1.Inner) r

/-- What an event leaves: the standing, or a connection that was up has closed. -/
def MayClose (p : Standing) (n : Nat) (r : M) : Prop :=
  Holds (fun c' => At p n c' ∨ p = .up ∧ At .closed (n + 1) c') (fun e => e.1.Inner) r

/-- What keeps the standing may close, and does not. -/
theorem KeepsAt.mayClose {p : Standing} {n : Nat} {r : M} (h : KeepsAt p n r) : MayClose p n r :=
  h.mono (fun _ => .inl) fun _ => id

section Standings

variable {p : Standing} {n : Nat} {c c' : TcpConnection}

/-- A new connection waits. -/
theorem new_at [VectorImpl] (cc mc : Bool) : At .waiting 0 (new cc mc true) where
  output := Buffer.new_ok (by decide)
  callback := rfl
  unforced := by
    intro t ht
    exact absurd ht List.not_mem_nil
  closes := rfl
  fits := ⟨rfl, rfl⟩

/-- A calm operation does not change the standing. -/
theorem At.calm (h : At p n c) (hc : Calm c c')
    (hunforced : ∀ t ∈ c'.tasks, t.isForceClose = false) :
    At p n c' where
  output := hc.output
  callback := hc.callbacks.2.2.trans h.callback
  unforced := hunforced
  closes := (hc.uncalled.count rfl).trans h.closes
  fits := by
    have hfits := h.fits
    rw [hc.reading]
    rcases hc.state with hstate | ⟨hconn, hdisc⟩
    · rwa [hstate]
    · rw [hconn] at hfits
      rw [hdisc]
      cases p with
      | waiting => exact absurd hfits.1 (by decide)
      | up => exact .inr rfl
      | closed => exact absurd rfl hfits.2.1

/-- A calm operation that forces nothing keeps the standing. -/
theorem At.keeps (h : At p n c) {r : M} (hc : StaysCalm c r) (hr : KeepsUnforced r) :
    KeepsAt p n r := by
  cases hr with
  | ok hunforced => exact .ok (h.calm (holds_ok.mp hc) hunforced)
  | error hinner => exact .error hinner

/-- Another entry in the trace. -/
theorem At.observe (h : At p n c) {o : Obs} (ho : o ≠ .closeCallback) : At p n (c.observe o) where
  output := h.output
  callback := h.callback
  unforced := h.unforced
  closes := by
    rw [count_observe, if_neg ho]
    exact h.closes
  fits := h.fits

/-- The input has no part in it. -/
theorem At.setInput (h : At p n c) (b : Buffer) : At p n (c.setInput b) :=
  ⟨h.output, h.callback, h.unforced, h.closes, h.fits⟩

/-- A connection that is up may start a read, or have one completed. -/
theorem At.setReading (h : At .up n c) (op : Option AsyncRead) :
    At .up n { c with reading := op } :=
  ⟨h.output, h.callback, h.unforced, h.closes, h.fits⟩

/-- Only a connection that is up has a read outstanding. -/
theorem At.up_of_reading (h : At p n c) {op : AsyncRead} (hread : c.reading = some op) :
    p = .up := by
  have hfits := h.fits
  rw [hread] at hfits
  cases p with
  | waiting => cases hfits.2
  | up => rfl
  | closed => cases hfits.2.2

/-- A handler is posted. -/
theorem At.addTask (h : At p n c) {t : Task} (ht : t.isForceClose = false) :
    At p n { c with tasks := c.tasks ++ [t] } where
  output := h.output
  callback := h.callback
  unforced := by
    intro t' ht'
    rcases List.mem_append.mp ht' with ht' | ht'
    · exact h.unforced t' ht'
    · rw [List.mem_singleton.mp ht']
      exact ht
  closes := h.closes
  fits := h.fits

/-- A fault inside the input buffer. -/
theorem within_inner {α : Type} {r : Outcome Fault Buffer α} (hr : Buffer.OwnFaults r) :
    Holds (fun _ => True) (fun e => e.1.Inner) (within c.setInput r) := by
  cases hr with
  | ok => exact .ok trivial
  | error hf => exact .error (Fault.inner_of_buffer hf)

/-- The message callback hands back the calls it makes. -/
theorem retrieving_inner (consume : Nat) (as : List Act) (b : Buffer) :
    Holds (fun p => p.2 = as) (fun e => e.1.Inner)
    (within c.setInput (retrieving consume as b)) := by
  rw [retrieving]
  have hown := Buffer.retrieve_own b (min consume b.readableBytes)
  cases hr : b.retrieve (min consume b.readableBytes) with
  | ok b' => exact .ok rfl
  | error e =>
    rw [hr] at hown
    cases hown with
    | error hf => exact .error (Fault.inner_of_buffer hf)

/-! ## Shutting down, and the completions of writes

  Both are about the sending side.  `shutdown` moves a connected connection to disconnecting,
  which is the same standing. -/

/-- `shutdownInThisThread` posts nothing. -/
theorem shutdownInThisThread_tasks : c.shutdownInThisThread.tasks = c.tasks := by
  unfold shutdownInThisThread
  split <;> rfl

/-- `shutdown` posts at most itself. -/
theorem shutdown_tasks (inLoop : Bool) :
    ∀ t ∈ (c.shutdown inLoop).tasks, t ∈ c.tasks ∨ t.isForceClose = false := by
  unfold shutdown
  split
  · cases inLoop with
    | true =>
      intro t ht
      rw [if_pos rfl, shutdownInThisThread_tasks] at ht
      exact .inl ht
    | false =>
      intro t ht
      rcases List.mem_append.mp ht with ht | ht
      · exact .inl ht
      · rw [List.mem_singleton.mp ht]
        exact .inr rfl
  · exact fun t ht => .inl ht

/-- So it keeps the standing. -/
theorem shutdown_at (h : At p n c) (inLoop : Bool) : At p n (c.shutdown inLoop) :=
  h.calm (shutdown_calm h.output inLoop) fun t ht =>
    (shutdown_tasks inLoop t ht).elim (h.unforced t) id

/-- Bytes taken by the socket keep it. -/
theorem transmit_at (h : At p n c) (i k : Nat) : KeepsAt p n (c.transmit i k) := by
  apply h.keeps (transmit_calm h.output i k)
  unfold transmit
  split
  · exact .ok h.unforced
  · split
    · split
      · rw [Buffer.bytesAt]
        split
        · exact .ok h.unforced
        · exact .error (show Fault.Inner .outOfBounds by decide)
      · exact .error (show Fault.Inner .useAfterFree by decide)
    · exact .ok h.unforced

/-- The end of a write keeps it. -/
theorem writeDone_at (h : At p n c) (i : Nat) : KeepsAt p n (c.writeDone i) := by
  apply h.keeps (writeDone_calm h.output i)
  unfold writeDone
  split
  · exact .ok h.unforced
  case h_2 op hop =>
    split
    · rcases retrieve_calm h.output op.len with ⟨b, hb, -⟩ | hb
      · dsimp only
        rw [hb, within_ok, ok_bind]
        split
        · exact .ok h.unforced
        · split
          · apply Holds.ok
            rw [shutdownInThisThread_tasks]
            exact h.unforced
          · exact .ok h.unforced
      · dsimp only
        rw [hb, within_error, error_bind]
        exact .error (show Fault.Inner (.assertFailed .retrieve) by decide)
    · exact .ok h.unforced

/-- The failure of a write keeps it; a connection does not close by that. -/
theorem writeError_at (h : At p n c) (i : Nat) : At p n (c.writeError i) := by
  apply h.calm (writeError_calm h.output i)
  unfold writeError
  split <;> exact h.unforced

section Steps

variable [VectorImpl]

/-! ## Sending, and the calls of user code

  A send changes the output and the writes.  The calls of a callback are made in order, and each
  is made at the standing the one before has left. -/

/-- A message appended keeps it. -/
theorem sendInThisThread_at (h : At p n c) (str : StringPiece) :
    KeepsAt p n (c.sendInThisThread str) := by
  apply h.keeps (sendInThisThread_calm h.output str)
  rcases sendInThisThread_cases h.output str with ⟨-, hr⟩ | ⟨-, b, -, -, -, hr⟩ | ⟨-, hr⟩
  · rw [hr]
    exact .ok h.unforced
  · rw [hr]
    apply Holds.ok
    split <;> exact h.unforced
  · rw [hr]
    exact .error (show Fault.Inner .lengthError by decide)

/-- `send` keeps it. -/
theorem send_at (h : At p n c) (inLoop : Bool) (message : StringPiece) :
    KeepsAt p n (c.send inLoop message) := by
  unfold send
  split
  · split
    · exact sendInThisThread_at h message
    · exact .ok (h.addTask rfl)
  · exact .ok h

/-- So does each call that does not force a close. -/
theorem act_at (h : At p n c) {a : Act} (ha : a.isForceClose = false) : KeepsAt p n (c.act a) := by
  cases a with
  | deliver message => exact .ok (h.observe (by simp))
  | shutdown => exact .ok (shutdown_at h true)
  | forceClose => cases ha
  | send message => exact send_at h true message

/-- So do they together, by induction on the calls. -/
theorem acts_at (as : List Act) :
    ∀ {c : TcpConnection}, At p n c → Unforced as → KeepsAt p n (c.acts as) := by
  induction as with
  | nil => exact fun h _ => .ok h
  | cons a as ih =>
    intro c h has
    rw [acts, run_cons]
    have hact := act_at h (has a List.mem_cons_self)
    exact Holds.bind hact fun c' hc' => ih hc' fun b hb => has b (List.mem_cons_of_mem a hb)

/-- So does the connection callback. -/
theorem notifyConnection_at (h : At p n c)
    {onConnection : List Act} (hforce : Unforced onConnection) :
    KeepsAt p n (c.notifyConnection onConnection) := by
  unfold notifyConnection
  split
  case isTrue hcb =>
    rw [callConnection, if_pos hcb]
    exact acts_at onConnection (h.observe (by simp)) hforce
  case isFalse => exact .ok h

/-! ## The two handlers that change the standing

  `connectEstablished`, and `handleClose` as a failed read calls it.  The server's
  `connectDestroyed` finds a connection that is closed, and leaves it so. -/

/-- **A waiting connection comes up** by `connectEstablished`. -/
theorem connectEstablished_at (h : At .waiting n c) {onConnection : List Act}
    (hforce : Unforced onConnection) : KeepsAt .up n (c.connectEstablished onConnection) := by
  have hset : At .up n (c.setState .kConnected) :=
    ⟨h.output, h.callback, h.unforced, h.closes, .inl rfl⟩
  rw [connectEstablished, require_pos _ _ h.fits.1, ok_bind]
  exact Holds.bind (notifyConnection_at hset hforce) fun c' hc' => .ok (hc'.setReading _)

/-- The close callback is called last, once. -/
theorem handleClose_at (h : At .up n c) (hread : c.reading = none) {onConnection : List Act}
    (hforce : Unforced onConnection) : KeepsAt .closed (n + 1) (c.handleClose onConnection []) := by
  have hset : At .closed n (c.setState .kDisconnected) :=
    ⟨h.output, h.callback, h.unforced, h.closes, nofun, nofun, hread⟩
  have hup : c.state_ = .kConnected ∨ c.state_ = .kDisconnecting := h.fits
  rw [handleClose, require_pos _ _ hup, ok_bind]
  refine Holds.bind (notifyConnection_at hset hforce) fun c' hc' => ?_
  rw [notifyClose, if_pos hc'.callback]
  refine .ok ⟨hc'.output, hc'.callback, hc'.unforced, ?_, hc'.fits⟩
  rw [count_observe, if_pos rfl, hc'.closes]

/-- **Behind its close `connectDestroyed` does nothing.** -/
theorem connectDestroyed_at (h : At .closed n c) (onConnection : List Act) :
    c.connectDestroyed onConnection = .ok c := by
  rw [connectDestroyed, if_neg h.fits.2.1]
  rfl

/-! ## The completions of reads

  A read that succeeds starts the next one; the message callback may do anything but close. -/

/-- A header keeps the connection up. -/
theorem headerDone_at (h : At .up n c) (byte : Nat) : KeepsAt .up n (c.headerDone byte) := by
  rw [headerDone]
  refine Holds.bind (within_inner (Buffer.hasWritten_own _ _)) fun b _ => ?_
  refine Holds.bind (within_inner (Buffer.peekInt32_own _)) fun len _ => ?_
  refine Holds.bind (within_inner (Buffer.ensureWritableBytes_own _ _)) fun b' _ => ?_
  have hread : At .up n (((c.setInput b).setInput b').observe (.readBody (toUnsigned 64 len))) :=
    ((h.setInput b).setInput b').observe (by simp)
  exact .ok (hread.setReading _)

/-- So does a body, with any message callback that forces nothing. -/
theorem bodyDone_at (h : At .up n c) (consume : Nat)
    {onMessage : List Act} (hforce : Unforced onMessage)
    (byte : Nat) : KeepsAt .up n (c.bodyDone (retrieving consume onMessage) byte) := by
  rw [bodyDone]
  refine Holds.bind (within_inner (Buffer.hasWritten_own _ _)) fun b _ => ?_
  dsimp only
  split
  · have hcall : At .up n ((c.setInput b).observe (.messageCallback (c.setInput b).state_)) :=
      (h.setInput b).observe (by simp)
    refine Holds.bind (retrieving_inner consume onMessage _) fun p hp => ?_
    have hacts := acts_at p.2 (hcall.setInput p.1) (hp ▸ hforce)
    exact Holds.bind hacts fun c' hc' => .ok (hc'.setReading _)
  · exact .error (show Fault.Inner .badFunctionCall by decide)

/-- So does a completed read. -/
theorem readDone_at (h : At p n c) (bytes : List UInt8) (consume : Nat) {onMessage : List Act}
    (hforce : Unforced onMessage) :
    KeepsAt p n (c.readDone (retrieving consume onMessage) bytes) := by
  unfold readDone
  split
  · exact .ok h
  case h_2 op hread =>
    obtain rfl := h.up_of_reading hread
    split
    · refine Holds.bind (within_inner (Buffer.copyTo_own _ _ _)) fun b _ => ?_
      have hdone : At .up n ((c.setInput b).observe (.readDone op.len)) :=
        (h.setInput b).observe (by simp)
      dsimp only
      split
      · exact headerDone_at (hdone.setReading none) op.len
      · exact bodyDone_at (hdone.setReading none) consume hforce op.len
    · exact .ok h

/-! ## One event

  What the server needs: an event of the socket keeps the standing or closes the connection,
  and the close callback is called in the second case only. -/

/-- **What the socket does may close the connection**, once: that is the failure of its read. -/
theorem socket_at (h : At p n c) {e : TcpServer.SocketEvent} (hforce : e.Unforced) :
    MayClose p n (c.step e.event) := by
  cases e with
  | readDone bytes consume onMessage => exact (readDone_at h bytes consume hforce).mayClose
  | readError onConnection =>
    show MayClose p n (c.readError onConnection [])
    unfold readError
    split
    · exact .ok (.inl h)
    case h_2 op hread =>
      obtain rfl := h.up_of_reading hread
      have hclosed := handleClose_at (h.setReading none) rfl hforce
      exact hclosed.mono (fun _ hc' => .inr ⟨rfl, hc'⟩) fun _ => id
  | transmit i k => exact (transmit_at h i k).mayClose
  | writeDone i => exact (writeDone_at h i).mayClose
  | writeError i => exact .ok (.inl (writeError_at h i))

/-- The posted handlers of the connection keep its standing. -/
theorem runTask_at (h : At p n c) (i : Nat) (onConnection : List Act) :
    KeepsAt p n (c.runTask i onConnection []) := by
  unfold runTask
  split
  · exact .ok h
  case h_2 task htask =>
    have hrest : At p n { c with tasks := c.tasks.eraseIdx i } :=
      ⟨h.output, h.callback, fun t ht => h.unforced t (List.mem_of_mem_eraseIdx ht),
        h.closes, h.fits⟩
    cases task with
    | sendInThisThread str => exact sendInThisThread_at hrest str
    | shutdownInThisThread =>
      refine .ok (hrest.calm (shutdownInThisThread_calm hrest.output) ?_)
      rw [shutdownInThisThread_tasks]
      exact hrest.unforced
    | forceCloseInThisThread => cases h.unforced _ (List.mem_of_getElem? htask)

/-- So what happens on a connection either keeps its standing, or closes it. -/
theorem io_at (h : At p n c) {e : TcpServer.Io} (hforce : e.Unforced) :
    MayClose p n (c.step e.event) := by
  cases e with
  | shutdown inLoop => exact .ok (.inl (shutdown_at h inLoop))
  | forceClose => exact hforce.elim
  | send inLoop message => exact (send_at h inLoop message).mayClose
  | runTask i onConnection => exact (runTask_at h i onConnection).mayClose
  | socket e => exact socket_at h hforce

end Steps

/-- Another thread's `shutdown` sets the state, of a connection that has been up. -/
theorem setShutdown_at (h : At p n c) (hp : p ≠ .waiting) :
    At p n { c.setState .kDisconnecting with tasks := c.tasks ++ [.shutdownInThisThread] } := by
  have hset : At p n (c.setState .kDisconnecting) := by
    refine ⟨h.output, h.callback, h.unforced, h.closes, ?_⟩
    have hfits := h.fits
    cases p with
    | waiting => exact absurd rfl hp
    | up => exact .inr rfl
    | closed => exact ⟨nofun, nofun, hfits.2.2⟩
  exact hset.addTask rfl

end Standings

end TcpConnection

end IOEvent
