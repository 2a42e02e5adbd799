/-
  The lifecycle of a connection: which of the owner's callbacks run, how often, and in which state.

  Three paths reach `kDisconnected`: a read error, a posted force close, and `connectDestroyed`.
  None of them cancels the outstanding `async_read`, so a read can still complete afterwards, and
  its lambda does not look at the state:

  * completed with an error it calls `handleClose`, whose `assert` then fails;
  * a body completed with data is handed to the message callback of a disconnected connection.

  `ReadsSettled` excludes exactly these two completions.  In every run that respects it the
  callbacks keep to the order connected, messages, disconnected, closed, which the invariant says
  state by state: before `kConnected` nothing has been called and no read is outstanding, and
  before `kDisconnected` neither callback of the disconnection has been called.
-/
import IOEvent.TcpConnection.Frame

open Foundation

namespace IOEvent

/-- A fault that an operation of a buffer can end in. -/
def Fault.ofBuffer : Fault → Bool
  | .assertFailed .connectEstablished => false
  | .assertFailed .handleClose => false
  | .assertFailed .send => false
  | .useAfterFree => false
  | .badFunctionCall => false
  | .fatal => false
  | _ => true

/-! ## Operations of a buffer end only in its own faults

  A handler that fails in a buffer has not failed in `handleClose`, so what it fails with does
  not matter for the property. -/

namespace Buffer

/-- The operation returns, or ends in a fault of the buffer. -/
def OwnFaults {α : Type} (r : Outcome Fault Buffer α) : Prop :=
  Holds (fun _ => True) (fun e => e.1.ofBuffer = true) r

/-- A value is no fault. -/
theorem OwnFaults.ok {α : Type} (a : α) : OwnFaults (.ok a) := Holds.ok trivial

/-- Two operations whose faults are the buffer's own are one such operation. -/
theorem OwnFaults.bind {α β : Type} {r : Outcome Fault Buffer α} {f : α → Outcome Fault Buffer β}
    (hr : OwnFaults r) (hf : ∀ a, OwnFaults (f a)) : OwnFaults (r >>= f) :=
  Holds.bind hr fun a _ => hf a

/-- An assertion of the buffer fails with a fault of the buffer. -/
theorem require_own {p : Prop} [Decidable p] {f : Fault} (hf : f.ofBuffer = true) (b : Buffer) :
    OwnFaults (require p f b) := by
  rw [require]
  split
  · exact .ok _
  · exact .error hf

/-- Writing into the storage fails with a fault of the buffer. -/
theorem copyTo_own (b : Buffer) (i : Nat) (data : List UInt8) : OwnFaults (b.copyTo i data) := by
  rw [copyTo]
  split
  · exact .ok _
  · exact .error rfl

/-- Reading from it fails with one. -/
theorem bytesAt_own (b : Buffer) (i n : Nat) : OwnFaults (b.bytesAt i n) := by
  rw [bytesAt]
  split
  · exact .ok _
  · exact .error rfl

/-- `retrieve` fails with one. -/
theorem retrieve_own (b : Buffer) (len : Nat) : OwnFaults (b.retrieve len) := by
  rw [retrieve]
  refine (require_own rfl b).bind fun _ => ?_
  split
  · exact .ok _
  · exact .ok _

/-- `hasWritten` fails with one. -/
theorem hasWritten_own (b : Buffer) (len : Nat) : OwnFaults (b.hasWritten len) :=
  (require_own rfl b).bind fun _ => .ok _

/-- `peekInt32` fails with one. -/
theorem peekInt32_own (b : Buffer) : OwnFaults b.peekInt32 :=
  (require_own rfl b).bind fun _ => (bytesAt_own b _ _).bind fun _ => .ok _

/-- `makeSpace` fails with one, or with the `std::length_error` of the vector. -/
theorem makeSpace_own [VectorImpl] (b : Buffer) (len : Nat) : OwnFaults (b.makeSpace len) := by
  rw [makeSpace]
  split
  · split
    · exact .ok _
    · exact .error rfl
  · refine (require_own rfl b).bind fun _ => (bytesAt_own b _ _).bind fun data => ?_
    exact (copyTo_own b _ data).bind fun _ => (require_own rfl _).bind fun _ => .ok _

/-- So does `ensureWritableBytes`. No operation of a buffer can therefore end in the assertion of
    `handleClose`. -/
theorem ensureWritableBytes_own [VectorImpl] (b : Buffer) (len : Nat) :
    OwnFaults (b.ensureWritableBytes len) := by
  rw [ensureWritableBytes]
  have hcheck : ∀ b' : Buffer, OwnFaults (do
      require (len ≤ b'.writableBytes) (.assertFailed .ensureWritableBytes) b'
      return b') := fun b' => (require_own rfl b').bind fun _ => .ok b'
  split
  · exact (makeSpace_own b len).bind hcheck
  · exact (OwnFaults.ok b).bind hcheck

end Buffer

namespace TcpConnection

/-! ## The property, and the completions that break it

  The property is about the trace alone.  The condition is about the state before the event. -/

/-- What the owner of a connection may rely on. Each of them is about the whole trace, so it
    can be asked of a run that has failed as well. -/
structure Lifecycle (trace : List Obs) : Prop where
  connected : trace.count (.connectionCallback .kConnected) ≤ 1
  disconnected : trace.count (.connectionCallback .kDisconnected) ≤ 1
  /-- The connection callback is called for nothing else. -/
  states : ∀ state, .connectionCallback state ∈ trace →
    state = .kConnected ∨ state = .kDisconnected
  closed : trace.count .closeCallback ≤ 1
  quiet : .messageCallback .kDisconnected ∉ trace

/-- What a step must meet: once the connection is disconnected, its outstanding read completes
    neither with an error nor, when it reads a body, with data. -/
def ReadsSettled (s : TcpConnection) : Event → Prop
  | .readError _ _ => s.state_ = .kDisconnected → s.reading = none
  | .readDone bytes _ _ => s.state_ = .kDisconnected →
    ∀ op ∈ s.reading, op.handler = .body → bytes.length ≠ op.len
  | _ => True

/-- Whether a step meets the condition depends on the read that completes. -/
instance (s : TcpConnection) : ∀ e, Decidable (ReadsSettled s e)
  | .readError _ _ => inferInstanceAs (Decidable (_ → _))
  | .readDone bytes _ _ =>
    inferInstanceAs (Decidable (_ → ∀ op ∈ s.reading, op.handler = .body → bytes.length ≠ op.len))
  | .connectEstablished _ | .connectDestroyed _ | .shutdown _ | .forceClose | .send _ _
  | .runTask _ _ _ | .transmit _ _ | .writeDone _ | .writeError _ => .isTrue trivial

/-- The invariant: what has been called so far, by the state the connection is in. The
    property is one of its fields; the others say which callbacks can still come. -/
structure LifeInv (s : TcpConnection) : Prop where
  output : s.outputBuffer_.Ok
  life : Lifecycle s.trace
  fresh : s.state_ = .kConnecting →
    .connectionCallback .kConnected ∉ s.trace ∧ s.reading = none
  live : s.state_ ≠ .kDisconnected →
    .connectionCallback .kDisconnected ∉ s.trace ∧ .closeCallback ∉ s.trace

/-- The state after a step from `s`: the invariant holds, and the state has not gone back. The
    two fields about the state let one callback be followed by another in the same handler. -/
structure StaysAlive (s s' : TcpConnection) : Prop where
  inv : LifeInv s'
  disconnected : s.state_ = .kDisconnected → s'.state_ = .kDisconnected
  connecting : s'.state_ = .kConnecting → s.state_ = .kConnecting

/-- A fault in a step from `s`: the property holds all the same, `kDisconnected` is not left, and
    the `assert` of `handleClose` is not what failed. -/
def EndsAlive (s : TcpConnection) (e : Fault × TcpConnection) : Prop :=
  Lifecycle e.2.trace ∧ (s.state_ = .kDisconnected → e.2.state_ = .kDisconnected) ∧
    e.1 ≠ .assertFailed .handleClose

/-- An operation keeps the lifecycle, whether it returns or fails. -/
def KeepsLife (s : TcpConnection) (r : M) : Prop := Holds (StaysAlive s) (EndsAlive s) r

section Traces

variable {s s' : TcpConnection}

/-! ## Steps that call no callback

  A calm step adds nothing to the trace that the property counts (`Uncalled`). -/

/-- Nothing the lifecycle depends on has changed, except that the connection may have started to
    disconnect or lost its read. -/
structure Uncalled (s s' : TcpConnection) : Prop where
  output : s'.outputBuffer_.Ok
  state : s'.state_ = s.state_ ∨ (s.state_ = .kConnected ∧ s'.state_ = .kDisconnecting)
  trace : ∃ o, s'.trace = s.trace ++ o ∧ ∀ x ∈ o, x.isCallback = false
  reading : s.state_ = .kConnecting → s.reading = none → s'.reading = none

/-- What is calm calls nobody. -/
theorem Calm.uncalled (h : Calm s s') : Uncalled s s' :=
  ⟨h.output, h.state, h.trace, fun _ hr => h.reading.trans hr⟩

/-- The calls recorded are the same. -/
theorem Uncalled.mem (h : Uncalled s s') {o : Obs} (ho : o.isCallback = true) :
    o ∈ s'.trace ↔ o ∈ s.trace := by
  obtain ⟨t, ht, hno⟩ := h.trace
  rw [ht, List.mem_append]
  refine ⟨fun hor => hor.resolve_right fun hmem => ?_, Or.inl⟩
  exact Bool.false_ne_true ((hno o hmem).symm.trans ho)

/-- So no callback is counted twice. -/
theorem Uncalled.count (h : Uncalled s s') {o : Obs} (ho : o.isCallback = true) :
    s'.trace.count o = s.trace.count o := by
  obtain ⟨t, ht, hno⟩ := h.trace
  have hzero : t.count o = 0 :=
    List.count_eq_zero.mpr fun hmem => Bool.false_ne_true ((hno o hmem).symm.trans ho)
  rw [ht, List.count_append, hzero, Nat.add_zero]

/-- And what held of the callbacks still holds. -/
theorem Uncalled.lifecycle (h : Uncalled s s') (hs : Lifecycle s.trace) :
    Lifecycle s'.trace where
  connected := by rw [h.count rfl]; exact hs.connected
  disconnected := by rw [h.count rfl]; exact hs.disconnected
  states := fun state hmem => hs.states state ((h.mem rfl).mp hmem)
  closed := by rw [h.count rfl]; exact hs.closed
  quiet := fun hmem => hs.quiet ((h.mem rfl).mp hmem)

/-- The state only moves forward. -/
theorem Uncalled.forward (h : Uncalled s s') :
    (s'.state_ = .kConnecting → s.state_ = .kConnecting) ∧
      (s.state_ = .kDisconnected ↔ s'.state_ = .kDisconnected) := by
  rcases h.state with h1 | ⟨h1, h2⟩
  · rw [h1]
    exact ⟨id, Iff.rfl⟩
  · rw [h1, h2]
    decide

/-- The invariant holds behind it. -/
theorem Uncalled.lifeInv (h : Uncalled s s') (hs : LifeInv s) : LifeInv s' where
  output := h.output
  life := h.lifecycle hs.life
  fresh := by
    intro hc
    have hc' := h.forward.1 hc
    obtain ⟨hno, hr⟩ := hs.fresh hc'
    exact ⟨fun hmem => hno ((h.mem rfl).mp hmem), h.reading hc' hr⟩
  live := by
    intro hd
    obtain ⟨hno, hno'⟩ := hs.live (hd ∘ h.forward.2.mp)
    exact ⟨fun hmem => hno ((h.mem rfl).mp hmem), fun hmem => hno' ((h.mem rfl).mp hmem)⟩

/-- And the state has not gone back. -/
theorem Uncalled.staysAlive (h : Uncalled s s') (hs : LifeInv s) : StaysAlive s s' :=
  ⟨h.lifeInv hs, h.forward.2.mp, h.forward.1⟩

/-- A calm operation keeps the lifecycle. -/
theorem StaysCalm.keepsLife {r : M} (h : StaysCalm s r) (hs : LifeInv s) : KeepsLife s r :=
  h.mono (fun _ hc => hc.uncalled.staysAlive hs) fun _ hc =>
    ⟨hc.1.uncalled.lifecycle hs.life, hc.1.uncalled.forward.2.mp, hc.2.2⟩

/-- Steps that stay alive make a run that does. -/
theorem StaysAlive.trans (h : StaysAlive s s') {s'' : TcpConnection} (h' : StaysAlive s' s'') :
    StaysAlive s s'' :=
  ⟨h'.inv, h'.disconnected ∘ h.disconnected, h.connecting ∘ h'.connecting⟩

/-- What a later part of a step keeps, the whole step keeps. -/
theorem StaysAlive.keepsLife (h : StaysAlive s s') {r : M} (hr : KeepsLife s' r) : KeepsLife s r :=
  hr.mono (fun _ h' => h.trans h') fun _ he => ⟨he.1, he.2.1 ∘ h.disconnected, he.2.2⟩

/-- A fault behind a step that stayed alive is a fault of the whole. -/
theorem StaysAlive.ends (h : StaysAlive s s') {e : Fault × TcpConnection} (he : EndsAlive s' e) :
    EndsAlive s e := ⟨he.1, he.2.1 ∘ h.disconnected, he.2.2⟩

/-! ## One callback more

  The trace grows by one entry.  Which one may come is a matter of the state in which it is made,
  and of what has been called before. -/

/-- What was seen, counted behind one more thing seen. -/
theorem count_observe (s : TcpConnection) (o o' : Obs) :
    (s.observe o).trace.count o' = s.trace.count o' + if o = o' then 1 else 0 := by
  show (s.trace ++ [o]).count o' = _
  rw [List.count_append, List.count_singleton]
  simp only [beq_iff_eq]

/-- What was seen is what was seen before, and the new thing. -/
theorem mem_observe {o o' : Obs} : o' ∈ (s.observe o).trace ↔ o' ∈ s.trace ∨ o' = o := by
  show o' ∈ s.trace ++ [o] ↔ _
  rw [List.mem_append, List.mem_singleton]

/-- A message may be handed over in every state but one. -/
theorem lifecycle_messageCallback (h : Lifecycle s.trace) {state : StateE}
    (hst : state ≠ .kDisconnected) : Lifecycle (s.observe (.messageCallback state)).trace where
  connected := by rw [count_observe]; exact h.connected
  disconnected := by rw [count_observe]; exact h.disconnected
  states := fun st hmem => h.states st ((mem_observe.mp hmem).resolve_right nofun)
  closed := by rw [count_observe]; exact h.closed
  quiet := by
    rintro hmem
    rcases mem_observe.mp hmem with hmem | heq
    · exact h.quiet hmem
    · exact hst (Obs.messageCallback.inj heq).symm

/-- The connection callback may be called for a state it has not been called for. -/
theorem lifecycle_connectionCallback (h : Lifecycle s.trace) {state : StateE}
    (hst : state = .kConnected ∨ state = .kDisconnected)
    (hno : .connectionCallback state ∉ s.trace) :
    Lifecycle (s.observe (.connectionCallback state)).trace where
  connected := by
    rw [count_observe]
    split
    · rename_i heq
      rw [← heq, List.count_eq_zero.mpr hno]
    · exact h.connected
  disconnected := by
    rw [count_observe]
    split
    · rename_i heq
      rw [← heq, List.count_eq_zero.mpr hno]
    · exact h.disconnected
  states := by
    intro st hmem
    rcases mem_observe.mp hmem with hmem | heq
    · exact h.states st hmem
    · rw [Obs.connectionCallback.inj heq]; exact hst
  closed := by rw [count_observe]; exact h.closed
  quiet := fun hmem => h.quiet ((mem_observe.mp hmem).resolve_right nofun)

/-- The close callback may be called once. -/
theorem lifecycle_closeCallback (h : Lifecycle s.trace) (hno : .closeCallback ∉ s.trace) :
    Lifecycle (s.observe .closeCallback).trace where
  connected := by rw [count_observe]; exact h.connected
  disconnected := by rw [count_observe]; exact h.disconnected
  states := fun st hmem => h.states st ((mem_observe.mp hmem).resolve_right nofun)
  closed := by rw [count_observe, List.count_eq_zero.mpr hno]; exact Nat.le_refl 1
  quiet := fun hmem => h.quiet ((mem_observe.mp hmem).resolve_right nofun)

/-- Disconnecting: the state in which `handleClose` and `connectDestroyed` call the owner back. -/
theorem disconnected_staysAlive (h : LifeInv s) :
    StaysAlive s (s.setState .kDisconnected) :=
  ⟨⟨h.output, h.life, nofun, fun hd => absurd rfl hd⟩, fun _ => rfl, nofun⟩

/-! ## Parts of a read completion

  Up to the message callback nothing is called, and the call itself is allowed while the
  connection is not disconnected. -/

/-- The input buffer is not part of the lifecycle. -/
theorem setInput_staysAlive (h : LifeInv s) (b : Buffer) : StaysAlive s (s.setInput b) :=
  ⟨⟨h.output, h.life, h.fresh, h.live⟩, id, id⟩

/-- A read may be started in every state but `kConnecting`. -/
theorem reading_staysAlive (h : LifeInv s) (hc : s.state_ ≠ .kConnecting) (op : Option AsyncRead) :
    StaysAlive s { s with reading := op } :=
  ⟨⟨h.output, h.life, fun hc' => absurd hc' hc, h.live⟩, id, id⟩

/-- Seeing something that is no callback has no part in the lifecycle. -/
theorem observe_staysAlive (h : LifeInv s) {o : Obs} (ho : o.isCallback = false) :
    StaysAlive s (s.observe o) :=
  (Calm.observe h.output ho).uncalled.staysAlive h

/-- A read completion fails inside the buffer only with the buffer's own faults. -/
theorem within_keepsLife {α : Type} {s₁ : TcpConnection} (h : StaysAlive s s₁)
    {r : Outcome Fault Buffer α} (hr : Buffer.OwnFaults r) :
    Holds (fun _ => True) (EndsAlive s) (within s₁.setInput r) := by
  cases hr with
  | ok => exact .ok trivial
  | error hf =>
    rename_i e
    refine .error ⟨h.inv.life, h.disconnected, fun heq => ?_⟩
    rw [show e.1 = .assertFailed .handleClose from heq] at hf
    exact nomatch hf

end Traces

section Steps

variable [VectorImpl] {s : TcpConnection}

/-! ## The handlers that call the owner back

  `connectEstablished`, `handleClose` and what leads to it.  User code makes calls inside each
  callback, so the state after a callback is known only up to `Calm`. -/

/-- The connection callback, called for a state it has not been called for; user code cannot make
    the close callback run. -/
theorem notifyConnection_keepsLife (h : LifeInv s)
    (hst : s.state_ = .kConnected ∨ s.state_ = .kDisconnected)
    (hno : .connectionCallback s.state_ ∉ s.trace) (onConnection : List Act) :
    Holds (fun s' => StaysAlive s s' ∧ (.closeCallback ∈ s'.trace → .closeCallback ∈ s.trace))
      (EndsAlive s) (s.notifyConnection onConnection) := by
  rw [notifyConnection]
  split
  · rename_i hcb
    rw [callConnection, if_pos hcb]
    have hobs : StaysAlive s (s.observe (.connectionCallback s.state_)) := by
      refine ⟨⟨h.output, lifecycle_connectionCallback h.life hst hno, fun hc => ?_, fun hd => ?_⟩,
        id, id⟩
      · have hc' : s.state_ = .kConnecting := hc
        rw [hc'] at hst
        exact absurd hst (by decide)
      · obtain ⟨h1, h2⟩ := h.live hd
        refine ⟨fun hmem => ?_, fun hmem => h2 ((mem_observe.mp hmem).resolve_right nofun)⟩
        rcases mem_observe.mp hmem with hmem | heq
        · exact h1 hmem
        · exact hd (Obs.connectionCallback.inj heq).symm
    refine (acts_calm onConnection hobs.inv.output).mono (fun s' hc => ?_) fun e hc => ?_
    · refine ⟨hobs.trans (hc.uncalled.staysAlive hobs.inv), fun hmem => ?_⟩
      exact (mem_observe.mp ((hc.uncalled.mem rfl).mp hmem)).resolve_right nofun
    · have hs' := hc.1.uncalled.staysAlive hobs.inv
      exact hobs.ends ⟨hs'.inv.life, hs'.disconnected, hc.2.2⟩
  · exact .ok ⟨⟨h, id, id⟩, id⟩

/-- **The connection goes down once**: `handleClose` finds it up, calls the close callback and
    leaves `kDisconnected`, where no later step finds it up again. -/
theorem handleClose_keepsLife (h : LifeInv s)
    (hst : s.state_ = .kConnected ∨ s.state_ = .kDisconnecting) (onConnection onClose : List Act) :
    KeepsLife s (s.handleClose onConnection onClose) := by
  have hlive : s.state_ ≠ .kDisconnected := fun hd => by
    rw [hd] at hst
    exact absurd hst (by decide)
  obtain ⟨hno, hno'⟩ := h.live hlive
  rw [handleClose, require_pos _ _ hst, ok_bind]
  have hset := disconnected_staysAlive h
  have hconn := notifyConnection_keepsLife hset.inv (Or.inr rfl) hno onConnection
  refine Holds.bind (hconn.mono (fun _ hs' => hs') fun _ he => hset.ends he) fun s₁ hs₁ => ?_
  obtain ⟨hstay, hclose⟩ := hs₁
  have h1 := hset.trans hstay
  have hdisc : s₁.state_ = .kDisconnected := hstay.disconnected rfl
  rw [notifyClose]
  split
  · have hobs : StaysAlive s (s₁.observe .closeCallback) := by
      refine ⟨⟨h1.inv.output, lifecycle_closeCallback h1.inv.life fun hmem => hno' (hclose hmem),
        fun hc => ?_, fun hd => absurd hdisc hd⟩, h1.disconnected, h1.connecting⟩
      exact nomatch hdisc.symm.trans hc
    exact hobs.keepsLife ((acts_calm onClose hobs.inv.output).keepsLife hobs.inv)
  · exact .ok h1

/-- **It comes up once**: the assertion finds it in `kConnecting`, which it never comes back to. -/
theorem connectEstablished_keepsLife (h : LifeInv s) (onConnection : List Act) :
    KeepsLife s (s.connectEstablished onConnection) := by
  rw [connectEstablished]
  by_cases hst : s.state_ = .kConnecting
  · rw [require_pos _ _ hst, ok_bind]
    have hlive : s.state_ ≠ .kDisconnected := by rw [hst]; exact nofun
    obtain ⟨hno, -⟩ := h.fresh hst
    have hset : StaysAlive s (s.setState .kConnected) :=
      ⟨⟨h.output, h.life, nofun, fun _ => h.live hlive⟩, fun hd => absurd hd hlive, nofun⟩
    have hconn := notifyConnection_keepsLife hset.inv (Or.inl rfl) hno onConnection
    refine Holds.bind (hconn.mono (fun _ hs' => hs') fun _ he => hset.ends he) fun s₁ hs₁ => ?_
    have h1 := hset.trans hs₁.1
    refine .ok ⟨⟨h1.inv.output, h1.inv.life, fun hc => ?_, h1.inv.live⟩, h1.disconnected,
      h1.connecting⟩
    exact nomatch hs₁.1.connecting hc
  · rw [require_neg _ _ hst]
    exact .error ⟨h.life, id, nofun⟩

/-- A connection that is destroyed while it is up tells its owner so, and is down behind it. -/
theorem connectDestroyed_keepsLife (h : LifeInv s) (onConnection : List Act) :
    KeepsLife s (s.connectDestroyed onConnection) := by
  rw [connectDestroyed]
  split
  · rename_i hst
    have hlive : s.state_ ≠ .kDisconnected := by rw [hst]; exact nofun
    have hset := disconnected_staysAlive h
    by_cases hcb : (s.setState .kDisconnected).connectionCallback_
    · have hconn := notifyConnection_keepsLife hset.inv (Or.inr rfl) (h.live hlive).1 onConnection
      rw [notifyConnection, if_pos hcb] at hconn
      exact hconn.mono (fun _ hs' => hset.trans hs'.1) fun _ => hset.ends
    · rw [callConnection, if_neg hcb]
      exact .error ⟨hset.inv.life, fun _ => rfl, nofun⟩
  · exact .ok ⟨h, id, id⟩

/-! ## The completions of reads

  A header asks for a body, and a body goes to the message callback; neither closes the
  connection by itself. -/

/-- A header that has arrived makes room for the body and starts its read. A length for which
    there is no room throws, and calls nobody. -/
theorem headerDone_keepsLife (h : LifeInv s) (hc : s.state_ ≠ .kConnecting) (byte : Nat) :
    KeepsLife s (s.headerDone byte) := by
  rw [headerDone]
  refine Holds.bind (within_keepsLife ⟨h, id, id⟩ (Buffer.hasWritten_own _ _)) fun b _ => ?_
  have h1 := setInput_staysAlive h b
  refine Holds.bind (within_keepsLife h1 (Buffer.peekInt32_own _)) fun len _ => ?_
  refine Holds.bind (within_keepsLife h1 (Buffer.ensureWritableBytes_own _ _)) fun b' _ => ?_
  have h2 := h1.trans (setInput_staysAlive h1.inv b')
  have h3 := h2.trans (observe_staysAlive h2.inv (o := .readBody (toUnsigned 64 len)) rfl)
  exact .ok (h3.trans (reading_staysAlive h3.inv (hc ∘ h3.connecting) _))

/-- A body may be handed over in every state but `kConnecting` and `kDisconnected`. -/
theorem bodyDone_keepsLife (h : LifeInv s) (hc : s.state_ ≠ .kConnecting)
    (hd : s.state_ ≠ .kDisconnected) {messageCallback : MessageCallback}
    (hown : ∀ b, Buffer.OwnFaults (messageCallback b)) (byte : Nat) :
    KeepsLife s (s.bodyDone messageCallback byte) := by
  rw [bodyDone]
  refine Holds.bind (within_keepsLife ⟨h, id, id⟩ (Buffer.hasWritten_own _ _)) fun b _ => ?_
  have h1 := setInput_staysAlive h b
  simp only
  split
  · have hobs : StaysAlive s ((s.setInput b).observe (.messageCallback s.state_)) := by
      refine ⟨⟨h.output, lifecycle_messageCallback h1.inv.life hd, fun hc' => absurd hc' hc,
        fun _ => ?_⟩, id, id⟩
      obtain ⟨hno, hno'⟩ := h.live hd
      exact ⟨fun hmem => hno ((mem_observe.mp hmem).resolve_right nofun),
        fun hmem => hno' ((mem_observe.mp hmem).resolve_right nofun)⟩
    refine Holds.bind (within_keepsLife hobs (hown _)) fun p _ => ?_
    have h2 := hobs.trans (setInput_staysAlive hobs.inv p.1)
    have hcalm := (acts_calm p.2 h2.inv.output).keepsLife h2.inv
    refine Holds.bind (h2.keepsLife hcalm) fun s₁ hs₁ => ?_
    exact .ok (hs₁.trans (reading_staysAlive hs₁.inv (hc ∘ hs₁.connecting) _))
  · exact .error ⟨h.life, id, nofun⟩

/-- **A completed read keeps the lifecycle**, with any message callback whose own faults are those
    of the buffer. This is the step that needs the condition: on a connection that is down already
    a body would still be delivered. -/
theorem readDone_keepsLife (h : LifeInv s) {messageCallback : MessageCallback}
    (hown : ∀ b, Buffer.OwnFaults (messageCallback b)) {bytes : List UInt8}
    (hguard : s.state_ = .kDisconnected →
      ∀ op ∈ s.reading, op.handler = .body → bytes.length ≠ op.len) :
    KeepsLife s (s.readDone messageCallback bytes) := by
  rw [readDone]
  split
  · exact .ok ⟨h, id, id⟩
  rename_i op hread
  have hc : s.state_ ≠ .kConnecting := fun hc => nomatch hread.symm.trans (h.fresh hc).2
  split
  · rename_i hlen
    refine Holds.bind (within_keepsLife ⟨h, id, id⟩ (Buffer.copyTo_own _ _ _)) fun b _ => ?_
    have h1 := setInput_staysAlive h b
    have h2 := h1.trans (observe_staysAlive h1.inv (o := .readDone op.len) rfl)
    have h3 := h2.trans (reading_staysAlive h2.inv hc none)
    cases hhandler : op.handler with
    | header =>
      exact h3.keepsLife (headerDone_keepsLife h3.inv hc op.len)
    | body =>
      have hd : s.state_ ≠ .kDisconnected := fun hd => hguard hd op hread hhandler hlen
      exact h3.keepsLife (bodyDone_keepsLife h3.inv hc hd hown op.len)
  · exact .ok ⟨h, id, id⟩

/-- A read error closes a connection that is still up; `ReadsSettled` leaves no other. -/
theorem readError_keepsLife (h : LifeInv s)
    (hguard : s.state_ = .kDisconnected → s.reading = none) (onConnection onClose : List Act) :
    KeepsLife s (s.readError onConnection onClose) := by
  rw [readError]
  split
  · exact .ok ⟨h, id, id⟩
  rename_i op hread
  have hc : s.state_ ≠ .kConnecting := fun hc => nomatch hread.symm.trans (h.fresh hc).2
  have hd : s.state_ ≠ .kDisconnected := fun hd => nomatch hread.symm.trans (hguard hd)
  have hst : s.state_ = .kConnected ∨ s.state_ = .kDisconnecting := by
    cases hstate : s.state_ with
    | kDisconnected => exact absurd hstate hd
    | kConnecting => exact absurd hstate hc
    | kConnected => exact Or.inl rfl
    | kDisconnecting => exact Or.inr rfl
  have h1 := reading_staysAlive h hc none
  exact h1.keepsLife (handleClose_keepsLife h1.inv hst onConnection onClose)

/-! ## Every run

  One case for each event.  The conditions of `ReadsSettled` enter at the two completions. -/

/-- A posted handler keeps it: a send or a shutdown is calm, a force close looks at the state
    first. -/
theorem runTask_keepsLife (h : LifeInv s) (i : Nat) (onConnection onClose : List Act) :
    KeepsLife s (s.runTask i onConnection onClose) := by
  rw [runTask]
  split
  · exact .ok ⟨h, id, id⟩
  rename_i task _
  have h1 : StaysAlive s { s with tasks := s.tasks.eraseIdx i } :=
    ⟨⟨h.output, h.life, h.fresh, h.live⟩, id, id⟩
  refine h1.keepsLife ?_
  cases task with
  | sendInThisThread str => exact (sendInThisThread_calm h1.inv.output str).keepsLife h1.inv
  | shutdownInThisThread =>
    exact .ok ((shutdownInThisThread_calm h1.inv.output).uncalled.staysAlive h1.inv)
  | forceCloseInThisThread =>
    show KeepsLife _ (forceCloseInThisThread _ _ _)
    rw [forceCloseInThisThread]
    split
    · rename_i hst
      exact handleClose_keepsLife h1.inv hst onConnection onClose
    · exact .ok ⟨h1.inv, id, id⟩

/-- One event under `ReadsSettled`. -/
theorem step_keepsLife (h : LifeInv s) (e : Event) (hguard : ReadsSettled s e) :
    KeepsLife s (s.step e) := by
  cases e with
  | connectEstablished onConnection => exact connectEstablished_keepsLife h onConnection
  | connectDestroyed onConnection => exact connectDestroyed_keepsLife h onConnection
  | shutdown inLoop => exact .ok ((shutdown_calm h.output inLoop).uncalled.staysAlive h)
  | forceClose => exact .ok ((forceClose_calm h.output).uncalled.staysAlive h)
  | send inLoop message => exact (send_calm h.output inLoop message).keepsLife h
  | runTask i onConnection onClose => exact runTask_keepsLife h i onConnection onClose
  | readDone bytes consume onMessage =>
    have hown : ∀ b, Buffer.OwnFaults (retrieving consume onMessage b) := fun b =>
      (Buffer.retrieve_own b _).bind fun _ => .ok _
    exact readDone_keepsLife h hown hguard
  | readError onConnection onClose => exact readError_keepsLife h hguard onConnection onClose
  | transmit i n => exact (transmit_calm h.output i n).keepsLife h
  | writeDone i => exact (writeDone_calm h.output i).keepsLife h
  | writeError i => exact .ok ((writeError_calm h.output i).uncalled.staysAlive h)

/-- A new connection has called nobody. -/
theorem new_lifeInv (cc mc clc : Bool) : LifeInv (new cc mc clc) where
  output := Buffer.new_ok (by decide)
  life := ⟨Nat.zero_le 1, Nat.zero_le 1, nofun, Nat.zero_le 1, nofun⟩
  fresh := fun _ => ⟨nofun, rfl⟩
  live := fun _ => ⟨nofun, nofun⟩

/-- **The lifecycle of a connection.**  In every run that respects `ReadsSettled`, the callbacks are
    called as often as the owner may rely on and `handleClose`'s `assert` never fails, up to and
    including the step that ends the run; and from the first time the connection is disconnected,
    it stays so. -/
theorem lifecycle_of_run (cc mc clc : Bool) (before after : List Event)
    (h : Guarded step ReadsSettled (new cc mc clc) (before ++ after)) :
    Holds (fun s => Lifecycle s.trace)
      (fun e => Lifecycle e.2.trace ∧ e.1 ≠ .assertFailed .handleClose)
      (run step (new cc mc clc) (before ++ after)) ∧
    ∀ s, run step (new cc mc clc) before = .ok s → s.state_ = .kDisconnected →
      Holds (fun s' => s'.state_ = .kDisconnected) (fun e => e.2.state_ = .kDisconnected)
        (run step s after) := by
  -- the invariant carries the property of the trace through the whole run
  have hlife : ∀ es s, LifeInv s → Guarded step ReadsSettled s es →
      Holds LifeInv (fun e => Lifecycle e.2.trace ∧ e.1 ≠ .assertFailed .handleClose)
        (run step s es) :=
    run_holds fun s e hs hg => (step_keepsLife hs e hg).mono (fun _ h' => h'.inv)
      fun _ he => ⟨he.1, he.2.2⟩
  -- and, from a disconnected state, the state itself
  have hstay : ∀ es s, LifeInv s ∧ s.state_ = .kDisconnected → Guarded step ReadsSettled s es →
      Holds (fun s => LifeInv s ∧ s.state_ = .kDisconnected) (fun e => e.2.state_ = .kDisconnected)
        (run step s es) :=
    run_holds fun s e hs hg => (step_keepsLife hs.1 e hg).mono
      (fun _ h' => ⟨h'.inv, h'.disconnected hs.2⟩) fun _ he => he.2.1 hs.2
  have hnew := new_lifeInv cc mc clc
  refine ⟨(hlife _ _ hnew h).mono (fun _ hs => hs.life) fun _ he => he, fun s hs hd => ?_⟩
  have hinv := hlife before _ hnew h.of_append
  rw [hs] at hinv
  exact (hstay after s ⟨holds_ok.mp hinv, hd⟩ (h.of_run hs)).mono (fun _ hs' => hs'.2)
    fun _ he => he

end Steps

section Examples

attribute [local instance] VectorImpl.exact

/-- One message, then a force close; a further send finds the connection closed. -/
def closedByOwner : List Event :=
  [.connectEstablished [], .readDone [0, 0, 0, 1] 0 [], .readDone [7] 5 [.forceClose],
    .runTask 0 [] []]

/-- What the owner may do with it afterwards: nothing of this is seen by anybody. -/
def afterClose : List Event := [.send true ⟨[1], by decide⟩, .connectDestroyed []]

/-- The condition can be met: the owner closes the connection, and all the conjuncts hold. -/
theorem lifecycle_of_run_closedByOwner :
    Guarded step ReadsSettled (new true true true) (closedByOwner ++ afterClose) ∧
    (Holds (fun s => Lifecycle s.trace)
      (fun e => Lifecycle e.2.trace ∧ e.1 ≠ .assertFailed .handleClose)
      (run step (new true true true) (closedByOwner ++ afterClose)) ∧
    ∀ s, run step (new true true true) closedByOwner = .ok s → s.state_ = .kDisconnected →
      Holds (fun s' => s'.state_ = .kDisconnected) (fun e => e.2.state_ = .kDisconnected)
        (run step s afterClose)) := by
  have hguard : Guarded step ReadsSettled (new true true true) (closedByOwner ++ afterClose) := by
    decide +kernel
  have hlife := lifecycle_of_run true true true closedByOwner afterClose hguard
  exact And.intro hguard hlife

/-- A force close, then the read that was outstanding all along completes with an error, as it does
    when the peer closes. -/
def readAfterClose : List Event :=
  [.connectEstablished [], .forceClose, .runTask 0 [] [], .readError [] []]

/-- **The `assert` of `handleClose` fails** there. -/
theorem handleClose_assert_fails :
    ¬ Holds (fun s => Lifecycle s.trace)
      (fun e => Lifecycle e.2.trace ∧ e.1 ≠ .assertFailed .handleClose)
      (run step (new true true true) readAfterClose) := by
  have hend : (match run step (new true true true) readAfterClose with
      | .ok _ => none
      | .error e => some e.1) = some (.assertFailed .handleClose) := by decide +kernel
  generalize run step (new true true true) readAfterClose = r at hend ⊢
  intro h
  cases h with
  | ok h => exact nomatch hend
  | error h => exact h.2 (Option.some.inj hend)

end Examples

end TcpConnection

end IOEvent
