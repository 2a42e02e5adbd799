/-
  What the sending side of a connection leaves alone.

  Most of what a connection does never touches its input: sending, shutting down, the completions
  of writes, and every call user code makes inside a callback.  `Calm s s'` says what such an
  operation may change: the input buffer, the outstanding read and the callbacks stay; the state can
  only go from `kConnected` to `kDisconnecting`; no callback of the owner is called; and the output
  buffer stays well-formed.  Each operation is shown calm once, whether it returns or fails, and the
  invariants of the receiving side and of the lifecycle are then checked against `Calm` instead of
  against every operation.
-/
import IOEvent.TcpConnection

open Foundation

namespace IOEvent

/-- An entry of the trace that records a call of one of the owner's callbacks. -/
def Obs.isCallback : Obs → Bool
  | .connectionCallback _ => true
  | .messageCallback _ => true
  | .closeCallback => true
  | _ => false

namespace TcpConnection

/-- What an operation of the sending side may change. It composes, so what a handler does in
    several calls is calm when each of them is. -/
structure Calm (s s' : TcpConnection) : Prop where
  input : s'.inputBuffer_ = s.inputBuffer_
  reading : s'.reading = s.reading
  callbacks : s'.connectionCallback_ = s.connectionCallback_ ∧
    s'.messageCallback_ = s.messageCallback_ ∧ s'.closeCallback_ = s.closeCallback_
  state : s'.state_ = s.state_ ∨ (s.state_ = .kConnected ∧ s'.state_ = .kDisconnecting)
  trace : ∃ o, s'.trace = s.trace ++ o ∧ ∀ x ∈ o, x.isCallback = false
  output : s'.outputBuffer_.Ok

/-- Doing nothing is calm. -/
theorem Calm.refl {s : TcpConnection} (h : s.outputBuffer_.Ok) : Calm s s :=
  ⟨rfl, rfl, ⟨rfl, rfl, rfl⟩, Or.inl rfl, ⟨[], (List.append_nil _).symm, nofun⟩, h⟩

/-- Calm steps make a calm step. -/
theorem Calm.trans {s s' s'' : TcpConnection} (h : Calm s s') (h' : Calm s' s'') : Calm s s'' where
  input := h'.input.trans h.input
  reading := h'.reading.trans h.reading
  callbacks := ⟨h'.callbacks.1.trans h.callbacks.1, h'.callbacks.2.1.trans h.callbacks.2.1,
    h'.callbacks.2.2.trans h.callbacks.2.2⟩
  state := by
    rcases h'.state with h1 | ⟨h1, h2⟩
    · rw [h1]; exact h.state
    · rcases h.state with h3 | ⟨-, h4⟩
      · exact Or.inr ⟨h3 ▸ h1, h2⟩
      · rw [h4] at h1; exact nomatch h1
  trace := by
    obtain ⟨o, ho, hno⟩ := h.trace
    obtain ⟨o', ho', hno'⟩ := h'.trace
    refine ⟨o ++ o', by rw [ho', ho, List.append_assoc], fun x hx => ?_⟩
    rcases List.mem_append.mp hx with hx | hx
    · exact hno x hx
    · exact hno' x hx
  output := h'.output

/-- A fault that is not a failed `assert` of `hasWritten` or of `handleClose`. -/
def Benign (f : Fault) : Prop := f ≠ .assertFailed .hasWritten ∧ f ≠ .assertFailed .handleClose

/-- Whether a fault is benign is read off its constructor. -/
instance : DecidablePred Benign := fun _ => inferInstanceAs (Decidable (_ ∧ _))

/-- The operation is calm, whether it returns or fails. -/
def StaysCalm (s : TcpConnection) (r : M) : Prop :=
  Holds (Calm s) (fun e => Calm s e.2 ∧ Benign e.1) r

/-- Behind a calm step a calm operation is calm from the start. -/
theorem StaysCalm.trans {s s' : TcpConnection} (h : Calm s s') {r : M} (hr : StaysCalm s' r) :
    StaysCalm s r :=
  hr.mono (fun _ h' => h.trans h') fun _ h' => ⟨h.trans h'.1, h'.2⟩

/-- Two calm operations in a row are one. -/
theorem StaysCalm.bind {s : TcpConnection} {r : M} {f : TcpConnection → M} (hr : StaysCalm s r)
    (hf : ∀ s', Calm s s' → StaysCalm s' (f s')) : StaysCalm s (r >>= f) :=
  Holds.bind hr fun s' hs' => (hf s' hs').trans hs'

/-- A calm operation that ends in a benign fault. -/
theorem Calm.fault {s s' : TcpConnection} (h : Calm s s') {f : Fault} (hf : Benign f) :
    StaysCalm s (.error (f, s')) := .error ⟨h, hf⟩

/-- Observing something that is no callback is calm. -/
theorem Calm.observe {s : TcpConnection} (h : s.outputBuffer_.Ok) {o : Obs}
    (ho : o.isCallback = false) : Calm s (s.observe o) :=
  { Calm.refl h with
    trace := ⟨[o], rfl, fun x hx => by rw [List.mem_singleton.mp hx]; exact ho⟩ }

/-- The buffer may be replaced, by any buffer that is in order. -/
theorem Calm.setOutput {s : TcpConnection} {b : Buffer} (hb : b.Ok) : Calm s (s.setOutput b) :=
  ⟨rfl, rfl, ⟨rfl, rfl, rfl⟩, Or.inl rfl, ⟨[], (List.append_nil _).symm, nofun⟩, hb⟩

/-! ## Shutting down, and the completions of writes

  These start and end writes and may close the sending side.  Nothing of it touches what has
  been received. -/

/-- Starting a write is calm. -/
theorem Calm.write {s : TcpConnection} (h : s.outputBuffer_.Ok) : Calm s s.write :=
  { Calm.refl h with }

/-- `shutdownInThisThread` is calm, as it calls nobody. -/
theorem shutdownInThisThread_calm {s : TcpConnection} (h : s.outputBuffer_.Ok) :
    Calm s s.shutdownInThisThread := by
  rw [shutdownInThisThread]
  split
  · exact Calm.observe h rfl
  · exact Calm.refl h

/-- `shutdown` is calm, since `kDisconnecting` is no step back. -/
theorem shutdown_calm {s : TcpConnection} (h : s.outputBuffer_.Ok) (inLoop : Bool) :
    Calm s (s.shutdown inLoop) := by
  rw [shutdown]
  split
  · rename_i hc
    have hset : Calm s (s.setState .kDisconnecting) :=
      { Calm.refl h with state := Or.inr ⟨hc, rfl⟩ }
    simp only
    split
    · exact hset.trans (shutdownInThisThread_calm h)
    · exact { hset with }
  · exact Calm.refl h

/-- `forceClose` is calm for the same reason; the closing itself is in the handler it posts. -/
theorem forceClose_calm {s : TcpConnection} (h : s.outputBuffer_.Ok) : Calm s s.forceClose := by
  rw [forceClose]
  split
  · rename_i hc
    have hstate : s.state_ = .kDisconnecting → StateE.kDisconnecting = s.state_ := Eq.symm
    exact { Calm.refl h with state := hc.symm.imp hstate fun hc => ⟨hc, rfl⟩ }
  · exact Calm.refl h

/-- Bytes taken by the socket are calm. -/
theorem transmit_calm {s : TcpConnection} (h : s.outputBuffer_.Ok) (i n : Nat) :
    StaysCalm s (s.transmit i n) := by
  rw [transmit]
  split
  · exact .ok (Calm.refl h)
  split
  · split
    · rw [Buffer.bytesAt]
      split
      · exact .ok { Calm.refl h with }
      · exact (Calm.setOutput h).fault (by decide)
    · exact (Calm.refl h).fault (by decide)
  · exact .ok (Calm.refl h)

/-- `retrieve` on a well-formed buffer succeeds, or its `assert` fails and nothing changes. -/
theorem retrieve_calm {s : TcpConnection} (h : s.outputBuffer_.Ok) (len : Nat) :
    (∃ b, s.outputBuffer_.retrieve len = .ok b ∧ b.Ok) ∨
      s.outputBuffer_.retrieve len = .error (.assertFailed .retrieve, s.outputBuffer_) := by
  by_cases hlen : len ≤ s.outputBuffer_.contents.length
  · obtain ⟨b, hb, hok, -⟩ := Buffer.retrieve_spec h hlen
    exact Or.inl ⟨b, hb, hok⟩
  · refine Or.inr ?_
    rw [Buffer.retrieve, require_neg _ _ (by rw [h.readableBytes_eq_length]; exact hlen)]
    rfl

/-- The end of a write is calm; the next one may start behind it. -/
theorem writeDone_calm {s : TcpConnection} (h : s.outputBuffer_.Ok) (i : Nat) :
    StaysCalm s (s.writeDone i) := by
  rw [writeDone]
  split
  · exact .ok (Calm.refl h)
  rename_i op hop
  split
  · rcases retrieve_calm h op.len with ⟨b, hb, hok⟩ | hb
    · have h1 : Calm s (({ s with writing := s.writing.eraseIdx i } : TcpConnection).setOutput b) :=
        { Calm.setOutput hok with }
      simp only [hb, within_ok, ok_bind]
      split
      · exact .ok (h1.trans (Calm.write hok))
      · split
        · exact .ok (h1.trans (shutdownInThisThread_calm hok))
        · exact .ok h1
    · simp only [hb, within_error, error_bind]
      have h1 : Calm s (({ s with writing := s.writing.eraseIdx i } : TcpConnection).setOutput
          s.outputBuffer_) := { Calm.setOutput h with }
      exact h1.fault (by decide)
  · exact .ok (Calm.refl h)

/-- Nor does a failed write call anybody. -/
theorem writeError_calm {s : TcpConnection} (h : s.outputBuffer_.Ok) (i : Nat) :
    Calm s (s.writeError i) := by
  rw [writeError]
  split
  · exact Calm.refl h
  · have h1 : Calm s { s with writing := s.writing.eraseIdx i } := { Calm.refl h with }
    exact h1.trans (Calm.observe h1.output rfl)

/-! ## Sending, and the calls of user code

  A callback makes its calls one after the other; each is calm, so all of them are.  The one
  fault is an append that throws, and what was done before it is calm as well. -/

section Sending

variable [VectorImpl]

/-- What `sendInThisThread` does: it gives up when disconnected; otherwise the message is appended,
    and a write is started when nothing was waiting; or the append throws and nothing changes. -/
theorem sendInThisThread_cases {s : TcpConnection} (h : s.outputBuffer_.Ok) (str : StringPiece) :
    (s.state_ = .kDisconnected ∧ s.sendInThisThread str = .ok s) ∨
    (s.state_ ≠ .kDisconnected ∧ ∃ b, s.outputBuffer_.append str.bytes = .ok b ∧ b.Ok ∧
      b.contents = s.outputBuffer_.contents ++ str.bytes ∧
      s.sendInThisThread str =
        .ok (if s.outputBuffer_.contents = [] then (s.setOutput b).write else s.setOutput b)) ∨
    (s.state_ ≠ .kDisconnected ∧ s.sendInThisThread str = .error (.lengthError, s)) := by
  rw [sendInThisThread]
  by_cases hd : s.state_ = .kDisconnected
  · exact Or.inl ⟨hd, by rw [if_pos hd]; rfl⟩
  rw [if_neg hd]
  have hsize : str.bytes.length < 2 ^ 63 := Nat.lt_trans str.size_lt (by decide)
  rcases Buffer.append_cases h hsize with ⟨b₁, v, -, -, -, -, happ, hok, hcont⟩ | ⟨happ, -⟩
  · refine Or.inr (Or.inl ⟨hd, _, happ, hok, hcont, ?_⟩)
    have hempty : s.outputBuffer_.readableBytes = 0 ↔ s.outputBuffer_.contents = [] := by
      rw [h.readableBytes_eq_length, List.length_eq_zero_iff]
    simp only [happ, within_ok, ok_bind, hempty]
    split <;> rfl
  · refine Or.inr (Or.inr ⟨hd, ?_⟩)
    rw [happ]
    rfl

/-- A message appended is calm. It can throw, and the buffer is in order even then. -/
theorem sendInThisThread_calm {s : TcpConnection} (h : s.outputBuffer_.Ok) (str : StringPiece) :
    StaysCalm s (s.sendInThisThread str) := by
  rcases sendInThisThread_cases h str with ⟨-, hr⟩ | ⟨-, b, -, hb, -, hr⟩ | ⟨-, hr⟩
  · rw [hr]
    exact .ok (Calm.refl h)
  · rw [hr]
    refine .ok ?_
    split
    · exact (Calm.setOutput hb).trans (Calm.write hb)
    · exact Calm.setOutput hb
  · rw [hr]
    exact (Calm.refl h).fault (by decide)

/-- `send` is calm, directly and by a post. -/
theorem send_calm {s : TcpConnection} (h : s.outputBuffer_.Ok) (inLoop : Bool)
    (message : StringPiece) : StaysCalm s (s.send inLoop message) := by
  rw [send]
  split
  · split
    · exact sendInThisThread_calm h message
    · exact .ok { Calm.refl h with }
  · exact .ok (Calm.refl h)

/-- **Every call that user code can make on a connection from a callback is calm**, so callbacks
    can be followed by induction on the calls they make. -/
theorem act_calm {s : TcpConnection} (h : s.outputBuffer_.Ok) (a : Act) :
    StaysCalm s (s.act a) := by
  cases a with
  | deliver message => exact .ok (Calm.observe h rfl)
  | shutdown => exact .ok (shutdown_calm h true)
  | forceClose => exact .ok (forceClose_calm h)
  | send message => exact send_calm h true message

/-- The calls user code makes inside a callback are calm: by induction on the calls. -/
theorem acts_calm (as : List Act) :
    ∀ {s : TcpConnection}, s.outputBuffer_.Ok → StaysCalm s (s.acts as) := by
  induction as with
  | nil => exact fun h => .ok (Calm.refl h)
  | cons a as ih =>
    intro s h
    rw [acts, run_cons]
    exact (act_calm h a).bind fun s' hs' => ih hs'.output

/-- Whatever user code calls on a disconnected connection, nothing happens. -/
theorem acts_down (as : List Act) : ∀ {c : TcpConnection}, c.outputBuffer_.Ok →
    c.state_ = .kDisconnected → ∃ c', c.acts as = .ok c' ∧ Calm c c' := by
  induction as with
  | nil => exact fun h _ => ⟨_, rfl, Calm.refl h⟩
  | cons a as ih =>
    intro c h hdown
    have hact : ∃ c', c.act a = .ok c' ∧ Calm c c' ∧ c'.state_ = .kDisconnected := by
      cases a with
      | deliver message => exact ⟨_, rfl, Calm.observe h rfl, hdown⟩
      | shutdown =>
        refine ⟨c, ?_, Calm.refl h, hdown⟩
        rw [act, shutdown, if_neg (by rw [hdown]; decide)]
        rfl
      | forceClose =>
        refine ⟨c, ?_, Calm.refl h, hdown⟩
        rw [act, forceClose, if_neg (by rw [hdown]; decide)]
        rfl
      | send message =>
        refine ⟨c, ?_, Calm.refl h, hdown⟩
        rw [act, send, if_neg (by rw [hdown]; decide)]
        rfl
    obtain ⟨c₁, hc₁, hcalm, hdown₁⟩ := hact
    obtain ⟨c₂, hc₂, hcalm₂⟩ := ih hcalm.output hdown₁
    refine ⟨c₂, ?_, hcalm.trans hcalm₂⟩
    rw [acts, run_cons, hc₁, ok_bind]
    exact hc₂

end Sending

end TcpConnection

end IOEvent
