/-
  The memory bounds of the input side.

  `readHeader` reads four bytes to the write end of the input buffer and `readBody` as many as the
  header said.  `readBody` follows an `ensureWritableBytes`; `readHeader` does not.  So the bounds
  rest on what each earlier step left behind, and two kinds of input break them:

  * a message callback that leaves bytes unread can leave fewer than four bytes of room;
  * a negative length word becomes a `size_t` just below `2 ^ 64`, and one that reaches back no
    further than the write end gets past `ensureWritableBytes` with a vector that has SHRUNK, or
    fails an `assert` there.

  `RoomLeft` excludes exactly these two, as a condition on the step's input and the state before
  it, and `inbound_bounds` shows that every run that respects it keeps every read in bounds.  The
  invariant adds to the bounds that the storage never gets smaller than at the start and that the
  reader never gets below its first position, which is what the retrieve-everything case needs.
-/
import IOEvent.TcpConnection.Receive

open Foundation

namespace IOEvent

namespace TcpConnection

/-- The bounds: the indices are in order and inside the storage, and the outstanding read writes
    inside the storage, at the write end. -/
structure InBounds (s : TcpConnection) : Prop where
  reader_le : s.inputBuffer_.readerIndex_ ≤ s.inputBuffer_.writerIndex_
  writer_le : s.inputBuffer_.writerIndex_ ≤ s.inputBuffer_.buffer_.size
  fits : ∀ op, s.reading = some op → op.pos = s.inputBuffer_.writerIndex_ ∧
    s.inputBuffer_.writerIndex_ + op.len ≤ s.inputBuffer_.buffer_.size

/-- What the completion of a read must meet.

    A header: the length word is not negative, or it is so far below zero that
    `ensureWritableBytes` throws.  A body: the message callback retrieves everything that is
    readable, or the body ends at least four bytes before the end of the storage. -/
def RoomAfter (s : TcpConnection) (bytes : List UInt8) (consume : Nat) : Option AsyncRead → Prop
  | none => True
  | some ⟨.header, _, len⟩ => bytes.length = len →
    0 ≤ lengthWord s.inputBuffer_ bytes ∨
      (s.inputBuffer_.writerIndex_ + 4 : Int) < -lengthWord s.inputBuffer_ bytes
  | some ⟨.body, _, len⟩ => bytes.length = len →
    s.inputBuffer_.contents.length + len ≤ consume ∨
      s.inputBuffer_.writerIndex_ + len + 4 ≤ s.inputBuffer_.buffer_.size

/-- What a step must meet: only the completion of a read can break the bounds. -/
def RoomLeft (s : TcpConnection) : Event → Prop
  | .readDone bytes consume _ => RoomAfter s bytes consume s.reading
  | _ => True

/-- Which room has to be left depends on the read that completes. -/
instance (s : TcpConnection) (bytes : List UInt8) (consume : Nat) :
    ∀ op, Decidable (RoomAfter s bytes consume op)
  | none => .isTrue trivial
  | some ⟨.header, _, _⟩ => inferInstanceAs (Decidable (_ → _ ∨ _))
  | some ⟨.body, _, _⟩ => inferInstanceAs (Decidable (_ → _ ∨ _))

/-- Only a completed read asks for room. -/
instance (s : TcpConnection) : ∀ e, Decidable (RoomLeft s e)
  | .readDone bytes consume _ => inferInstanceAs (Decidable (RoomAfter s bytes consume s.reading))
  | .connectEstablished _ | .connectDestroyed _ | .shutdown _ | .forceClose | .send _ _
  | .runTask _ _ _ | .readError _ _ | .transmit _ _ | .writeDone _ | .writeError _ =>
    .isTrue trivial

/-- The invariant of the input side. `fresh` is there for `connectEstablished`, which starts
    the first read. -/
structure InputInv (s : TcpConnection) : Prop where
  input : s.inputBuffer_.Ok
  cheap : Buffer.kCheapPrepend ≤ s.inputBuffer_.readerIndex_
  size : Buffer.kCheapPrepend + Buffer.kInitialSize ≤ s.inputBuffer_.buffer_.size
  output : s.outputBuffer_.Ok
  fits : ∀ op, s.reading = some op → op.pos = s.inputBuffer_.writerIndex_ ∧
    s.inputBuffer_.writerIndex_ + op.len ≤ s.inputBuffer_.buffer_.size ∧
    (op.handler = .header → op.len = 4)
  fresh : s.state_ = .kConnecting →
    s.reading = none ∧ s.inputBuffer_.writerIndex_ = Buffer.kCheapPrepend

/-- The invariant has the property in it. -/
theorem InputInv.inBounds {s : TcpConnection} (h : InputInv s) : InBounds s :=
  ⟨h.input.reader_le, h.input.writer_le, fun op hop => ⟨(h.fits op hop).1, (h.fits op hop).2.1⟩⟩

/-- The input side is as it was. The input buffer itself is never moved by such a step, so a
    range that was good stays good. -/
structure SameInput (s s' : TcpConnection) : Prop where
  input : s'.inputBuffer_ = s.inputBuffer_
  reading : s'.reading = s.reading ∨ s'.reading = none
  connecting : s'.state_ = .kConnecting → s.state_ = .kConnecting
  output : s'.outputBuffer_.Ok

/-- A calm operation is about the sending side, so the input is the same. -/
theorem Calm.sameInput {s s' : TcpConnection} (h : Calm s s') : SameInput s s' where
  input := h.input
  reading := Or.inl h.reading
  connecting := by
    rcases h.state with h1 | ⟨h1, h2⟩
    · rw [h1]; exact id
    · rw [h2]; exact nofun
  output := h.output

/-- Leaving the input alone twice is leaving it alone. -/
theorem SameInput.trans {s s' s'' : TcpConnection} (h : SameInput s s') (h' : SameInput s' s'') :
    SameInput s s'' where
  input := h'.input.trans h.input
  reading := by
    rcases h'.reading with h1 | h1
    · rw [h1]; exact h.reading
    · exact Or.inr h1
  connecting := h.connecting ∘ h'.connecting
  output := h'.output

/-- With the same input the invariant is the same. -/
theorem InputInv.same {s s' : TcpConnection} (h : InputInv s) (hs : SameInput s s') :
    InputInv s' where
  input := hs.input ▸ h.input
  cheap := hs.input ▸ h.cheap
  size := hs.input ▸ h.size
  output := hs.output
  fits := by
    rw [hs.input]
    intro op hop
    rcases hs.reading with hr | hr
    · exact h.fits op (hr ▸ hop)
    · rw [hr] at hop; exact nomatch hop
  fresh := by
    intro hc
    obtain ⟨h1, h2⟩ := h.fresh (hs.connecting hc)
    rw [hs.input]
    exact ⟨by rcases hs.reading with hr | hr <;> simp only [hr, h1], h2⟩

/-- A fault after which the bounds still hold, and which is not `hasWritten`'s. -/
def KeepsBounds (e : Fault × TcpConnection) : Prop :=
  InBounds e.2 ∧ e.1 ≠ .assertFailed .hasWritten

/-- The result keeps the invariant, or fails with the bounds intact. -/
def KeepsInput (r : M) : Prop := Holds InputInv KeepsBounds r

/-- So a calm operation keeps the invariant, faults included. -/
theorem StaysCalm.keeps {s : TcpConnection} {r : M} (h : StaysCalm s r) (hs : InputInv s) :
    KeepsInput r :=
  h.mono (fun _ hc => hs.same hc.sameInput) fun _ hc =>
    ⟨(hs.same hc.1.sameInput).inBounds, hc.2.1⟩

/-- A new connection has an empty buffer and no read. -/
theorem new_inputInv [VectorImpl] (cc mc clc : Bool) : InputInv (new cc mc clc) where
  input := Buffer.new_ok (by decide)
  cheap := Nat.le_refl _
  size := by show _ ≤ (Vec.ofSize _ _).size; rw [Vec.size_ofSize]
  output := Buffer.new_ok (by decide)
  fits := nofun
  fresh := fun _ => ⟨rfl, rfl⟩

/-! ## The receiving side

  What starts a read, and that the range it takes is inside the storage. -/

/-- The state has no part in it, as long as it does not go back to `kConnecting`, where no read is
    allowed. -/
theorem setState_sameInput {s : TcpConnection} (h : InputInv s) {state : StateE}
    (hstate : state ≠ .kConnecting) : SameInput s (s.setState state) :=
  ⟨rfl, Or.inl rfl, fun hc => absurd hc hstate, h.output⟩

/-- **A header read keeps it**, if there is room for four bytes. -/
theorem readHeader_keeps {s : TcpConnection} (h : InputInv s)
    (hroom : s.inputBuffer_.writerIndex_ + 4 ≤ s.inputBuffer_.buffer_.size)
    (hstate : s.state_ ≠ .kConnecting) : InputInv s.readHeader where
  input := h.input
  cheap := h.cheap
  size := h.size
  output := h.output
  fits := by rintro op ⟨⟩; exact ⟨rfl, hroom, fun _ => rfl⟩
  fresh := fun hc => absurd hc hstate

/-- Counting the bytes of a completed read in keeps the invariant. -/
theorem received_inv {s : TcpConnection} (h : InputInv s) {b : Buffer} {bytes : List UInt8}
    (hc : Counted s.inputBuffer_ b bytes) {op : AsyncRead} (hread : s.reading = some op) (n : Nat) :
    InputInv (received s b n) where
  input := hc.ok
  cheap := hc.reader ▸ h.cheap
  size := hc.size ▸ h.size
  output := h.output
  fits := nofun
  fresh := fun hs => by rw [(h.fresh hs).1] at hread; exact nomatch hread

section Steps

variable [VectorImpl] {s : TcpConnection}

/-! ## The handlers that do not read

  They keep the input as it is or end the outstanding read.  Both are `SameInput`. -/

/-- Inside the connection callback only calm calls are made. -/
theorem callConnection_keeps (h : InputInv s) (onConnection : List Act) :
    KeepsInput (s.callConnection onConnection) := by
  rw [callConnection]
  split
  · have hobs : SameInput s (s.observe (.connectionCallback s.state_)) :=
      ⟨rfl, Or.inl rfl, id, h.output⟩
    have h1 := h.same hobs
    exact (acts_calm onConnection h1.output).keeps h1
  · exact .error ⟨h.inBounds, nofun⟩

/-- So the connection callback keeps it, if it is set or not. -/
theorem notifyConnection_keeps (h : InputInv s) (onConnection : List Act) :
    KeepsInput (s.notifyConnection onConnection) := by
  rw [notifyConnection]
  split
  · exact callConnection_keeps h onConnection
  · exact .ok h

/-- The close callback keeps it. -/
theorem notifyClose_keeps (h : InputInv s) (onClose : List Act) :
    KeepsInput (s.notifyClose onClose) := by
  rw [notifyClose]
  split
  · have hobs : SameInput s (s.observe .closeCallback) := ⟨rfl, Or.inl rfl, id, h.output⟩
    have h1 := h.same hobs
    exact (acts_calm onClose h1.output).keeps h1
  · exact .ok h

/-- `handleClose` keeps it, by the two callbacks it makes. -/
theorem handleClose_keeps (h : InputInv s) (onConnection onClose : List Act) :
    KeepsInput (s.handleClose onConnection onClose) := by
  rw [handleClose]
  by_cases hst : s.state_ = .kConnected ∨ s.state_ = .kDisconnecting
  · rw [require_pos _ _ hst, ok_bind]
    have h1 : InputInv (s.setState .kDisconnected) := h.same (setState_sameInput h nofun)
    exact Holds.bind (notifyConnection_keeps h1 onConnection) fun _ hs' =>
      notifyClose_keeps hs' onClose
  · rw [require_neg _ _ hst]
    exact .error ⟨h.inBounds, nofun⟩

/-- The connection callback of a connection that has just been established: the connection is not
    moved back, and its input buffer is still as the constructor left it. -/
theorem notifyConnection_fresh (h : InputInv s) (hconn : s.state_ ≠ .kConnecting)
    (hw : s.inputBuffer_.writerIndex_ = Buffer.kCheapPrepend) (onConnection : List Act) :
    Holds (fun s' => InputInv s' ∧ s'.state_ ≠ .kConnecting ∧
      s'.inputBuffer_.writerIndex_ = Buffer.kCheapPrepend) KeepsBounds
      (s.notifyConnection onConnection) := by
  rw [notifyConnection]
  split
  · rename_i hcb
    rw [callConnection, if_pos hcb]
    have hobs : SameInput s (s.observe (.connectionCallback s.state_)) :=
      ⟨rfl, Or.inl rfl, id, h.output⟩
    have h1 := h.same hobs
    refine (acts_calm onConnection h1.output).mono (fun s' hc => ?_) fun e hc => ?_
    · have hs := hobs.trans hc.sameInput
      exact ⟨h.same hs, hconn ∘ hs.connecting, by rw [hs.input]; exact hw⟩
    · exact ⟨(h1.same hc.1.sameInput).inBounds, hc.2.1⟩
  · exact .ok ⟨h, hconn, hw⟩

/-- The first read has room: the buffer is new and has more than four bytes. -/
theorem connectEstablished_keeps (h : InputInv s) (onConnection : List Act) :
    KeepsInput (s.connectEstablished onConnection) := by
  rw [connectEstablished]
  by_cases hst : s.state_ = .kConnecting
  · rw [require_pos _ _ hst, ok_bind]
    have h1 : InputInv (s.setState .kConnected) := h.same (setState_sameInput h nofun)
    refine Holds.bind (notifyConnection_fresh h1 nofun (h.fresh hst).2 onConnection)
      fun s' hs' => ?_
    have hk : Buffer.kCheapPrepend = 8 := rfl
    have hi : Buffer.kInitialSize = 1024 := rfl
    have hsize := hs'.1.size
    exact .ok (readHeader_keeps hs'.1 (by rw [hs'.2.2]; omega) hs'.2.1)
  · rw [require_neg _ _ hst]
    exact .error ⟨h.inBounds, nofun⟩

/-! ## The completions of reads

  The two lambdas.  Each counts the bytes in and starts the next read; between the two, room is
  made for a body, or the message callback takes bytes out. -/

/-- A header read that completes with a length word `RoomLeft` allows: the next read fits, or the
    handler throws with the buffer as it was. -/
theorem headerDone_keeps (h : InputInv s) {op : AsyncRead} {bytes : List UInt8}
    (hread : s.reading = some op) (hhandler : op.handler = .header) (hlen : bytes.length = op.len)
    (hguard : 0 ≤ lengthWord s.inputBuffer_ bytes ∨
      (s.inputBuffer_.writerIndex_ + 4 : Int) < -lengthWord s.inputBuffer_ bytes)
    (messageCallback : MessageCallback) : KeepsInput (s.readDone messageCallback bytes) := by
  obtain ⟨hpos, hroom, hfour⟩ := h.fits op hread
  -- the four bytes are counted, and read as a length
  obtain ⟨b, hc, hr⟩ :=
    readDone_header hread hhandler h.input hpos hroom (hfour hhandler) hlen messageCallback
  have hinv := received_inv h hc hread 4
  have hrange := lengthWord_range s.inputBuffer_ bytes
  generalize lengthWord s.inputBuffer_ bytes = word at *
  have hbytes : bytes.length = 4 := hlen.trans (hfour hhandler)
  have hthrow : KeepsInput (.error (.lengthError, received s b 4)) := .error ⟨hinv.inBounds, nofun⟩
  rw [hr]
  by_cases hneg : 0 ≤ word
  · -- a length that is not negative stays what it is
    obtain ⟨n, rfl⟩ := Int.eq_ofNat_of_zero_le hneg
    rw [toUnsigned_natCast (by omega)]
    rcases Buffer.ensureWritableBytes_cases hc.ok (show n < 2 ^ 63 by omega) with
      ⟨b', hb', hm⟩ | ⟨he, -⟩
    · obtain ⟨hok, hfits⟩ := hm.room hc.ok
      rw [hb', within_ok, ok_bind]
      exact .ok {
        input := hok
        cheap := hm.cheap_le hinv.cheap
        size := Nat.le_trans hinv.size hm.size_le
        output := h.output
        fits := by rintro op' ⟨⟩; exact ⟨rfl, hfits, nofun⟩
        fresh := fun hs => by rw [(h.fresh hs).1] at hread; exact nomatch hread }
    · rw [he]
      exact hthrow
  · -- a negative one that reaches back past the write end makes `resize` throw
    have hw := hc.writer
    have hcheap := h.cheap
    have hle := h.input.reader_le
    have hword : ∃ k : Nat, word = -k ∧ toUnsigned 64 word + k = 2 ^ 64 :=
      ⟨(-word).toNat, by omega, by rw [toUnsigned]; omega⟩
    obtain ⟨k, hk, hsum⟩ := hword
    rw [Buffer.ensureWritableBytes_of_negative hc.ok hsum (by omega) (by omega) (by omega)]
    exact hthrow

/-- A body read that completes under `RoomLeft`: four bytes of room are left for the next header. -/
theorem bodyDone_keeps (h : InputInv s) {op : AsyncRead} {bytes : List UInt8}
    (hread : s.reading = some op) (hhandler : op.handler = .body) (hlen : bytes.length = op.len)
    (consume : Nat) (as : List Act)
    (hguard : s.inputBuffer_.contents.length + op.len ≤ consume ∨
      s.inputBuffer_.writerIndex_ + op.len + 4 ≤ s.inputBuffer_.buffer_.size) :
    KeepsInput (s.readDone (retrieving consume as) bytes) := by
  obtain ⟨hpos, hroom, -⟩ := h.fits op hread
  obtain ⟨b, hc, hr⟩ := readDone_body hread hhandler h.input hpos hroom hlen (retrieving consume as)
  have hinv := received_inv h hc hread op.len
  have hstate : s.state_ ≠ .kConnecting := fun hs => by
    rw [(h.fresh hs).1] at hread; exact nomatch hread
  rw [hr]
  by_cases hcb : s.messageCallback_
  · obtain ⟨b', hb', hok, -, hbuf, hsome, hall⟩ := retrieving_spec hc.ok consume as
    have hw := hc.writer
    have hk : Buffer.kCheapPrepend = 8 := rfl
    have hi : Buffer.kInitialSize = 1024 := rfl
    have hsize := hinv.size
    have hsize' : b'.buffer_.size = s.inputBuffer_.buffer_.size := by rw [hbuf, hc.size]
    have hcont : b.contents.length = s.inputBuffer_.contents.length + op.len := by
      rw [hc.contents, List.length_append, hlen]
    have hcheap : Buffer.kCheapPrepend ≤ b'.readerIndex_ := by
      rcases Nat.lt_or_ge consume b.contents.length with hlt | hge
      · rw [(hsome hlt).1]; exact Nat.le_trans hinv.cheap (Nat.le_add_right _ _)
      · rw [(hall hge).1]
    -- either the indices went back to the start, or the body ended early enough
    have hnext : b'.writerIndex_ + 4 ≤ b'.buffer_.size := by
      rw [hsize']
      have h1032 : 1032 ≤ s.inputBuffer_.buffer_.size := hc.size ▸ hsize
      rcases Nat.lt_or_ge consume b.contents.length with hlt | hge
      · rcases hguard with hg | hg
        · omega
        · rw [(hsome hlt).2]; omega
      · rw [(hall hge).2]; omega
    simp only [if_pos hcb, hb', within_ok, ok_bind]
    have hmid : InputInv
        (((received s b op.len).observe (.messageCallback s.state_)).setInput b') :=
      { input := hok, cheap := hcheap, size := by rw [← hc.size] at hsize'; exact hsize' ▸ hsize
        output := h.output, fits := nofun, fresh := fun hs => absurd hs hstate }
    have hcalm := acts_calm as
      (s := (((received s b op.len).observe (.messageCallback s.state_)).setInput b')) h.output
    refine Holds.bind (hcalm.mono (fun s' hs' => hs') fun e he =>
      ⟨(hmid.same he.1.sameInput).inBounds, he.2.1⟩) fun s' hs' => ?_
    refine .ok (readHeader_keeps (hmid.same hs'.sameInput) ?_ ?_)
    · rw [hs'.input]; exact hnext
    · exact fun hs => hstate (hs'.sameInput.connecting hs)
  · simp only [if_neg hcb]
    exact .error ⟨hinv.inBounds, nofun⟩

/-! ## Every run

  One case for each event, and the induction. -/

/-- One event under `RoomLeft`. -/
theorem step_keeps (h : InputInv s) (e : Event) (hguard : RoomLeft s e) :
    KeepsInput (s.step e) := by
  -- by cases of the event; all but the reads leave the input alone
  cases e with
  | connectEstablished onConnection => exact connectEstablished_keeps h onConnection
  | connectDestroyed onConnection =>
    show KeepsInput (s.connectDestroyed onConnection)
    rw [connectDestroyed]
    have h1 : InputInv (s.setState .kDisconnected) := h.same (setState_sameInput h nofun)
    split
    · exact callConnection_keeps h1 onConnection
    · exact .ok h
  | shutdown inLoop => exact .ok (h.same (shutdown_calm h.output inLoop).sameInput)
  | forceClose => exact .ok (h.same (forceClose_calm h.output).sameInput)
  | send inLoop message => exact (send_calm h.output inLoop message).keeps h
  | runTask i onConnection onClose =>
    show KeepsInput (s.runTask i onConnection onClose)
    rw [runTask]
    split
    · exact .ok h
    rename_i task _
    have h1 : InputInv { s with tasks := s.tasks.eraseIdx i } :=
      h.same ⟨rfl, Or.inl rfl, id, h.output⟩
    -- what the posted handler does
    cases task with
    | sendInThisThread str => exact (sendInThisThread_calm h1.output str).keeps h1
    | shutdownInThisThread => exact .ok (h1.same (shutdownInThisThread_calm h1.output).sameInput)
    | forceCloseInThisThread =>
      show KeepsInput (forceCloseInThisThread _ _ _)
      rw [forceCloseInThisThread]
      split
      · exact handleClose_keeps h1 onConnection onClose
      · exact .ok h1
  | readDone bytes consume onMessage =>
    show KeepsInput (s.readDone _ bytes)
    cases hread : s.reading with
    | none =>
      rw [readDone, hread]
      exact .ok h
    | some op =>
      -- a completion with another number of bytes is no completion
      by_cases hlen : bytes.length = op.len
      · have hg : RoomAfter s bytes consume (some op) := hread ▸ hguard
        obtain ⟨handler, pos, len⟩ := op
        cases handler with
        | header => exact headerDone_keeps h hread rfl hlen (hg hlen) _
        | body => exact bodyDone_keeps h hread rfl hlen consume onMessage (hg hlen)
      · rw [readDone, hread]
        simp only [if_neg hlen]
        exact .ok h
  | readError onConnection onClose =>
    show KeepsInput (s.readError onConnection onClose)
    rw [readError]
    split
    · exact .ok h
    · have h1 : InputInv { s with reading := none } := h.same ⟨rfl, Or.inr rfl, id, h.output⟩
      exact handleClose_keeps h1 onConnection onClose
  | transmit i n => exact (transmit_calm h.output i n).keeps h
  | writeDone i => exact (writeDone_calm h.output i).keeps h
  | writeError i => exact .ok (h.same (writeError_calm h.output i).sameInput)

/-- **Inbound memory bounds.**  In every run whose steps respect `RoomLeft`, every read is given a
    range inside the storage, the indices stay in order, and `hasWritten` never fails, up to and
    including the step that ends the run. -/
theorem inbound_bounds (cc mc clc : Bool) (es : List Event)
    (h : Guarded step RoomLeft (new cc mc clc) es) :
    Holds InBounds KeepsBounds (run step (new cc mc clc) es) :=
  (run_holds (fun _ e hs hg => step_keeps hs e hg) es _ (new_inputInv cc mc clc) h).mono
    (fun _ hs => hs.inBounds) fun _ he => he

end Steps

section Examples

attribute [local instance] VectorImpl.exact

/-- Two frames, the second retrieved only in part. -/
def twoFrames : List Event :=
  [.connectEstablished [], .readDone [0, 0, 0, 3] 0 [], .readDone [1, 2, 3] 7 [],
    .readDone [0, 0, 0, 0] 0 [], .readDone [] 2 []]

/-- The condition can be met: two frames that are consumed as they arrive. -/
theorem inbound_bounds_twoFrames : Guarded step RoomLeft (new true true true) twoFrames ∧
    Holds InBounds KeepsBounds (run step (new true true true) twoFrames) := by
  have hguard : Guarded step RoomLeft (new true true true) twoFrames := by decide +kernel
  have hbounds := inbound_bounds true true true twoFrames hguard
  exact And.intro hguard hbounds

/-- One frame with a body of 1020 bytes, of which the message callback retrieves nothing, as the
    one in main.cpp: it fills the storage. -/
def fullStorage : List Event :=
  [.connectEstablished [], .readDone [0, 0, 3, 252] 0 [], .readDone (List.replicate 1020 0) 0 []]

/-- **The bounds fail** there: the next header is read behind the end of the storage. -/
theorem header_read_past_storage :
    ¬ Holds InBounds KeepsBounds (run step (new true true true) fullStorage) := by
  have hend : ((run step (new true true true) fullStorage).toOption.map fun s =>
        (s.reading, s.inputBuffer_.writerIndex_, s.inputBuffer_.buffer_.size)) =
      some (some ⟨.header, 1032, 4⟩, 1032, 1032) := by decide +kernel
  generalize run step (new true true true) fullStorage = r at hend ⊢
  intro h
  cases r with
  | error e => exact nomatch hend
  | ok s =>
    have heq := Option.some.inj hend
    rw [Prod.mk.injEq, Prod.mk.injEq] at heq
    obtain ⟨hread, hw, hsize⟩ := heq
    have hfits : s.inputBuffer_.writerIndex_ + 4 ≤ s.inputBuffer_.buffer_.size :=
      ((holds_ok.mp h).fits _ hread).2
    omega

end Examples

end TcpConnection

end IOEvent
