/-
  `Buffer` refines a queue of bytes.

  The abstract component is `ByteQueue`: a sequence of bytes, the bytes stored behind its end that
  are not counted in yet (between a write to `beginWrite()` and `hasWritten`), and the space granted
  by the last call.  `ByteQueue.perform` says what each operation is FOR.

  A pool holds any number of buffers, so that `swap` has two to exchange.  The pool of buffers and
  the pool of queues take the same operations side by side, and `buffers_refine_queues` says that
  after every run whose preconditions hold the buffers represent the queues, the strings returned
  are the same, and nothing has failed.  The one exception is `vector::resize`, which throws on an
  implementation whose `max_size()` is below `2 ^ 34`.

  The parts of the proof:
    1. one specification for each operation, on a buffer that is `Ok` (the ones of `Buffer`, and
       below those of `retrieveAsString`, `unwrite`, `shrink` and the write itself);
    2. `Represents` is kept by each operation (`perform_represents`);
    3. it is kept by the step of the pool, and so by every run.
-/
import IOEvent.Buffer
import Mathlib.Logic.Function.Basic

open Foundation

namespace IOEvent

/-! ## The abstract queue

  This part is not translated from the class: it says what a user of the class is to think of,
  and the rest of the file that the class allows it. -/

/-- What a buffer is for: a queue of bytes, with those that were stored behind its end and not yet
    counted in, and the space that was granted for them. -/
structure ByteQueue where
  bytes : List UInt8
  /-- Stored behind the end, and not counted in yet. -/
  stored : List UInt8
  /-- The space the last operation has granted. -/
  granted : Nat
  deriving DecidableEq

/-- An operation on one buffer.  `retrieveUntil n` is given the pointer `peek() + n`, and `write`
    stores bytes at `beginWrite()`. -/
inductive BufferOp
  | retrieve (len : Nat)
  | retrieveUntil (len : Nat)
  | retrieveAll
  | retrieveAsString (len : Nat)
  | retrieveAllAsString
  | append (data : List UInt8)
  | ensureWritableBytes (len : Nat)
  | write (data : List UInt8)
  | hasWritten (len : Nat)
  | unwrite (len : Nat)
  | prepend (data : List UInt8)
  | shrink (reserve : Nat)
  deriving DecidableEq

namespace ByteQueue

/-- The empty queue. -/
def empty : ByteQueue := ⟨[], [], 0⟩

/-- What an operation does to the queue. `write` and `hasWritten` are the two that know of the
    bytes stored behind the end; after any other one these no longer count, and no more space
    is granted than the operation itself has made. -/
def perform (q : ByteQueue) : BufferOp → ByteQueue
  | .retrieve len => ⟨q.bytes.drop len, [], 0⟩
  | .retrieveUntil len => ⟨q.bytes.drop len, [], 0⟩
  | .retrieveAll => ⟨[], [], 0⟩
  | .retrieveAsString len => ⟨q.bytes.drop len, [], 0⟩
  | .retrieveAllAsString => ⟨[], [], 0⟩
  | .append data => ⟨q.bytes ++ data, [], 0⟩
  | .ensureWritableBytes len => ⟨q.bytes, [], len⟩
  | .write data => ⟨q.bytes, data ++ q.stored.drop data.length, 0⟩
  | .hasWritten len => ⟨q.bytes ++ q.stored.take len, q.stored.drop len, 0⟩
  | .unwrite len => ⟨q.bytes.take (q.bytes.length - len), [], 0⟩
  | .prepend data => ⟨data ++ q.bytes, [], 0⟩
  | .shrink reserve => ⟨q.bytes, [], reserve⟩

/-- The string it returns. -/
def string (q : ByteQueue) : BufferOp → Option (List UInt8)
  | .retrieveAsString len => some (q.bytes.take len)
  | .retrieveAllAsString => some q.bytes
  | _ => none

end ByteQueue

/-! ## The operations of the class

  One specification each, on a buffer that is `Ok`: the operation has a value, and its
  contents are those of the queue after the same operation. -/

namespace Buffer

variable {b : Buffer} {len : Nat}

/-- The assertions of the constructor. -/
structure Constructed (b : Buffer) (initialSize : Nat) : Prop where
  readable : b.readableBytes = 0
  writable : b.writableBytes = initialSize
  prependable : b.prependableBytes = kCheapPrepend

/-- `retrieveAll` leaves a buffer in order. -/
theorem retrieveAll_ok (h : b.Ok) : b.retrieveAll.Ok :=
  ⟨Nat.le_refl _, h.cheap_le, h.cheap_le, h.size_lt⟩

/-- Behind `retrieveAll` the buffer is empty. -/
@[simp] theorem contents_retrieveAll : b.retrieveAll.contents = [] := by
  rw [contents, retrieveAll, Nat.sub_self, segment_zero]

/-- What is left when the last bytes of the queue are taken back. -/
theorem unwrite_spec (h : b.Ok) (hlen : len ≤ b.contents.length) :
    ∃ b', b.unwrite len = .ok b' ∧ b'.Ok ∧ b'.buffer_ = b.buffer_ ∧
      b'.contents = b.contents.take (b.contents.length - len) := by
  have hr := h.reader_le
  have hw := h.writer_le
  have hl := h.contents_length
  have hread := h.readableBytes_eq_length
  have hsub : subSize b.writerIndex_ len = b.writerIndex_ - len := subSize_of_le (by omega)
  rw [unwrite, require_pos _ _ (by omega), ok_bind, hsub]
  refine ⟨_, rfl, ⟨?_, ?_, h.cheap_le, h.size_lt⟩, rfl, ?_⟩
  · show b.readerIndex_ ≤ b.writerIndex_ - len
    omega
  · show b.writerIndex_ - len ≤ b.buffer_.size
    omega
  · have hcount : b.writerIndex_ - len - b.readerIndex_ = b.contents.length - len := by omega
    show segment b.buffer_.elems b.readerIndex_ (b.writerIndex_ - len - b.readerIndex_) = _
    rw [hcount, ← take_segment _ _ (show b.contents.length - len ≤
      b.writerIndex_ - b.readerIndex_ by
      omega), ← contents]

/-- `retrieveAsString` returns the prefix that it drops. -/
theorem retrieveAsString_spec (h : b.Ok) (hlen : len ≤ b.contents.length) :
    ∃ b', b.retrieveAsString len = .ok (b.contents.take len, b') ∧ b'.Ok ∧
      b'.contents = b.contents.drop len ∧ b'.buffer_ = b.buffer_ := by
  have hread := h.readableBytes_eq_length
  obtain ⟨b', hb', hok, hcontents, hbuffer, -, -⟩ := retrieve_spec h hlen
  have hbytes := bytesAt_spec h (i := 0) (show 0 + len ≤ b.contents.length by omega)
  rw [Nat.add_zero, List.drop_zero] at hbytes
  rw [retrieveAsString, require_pos _ _ (by omega), ok_bind, hbytes, ok_bind, hb', ok_bind]
  exact ⟨b', rfl, hok, hcontents, hbuffer⟩

/-- `retrieveAllAsString` returns the contents. -/
theorem retrieveAllAsString_spec (h : b.Ok) :
    ∃ b', b.retrieveAllAsString = .ok (b.contents, b') ∧ b'.Ok ∧ b'.contents = [] := by
  obtain ⟨b', hb', hok, hcontents, -⟩ := retrieveAsString_spec h (Nat.le_refl b.contents.length)
  rw [List.take_length] at hb'
  rw [List.drop_length] at hcontents
  refine ⟨b', ?_, hok, hcontents⟩
  rw [retrieveAllAsString, h.readableBytes_eq_length, hb']

/-! ## The buffer tracks the queue

  The invariant for one buffer, with the operations one by one.  What was granted and what is
  stored are places behind `writerIndex_`, so for each operation it has to be said what happens
  there. -/

/-- The buffer holds the queue. Of the storage it says only where the bytes of the queue are,
    and that what was granted is there. -/
structure Represents (b : Buffer) (q : ByteQueue) : Prop where
  ok : b.Ok
  contents_eq : b.contents = q.bytes
  stored_le : b.writerIndex_ + q.stored.length ≤ b.buffer_.size
  stored_eq : segment b.buffer_.elems b.writerIndex_ q.stored.length = q.stored
  granted_le : q.granted ≤ b.writableBytes

/-- It does, and the sizes are small. It is this that is kept by every operation, as the sums
    of the code wrap for larger sizes. -/
structure Tracks (b : Buffer) (q : ByteQueue) : Prop extends Represents b q where
  length_lt : q.bytes.length + q.stored.length < 2 ^ 31
  size_lt : b.buffer_.size < 2 ^ 33

/-- With nothing stored behind the end. -/
theorem Tracks.plain {bytes : List UInt8} {granted : Nat} (hok : b.Ok)
    (hcontents : b.contents = bytes) (hgranted : b.writerIndex_ + granted ≤ b.buffer_.size)
    (hlen : bytes.length < 2 ^ 31) (hsize : b.buffer_.size < 2 ^ 33) :
    Tracks b ⟨bytes, [], granted⟩ where
  ok := hok
  contents_eq := hcontents
  stored_le := hok.writer_le
  stored_eq := segment_zero _ _
  granted_le := by
    show granted ≤ b.writableBytes
    rw [hok.writableBytes_eq]
    omega
  length_lt := hlen
  size_lt := hsize

namespace Tracks

variable {q : ByteQueue}

/-- The number of readable bytes is the length of the queue. -/
theorem readable (h : Tracks b q) : b.readableBytes = q.bytes.length := by
  rw [h.ok.readableBytes_eq_length, h.contents_eq]

/-- `retrieve` takes bytes from the front of the queue. -/
theorem retrieve (h : Tracks b q) (hlen : len ≤ b.readableBytes) :
    ∃ b', b.retrieve len = .ok b' ∧ Tracks b' ⟨q.bytes.drop len, [], 0⟩ := by
  have hl := h.length_lt
  rw [h.ok.readableBytes_eq_length] at hlen
  obtain ⟨b', hb', hok, hcontents, hbuffer, -, -⟩ := retrieve_spec h.ok hlen
  refine ⟨b', hb', plain hok ?_ ?_ ?_ ?_⟩
  · rw [hcontents, h.contents_eq]
  · exact hok.writer_le
  · rw [List.length_drop]
    omega
  · rw [hbuffer]
    exact h.size_lt

/-- So does `retrieveAsString`, and returns them. -/
theorem retrieveAsString (h : Tracks b q) (hlen : len ≤ b.readableBytes) :
    ∃ b', b.retrieveAsString len = .ok (q.bytes.take len, b') ∧
      Tracks b' ⟨q.bytes.drop len, [], 0⟩ := by
  have hl := h.length_lt
  rw [h.ok.readableBytes_eq_length] at hlen
  obtain ⟨b', hb', hok, hcontents, hbuffer⟩ := retrieveAsString_spec h.ok hlen
  rw [h.contents_eq] at hb' hcontents
  refine ⟨b', hb', plain hok hcontents ?_ ?_ ?_⟩
  · exact hok.writer_le
  · rw [List.length_drop]
    omega
  · rw [hbuffer]
    exact h.size_lt

/-- Bytes stored behind the end do not touch the queue; what was stored behind them stays. -/
theorem write (h : Tracks b q) {data : List UInt8} (hroom : data.length ≤ b.writableBytes)
    (hlen : b.readableBytes + data.length < 2 ^ 31) :
    ∃ b', b.copyTo b.writerIndex_ data = .ok b' ∧
      Tracks b' ⟨q.bytes, data ++ q.stored.drop data.length, 0⟩ := by
  have hw := h.ok.writer_le
  have hr := h.ok.reader_le
  have hl := h.length_lt
  have hstored := h.stored_le
  rw [h.ok.writableBytes_eq] at hroom
  rw [h.readable] at hlen
  have hfit : b.writerIndex_ + data.length ≤ b.buffer_.size := by omega
  obtain ⟨v, hv, helems, hsize, -, -, hok, -, -⟩ := stored_spec h.ok hfit
  have hcount : (data ++ q.stored.drop data.length).length =
      data.length + (q.stored.length - data.length) := by
    rw [List.length_append, List.length_drop]
  refine ⟨{ b with buffer_ := v }, by rw [copyTo, hv], ⟨hok, ?_, ?_, ?_, Nat.zero_le _⟩, ?_, ?_⟩
  · show segment v.elems b.readerIndex_ (b.writerIndex_ - b.readerIndex_) = q.bytes
    rw [helems, segment_overwrite_of_disjoint hfit (Or.inl (by omega)), ← contents, h.contents_eq]
  · show b.writerIndex_ + (data ++ q.stored.drop data.length).length ≤ v.size
    omega
  · show segment v.elems b.writerIndex_ (data ++ q.stored.drop data.length).length = _
    rw [hcount, segment_add, helems, segment_overwrite_self hfit,
      segment_overwrite_of_disjoint hfit (Or.inr (Nat.le_refl _)), ← drop_segment, h.stored_eq]
  · show q.bytes.length + (data ++ q.stored.drop data.length).length < 2 ^ 31
    omega
  · exact hsize.trans_lt h.size_lt

/-- The bytes stored behind the end are counted in. -/
theorem hasWritten (h : Tracks b q) (hlen : len ≤ q.stored.length) :
    ∃ b', b.hasWritten len = .ok b' ∧
      Tracks b' ⟨q.bytes ++ q.stored.take len, q.stored.drop len, 0⟩ := by
  have hw := h.ok.writer_le
  have hr := h.ok.reader_le
  have hl := h.length_lt
  have hstored := h.stored_le
  refine ⟨_, hasWritten_spec h.ok (by omega), ⟨⟨?_, ?_, h.ok.cheap_le, h.ok.size_lt⟩, ?_, ?_, ?_,
    Nat.zero_le _⟩, ?_, h.size_lt⟩
  · show b.readerIndex_ ≤ b.writerIndex_ + len
    omega
  · show b.writerIndex_ + len ≤ b.buffer_.size
    omega
  · have hcount : b.writerIndex_ + len - b.readerIndex_ =
        b.writerIndex_ - b.readerIndex_ + len := by
      omega
    have hpos : b.readerIndex_ + (b.writerIndex_ - b.readerIndex_) = b.writerIndex_ := by omega
    show segment b.buffer_.elems b.readerIndex_ (b.writerIndex_ + len - b.readerIndex_) = _
    rw [hcount, segment_add, hpos, ← contents, h.contents_eq, ← take_segment _ _ hlen, h.stored_eq]
  · show b.writerIndex_ + len + (q.stored.drop len).length ≤ b.buffer_.size
    rw [List.length_drop]
    omega
  · show segment b.buffer_.elems (b.writerIndex_ + len) (q.stored.drop len).length =
        q.stored.drop len
    rw [List.length_drop, ← drop_segment, h.stored_eq]
  · show (q.bytes ++ q.stored.take len).length + (q.stored.drop len).length < 2 ^ 31
    rw [List.length_append, List.length_take, List.length_drop]
    omega

/-- So does `retrieveUntil`, up to a pointer. -/
theorem retrieveUntil (h : Tracks b q) (hlen : len ≤ b.readableBytes) :
    ∃ b', b.retrieveUntil (addSize b.readerIndex_ len) = .ok b' ∧
      Tracks b' ⟨q.bytes.drop len, [], 0⟩ := by
  have hr := h.ok.reader_le
  have hw := h.ok.writer_le
  have hs := h.ok.size_lt
  have hread := h.ok.readableBytes_eq
  have hend : addSize b.readerIndex_ len = b.readerIndex_ + len := addSize_of_lt (by omega)
  have hlen' : subSize (b.readerIndex_ + len) b.readerIndex_ = len := by
    rw [subSize_of_le (by omega)]
    omega
  rw [Buffer.retrieveUntil]
  rw [hend, require_pos _ _ (by omega), ok_bind, require_pos _ _ (by omega), ok_bind, hlen']
  exact h.retrieve hlen

/-- `unwrite` takes bytes from its end. -/
theorem unwrite (h : Tracks b q) (hlen : len ≤ b.readableBytes) :
    ∃ b', b.unwrite len = .ok b' ∧
      Tracks b' ⟨q.bytes.take (q.bytes.length - len), [], 0⟩ := by
  have hl := h.length_lt
  rw [h.ok.readableBytes_eq_length] at hlen
  obtain ⟨b', hb', hok, hbuffer, hcontents⟩ := unwrite_spec h.ok hlen
  refine ⟨b', hb', plain hok ?_ hok.writer_le ?_ ?_⟩
  · rw [hcontents, h.contents_eq]
  · rw [List.length_take]
    omega
  · rw [hbuffer]
    exact h.size_lt

/-- `prepend` puts bytes in front of it. -/
theorem prepend (h : Tracks b q) {data : List UInt8} (hroom : data.length ≤ b.prependableBytes)
    (hlen : b.readableBytes + data.length < 2 ^ 31) :
    ∃ b', b.prepend data = .ok b' ∧ Tracks b' ⟨data ++ q.bytes, [], 0⟩ := by
  rw [h.readable] at hlen
  obtain ⟨b', hb', hok, hcontents, hsize⟩ := prepend_spec h.ok data hroom
  refine ⟨b', hb', plain hok ?_ hok.writer_le ?_ ?_⟩
  · rw [hcontents, h.contents_eq]
  · rw [List.length_append]
    omega
  · exact hsize.trans_lt h.size_lt

end Tracks

/-- The precondition of an operation, with all sizes below `2 ^ 31`: what its assertions ask
    for, and that the lengths which the code keeps in an `int` fit. -/
def Pre (b : Buffer) (q : ByteQueue) : BufferOp → Prop
  | .retrieve len => len ≤ b.readableBytes
  | .retrieveUntil len => len ≤ b.readableBytes
  | .retrieveAll => True
  | .retrieveAsString len => len ≤ b.readableBytes
  | .retrieveAllAsString => True
  | .append data => b.readableBytes + data.length < 2 ^ 31
  | .ensureWritableBytes len => b.readableBytes + len < 2 ^ 31
  | .write data => data.length ≤ b.writableBytes ∧ b.readableBytes + data.length < 2 ^ 31
  | .hasWritten len => len ≤ b.writableBytes ∧ len ≤ q.stored.length
  | .unwrite len => len ≤ b.readableBytes
  | .prepend data => data.length ≤ b.prependableBytes ∧ b.readableBytes + data.length < 2 ^ 31
  | .shrink reserve => b.readableBytes + reserve < 2 ^ 31

/-- Whether the preconditions of an operation are met can be computed. -/
instance (b : Buffer) (q : ByteQueue) (op : BufferOp) : Decidable (Pre b q op) := by
  unfold Pre
  split <;> infer_instance

section Space

variable [VectorImpl]

/-- What the constructor makes. -/
theorem new_constructed (initialSize : Nat) :
    (new initialSize).Constructed initialSize where
  readable := subSize_of_le (Nat.le_refl _)
  writable := by
    have hsize : (new initialSize).buffer_.size = kCheapPrepend + initialSize := Vec.size_ofSize _ _
    show subSize (new initialSize).buffer_.size kCheapPrepend = initialSize
    rw [hsize, subSize_of_le (Nat.le_add_right _ _), Nat.add_sub_cancel_left]
  prependable := rfl

/-- The size after making space: nothing more than what was asked for. -/
theorem MadeSpace.size_lt {b' : Buffer} (h : b.Ok) (hm : MadeSpace b len b') {n : Nat}
    (hsize : b.buffer_.size < n) (hn : b.contents.length + 2 * len + kCheapPrepend ≤ n) :
    b'.buffer_.size < n := by
  have hw := h.writer_le
  have hr := h.reader_le
  have hl := h.contents_length
  cases hm with
  | enough => exact hsize
  | grown v _ hgrow _ _ hv _ =>
    show v.size < n
    omega
  | moved v _ _ _ hv _ =>
    show v.size < n
    omega

/-- The buffer made by `shrink`: it holds the queue, and has the room asked for. -/
theorem shrink_cases (h : b.Ok) {reserve : Nat} (hlen : b.contents.length + reserve < 2 ^ 31) :
    (∃ b', b.shrink reserve = .ok b' ∧ b'.Ok ∧ b'.contents = b.contents ∧
        b'.writerIndex_ + reserve ≤ b'.buffer_.size ∧ b'.buffer_.size < 2 ^ 33) ∨
      (b.shrink reserve = .error (.lengthError, b) ∧ VectorImpl.maxSize < 2 ^ 34) := by
  have hk : kCheapPrepend = 8 := rfl
  have hread := h.readableBytes_eq_length
  have hother : (new kInitialSize).Ok := new_ok (by decide)
  -- neither the sum nor the conversions of `shrink` change the length
  have hsum : addSize b.readableBytes reserve = b.contents.length + reserve := by
    rw [hread, addSize_of_lt (by omega)]
  have hpiece : toUnsigned 64 b.toStringPiece.2 = b.contents.length := by
    show toUnsigned 64 (toSigned 32 b.readableBytes) = _
    rw [hread, toSigned_of_lt (by decide) (by omega), toUnsigned_natCast (by omega)]
  rcases ensureWritableBytes_cases hother (show b.contents.length + reserve < 2 ^ 63 by omega) with
    ⟨other, he, hm⟩ | ⟨he, hmax⟩
  · -- the other buffer has the room, so its `append` only copies
    obtain ⟨hok, hroom⟩ := hm.room hother
    have hempty : other.contents = [] := by rw [hm.contents_eq hother, contents_new]
    have hfit : other.writerIndex_ + b.contents.length ≤ other.buffer_.size := by omega
    have hbytes := bytesAt_spec h (i := 0) (show 0 + b.contents.length ≤ b.contents.length by omega)
    rw [Nat.add_zero, List.drop_zero, List.take_length] at hbytes
    obtain ⟨v, hv, -, hsize, -, -, hok₁, hok', hcontents⟩ := stored_spec hok hfit
    refine Or.inl ⟨{ other with
      buffer_ := v
      writerIndex_ := other.writerIndex_ + b.contents.length }, ?_, hok', ?_, ?_, ?_⟩
    · have hfit' : other.writerIndex_ + b.contents.length ≤ v.size := hsize.symm ▸ hfit
      rw [shrink]
      dsimp only
      rw [hsum, he, within_ok, ok_bind, hpiece, ensureWritableBytes_of_le hok hfit, within_ok,
        ok_bind]
      show (b.bytesAt b.readerIndex_ b.contents.length >>= _) = _
      rw [hbytes, ok_bind, copyTo, hv, within_ok, ok_bind, hasWritten_spec hok₁ hfit', within_ok,
        ok_bind]
      rfl
    · rw [hcontents, hempty, List.nil_append]
    · show other.writerIndex_ + b.contents.length + reserve ≤ v.size
      omega
    · have hlt := hm.size_lt hother (n := 2 ^ 33)
        (by rw [new, Vec.size_ofSize]; decide)
        (by rw [contents_new, List.length_nil]; omega)
      show v.size < 2 ^ 33
      omega
  · -- the other buffer could not be made
    refine Or.inr ⟨?_, ?_⟩
    · rw [shrink]
      dsimp only
      rw [hsum, he, within_error, error_bind]
    · have hwriter : (new kInitialSize).writerIndex_ = 8 := rfl
      omega

/-! ## One operation

  The facts above, put together by cases of the operation. -/

/-- The operation, with the string it returns. -/
def perform (b : Buffer) : BufferOp → Outcome Fault Buffer (Option (List UInt8) × Buffer)
  | .retrieve len => return (none, ← b.retrieve len)
  | .retrieveUntil len => return (none, ← b.retrieveUntil (addSize b.readerIndex_ len))
  | .retrieveAll => return (none, b.retrieveAll)
  | .retrieveAsString len => do
    let (result, b) ← b.retrieveAsString len
    return (some result, b)
  | .retrieveAllAsString => do
    let (result, b) ← b.retrieveAllAsString
    return (some result, b)
  | .append data => return (none, ← b.append data)
  | .ensureWritableBytes len => return (none, ← b.ensureWritableBytes len)
  | .write data => return (none, ← b.copyTo b.writerIndex_ data)
  | .hasWritten len => return (none, ← b.hasWritten len)
  | .unwrite len => return (none, ← b.unwrite len)
  | .prepend data => return (none, ← b.prepend data)
  | .shrink reserve => return (none, ← b.shrink reserve)

/-- What an operation leaves of a buffer that tracks `q`: a buffer that tracks `q'`, and the string
    that the queue returns. -/
def Leaves (q' : ByteQueue) (string : Option (List UInt8)) :
    Outcome Fault Buffer (Option (List UInt8) × Buffer) → Prop :=
  Holds (fun r => r.1 = string ∧ Tracks r.2 q')
    (fun e => e.1 = .lengthError ∧ VectorImpl.maxSize < 2 ^ 34)

namespace Tracks

variable {q : ByteQueue}

/-- It tracks the empty queue. -/
theorem new {initialSize : Nat} (h : initialSize < 2 ^ 31) :
    Tracks (new initialSize) ByteQueue.empty := by
  have hk : kCheapPrepend = 8 := rfl
  have hsize : (Buffer.new initialSize).buffer_.size = kCheapPrepend + initialSize :=
    Vec.size_ofSize _ _
  apply Tracks.plain
  · apply new_ok
    omega
  · exact contents_new initialSize
  · rw [hsize]
    exact Nat.le_add_right _ _
  · exact Nat.two_pow_pos 31
  · omega

/-- `append` puts bytes behind it, or throws where there is no storage for them. -/
theorem append (h : Tracks b q)
    {data : List UInt8} (hlen : b.readableBytes + data.length < 2 ^ 31) :
    Leaves ⟨q.bytes ++ data, [], 0⟩ none (b.perform (.append data)) := by
  have hs := h.size_lt
  have hw := h.ok.writer_le
  rw [h.readable] at hlen
  show Leaves _ _ (b.append data >>= fun b => .ok (none, b))
  rcases append_cases h.ok (show data.length < 2 ^ 63 by omega) with
    ⟨b₁, v, hm, -, hsize, -, happ, hok, hcontents⟩ | ⟨hthrow, hmax⟩
  · rw [happ, ok_bind]
    have hlt := hm.size_lt h.ok hs (by rw [h.contents_eq, kCheapPrepend]; omega)
    refine .ok ⟨rfl, plain hok ?_ hok.writer_le ?_ ?_⟩
    · rw [hcontents, h.contents_eq]
    · rw [List.length_append]
      exact hlen
    · exact hsize.trans_lt hlt
  · rw [hthrow, error_bind]
    exact .error ⟨rfl, by omega⟩

/-- `ensureWritableBytes` grants space and leaves the queue. -/
theorem ensureWritableBytes (h : Tracks b q) (hlen : b.readableBytes + len < 2 ^ 31) :
    Leaves ⟨q.bytes, [], len⟩ none (b.perform (.ensureWritableBytes len)) := by
  have hs := h.size_lt
  have hw := h.ok.writer_le
  rw [h.readable] at hlen
  show Leaves _ _ (b.ensureWritableBytes len >>= fun b => .ok (none, b))
  rcases ensureWritableBytes_cases h.ok (show len < 2 ^ 63 by omega) with
    ⟨b', he, hm⟩ | ⟨hthrow, hmax⟩
  · rw [he, ok_bind]
    obtain ⟨hok, hroom⟩ := hm.room h.ok
    have hlt := hm.size_lt h.ok hs (by rw [h.contents_eq, kCheapPrepend]; omega)
    refine .ok ⟨rfl, plain hok ?_ hroom ?_ hlt⟩
    · rw [hm.contents_eq h.ok, h.contents_eq]
    · omega
  · rw [hthrow, error_bind]
    exact .error ⟨rfl, by omega⟩

/-- So does `shrink`, into a storage of its own. -/
theorem shrink (h : Tracks b q) {reserve : Nat} (hlen : b.readableBytes + reserve < 2 ^ 31) :
    Leaves ⟨q.bytes, [], reserve⟩ none (b.perform (.shrink reserve)) := by
  rw [h.ok.readableBytes_eq_length] at hlen
  show Leaves _ _ (b.shrink reserve >>= fun b => .ok (none, b))
  rcases shrink_cases h.ok hlen with ⟨b', hb', hok, hcontents, hroom, hsize⟩ | ⟨hthrow, hmax⟩
  · rw [hb', ok_bind]
    rw [h.contents_eq] at hlen hcontents
    exact .ok ⟨rfl, plain hok hcontents hroom (by omega) hsize⟩
  · rw [hthrow, error_bind]
    exact .error ⟨rfl, hmax⟩

end Tracks

/-- **One operation**: the buffer goes on tracking the queue, and the strings agree. -/
theorem perform_tracks {q : ByteQueue} (h : Tracks b q) {op : BufferOp} (hpre : Pre b q op) :
    Leaves (q.perform op) (q.string op) (b.perform op) := by
  -- one case per operation
  cases op with
  | retrieve len =>
    obtain ⟨b', hb', htracks⟩ := h.retrieve hpre
    show Leaves _ _ (b.retrieve len >>= fun b => .ok (none, b))
    rw [hb', ok_bind]
    exact .ok ⟨rfl, htracks⟩
  | retrieveUntil len =>
    obtain ⟨b', hb', htracks⟩ := h.retrieveUntil hpre
    show Leaves _ _ (b.retrieveUntil (addSize b.readerIndex_ len) >>= fun b => .ok (none, b))
    rw [hb', ok_bind]
    exact .ok ⟨rfl, htracks⟩
  | retrieveAll =>
    refine .ok ⟨rfl, .plain (retrieveAll_ok h.ok) contents_retrieveAll h.ok.cheap_le ?_ h.size_lt⟩
    exact Nat.two_pow_pos 31
  | retrieveAsString len =>
    obtain ⟨b', hb', htracks⟩ := h.retrieveAsString hpre
    show Leaves _ _ (b.retrieveAsString len >>= fun r => .ok (some r.1, r.2))
    rw [hb', ok_bind]
    exact .ok ⟨rfl, htracks⟩
  | retrieveAllAsString =>
    obtain ⟨b', hb', htracks⟩ := h.retrieveAsString (Nat.le_refl _)
    show Leaves _ _ (b.retrieveAsString b.readableBytes >>= fun r => .ok (some r.1, r.2))
    rw [hb', ok_bind]
    rw [h.readable, List.drop_length] at htracks
    refine .ok ⟨?_, htracks⟩
    show some (q.bytes.take b.readableBytes) = some q.bytes
    rw [h.readable, List.take_length]
  | append data => exact h.append hpre
  | ensureWritableBytes len => exact h.ensureWritableBytes hpre
  | write data =>
    obtain ⟨b', hb', htracks⟩ := h.write hpre.1 hpre.2
    show Leaves _ _ (b.copyTo b.writerIndex_ data >>= fun b => .ok (none, b))
    rw [hb', ok_bind]
    exact .ok ⟨rfl, htracks⟩
  | hasWritten len =>
    obtain ⟨b', hb', htracks⟩ := h.hasWritten hpre.2
    show Leaves _ _ (b.hasWritten len >>= fun b => .ok (none, b))
    rw [hb', ok_bind]
    exact .ok ⟨rfl, htracks⟩
  | unwrite len =>
    obtain ⟨b', hb', htracks⟩ := h.unwrite hpre
    show Leaves _ _ (b.unwrite len >>= fun b => .ok (none, b))
    rw [hb', ok_bind]
    exact .ok ⟨rfl, htracks⟩
  | prepend data =>
    obtain ⟨b', hb', htracks⟩ := h.prepend hpre.1 hpre.2
    show Leaves _ _ (b.prepend data >>= fun b => .ok (none, b))
    rw [hb', ok_bind]
    exact .ok ⟨rfl, htracks⟩
  | shrink reserve => exact h.shrink hpre

end Space

end Buffer

/-! ## Pools

  Several buffers and as many queues; a step takes the same operation on both sides, and the
  strings returned are compared all along. -/

section Pool

variable {ι : Type}

/-- An operation on one of several buffers, or an exchange of two of them. -/
inductive PoolOp (ι : Type)
  | on (i : ι) (op : BufferOp)
  /-- `i.swap(j)`. -/
  | swap (i j : ι)
  deriving DecidableEq

/-- The buffers, and the strings they have returned. -/
structure Buffers (ι : Type) where
  buffer : ι → Buffer
  returned : List (List UInt8)

/-- Several queues, and the strings that were returned. -/
structure Queues (ι : Type) where
  queue : ι → ByteQueue
  returned : List (List UInt8)

/-- The two pools, side by side. -/
structure Pools (ι : Type) where
  buffers : Buffers ι
  queues : Queues ι

namespace Pools

/-- Each buffer represents its queue, and the same strings were returned. It speaks of states
    only; that the operations agree is `buffers_refine_queues`. -/
structure Refines (s : Pools ι) : Prop where
  represents : ∀ i, Buffer.Represents (s.buffers.buffer i) (s.queues.queue i)
  returned_eq : s.buffers.returned = s.queues.returned

/-- The precondition of an operation. -/
def Pre (s : Pools ι) : PoolOp ι → Prop
  | .on i op => Buffer.Pre (s.buffers.buffer i) (s.queues.queue i) op
  | .swap _ _ => True

/-- Whether the preconditions are met can be computed. -/
instance (s : Pools ι) (op : PoolOp ι) : Decidable (s.Pre op) := by
  unfold Pre
  split <;> infer_instance

/-- The invariant: every buffer tracks its queue, and the same strings were returned. -/
structure PoolInv (s : Pools ι) : Prop where
  tracks : ∀ i, Buffer.Tracks (s.buffers.buffer i) (s.queues.queue i)
  returned_eq : s.buffers.returned = s.queues.returned

/-- The invariant has the property in it. -/
theorem PoolInv.refine {s : Pools ι} (h : PoolInv s) : Refines s :=
  ⟨fun i => (h.tracks i).toRepresents, h.returned_eq⟩

/-- Several new buffers. -/
def new [VectorImpl] (initialSize : ι → Nat) : Pools ι where
  buffers := ⟨fun i => Buffer.new (initialSize i), []⟩
  queues := ⟨fun _ => ByteQueue.empty, []⟩

end Pools

variable [DecidableEq ι]

/-- One operation on the queues: what it means. -/
def Queues.perform (s : Queues ι) : PoolOp ι → Queues ι
  | .on i op =>
    { queue := Function.update s.queue i ((s.queue i).perform op)
      returned := s.returned ++ ((s.queue i).string op).toList }
  | .swap i j =>
    { s with queue := Function.update (Function.update s.queue i (s.queue j)) j (s.queue i) }

/-- One buffer and its queue are replaced. -/
theorem Pools.tracks_update {buffer : ι → Buffer} {queue : ι → ByteQueue}
    (h : ∀ i, Buffer.Tracks (buffer i) (queue i)) {i : ι} {b : Buffer} {q : ByteQueue}
    (hi : Buffer.Tracks b q) (k : ι) :
    Buffer.Tracks (Function.update buffer i b k) (Function.update queue i q k) := by
  by_cases hk : k = i
  · subst hk
    rw [Function.update_self, Function.update_self]
    exact hi
  · rw [Function.update_of_ne hk, Function.update_of_ne hk]
    exact h k

variable [VectorImpl]

/-- One operation on the buffers: what the code does. -/
def Buffers.perform (s : Buffers ι) : PoolOp ι → Outcome Fault (Buffers ι) (Buffers ι)
  | .on i op => do
    let (string, b) ← within (fun b => { s with buffer := Function.update s.buffer i b })
      ((s.buffer i).perform op)
    return { buffer := Function.update s.buffer i b, returned := s.returned ++ string.toList }
  | .swap i j =>
    let (b, rhs) := (s.buffer i).swap (s.buffer j)
    return { s with buffer := Function.update (Function.update s.buffer i b) j rhs }

namespace Pools

/-- Both, side by side. -/
def step (s : Pools ι) (op : PoolOp ι) : Outcome Fault (Pools ι) (Pools ι) := do
  let buffers ← within (fun buffers => { s with buffers := buffers }) (s.buffers.perform op)
  return { buffers := buffers, queues := s.queues.perform op }

/-- **Every operation keeps them in step**, within its preconditions; what can fail is the
    storage. -/
theorem step_inv {s : Pools ι} (h : PoolInv s) (op : PoolOp ι) (hpre : s.Pre op) :
    Holds PoolInv (fun e => e.1 = .lengthError ∧ VectorImpl.maxSize < 2 ^ 34) (step s op) := by
  cases op with
  | on i op =>
    have hleaves := Buffer.perform_tracks (h.tracks i) hpre
    rw [step, Buffers.perform]
    dsimp only
    cases hperform : (s.buffers.buffer i).perform op with
    | error e =>
      rw [hperform] at hleaves
      cases hleaves with
      | error hthrow => exact .error hthrow
    | ok r =>
      rw [hperform] at hleaves
      cases hleaves with
      | ok hr =>
        refine .ok ⟨tracks_update h.tracks hr.2, ?_⟩
        show s.buffers.returned ++ r.1.toList = s.queues.returned ++ _
        rw [h.returned_eq, hr.1]
  | swap i j =>
    exact .ok ⟨tracks_update (tracks_update h.tracks (h.tracks j)) (h.tracks i), h.returned_eq⟩

/-- **A buffer is a queue of bytes**: the constructor's assertions hold, and after every run of
    operations whose preconditions hold, on any number of buffers, each buffer represents its
    queue and has returned its strings; no assertion fails and no copy leaves the storage. -/
theorem buffers_refine_queues (initialSize : ι → Nat) (hinitial : ∀ i, initialSize i < 2 ^ 31)
    (ops : List (PoolOp ι)) (hpre : Guarded step Pre (new initialSize) ops) :
    (∀ i, (Buffer.new (initialSize i)).Constructed (initialSize i)) ∧
      Holds Refines (fun e => e.1 = .lengthError ∧ VectorImpl.maxSize < 2 ^ 34)
        (run step (new initialSize) ops) := by
  have hnew : PoolInv (new initialSize) := ⟨fun i => .new (hinitial i), rfl⟩
  refine ⟨fun i => Buffer.new_constructed (initialSize i), ?_⟩
  apply (run_holds (fun s op h hC => step_inv h op hC) ops _ hnew hpre).mono
  · exact fun s h => h.refine
  · exact fun e h => h

end Pools

end Pool

section Examples

open Pools

attribute [local instance] VectorImpl.exact

/-- Two buffers; the second one grows, moves its bytes to the front, and is exchanged and shrunk. -/
def twoBuffers : List (PoolOp Bool) :=
  [.on true (.prepend [7]), .on true (.append [1, 2, 3, 4, 5, 6, 8, 9, 10, 11, 12, 13]),
    .on true (.retrieve 10), .on true (.append [14, 15]), .on false (.ensureWritableBytes 20),
    .swap true false, .on false (.shrink 3), .on false (.write [9, 9]), .on false (.hasWritten 1),
    .on false (.unwrite 2), .on false .retrieveAllAsString]

/-- The preconditions can be met: two buffers, several operations and an exchange. -/
theorem Pools.buffers_refine_queues_two :
    (∀ i, (Buffer.new 4).Constructed ((fun _ : Bool => 4) i)) ∧
      Holds Refines (fun e => e.1 = .lengthError ∧ VectorImpl.maxSize < 2 ^ 34)
        (run step (new fun _ => 4) twoBuffers) :=
  buffers_refine_queues (fun _ => 4) (by decide) twoBuffers (by decide +kernel)

end Examples

end IOEvent
