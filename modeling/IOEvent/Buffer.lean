/-
  `Buffer` (Buffer.h, Buffer.cpp): the byte buffer every connection reads into and writes from.

      +-------------------+------------------+------------------+
      | prependable bytes |  readable bytes  |  writable bytes  |
      0      <=      readerIndex_   <=   writerIndex_    <=    size

  The functions below are the source's, one by one, in `size_t` arithmetic that wraps: nothing in
  the class keeps the two indices inside the storage, so the model does not either.  A failed
  `assert` aborts, `vector::resize` beyond `max_size()` throws, and a copy that leaves the
  storage is undefined; each is a `Fault`, and the buffer is kept as the failing operation left
  it.

  What the class is FOR is a queue of bytes: `contents` is that queue.  `Buffer.Ok` is the
  picture above.  On a buffer that is `Ok`, `MadeSpace` says once what `ensureWritableBytes` can
  do (nothing, grow the vector, or move the readable bytes to the front), and every later fact
  about appending is read off its three cases.
-/
import IOEvent.Foundation.Runs
import IOEvent.Foundation.Storage

open Foundation

namespace IOEvent

/-- The `assert`s of the connection code and its codecs, by the function they stand in. -/
inductive Assertion
  | retrieve
  | retrieveUntil
  | unwrite
  | ensureWritableBytes
  | hasWritten
  | peekInt32
  | peekInt16
  | peekInt8
  | prepend
  | makeSpace
  | connectEstablished
  | handleClose
  | send
  deriving DecidableEq, Repr

/-- The ways an operation ends without returning. The operation that fails is the last one
    of a run. -/
inductive Fault
  | assertFailed (site : Assertion)
  /-- `vector::resize` throws `length_error` (or `bad_alloc`). -/
  | lengthError
  /-- A copy or a read outside the vector's elements. -/
  | outOfBounds
  /-- A read of memory the vector has given back. -/
  | useAfterFree
  /-- A call of an empty `std::function`. -/
  | badFunctionCall
  /-- `LOG(FATAL)`. -/
  | fatal
  deriving DecidableEq, Repr

/-- `Buffer`: the bytes between `readerIndex_` and `writerIndex_` are the contents, those
    before are free for prepending and those behind are free for writing. Nothing ties the
    three together: the class keeps them in order by what its functions do, and `Ok` is the
    statement that it has. -/
structure Buffer where
  buffer_ : Vec UInt8
  readerIndex_ : Nat
  writerIndex_ : Nat

namespace Buffer

/-- `kCheapPrepend`: the free bytes in front of an empty buffer, enough for a length field. -/
def kCheapPrepend : Nat := 8

/-- `kInitialSize`: the free bytes behind them. -/
def kInitialSize : Nat := 1024

section Operations

/-- `Buffer(initialSize)`. -/
def new [VectorImpl] (initialSize : Nat) : Buffer where
  buffer_ := Vec.ofSize 0 (kCheapPrepend + initialSize)
  readerIndex_ := kCheapPrepend
  writerIndex_ := kCheapPrepend

/-- `readableBytes`: how many bytes the contents have. -/
def readableBytes (b : Buffer) : Nat := subSize b.writerIndex_ b.readerIndex_

/-- `writableBytes`: how many can be written without moving anything. -/
def writableBytes (b : Buffer) : Nat := subSize b.buffer_.size b.writerIndex_

/-- `prependableBytes`: how many can be put in front. -/
def prependableBytes (b : Buffer) : Nat := b.readerIndex_

/-- `std::copy` of `data` to the elements from position `i`; undefined, and so a fault, where
    the vector has no such elements. -/
def copyTo (b : Buffer) (i : Nat) (data : List UInt8) : Outcome Fault Buffer Buffer :=
  match b.buffer_.splice i data with
  | some v => .ok { b with buffer_ := v }
  | none => .error (.outOfBounds, b)

/-- The `n` bytes at `begin() + i`, as they are read through a pointer. Reading behind the
    elements of the vector is undefined, even where its capacity reaches further. -/
def bytesAt (b : Buffer) (i n : Nat) : Outcome Fault Buffer (List UInt8) :=
  match b.buffer_.slice i n with
  | some data => .ok data
  | none => .error (.outOfBounds, b)

/-- `swap`: the two buffers change places, storage and positions. -/
def swap (b rhs : Buffer) : Buffer × Buffer :=
  ({ buffer_ := rhs.buffer_, readerIndex_ := rhs.readerIndex_, writerIndex_ := rhs.writerIndex_ },
    { buffer_ := b.buffer_, readerIndex_ := b.readerIndex_, writerIndex_ := b.writerIndex_ })

/-- `retrieveAll`: the contents are given up, and the positions go back to the front. -/
def retrieveAll (b : Buffer) : Buffer :=
  { b with readerIndex_ := kCheapPrepend, writerIndex_ := kCheapPrepend }

/-- `retrieve`: bytes are given up at the front; giving up all of them is `retrieveAll`. -/
def retrieve (b : Buffer) (len : Nat) : Outcome Fault Buffer Buffer := do
  require (len ≤ b.readableBytes) (.assertFailed .retrieve) b
  if len < b.readableBytes then
    return { b with readerIndex_ := addSize b.readerIndex_ len }
  else
    return b.retrieveAll

/-- A pointer into the buffer is its distance from `begin()`. -/
def retrieveUntil (b : Buffer) (end_ : Nat) : Outcome Fault Buffer Buffer := do
  require (b.readerIndex_ ≤ end_) (.assertFailed .retrieveUntil) b
  require (end_ ≤ b.writerIndex_) (.assertFailed .retrieveUntil) b
  b.retrieve (subSize end_ b.readerIndex_)

/-- `retrieveAsString`: the same, with the bytes as a string. -/
def retrieveAsString (b : Buffer) (len : Nat) : Outcome Fault Buffer (List UInt8 × Buffer) := do
  require (len ≤ b.readableBytes) (.assertFailed .retrieve) b
  let result ← b.bytesAt b.readerIndex_ len
  let b ← b.retrieve len
  return (result, b)

/-- `retrieveAllAsString`: all of them. -/
def retrieveAllAsString (b : Buffer) : Outcome Fault Buffer (List UInt8 × Buffer) :=
  b.retrieveAsString b.readableBytes

/-- `hasWritten`: bytes that were stored behind the contents become part of them. -/
def hasWritten (b : Buffer) (len : Nat) : Outcome Fault Buffer Buffer := do
  require (len ≤ b.writableBytes) (.assertFailed .hasWritten) b
  return { b with writerIndex_ := addSize b.writerIndex_ len }

/-- `unwrite`: bytes at the end are taken back. -/
def unwrite (b : Buffer) (len : Nat) : Outcome Fault Buffer Buffer := do
  require (len ≤ b.readableBytes) (.assertFailed .unwrite) b
  return { b with writerIndex_ := subSize b.writerIndex_ len }

/-- The pointer and the length, an `int`: a buffer with `2 ^ 31` readable bytes or more would
    give a negative one. -/
def toStringPiece (b : Buffer) : Nat × Int := (b.readerIndex_, toSigned 32 b.readableBytes)

variable [VectorImpl]

/-- `makeSpace`: the storage grows, or the contents move to the front, whichever the free bytes on
    both sides allow. -/
def makeSpace (b : Buffer) (len : Nat) : Outcome Fault Buffer Buffer :=
  if addSize b.writableBytes b.prependableBytes < addSize len kCheapPrepend then
    match b.buffer_.resize 0 (addSize b.writerIndex_ len) with
    | some v => .ok { b with buffer_ := v }
    | none => .error (.lengthError, b)
  else do
    require (kCheapPrepend < b.readerIndex_) (.assertFailed .makeSpace) b
    let readable := b.readableBytes
    let data ← b.bytesAt b.readerIndex_ readable
    let b ← b.copyTo kCheapPrepend data
    let b := { b with
      readerIndex_ := kCheapPrepend, writerIndex_ := addSize kCheapPrepend readable }
    require (readable = b.readableBytes) (.assertFailed .makeSpace) b
    return b

/-- `ensureWritableBytes`: there are that many writable bytes afterwards. -/
def ensureWritableBytes (b : Buffer) (len : Nat) : Outcome Fault Buffer Buffer := do
  let b ← if b.writableBytes < len then b.makeSpace len else .ok b
  require (len ≤ b.writableBytes) (.assertFailed .ensureWritableBytes) b
  return b

/-- `append(const char *data, size_t len)`. -/
def append (b : Buffer) (data : List UInt8) : Outcome Fault Buffer Buffer := do
  let b ← b.ensureWritableBytes data.length
  let b ← b.copyTo b.writerIndex_ data
  b.hasWritten data.length

/-- `appendInt32`: four bytes in network order. -/
def appendInt32 (b : Buffer) (x : Int) : Outcome Fault Buffer Buffer :=
  b.append (toBytes 4 (toUnsigned 32 x))

/-- `peekInt32`: the first four bytes as a signed number, which stay where they are. -/
def peekInt32 (b : Buffer) : Outcome Fault Buffer Int := do
  require (4 ≤ b.readableBytes) (.assertFailed .peekInt32) b
  let be32 ← b.bytesAt b.readerIndex_ 4
  return toSigned 32 (ofBytes be32)

/-- `prepend`: bytes are put in front of the contents, where there is room. -/
def prepend (b : Buffer) (data : List UInt8) : Outcome Fault Buffer Buffer := do
  require (data.length ≤ b.prependableBytes) (.assertFailed .prepend) b
  let b := { b with readerIndex_ := subSize b.readerIndex_ data.length }
  b.copyTo b.readerIndex_ data

/-! The integers in a buffer are `k` bytes, most significant first; `appendInt`, `prependInt`,
    `peekInt` and `readInt` are what the members for the three widths have in common. -/

/-- `appendInt8`, `appendInt16` and `appendInt32` differ in the width alone. -/
def appendInt (b : Buffer) (k : Nat) (x : Int) : Outcome Fault Buffer Buffer :=
  b.append (toBytes k (toUnsigned (8 * k) x))

/-- `appendInt16`. -/
def appendInt16 (b : Buffer) (x : Int) : Outcome Fault Buffer Buffer := b.appendInt 2 x

/-- `appendInt8`. -/
def appendInt8 (b : Buffer) (x : Int) : Outcome Fault Buffer Buffer := b.appendInt 1 x

/-- The three that put an integer in front differ in the width alone. -/
def prependInt (b : Buffer) (k : Nat) (x : Int) : Outcome Fault Buffer Buffer :=
  b.prepend (toBytes k (toUnsigned (8 * k) x))

/-- `prependInt32`. -/
def prependInt32 (b : Buffer) (x : Int) : Outcome Fault Buffer Buffer := b.prependInt 4 x

/-- `prependInt16`. -/
def prependInt16 (b : Buffer) (x : Int) : Outcome Fault Buffer Buffer := b.prependInt 2 x

/-- `prependInt8`. -/
def prependInt8 (b : Buffer) (x : Int) : Outcome Fault Buffer Buffer := b.prependInt 1 x

/-- The three that look at an integer differ in the width and in the assertion that fails. -/
def peekInt (b : Buffer) (site : Assertion) (k : Nat) : Outcome Fault Buffer Int := do
  require (k ≤ b.readableBytes) (.assertFailed site) b
  let be ← b.bytesAt b.readerIndex_ k
  return toSigned (8 * k) (ofBytes be)

/-- `peekInt16`. -/
def peekInt16 (b : Buffer) : Outcome Fault Buffer Int := b.peekInt .peekInt16 2

/-- `peekInt8`. -/
def peekInt8 (b : Buffer) : Outcome Fault Buffer Int := b.peekInt .peekInt8 1

/-- `retrieveInt32`. -/
def retrieveInt32 (b : Buffer) : Outcome Fault Buffer Buffer := b.retrieve 4

/-- `retrieveInt16`. -/
def retrieveInt16 (b : Buffer) : Outcome Fault Buffer Buffer := b.retrieve 2

/-- `retrieveInt8`. -/
def retrieveInt8 (b : Buffer) : Outcome Fault Buffer Buffer := b.retrieve 1

/-- Reading is looking and then giving up what was seen. -/
def readInt (peek : Outcome Fault Buffer Int) (retrieve : Outcome Fault Buffer Buffer) :
    Outcome Fault Buffer (Int × Buffer) := do
  let result ← peek
  let b ← retrieve
  return (result, b)

/-- `readInt32`. -/
def readInt32 (b : Buffer) : Outcome Fault Buffer (Int × Buffer) :=
  readInt b.peekInt32 b.retrieveInt32

/-- `readInt16`. -/
def readInt16 (b : Buffer) : Outcome Fault Buffer (Int × Buffer) :=
  readInt b.peekInt16 b.retrieveInt16

/-- `readInt8`. -/
def readInt8 (b : Buffer) : Outcome Fault Buffer (Int × Buffer) := readInt b.peekInt8 b.retrieveInt8

/-- The `append` is written out: it reads the piece, which is a range of this buffer, after it
    has made space in the other one. -/
def shrink (b : Buffer) (reserve : Nat) : Outcome Fault Buffer Buffer := do
  let other := Buffer.new kInitialSize
  let other ← within (fun _ => b) (other.ensureWritableBytes (addSize b.readableBytes reserve))
  let (data, size) := b.toStringPiece
  let len := toUnsigned 64 size
  let other ← within (fun _ => b) (other.ensureWritableBytes len)
  let bytes ← b.bytesAt data len
  let other ← within (fun _ => b) (other.copyTo other.writerIndex_ bytes)
  let other ← within (fun _ => b) (other.hasWritten len)
  let (b, _) := b.swap other
  return b

end Operations

/-! ## The queue of bytes

  The contents, and the picture that the three fields are to fit.  An operation is described by
  what it does to `contents` as long as `Ok` holds. -/

/-- The readable bytes: what the buffer holds, in order. Everything that is proved about what
    a buffer is for is said in terms of this list. -/
def contents (b : Buffer) : List UInt8 :=
  segment b.buffer_.elems b.readerIndex_ (b.writerIndex_ - b.readerIndex_)

/-- The indices are in order and inside the storage, and the storage is one that a vector can
    have, so that no sum of two of them wraps. -/
structure Ok (b : Buffer) : Prop where
  reader_le : b.readerIndex_ ≤ b.writerIndex_
  writer_le : b.writerIndex_ ≤ b.buffer_.size
  cheap_le : kCheapPrepend ≤ b.buffer_.size
  size_lt : b.buffer_.size < 2 ^ 63

section Facts

variable {b : Buffer} {len : Nat}

/-- In a buffer that is in order the `size_t` difference of the positions does not wrap. -/
theorem Ok.readableBytes_eq (h : b.Ok) : b.readableBytes = b.writerIndex_ - b.readerIndex_ :=
  subSize_of_le h.reader_le

/-- Nor does that of the size and the writer. -/
theorem Ok.writableBytes_eq (h : b.Ok) : b.writableBytes = b.buffer_.size - b.writerIndex_ :=
  subSize_of_le h.writer_le

/-- The contents are what lies between the positions. -/
theorem Ok.contents_length (h : b.Ok) :
    b.contents.length = b.writerIndex_ - b.readerIndex_ := by
  have hr := h.reader_le
  have hw := h.writer_le
  rw [Vec.size] at hw
  exact length_segment (by omega)

/-- The number of readable bytes is the length of the contents. -/
theorem Ok.readableBytes_eq_length (h : b.Ok) : b.readableBytes = b.contents.length :=
  h.readableBytes_eq.trans h.contents_length.symm

/-- A new buffer is in order, for any size that a vector can have. -/
theorem new_ok [VectorImpl] {initialSize : Nat} (h : kCheapPrepend + initialSize < 2 ^ 63) :
    (new initialSize).Ok where
  reader_le := Nat.le_refl _
  writer_le := by rw [new, Vec.size_ofSize]; exact Nat.le_add_right _ _
  cheap_le := by rw [new, Vec.size_ofSize]; exact Nat.le_add_right _ _
  size_lt := by rw [new, Vec.size_ofSize]; exact h

/-- A new buffer is empty. -/
@[simp] theorem contents_new [VectorImpl] (initialSize : Nat) :
    (new initialSize).contents = [] := by
  rw [contents, new, Nat.sub_self, segment_zero]

/-! ## `retrieve` and `peekInt32`

  The operations at the front, which move only `readerIndex_`, and both indices when the
  buffer becomes empty. -/

/-- `retrieve` drops a prefix of the queue; when it drops everything the indices go back to the
    start, and otherwise only the reader moves. -/
theorem retrieve_spec (h : b.Ok) (hlen : len ≤ b.contents.length) :
    ∃ b', b.retrieve len = .ok b' ∧ b'.Ok ∧ b'.contents = b.contents.drop len ∧
      b'.buffer_ = b.buffer_ ∧
      (len < b.contents.length →
        b'.readerIndex_ = b.readerIndex_ + len ∧ b'.writerIndex_ = b.writerIndex_) ∧
      (len = b.contents.length →
        b'.readerIndex_ = kCheapPrepend ∧ b'.writerIndex_ = kCheapPrepend) := by
  have hr := h.reader_le
  have hw := h.writer_le
  have hc := h.cheap_le
  have hs := h.size_lt
  have hl := h.contents_length
  have hread := h.readableBytes_eq_length
  rw [retrieve, require_pos _ _ (by omega), ok_bind]
  by_cases hlt : len < b.readableBytes
  · rw [if_pos hlt]
    have hadd : addSize b.readerIndex_ len = b.readerIndex_ + len := addSize_of_lt (by omega)
    refine ⟨_, rfl, ⟨?_, hw, hc, hs⟩, ?_, rfl, fun _ => ⟨hadd, rfl⟩, fun he => by omega⟩
    · show addSize b.readerIndex_ len ≤ b.writerIndex_
      omega
    · show segment _ (addSize b.readerIndex_ len) _ = _
      rw [hadd, contents, drop_segment, Nat.sub_add_eq]
  · rw [if_neg hlt]
    refine ⟨_, rfl, ⟨Nat.le_refl _, hc, hc, hs⟩, ?_, rfl, fun hl' => by omega, fun _ => ⟨rfl, rfl⟩⟩
    rw [contents, retrieveAll, Nat.sub_self, segment_zero, List.drop_eq_nil_of_le (by omega)]

/-- What stands `i` bytes behind the read end is the queue without its first `i` bytes. -/
theorem bytesAt_spec (h : b.Ok) {i : Nat} (hlen : i + len ≤ b.contents.length) :
    b.bytesAt (b.readerIndex_ + i) len = .ok ((b.contents.drop i).take len) := by
  have hr := h.reader_le
  have hw := h.writer_le
  have hl := h.contents_length
  rw [bytesAt, Vec.slice_of_le (by omega), contents, drop_segment, take_segment _ _ (by omega)]

/-- `peekInt32` reads the first four bytes of the queue. -/
theorem peekInt32_spec (h : b.Ok) (hlen : 4 ≤ b.contents.length) :
    b.peekInt32 = .ok (toSigned 32 (ofBytes (b.contents.take 4))) := by
  have hread := h.readableBytes_eq_length
  have hfront := bytesAt_spec h (i := 0) (show 0 + 4 ≤ b.contents.length by omega)
  rw [Nat.add_zero, List.drop_zero] at hfront
  rw [peekInt32, require_pos _ _ (by omega), ok_bind, hfront]
  rfl

/-! ## `hasWritten` and the bytes behind the write end

  Bytes are stored first and counted afterwards, in two calls; between them they are in no
  queue. -/

/-- Counting in bytes that fit moves the writer and nothing else. -/
theorem hasWritten_spec (h : b.Ok) (hlen : b.writerIndex_ + len ≤ b.buffer_.size) :
    b.hasWritten len = .ok { b with writerIndex_ := b.writerIndex_ + len } := by
  have hs := h.size_lt
  have hwritable := h.writableBytes_eq
  rw [hasWritten, require_pos _ _ (by omega), ok_bind, addSize_of_lt (by omega)]
  rfl

/-- Bytes stored at the write end and counted in: the queue grows by them. -/
theorem stored_spec (h : b.Ok) {data : List UInt8}
    (hroom : b.writerIndex_ + data.length ≤ b.buffer_.size) :
    ∃ v, b.buffer_.splice b.writerIndex_ data = some v ∧
      v.elems = overwrite b.buffer_.elems b.writerIndex_ data ∧ v.size = b.buffer_.size ∧
      v.capacity = b.buffer_.capacity ∧ v.block = b.buffer_.block ∧
      Ok { b with buffer_ := v } ∧
      Ok { b with buffer_ := v, writerIndex_ := b.writerIndex_ + data.length } ∧
      contents { b with buffer_ := v, writerIndex_ := b.writerIndex_ + data.length } =
        b.contents ++ data := by
  have hr := h.reader_le
  have hw := h.writer_le
  have hc := h.cheap_le
  have hs := h.size_lt
  obtain ⟨v, hv, helems, hsize, hcap, hblock⟩ := Vec.splice_of_le hroom
  refine ⟨v, hv, helems, hsize, hcap, hblock, ⟨hr, ?_, ?_, ?_⟩, ⟨?_, ?_, ?_, ?_⟩, ?_⟩
  · rw [hsize]; exact hw
  · rw [hsize]; exact hc
  · rw [hsize]; exact hs
  · exact Nat.le_trans hr (Nat.le_add_right _ _)
  · rw [hsize]; exact hroom
  · rw [hsize]; exact hc
  · rw [hsize]; exact hs
  · rw [Vec.size] at hroom
    have hsplit : b.writerIndex_ + data.length - b.readerIndex_
        = b.writerIndex_ - b.readerIndex_ + data.length := by omega
    have hpos : b.readerIndex_ + (b.writerIndex_ - b.readerIndex_) = b.writerIndex_ := by omega
    rw [contents, helems, hsplit, segment_add, hpos, segment_overwrite_self hroom,
      segment_overwrite_of_disjoint hroom (Or.inl hpos.le), contents]

/-! ## `ensureWritableBytes`

  The only function of the class with a choice to make.  `makeSpace_cases` and
  `ensureWritableBytes_cases` are its specification, and no later proof unfolds it. -/

variable [VectorImpl]

/-- What `ensureWritableBytes(len)` can do to a well-formed buffer. Each case comes with its
    condition, so that a caller can tell them apart, and with what it does to the block, which
    is what a pointer into the buffer depends on. -/
inductive MadeSpace (b : Buffer) (len : Nat) : Buffer → Prop
  /-- There was room: nothing happens. -/
  | enough (h : b.writerIndex_ + len ≤ b.buffer_.size) : MadeSpace b len b
  /-- The vector grows behind the readable bytes, in a new block when its capacity is too small. -/
  | grown (v : Vec UInt8) (h : b.buffer_.size < b.writerIndex_ + len)
      (hgrow : b.buffer_.size - b.writerIndex_ + b.readerIndex_ < len + kCheapPrepend)
      (hmax : b.writerIndex_ + len ≤ VectorImpl.maxSize)
      (helems : v.elems = padded b.buffer_.elems (b.writerIndex_ + len) 0)
      (hsize : v.size = b.writerIndex_ + len)
      (hblock : b.writerIndex_ + len ≤ b.buffer_.capacity → v.block = b.buffer_.block) :
      MadeSpace b len { b with buffer_ := v }
  /-- The readable bytes are moved to the front. -/
  | moved (v : Vec UInt8) (h : b.buffer_.size < b.writerIndex_ + len)
      (hmove : len + kCheapPrepend ≤ b.buffer_.size - b.writerIndex_ + b.readerIndex_)
      (helems : v.elems = overwrite b.buffer_.elems kCheapPrepend b.contents)
      (hsize : v.size = b.buffer_.size) (hblock : v.block = b.buffer_.block) :
      MadeSpace b len
        { buffer_ := v, readerIndex_ := kCheapPrepend
          writerIndex_ := kCheapPrepend + b.contents.length }

/-- `makeSpace` on a well-formed buffer that has too little room: it grows, moves, or throws and
    changes nothing.  The `assert` of the moving branch holds because the caller's guard and the
    branch test together leave more than `kCheapPrepend` bytes in front. -/
theorem makeSpace_cases (h : b.Ok) (hlen : len < 2 ^ 63)
    (hroom : b.buffer_.size < b.writerIndex_ + len) :
    (∃ b', b.makeSpace len = .ok b' ∧ MadeSpace b len b') ∨
      (b.makeSpace len = .error (.lengthError, b) ∧
        VectorImpl.maxSize < b.writerIndex_ + len) := by
  -- none of the sums wraps, as the storage and `len` are below 2 ^ 63
  have hr := h.reader_le
  have hw := h.writer_le
  have hs := h.size_lt
  have hl := h.contents_length
  have hread := h.readableBytes_eq
  have hk : kCheapPrepend = 8 := rfl
  have hguard : addSize b.writableBytes b.prependableBytes
      = b.buffer_.size - b.writerIndex_ + b.readerIndex_ := by
    rw [h.writableBytes_eq, prependableBytes, addSize_of_lt (by omega)]
  have hneed : addSize len kCheapPrepend = len + kCheapPrepend := addSize_of_lt (by omega)
  have hsum : addSize b.writerIndex_ len = b.writerIndex_ + len := addSize_of_lt (by omega)
  rw [makeSpace, hguard, hneed, hsum]
  by_cases hgrow : b.buffer_.size - b.writerIndex_ + b.readerIndex_ < len + kCheapPrepend
  · -- the storage is resized
    rw [if_pos hgrow]
    by_cases hmax : b.writerIndex_ + len ≤ VectorImpl.maxSize
    · obtain ⟨v, hv, helems, hsize, hblock⟩ := Vec.resize_of_lt (0 : UInt8) hroom hmax
      rw [hv]
      exact Or.inl ⟨_, rfl, .grown v hroom hgrow hmax helems hsize hblock⟩
    · rw [Vec.resize_of_maxSize_lt _ (Nat.lt_of_not_le hmax)]
      exact Or.inr ⟨rfl, Nat.lt_of_not_le hmax⟩
  · -- the readable bytes are copied to the front
    rw [if_neg hgrow]
    have hfront : kCheapPrepend + b.contents.length ≤ b.buffer_.size := by omega
    obtain ⟨v, hv, helems, hsize, -, hblock⟩ := Vec.splice_of_le hfront
    have hslice : b.buffer_.slice b.readerIndex_ b.readableBytes = some b.contents := by
      rw [hread, Vec.slice_of_le (by omega), contents]
    have hend : addSize kCheapPrepend b.readableBytes = kCheapPrepend + b.contents.length := by
      rw [h.readableBytes_eq_length, addSize_of_lt (by omega)]
    refine Or.inl ⟨_, ?_, .moved v hroom (by omega) helems hsize hblock⟩
    rw [require_pos _ _ (by omega), ok_bind]
    simp only [bytesAt, hslice, ok_bind, copyTo, hv, hend]
    rw [require_pos, ok_bind]
    · rfl
    · show b.readableBytes = subSize (kCheapPrepend + b.contents.length) kCheapPrepend
      rw [subSize_of_le (Nat.le_add_right _ _), h.readableBytes_eq_length]
      omega

/-- Space that was made is there, and the buffer is in order. -/
theorem MadeSpace.room {b' : Buffer} (h : b.Ok) (hm : MadeSpace b len b') :
    b'.Ok ∧ b'.writerIndex_ + len ≤ b'.buffer_.size := by
  have hr := h.reader_le
  have hw := h.writer_le
  have hc := h.cheap_le
  have hs := h.size_lt
  have hl := h.contents_length
  have hk : kCheapPrepend = 8 := rfl
  cases hm with
  | enough hroom => exact ⟨h, hroom⟩
  | grown v hroom _ hmax _ hsize _ =>
    have := VectorImpl.maxSize_lt
    exact ⟨⟨hr, hsize ▸ Nat.le_add_right _ _, by simp only; omega, by simp only; omega⟩, hsize.ge⟩
  | moved v hroom hmove _ hsize _ =>
    refine ⟨⟨Nat.le_add_right _ _, ?_, ?_, ?_⟩, ?_⟩ <;> simp only <;> omega

/-- Making space leaves the queue as it was. -/
theorem MadeSpace.contents_eq {b' : Buffer} (h : b.Ok) (hm : MadeSpace b len b') :
    b'.contents = b.contents := by
  have hr := h.reader_le
  have hw := h.writer_le
  have hl := h.contents_length
  cases hm with
  | enough _ => rfl
  | grown v _ _ _ helems _ _ =>
    rw [Vec.size] at hw
    have hend : b.readerIndex_ + (b.writerIndex_ - b.readerIndex_) ≤ b.buffer_.elems.length := by
      omega
    rw [contents, helems, padded]
    exact segment_append_left hend _
  | moved v _ hmove helems _ _ =>
    have hk : kCheapPrepend = 8 := rfl
    rw [contents, helems, Nat.add_sub_cancel_left, segment_overwrite_self]
    rw [Vec.size] at hw hmove
    omega

/-- Nothing but `retrieve` and `prepend` brings the reader below its starting position. -/
theorem MadeSpace.cheap_le {b' : Buffer} (hm : MadeSpace b len b')
    (h : kCheapPrepend ≤ b.readerIndex_) : kCheapPrepend ≤ b'.readerIndex_ := by
  cases hm with
  | enough _ => exact h
  | grown => exact h
  | moved => exact Nat.le_refl _

/-- Making space never makes the storage smaller. -/
theorem MadeSpace.size_le {b' : Buffer} (hm : MadeSpace b len b') :
    b.buffer_.size ≤ b'.buffer_.size := by
  cases hm with
  | enough _ => exact Nat.le_refl _
  | grown v h _ _ _ hsize _ =>
    show b.buffer_.size ≤ v.size
    omega
  | moved v _ _ _ hsize _ => exact hsize.ge

/-- When there is room, `ensureWritableBytes` does nothing. -/
theorem ensureWritableBytes_of_le (h : b.Ok) (hroom : b.writerIndex_ + len ≤ b.buffer_.size) :
    b.ensureWritableBytes len = .ok b := by
  have hwritable := h.writableBytes_eq
  rw [ensureWritableBytes, if_neg (by omega)]
  show (require _ _ b >>= fun _ => .ok b) = .ok b
  rw [require_pos _ _ (by omega), ok_bind]

/-- **`ensureWritableBytes`** on a well-formed buffer: it makes space, or throws and changes
    nothing. -/
theorem ensureWritableBytes_cases (h : b.Ok) (hlen : len < 2 ^ 63) :
    (∃ b', b.ensureWritableBytes len = .ok b' ∧ MadeSpace b len b') ∨
      (b.ensureWritableBytes len = .error (.lengthError, b) ∧
        VectorImpl.maxSize < b.writerIndex_ + len) := by
  have hw := h.writer_le
  have hwritable := h.writableBytes_eq
  by_cases hlt : b.writableBytes < len
  · rw [ensureWritableBytes, if_pos hlt]
    rcases makeSpace_cases h hlen (by omega) with ⟨b', hb', hm⟩ | ⟨he, hmax⟩
    · obtain ⟨hok, hroom⟩ := hm.room h
      refine Or.inl ⟨b', ?_, hm⟩
      have hwritable' := hok.writableBytes_eq
      simp only [hb', ok_bind]
      rw [require_pos _ _ (by omega)]
      rfl
    · exact Or.inr ⟨by rw [he, error_bind], hmax⟩
  · have hroom : b.writerIndex_ + len ≤ b.buffer_.size := by omega
    exact Or.inl ⟨b, ensureWritableBytes_of_le h hroom, .enough hroom⟩

/-- A length just below `2 ^ 64`, as a negative `int32_t` becomes, that reaches back further than
    the write end: the grown size is beyond any `max_size()`, so the call throws and changes
    nothing. -/
theorem ensureWritableBytes_of_negative (h : b.Ok) {k : Nat} (hlen : len + k = 2 ^ 64)
    (hfront : kCheapPrepend ≤ b.writerIndex_) (hk : b.writerIndex_ < k) (hk' : k ≤ 2 ^ 31) :
    b.ensureWritableBytes len = .error (.lengthError, b) := by
  have hr := h.reader_le
  have hw := h.writer_le
  have hs := h.size_lt
  have hmax := VectorImpl.maxSize_lt
  have hwritable := h.writableBytes_eq
  have hcheap : kCheapPrepend = 8 := rfl
  have hguard : addSize b.writableBytes b.prependableBytes
      = b.buffer_.size - b.writerIndex_ + b.readerIndex_ := by
    rw [h.writableBytes_eq, prependableBytes, addSize_of_lt (by omega)]
  have hneed : addSize len kCheapPrepend = len + kCheapPrepend := addSize_of_lt (by omega)
  have hsum : addSize b.writerIndex_ len = b.writerIndex_ + len := addSize_of_lt (by omega)
  rw [ensureWritableBytes, if_pos (by omega), makeSpace, hguard, hneed, hsum, if_pos (by omega),
    Vec.resize_of_maxSize_lt _ (by omega), error_bind]

/-! ## `append`

  Space is made, then the bytes are stored behind the contents and counted. -/

/-- **`append`** on a well-formed buffer: space is made, the bytes are stored at the write end, and
    the queue grows by them; or it throws and changes nothing. -/
theorem append_cases (h : b.Ok) {data : List UInt8} (hlen : data.length < 2 ^ 63) :
    (∃ b₁ v, MadeSpace b data.length b₁ ∧
      v.elems = overwrite b₁.buffer_.elems b₁.writerIndex_ data ∧
        v.size = b₁.buffer_.size ∧ v.block = b₁.buffer_.block ∧
        b.append data =
          .ok { b₁ with buffer_ := v, writerIndex_ := b₁.writerIndex_ + data.length } ∧
        Ok { b₁ with buffer_ := v, writerIndex_ := b₁.writerIndex_ + data.length } ∧
        contents { b₁ with buffer_ := v, writerIndex_ := b₁.writerIndex_ + data.length } =
          b.contents ++ data) ∨
      (b.append data = .error (.lengthError, b) ∧
        VectorImpl.maxSize < b.writerIndex_ + data.length) := by
  rw [append]
  rcases ensureWritableBytes_cases h hlen with ⟨b₁, hb₁, hm⟩ | ⟨he, hmax⟩
  · obtain ⟨hok, hroom⟩ := hm.room h
    obtain ⟨v, hv, helems, hsize, -, hblock, hok₁, hok', hcontents⟩ := stored_spec hok hroom
    refine Or.inl ⟨b₁, v, hm, helems, hsize, hblock, ?_, hok', ?_⟩
    · have hroom' : b₁.writerIndex_ + data.length ≤ v.size := hsize.symm ▸ hroom
      rw [hb₁, ok_bind, copyTo, hv, ok_bind, hasWritten_spec hok₁ hroom']
    · rw [hcontents, hm.contents_eq h]
  · exact Or.inr ⟨by rw [he, error_bind], hmax⟩

/-! ## A buffer that is only written to

  The input buffer of a connection is written to through a pointer that was taken before.  As
  long as nothing else happens to the buffer the pointer is good, and this part says so. -/

/-- `append` to a buffer whose reader is still at its first position: the queue grows, and the
    reader stays. -/
theorem append_spec (h : b.Ok) (hreader : b.readerIndex_ = kCheapPrepend) (data : List UInt8)
    (hmax : kCheapPrepend + b.contents.length + data.length ≤ VectorImpl.maxSize) :
    ∃ b', b.append data = .ok b' ∧ b'.Ok ∧ b'.readerIndex_ = kCheapPrepend ∧
      b'.contents = b.contents ++ data := by
  have hl := h.contents_length
  have hr := h.reader_le
  have hlt := VectorImpl.maxSize_lt
  rcases append_cases h (show data.length < 2 ^ 63 by omega) with
    ⟨b₁, v, hm, -, -, -, happ, hok, hcont⟩ | ⟨-, hthrow⟩
  · refine ⟨_, happ, hok, ?_, hcont⟩
    show b₁.readerIndex_ = kCheapPrepend
    cases hm with
    | enough => exact hreader
    | grown => exact hreader
    | moved => rfl
  · omega

end Facts

section Prepend

variable {b : Buffer}

/-- `prepend` puts bytes in front of the queue when the reader has room for them. -/
theorem prepend_spec (h : b.Ok) (data : List UInt8) (hlen : data.length ≤ b.readerIndex_) :
    ∃ b', b.prepend data = .ok b' ∧ b'.Ok ∧ b'.contents = data ++ b.contents ∧
      b'.buffer_.size = b.buffer_.size := by
  have hr := h.reader_le
  have hw := h.writer_le
  have hsub : subSize b.readerIndex_ data.length = b.readerIndex_ - data.length :=
    subSize_of_le hlen
  have hroom : b.readerIndex_ - data.length + data.length ≤ b.buffer_.size := by omega
  obtain ⟨v, hv, helems, hsize, -, -⟩ := Vec.splice_of_le hroom
  rw [prepend, prependableBytes, require_pos _ _ hlen, ok_bind, hsub]
  refine ⟨_, by rw [copyTo, hv], ⟨?_, ?_, ?_, ?_⟩, ?_, hsize⟩
  · exact Nat.le_trans (Nat.sub_le _ _) hr
  · rw [hsize]; exact hw
  · rw [hsize]; exact h.cheap_le
  · rw [hsize]; exact h.size_lt
  · rw [Vec.size] at hroom
    have hsplit : b.writerIndex_ - (b.readerIndex_ - data.length) =
        data.length + (b.writerIndex_ - b.readerIndex_) := by omega
    have hpos : b.readerIndex_ - data.length + data.length = b.readerIndex_ := by omega
    rw [contents, helems, hsplit, segment_add, segment_overwrite_self hroom, hpos,
      segment_overwrite_of_disjoint hroom (Or.inr hpos.le), contents]

end Prepend

end Buffer

end IOEvent
