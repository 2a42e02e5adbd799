/-
  Integers in a buffer.

  A `TypedInt` is a value of `int8_t`, `int16_t` or `int32_t`.  Each append and each prepend of
  one is an append or a prepend of its bytes, and a read is a peek and a retrieve of as many
  bytes; so the queue of bytes that the buffer holds says what is read back.  `written` is that
  queue, for any mix of appends, prepends, `ensureWritableBytes` and `shrink`.

  The order of the bytes is the only thing the widths share: `toBytes` and `ofBytes` are inverse
  on as many bytes as there are (`Foundation.Words`), and two's complement is inverse on the
  values of a width.  So what is appended is read back in order, and what is prepended in the
  order opposite to the calls.
-/
import IOEvent.Buffer.Queue

open Foundation

namespace IOEvent

/-! ## Values

  The integers of the three widths, and the bytes each of them is stored as. -/

/-- The three widths of the integers in a buffer. -/
inductive Width
  | int8
  | int16
  | int32
  deriving DecidableEq, Repr

/-- `sizeof`. -/
def Width.bytes : Width → Nat
  | .int8 => 1
  | .int16 => 2
  | .int32 => 4

/-- A value of the type of this width. The range is a field, so a value of the C++ type is a
    `TypedInt` and nothing else is. -/
structure TypedInt where
  width : Width
  value : Int
  lo : -2 ^ (8 * width.bytes - 1) ≤ value
  hi : value < 2 ^ (8 * width.bytes - 1)

/-- The bytes it is stored as, most significant first. -/
def TypedInt.bytes (x : TypedInt) : List UInt8 :=
  toBytes x.width.bytes (toUnsigned (8 * x.width.bytes) x.value)

/-- An integer has as many bytes as its width. -/
theorem TypedInt.bytes_length (x : TypedInt) : x.bytes.length = x.width.bytes := toBytes_length _ _

/-- Each width has a byte. -/
theorem Width.bytes_pos (w : Width) : 0 < w.bytes := by cases w <;> decide

/-- The value is the one that its bytes spell. -/
theorem TypedInt.value_of_bytes (x : TypedInt) :
    toSigned (8 * x.width.bytes) (ofBytes x.bytes) = x.value := by
  have hpos := x.width.bytes_pos
  have hpow : (256 : Nat) ^ x.width.bytes = 2 ^ (8 * x.width.bytes) := (Nat.pow_mul 2 8 _).symm
  rw [TypedInt.bytes, ofBytes_toBytes, hpow, Nat.mod_eq_of_lt (toUnsigned_lt _ _)]
  exact toSigned_toUnsigned (by omega) x.lo x.hi

/-! ## Operations

  The calls of the class that write an integer, one definition for each width in the source,
  and the bytes that a sequence of them leaves (`written`). -/

/-- A call that writes an integer or makes space. -/
inductive IntOp
  | append (x : TypedInt)
  | prepend (x : TypedInt)
  | ensureWritableBytes (len : Nat)
  | shrink (reserve : Nat)

/-- The values appended, in order. -/
def appended : List IntOp → List TypedInt
  | [] => []
  | .append x :: ops => x :: appended ops
  | _ :: ops => appended ops

/-- The values prepended, the last one first. -/
def prepended : List IntOp → List TypedInt
  | [] => []
  | .prepend x :: ops => prepended ops ++ [x]
  | _ :: ops => prepended ops

/-- The bytes in the buffer, when it had `old` in it. What is prepended stands in front of
    `old`, and what is appended behind it, so the order of an append and a prepend does
    not matter. -/
def written (old : List UInt8) (ops : List IntOp) : List UInt8 :=
  (prepended ops).flatMap TypedInt.bytes ++ old ++ (appended ops).flatMap TypedInt.bytes

/-- The call as one that is not about integers. -/
def IntOp.bufferOp : IntOp → BufferOp
  | .append x => .append x.bytes
  | .prepend x => .prepend x.bytes
  | .ensureWritableBytes len => .ensureWritableBytes len
  | .shrink reserve => .shrink reserve

/-- What one call does to the bytes. -/
def IntOp.write (old : List UInt8) : IntOp → List UInt8
  | .append x => old ++ x.bytes
  | .prepend x => x.bytes ++ old
  | _ => old

/-- Operations are done from the first on. -/
theorem written_cons (old : List UInt8) (op : IntOp) (ops : List IntOp) :
    written old (op :: ops) = written (op.write old) ops := by
  cases op with
  | append x =>
    simp only [written, prepended, appended, IntOp.write, List.flatMap_cons, List.append_assoc]
  | prepend x =>
    simp only [written, prepended, appended, IntOp.write, List.flatMap_append, List.flatMap_cons,
      List.flatMap_nil, List.append_nil, List.append_assoc]
  | ensureWritableBytes len => rfl
  | shrink reserve => rfl

namespace Buffer

section Integers

variable [VectorImpl]

/-- The append that the width selects. -/
def appendTyped (b : Buffer) (x : TypedInt) : Outcome Fault Buffer Buffer :=
  match x.width with
  | .int8 => b.appendInt8 x.value
  | .int16 => b.appendInt16 x.value
  | .int32 => b.appendInt32 x.value

/-- The prepend that the width selects. -/
def prependTyped (b : Buffer) (x : TypedInt) : Outcome Fault Buffer Buffer :=
  match x.width with
  | .int8 => b.prependInt8 x.value
  | .int16 => b.prependInt16 x.value
  | .int32 => b.prependInt32 x.value

/-- One operation of a sequence. -/
def performInt (b : Buffer) : IntOp → Outcome Fault Buffer Buffer
  | .append x => b.appendTyped x
  | .prepend x => b.prependTyped x
  | .ensureWritableBytes len => b.ensureWritableBytes len
  | .shrink reserve => b.shrink reserve

/-- Whatever the width, an integer is appended as its bytes. -/
theorem appendTyped_eq (b : Buffer) (x : TypedInt) : b.appendTyped x = b.append x.bytes := by
  obtain ⟨width, value, lo, hi⟩ := x
  cases width <;> rfl

omit [VectorImpl] in
/-- Whatever the width, it is put in front as its bytes. -/
theorem prependTyped_eq (b : Buffer) (x : TypedInt) : b.prependTyped x = b.prepend x.bytes := by
  obtain ⟨width, value, lo, hi⟩ := x
  cases width <;> rfl

/-- An operation on integers is one on bytes, so what is known of those applies. -/
theorem performInt_eq (b : Buffer) (op : IntOp) :
    b.performInt op = b.perform op.bufferOp >>= fun r => .ok r.2 := by
  have hsnd : ∀ r : Outcome Fault Buffer Buffer,
      r = (r >>= fun b => .ok (none, b)) >>= fun r : Option (List UInt8) × Buffer => .ok r.2 := by
    intro r
    cases r <;> rfl
  cases op with
  | append x => exact (appendTyped_eq b x).trans (hsnd _)
  | prepend x => exact (prependTyped_eq b x).trans (hsnd _)
  | ensureWritableBytes len => exact hsnd _
  | shrink reserve => exact hsnd _

/-- There is room in front for what is prepended, and all sizes are below `2 ^ 31`. -/
def Allowed (b : Buffer) (op : IntOp) : Prop := Pre b ByteQueue.empty op.bufferOp

/-- Whether an operation is allowed can be computed. -/
instance (b : Buffer) (op : IntOp) : Decidable (b.Allowed op) := by
  unfold Allowed
  infer_instance

/-- **One call** on a buffer that tracks a queue. -/
theorem performInt_tracks {b : Buffer} {old : List UInt8} {granted : Nat}
    (h : Tracks b ⟨old, [], granted⟩) {op : IntOp} (hop : b.Allowed op) :
    Holds (fun b' => ∃ granted', Tracks b' ⟨op.write old, [], granted'⟩)
      (fun e => e.1 = .lengthError ∧ VectorImpl.maxSize < 2 ^ 34) (b.performInt op) := by
  have hpre : Pre b ⟨old, [], granted⟩ op.bufferOp := by cases op <;> exact hop
  have hqueue : ∃ granted', ByteQueue.perform ⟨old, [], granted⟩ op.bufferOp =
      ⟨op.write old, [], granted'⟩ := by
    cases op <;> exact ⟨_, rfl⟩
  obtain ⟨granted', hqueue⟩ := hqueue
  have hleaves := perform_tracks h hpre
  rw [hqueue] at hleaves
  rw [performInt_eq]
  exact hleaves.bind fun r hr => .ok ⟨granted', hr.2⟩

/-- By induction on the calls: the bytes are those of `written`. -/
theorem run_tracks : ∀ (ops : List IntOp) {b : Buffer} {old : List UInt8} {granted : Nat},
    Tracks b ⟨old, [], granted⟩ → Guarded performInt Allowed b ops →
    Holds (fun b' => ∃ granted', Tracks b' ⟨written old ops, [], granted'⟩)
      (fun e => e.1 = .lengthError ∧ VectorImpl.maxSize < 2 ^ 34) (run performInt b ops) := by
  intro ops
  induction ops with
  | nil =>
    intro b old granted h _
    refine .ok ⟨granted, ?_⟩
    rw [written, prepended, appended, List.flatMap_nil, List.nil_append, List.append_nil]
    exact h
  | cons op ops ih =>
    intro b old granted h hguard
    have hop := performInt_tracks h hguard.1
    rw [run_cons, written_cons]
    cases hstep : b.performInt op with
    | error e =>
      rw [hstep] at hop
      cases hop with
      | error hthrow => exact .error hthrow
    | ok b₁ =>
      rw [hstep] at hop
      obtain ⟨granted₁, h₁⟩ := holds_ok.mp hop
      exact ih h₁ (hguard.2 b₁ hstep)

omit [VectorImpl]

/-! ## Reading

  The calls that look at an integer or take it off, and what they give on a buffer that begins
  with the bytes of one. -/

/-- The look that the width selects. -/
def peekTyped (b : Buffer) : Width → Outcome Fault Buffer Int
  | .int8 => b.peekInt8
  | .int16 => b.peekInt16
  | .int32 => b.peekInt32

/-- The read that the width selects. -/
def readTyped (b : Buffer) : Width → Outcome Fault Buffer (Int × Buffer)
  | .int8 => b.readInt8
  | .int16 => b.readInt16
  | .int32 => b.readInt32

/-- Reads of these widths, one after the other. -/
def readInts (b : Buffer) : List Width → Outcome Fault Buffer (List Int × Buffer)
  | [] => return ([], b)
  | w :: ws => do
    let (x, b) ← b.readTyped w
    let (xs, b) ← b.readInts ws
    return (x :: xs, b)

/-- Where the `assert` of a peek stands. -/
def peekSite : Width → Assertion
  | .int8 => .peekInt8
  | .int16 => .peekInt16
  | .int32 => .peekInt32

/-- Whatever the width, looking is looking at its bytes. -/
theorem peekTyped_eq (b : Buffer) (w : Width) : b.peekTyped w = b.peekInt (peekSite w) w.bytes := by
  cases w <;> rfl

/-- Whatever the width, reading is looking and giving up. -/
theorem readTyped_eq (b : Buffer) (w : Width) :
    b.readTyped w = readInt (b.peekTyped w) (b.retrieve w.bytes) := by
  cases w <;> rfl

/-- **A peek returns what the next read returns**, and fails when that fails. -/
theorem peekTyped_eq_readTyped (b : Buffer) (w : Width) :
    b.peekTyped w = b.readTyped w >>= fun r => .ok r.1 := by
  rw [readTyped_eq, peekTyped_eq, readInt, peekInt]
  by_cases hlen : w.bytes ≤ b.readableBytes
  · rw [require_pos _ _ hlen, ok_bind]
    cases b.bytesAt b.readerIndex_ w.bytes with
    | error e => rfl
    | ok be =>
      -- the retrieve has the same precondition as the peek
      rw [retrieve, require_pos _ _ hlen, ok_bind]
      split <;> rfl
  · rw [require_neg _ _ hlen]
    rfl

/-- A read of a value that is at the front. -/
theorem readTyped_spec {b : Buffer} (h : b.Ok) (x : TypedInt) {rest : List UInt8}
    (hcont : b.contents = x.bytes ++ rest) :
    ∃ b', b.readTyped x.width = .ok (x.value, b') ∧ b'.Ok ∧ b'.contents = rest := by
  have hx := x.bytes_length
  have hlen : x.width.bytes ≤ b.contents.length := by
    rw [hcont, List.length_append]
    omega
  have hfront := bytesAt_spec h (i := 0) (show 0 + x.width.bytes ≤ b.contents.length by omega)
  rw [Nat.add_zero, List.drop_zero, hcont, ← hx, List.take_left, hx] at hfront
  obtain ⟨b', hb', hok, hcont', -⟩ := retrieve_spec h hlen
  rw [hcont, ← hx, List.drop_left] at hcont'
  refine ⟨b', ?_, hok, hcont'⟩
  rw [readTyped_eq, peekTyped_eq, readInt, peekInt,
    require_pos _ _ (by rw [h.readableBytes_eq_length]; exact hlen), ok_bind, hfront, ok_bind]
  show (Except.ok (toSigned (8 * x.width.bytes) (ofBytes x.bytes)) >>= _) = _
  rw [x.value_of_bytes, ok_bind, hb']
  rfl

/-- Reads of values that are at the front, one after the other. -/
theorem readInts_spec (xs : List TypedInt) : ∀ {b : Buffer} {rest : List UInt8}, b.Ok →
    b.contents = xs.flatMap TypedInt.bytes ++ rest →
    ∃ b', b.readInts (xs.map TypedInt.width) = .ok (xs.map TypedInt.value, b') ∧ b'.Ok ∧
      b'.contents = rest := by
  induction xs with
  | nil => exact fun {b rest} h hcont => ⟨b, rfl, h, hcont⟩
  | cons x xs ih =>
    intro b rest h hcont
    rw [List.flatMap_cons, List.append_assoc] at hcont
    obtain ⟨b₁, hb₁, hok₁, hcont₁⟩ := readTyped_spec h x hcont
    obtain ⟨b', hb', hok', hcont'⟩ := ih hok₁ hcont₁
    refine ⟨b', ?_, hok', hcont'⟩
    rw [List.map_cons, readInts, hb₁, ok_bind]
    dsimp only
    rw [hb', ok_bind]
    rfl

/-- Everything is read from the front: integers of the widths `front`, `n` bytes, and integers
    of the widths `back`. An error of any of the reads is one of the whole. -/
def readBack (b : Buffer) (front : List Width) (n : Nat) (back : List Width) :
    Outcome Fault Buffer (List Int × List UInt8 × List Int) := do
  let (xs, b) ← b.readInts front
  let (old, b) ← b.retrieveAsString n
  let (ys, _) ← b.readInts back
  return (xs, old, ys)

/-- **What was written is read back**: in front what was put in front last comes first, then what
    was there before, then what was appended in its order. -/
theorem readBack_spec {b : Buffer} (h : b.Ok) {old : List UInt8} {ops : List IntOp}
    (hcont : b.contents = written old ops) :
    b.readBack ((prepended ops).map TypedInt.width) old.length ((appended ops).map TypedInt.width) =
      .ok ((prepended ops).map TypedInt.value, old, (appended ops).map TypedInt.value) := by
  rw [written, List.append_assoc] at hcont
  obtain ⟨b₁, hb₁, hok₁, hcont₁⟩ := readInts_spec _ h hcont
  have hlen : old.length ≤ b₁.contents.length := by
    rw [hcont₁, List.length_append]
    omega
  obtain ⟨b₂, hb₂, hok₂, hcont₂, -⟩ := retrieveAsString_spec hok₁ hlen
  rw [hcont₁, List.take_left] at hb₂
  rw [hcont₁, List.drop_left, ← List.append_nil ((appended ops).flatMap TypedInt.bytes)] at hcont₂
  obtain ⟨b₃, hb₃, -, -⟩ := readInts_spec _ hok₂ hcont₂
  rw [readBack, hb₁, ok_bind]
  dsimp only
  rw [hb₂, ok_bind]
  dsimp only
  rw [hb₃, ok_bind]
  rfl

/-- **Integers round-trip through a buffer**, with their sign, and each is stored most
    significant byte first; and a peek returns what the next read returns. -/
theorem integers_round_trip [VectorImpl] (b : Buffer) (h : b.Ok) (hlen : b.contents.length < 2 ^ 31)
    (hsize : b.buffer_.size < 2 ^ 33) (ops : List IntOp) (hops : Guarded performInt Allowed b ops) :
    (∀ (b : Buffer) (w : Width), b.peekTyped w = b.readTyped w >>= fun r => .ok r.1) ∧
    Holds (fun b' => b'.contents = written b.contents ops ∧
        b'.readBack ((prepended ops).map TypedInt.width) b.contents.length
          ((appended ops).map TypedInt.width) =
            .ok ((prepended ops).map TypedInt.value, b.contents, (appended ops).map TypedInt.value))
      (fun e => e.1 = .lengthError ∧ VectorImpl.maxSize < 2 ^ 34) (run performInt b ops) := by
  have htracks : Tracks b ⟨b.contents, [], 0⟩ := .plain h rfl h.writer_le hlen hsize
  refine ⟨peekTyped_eq_readTyped, (run_tracks ops htracks hops).mono ?_ fun _ => id⟩
  rintro b' ⟨granted, h'⟩
  exact ⟨h'.contents_eq, readBack_spec h'.ok h'.contents_eq⟩

end Integers

section Examples

attribute [local instance] VectorImpl.exact

/-- An `int16_t`. -/
def short (value : Int) (lo : -2 ^ 15 ≤ value) (hi : value < 2 ^ 15) : TypedInt :=
  ⟨.int16, value, lo, hi⟩

/-- An `int32_t`. -/
def long (value : Int) (lo : -2 ^ 31 ≤ value) (hi : value < 2 ^ 31) : TypedInt :=
  ⟨.int32, value, lo, hi⟩

/-- The room in front is used up, and the buffer grows and is shrunk. -/
def mixed : List IntOp :=
  [.append (short (-2) (by decide) (by decide)), .prepend (long (-1) (by decide) (by decide)),
    .prepend (long 7 (by decide) (by decide)), .ensureWritableBytes 20,
    .append (long (-5) (by decide) (by decide)), .shrink 3,
    .append (short (-128) (by decide) (by decide))]

/-- The preconditions can be met: both ends, two widths, a move of the contents in between. -/
theorem integers_round_trip_mixed :
    Holds (fun b => b.readBack [.int32, .int32] 0 [.int16, .int32, .int16] =
        .ok ([7, -1], [], [-2, -5, -128]))
      (fun e => e.1 = .lengthError ∧ VectorImpl.maxSize < 2 ^ 34)
      (run performInt (new 4) mixed) := by
  have hops : Guarded performInt Allowed (new 4) mixed := by decide +kernel
  exact (integers_round_trip (new 4) (new_ok (by decide)) (by decide) (by decide) mixed hops).2.mono
    (fun _ h => h.2) fun _ => id

end Examples

end Buffer

end IOEvent
