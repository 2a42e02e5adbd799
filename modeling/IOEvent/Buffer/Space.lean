/-
  `ensureWritableBytes` for every `size_t`.

  `makeSpace` adds `len` to `kCheapPrepend` and to `writerIndex_`, and both sums may wrap.  A
  length that takes `writerIndex_ + len` past `2 ^ 64` makes the vector smaller instead of
  larger, and the assertion at the end holds because the writable bytes wrap as well; a length
  within `kCheapPrepend` of `2 ^ 64` may take the branch that moves the bytes, which gives no
  such space.  `Fits` says that neither happens, and `correct_or_no_effect_iff` that the function
  is right exactly then.

  The buffer is any one whose indices are in order; the room in front of the bytes may be smaller
  than `kCheapPrepend`.

  Both directions go by the three ways the function can take: there is room, the vector is
  resized, or the bytes are moved.  In each of them what comes out is computed with the wrapped
  sums, and compared with what was asked for.
-/
import IOEvent.Buffer

open Foundation

namespace IOEvent

namespace Buffer

variable {b : Buffer} {len : Nat}

section Space

variable [VectorImpl]

/-- The indices are in order, and the vector is one that there can be. -/
structure InOrder (b : Buffer) : Prop where
  reader_le : b.readerIndex_ ≤ b.writerIndex_
  writer_le : b.writerIndex_ ≤ b.buffer_.size
  size_le : b.buffer_.size ≤ VectorImpl.maxSize

/-- `b'` has the readable bytes of `b`, and `len` writable ones. -/
structure HasSpace (b b' : Buffer) (len : Nat) : Prop where
  reader_le : b'.readerIndex_ ≤ b'.writerIndex_
  writer_le : b'.writerIndex_ ≤ b'.buffer_.size
  readable : b'.contents = b.contents
  writable : len ≤ b'.buffer_.size - b'.writerIndex_

/-- `ensureWritableBytes(len)` makes the space, or throws and leaves the buffer as it is. The
    other failures, an assertion or a copy outside the storage, are what the property
    excludes. -/
def CorrectOrNoEffect (b : Buffer) (len : Nat) : Prop :=
  Holds (HasSpace b · len) (fun f => f.1 = .lengthError ∧ f.2 = b) (b.ensureWritableBytes len)

/-- The new size of the vector does not wrap; and the room that is asked for does not, or
    what is left of it is still more than there is. It is on the buffer and the length before
    the call. -/
def Fits (b : Buffer) (len : Nat) : Prop :=
  b.writerIndex_ + len < 2 ^ 64 ∧
    (len + kCheapPrepend < 2 ^ 64 ∨
      b.buffer_.size - b.writerIndex_ + b.readerIndex_ < len + kCheapPrepend - 2 ^ 64)

namespace InOrder

/-- The size of a storage is below `2 ^ 63`. -/
theorem size_lt (h : b.InOrder) : b.buffer_.size < 2 ^ 63 :=
  Nat.lt_of_le_of_lt h.size_le VectorImpl.maxSize_lt

/-- The positions are in order, so their difference does not wrap. -/
theorem readableBytes_eq (h : b.InOrder) : b.readableBytes = b.writerIndex_ - b.readerIndex_ :=
  subSize_of_le h.reader_le

/-- Nor does that of the size and the writer. -/
theorem writableBytes_eq (h : b.InOrder) : b.writableBytes = b.buffer_.size - b.writerIndex_ :=
  subSize_of_le h.writer_le

/-- The contents are what lies between the positions. -/
theorem contents_length (h : b.InOrder) : b.contents.length = b.writerIndex_ - b.readerIndex_ := by
  have hr := h.reader_le
  have hw := h.writer_le
  rw [Vec.size] at hw
  exact length_segment (by omega)

/-- What there is in front of the bytes and behind them. -/
theorem room_eq (h : b.InOrder) : addSize b.writableBytes b.prependableBytes =
    b.buffer_.size - b.writerIndex_ + b.readerIndex_ := by
  have hr := h.reader_le
  have hw := h.writer_le
  have hs := h.size_lt
  rw [h.writableBytes_eq, prependableBytes, addSize_of_lt (by omega)]

end InOrder

/-- Where there is room enough a buffer has the space as it is. -/
theorem hasSpace_self (h : b.InOrder) (hroom : len ≤ b.buffer_.size - b.writerIndex_) :
    HasSpace b b len := ⟨h.reader_le, h.writer_le, rfl, hroom⟩

/-- There is room, and nothing happens. -/
theorem correct_of_le (h : b.InOrder) (hroom : len ≤ b.buffer_.size - b.writerIndex_) :
    b.CorrectOrNoEffect len := by
  have hwritable := h.writableBytes_eq
  rw [CorrectOrNoEffect, ensureWritableBytes, if_neg (by omega)]
  show Holds _ _ (require _ _ b >>= fun _ => .ok b)
  rw [require_pos _ _ (by omega), ok_bind]
  exact .ok (hasSpace_self h hroom)

/-- There is not. -/
theorem ensureWritableBytes_of_lt (h : b.InOrder) (hroom : b.buffer_.size - b.writerIndex_ < len) :
    b.ensureWritableBytes len = b.makeSpace len >>= fun b' =>
      require (len ≤ b'.writableBytes) (.assertFailed .ensureWritableBytes) b' >>= fun _ =>
        .ok b' := by
  rw [ensureWritableBytes, if_pos (by rw [h.writableBytes_eq]; exact hroom)]
  rfl

/-! ## The vector is resized

  The first branch of `makeSpace`.  The new size is `writerIndex_ + len` as the code computes
  it, which may be less than the size there was. -/

/-- Where the free bytes are too few the storage is resized. -/
theorem makeSpace_resized (h : b.InOrder)
    (hguard : b.buffer_.size - b.writerIndex_ + b.readerIndex_ < addSize len kCheapPrepend)
    {v : Vec UInt8} (hv : b.buffer_.resize 0 (addSize b.writerIndex_ len) = some v) :
    b.makeSpace len = .ok { b with buffer_ := v } := by
  rw [makeSpace, h.room_eq, if_pos hguard, hv]

/-- If that throws, nothing has changed. -/
theorem makeSpace_throws (h : b.InOrder)
    (hguard : b.buffer_.size - b.writerIndex_ + b.readerIndex_ < addSize len kCheapPrepend)
    (hv : b.buffer_.resize 0 (addSize b.writerIndex_ len) = none) :
    b.makeSpace len = .error (.lengthError, b) := by
  rw [makeSpace, h.room_eq, if_pos hguard, hv]

/-- To a larger size: it grows or throws. -/
theorem correct_of_resize (h : b.InOrder) (hroom : b.buffer_.size - b.writerIndex_ < len)
    (hguard : b.buffer_.size - b.writerIndex_ + b.readerIndex_ < addSize len kCheapPrepend)
    (hsum : b.writerIndex_ + len < 2 ^ 64) : b.CorrectOrNoEffect len := by
  have hr := h.reader_le
  have hw := h.writer_le
  rw [CorrectOrNoEffect, ensureWritableBytes_of_lt h hroom]
  have hexact := addSize_of_lt hsum
  by_cases hmax : b.writerIndex_ + len ≤ VectorImpl.maxSize
  · obtain ⟨v, hv, helems, hsize, -⟩ :=
      Vec.resize_of_lt (v := b.buffer_) (n := b.writerIndex_ + len) (0 : UInt8) (by omega) hmax
    have hwritable : writableBytes { b with buffer_ := v } = len := by
      show subSize v.size b.writerIndex_ = len
      rw [hsize, subSize_of_le (Nat.le_add_right _ _), Nat.add_sub_cancel_left]
    rw [makeSpace_resized h hguard (by rw [hexact, hv]), ok_bind,
      require_pos _ _ (by omega), ok_bind]
    refine .ok ⟨hr, ?_, ?_, ?_⟩
    · show b.writerIndex_ ≤ v.size
      omega
    · have hend : b.readerIndex_ + (b.writerIndex_ - b.readerIndex_) ≤ b.buffer_.elems.length := by
        rw [Vec.size] at hw
        omega
      show segment v.elems _ _ = _
      rw [helems, padded, segment_append_left hend, contents]
    · show len ≤ v.size - b.writerIndex_
      omega
  · have hthrow := Vec.resize_of_maxSize_lt (v := b.buffer_) (0 : UInt8) (Nat.lt_of_not_le hmax)
    rw [makeSpace_throws h hguard (by rw [hexact, hthrow])]
    exact .error ⟨rfl, rfl⟩

/-- To a smaller size, because the sum has wrapped: the write end is left behind the storage. -/
theorem not_correct_of_wrap (h : b.InOrder) (hlen : len < 2 ^ 64)
    (hroom : b.buffer_.size - b.writerIndex_ < len)
    (hguard : b.buffer_.size - b.writerIndex_ + b.readerIndex_ < addSize len kCheapPrepend)
    (hsum : 2 ^ 64 ≤ b.writerIndex_ + len) : ¬ b.CorrectOrNoEffect len := by
  have hw := h.writer_le
  have hs := h.size_le
  have hwrapped : addSize b.writerIndex_ len = b.writerIndex_ + len - 2 ^ 64 := if_neg (by omega)
  obtain ⟨v, hv, hsize⟩ := Vec.resize_of_le (v := b.buffer_) (n := b.writerIndex_ + len - 2 ^ 64)
    (0 : UInt8) (by omega) (by omega)
  rw [CorrectOrNoEffect, ensureWritableBytes_of_lt h hroom,
    makeSpace_resized h hguard (by rw [hwrapped, hv]), ok_bind]
  intro hcorrect
  by_cases hassert : len ≤ writableBytes { b with buffer_ := v }
  · -- the assertion does not see it
    rw [require_pos _ _ hassert, ok_bind] at hcorrect
    have hle : b.writerIndex_ ≤ v.size := (holds_ok.mp hcorrect).writer_le
    omega
  · rw [require_neg _ _ hassert] at hcorrect
    cases (holds_error.mp hcorrect).1

/-! ## The bytes are moved to the front

  The other branch.  It is right when the room counted in the guard is there, and that is a
  matter of the wrapped sum on its right side. -/

/-- What the branch that moves the bytes ends with, when there is more room than `kCheapPrepend` in
    front of them. -/
theorem makeSpace_moves (h : b.InOrder)
    (hguard : addSize len kCheapPrepend ≤ b.buffer_.size - b.writerIndex_ + b.readerIndex_)
    (hfront : kCheapPrepend < b.readerIndex_) :
    ∃ v, b.makeSpace len = .ok ⟨v, kCheapPrepend, kCheapPrepend + b.contents.length⟩ ∧
      v.size = b.buffer_.size ∧ segment v.elems kCheapPrepend b.contents.length = b.contents := by
  have hr := h.reader_le
  have hw := h.writer_le
  have hs := h.size_lt
  have hl := h.contents_length
  have hread := h.readableBytes_eq
  have hk : kCheapPrepend = 8 := rfl
  have hfit : kCheapPrepend + b.contents.length ≤ b.buffer_.size := by omega
  obtain ⟨v, hv, helems, hsize, -, -⟩ := Vec.splice_of_le hfit
  have hslice : b.buffer_.slice b.readerIndex_ b.readableBytes = some b.contents := by
    rw [hread, Vec.slice_of_le (by omega), contents]
  have hend : addSize kCheapPrepend b.readableBytes = kCheapPrepend + b.contents.length := by
    rw [hread, hl, addSize_of_lt (by omega)]
  refine ⟨v, ?_, hsize, ?_⟩
  · rw [makeSpace, h.room_eq, if_neg (by omega), require_pos _ _ hfront, ok_bind]
    simp only [bytesAt, hslice, ok_bind, copyTo, hv, hend]
    rw [require_pos, ok_bind]
    · rfl
    · show b.readableBytes = subSize (kCheapPrepend + b.contents.length) kCheapPrepend
      rw [subSize_of_le (Nat.le_add_right _ _), hread]
      omega
  · rw [helems]
    exact segment_overwrite_self (by rw [Vec.size] at hfit; exact hfit)

/-- Where they are enough, moving the contents to the front makes the space. -/
theorem correct_of_move (h : b.InOrder) (hroom : b.buffer_.size - b.writerIndex_ < len)
    (hguard : addSize len kCheapPrepend ≤ b.buffer_.size - b.writerIndex_ + b.readerIndex_)
    (hneed : len + kCheapPrepend < 2 ^ 64) : b.CorrectOrNoEffect len := by
  have hr := h.reader_le
  have hw := h.writer_le
  have hl := h.contents_length
  have hexact := addSize_of_lt hneed
  obtain ⟨v, hmove, hsize, hcontents⟩ := makeSpace_moves h hguard (by omega)
  have hwriter : kCheapPrepend + b.contents.length ≤ v.size := by omega
  rw [CorrectOrNoEffect, ensureWritableBytes_of_lt h hroom, hmove, ok_bind, require_pos, ok_bind]
  · refine .ok ⟨Nat.le_add_right _ _, hwriter, ?_, ?_⟩
    · show segment v.elems kCheapPrepend (kCheapPrepend + b.contents.length - kCheapPrepend) = _
      rw [Nat.add_sub_cancel_left, hcontents]
    · show len ≤ v.size - (kCheapPrepend + b.contents.length)
      omega
  · show len ≤ subSize v.size (kCheapPrepend + b.contents.length)
    rw [subSize_of_le hwriter]
    omega

/-- A length so large that `len + kCheapPrepend` wraps is not what the move makes space for: one of
    the two assertions fails. -/
theorem not_correct_of_move (h : b.InOrder)
    (hroom : b.buffer_.size - b.writerIndex_ < len)
    (hguard : addSize len kCheapPrepend ≤ b.buffer_.size - b.writerIndex_ + b.readerIndex_)
    (hneed : 2 ^ 64 ≤ len + kCheapPrepend) : ¬ b.CorrectOrNoEffect len := by
  have hr := h.reader_le
  have hw := h.writer_le
  have hs := h.size_lt
  have hl := h.contents_length
  have hk : kCheapPrepend = 8 := rfl
  rw [CorrectOrNoEffect, ensureWritableBytes_of_lt h hroom]
  intro hcorrect
  by_cases hfront : kCheapPrepend < b.readerIndex_
  · obtain ⟨v, hmove, hsize, -⟩ := makeSpace_moves h hguard hfront
    rw [hmove, ok_bind, require_neg] at hcorrect
    · cases (holds_error.mp hcorrect).1
    · show ¬ len ≤ subSize v.size (kCheapPrepend + b.contents.length)
      rw [subSize_of_le (by omega)]
      omega
  · rw [makeSpace, h.room_eq, if_neg (by omega), require_neg _ _ hfront] at hcorrect
    cases (holds_error.mp hcorrect).1

/-- **`ensureWritableBytes` is correct or has no effect** exactly for the lengths that fit. -/
theorem correct_or_no_effect_iff (hreader : b.readerIndex_ ≤ b.writerIndex_)
    (hwriter : b.writerIndex_ ≤ b.buffer_.size) (hsize : b.buffer_.size ≤ VectorImpl.maxSize)
    (hlen : len < 2 ^ 64) : b.CorrectOrNoEffect len ↔ b.Fits len := by
  have h : b.InOrder := ⟨hreader, hwriter, hsize⟩
  have hs := h.size_lt
  have hk : kCheapPrepend = 8 := rfl
  rcases Nat.lt_or_ge (b.buffer_.size - b.writerIndex_) len with hroom | hroom
  · rcases Nat.lt_or_ge (len + kCheapPrepend) (2 ^ 64) with hneed | hneed
    · have hexact := addSize_of_lt hneed
      rcases Nat.lt_or_ge (b.buffer_.size - b.writerIndex_ + b.readerIndex_)
        (addSize len kCheapPrepend) with hguard | hguard
      · rcases Nat.lt_or_ge (b.writerIndex_ + len) (2 ^ 64) with hsum | hsum
        · exact iff_of_true (correct_of_resize h hroom hguard hsum) ⟨hsum, Or.inl hneed⟩
        · exact iff_of_false (not_correct_of_wrap h hlen hroom hguard hsum)
            fun hfits => absurd hfits.1 (by omega)
      · exact iff_of_true (correct_of_move h hroom hguard hneed) ⟨by omega, Or.inl hneed⟩
    · -- `len + kCheapPrepend` wraps
      have hwrapped : addSize len kCheapPrepend = len + kCheapPrepend - 2 ^ 64 := if_neg (by omega)
      rcases Nat.lt_or_ge (b.buffer_.size - b.writerIndex_ + b.readerIndex_)
        (addSize len kCheapPrepend) with hguard | hguard
      · rcases Nat.lt_or_ge (b.writerIndex_ + len) (2 ^ 64) with hsum | hsum
        · exact iff_of_true (correct_of_resize h hroom hguard hsum)
            ⟨hsum, Or.inr (by omega)⟩
        · exact iff_of_false (not_correct_of_wrap h hlen hroom hguard hsum)
            fun hfits => absurd hfits.1 (by omega)
      · refine iff_of_false (not_correct_of_move h hroom hguard hneed) fun hfits => ?_
        rcases hfits.2 with hlt | hlt <;> omega
  · refine iff_of_true (correct_of_le h hroom) ⟨by omega, Or.inl (by omega)⟩

end Space

section Examples

attribute [local instance] VectorImpl.exact

/-- A grown buffer of four bytes. -/
theorem correct_or_no_effect_grown : ((new 4).CorrectOrNoEffect 20 ↔ (new 4).Fits 20) ∧
    (new 4).Fits 20 :=
  ⟨correct_or_no_effect_iff (by decide) (by decide) (by decide) (by decide), by decide, by decide⟩

/-- **The vector shrinks**: a connection's buffer has received the length word -9, and the body
    is to have that many bytes. -/
theorem negative_length_shrinks : ∃ b : Buffer, (new kInitialSize).appendInt32 (-9) = .ok b ∧
    b.InOrder ∧ ¬ b.CorrectOrNoEffect (toUnsigned 64 (-9)) := by
  have hend : ((new kInitialSize).appendInt32 (-9)).toOption.map
      (fun b => (b.readerIndex_, b.writerIndex_, b.buffer_.size)) = some (8, 12, 1032) := by
    decide +kernel
  have hlen : toUnsigned 64 (-9) = 2 ^ 64 - 9 := by decide
  have hmax : VectorImpl.maxSize = 2 ^ 63 - 1 := rfl
  cases hb : (new kInitialSize).appendInt32 (-9) with
  | error f =>
    rw [hb] at hend
    cases hend
  | ok b =>
    rw [hb] at hend
    obtain ⟨hreader, hend⟩ := Prod.mk.inj (Option.some.inj hend)
    obtain ⟨hwriter, hsize⟩ := Prod.mk.inj hend
    have h : b.InOrder := ⟨by omega, by omega, by omega⟩
    refine ⟨b, rfl, h, ?_⟩
    rw [hlen]
    refine not_correct_of_wrap h (by decide) (by omega) ?_ (by omega)
    rw [addSize_of_lt (by decide), hreader, hwriter, hsize]
    decide

end Examples

end Buffer

end IOEvent
