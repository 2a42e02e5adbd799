/-
  Length-header decoding does not depend on how the stream is cut.

  Taken by itself, `LengthHeaderCodec::onMessage` is called whenever bytes have been appended to
  a buffer, with any number of frames in it and any part of the next one.  Its loop takes frames
  off as long as it can.  It stops at no more than a header, at a part of a body, and at an
  invalid length; none of the three takes a byte, so the next call finds what it needs.

  `frames` is the loop's parser on the contents of the buffer, a `FrameParser`: one call of
  `onMessage` decodes the contents (`onMessage_decodes`).  An invalid length at the front is
  there for good (`Refused.append`), so a shutdown is requested if and only if the decoding has
  stopped at one.  Both facts are kept from chunk to chunk (`receive_decodes`), and the decoding
  of the whole stream is unique.
-/
import IOEvent.Codec
import IOEvent.Buffer.Queue
import IOEvent.Foundation.Decoding

open Foundation

namespace IOEvent

namespace LengthHeaderCodec

/-! ## The parser of the loop

  The loop as a function on the bytes, and its two laws. -/

/-- An invalid length is at the front. -/
def Refused (c : List UInt8) : Prop := 4 < c.length ∧ 65536 < ofBytes (c.take 4)

/-- Whether a buffer is refused is read off its header. -/
instance (c : List UInt8) : Decidable (Refused c) := inferInstanceAs (Decidable (_ ∧ _))

/-- A header that is there does not change when bytes arrive behind it. -/
theorem take_append_of_le {c : List UInt8} (h : 4 < c.length) (d : List UInt8) :
    (c ++ d).take 4 = c.take 4 := List.take_append_of_le_length (Nat.le_of_lt h)

/-- It stays there. -/
theorem Refused.append {c : List UInt8} (h : Refused c) (d : List UInt8) : Refused (c ++ d) := by
  obtain ⟨hlong, hbig⟩ := h
  constructor
  · rw [List.length_append]
    omega
  · rw [take_append_of_le hlong]
    exact hbig

/-- The first frame: there is more than a header, the length is valid, and the body is complete. -/
def firstFrame (c : List UInt8) : Option (List UInt8 × List UInt8) :=
  if 4 < c.length ∧ ofBytes (c.take 4) ≤ 65536 ∧ 4 + ofBytes (c.take 4) ≤ c.length then
    some ((c.drop 4).take (ofBytes (c.take 4)), c.drop (4 + ofBytes (c.take 4)))
  else
    none

/-- What it means that a buffer begins with a frame: more than the header is there, the length is
    valid, and the body is there. -/
theorem firstFrame_eq_some {c m r : List UInt8} (h : firstFrame c = some (m, r)) :
    4 < c.length ∧ ofBytes (c.take 4) ≤ 65536 ∧ 4 + ofBytes (c.take 4) ≤ c.length ∧
      m = (c.drop 4).take (ofBytes (c.take 4)) ∧ r = c.drop (4 + ofBytes (c.take 4)) := by
  unfold firstFrame at h
  split at h
  case isTrue hframe =>
    cases h
    exact ⟨hframe.1, hframe.2.1, hframe.2.2, rfl, rfl⟩
  case isFalse => cases h

/-- The frames as a decoder: its two laws say that a frame is not empty, and that it is not
    changed by what arrives behind it. -/
def frames : FrameParser UInt8 (List UInt8) where
  next := firstFrame
  shrinks := by
    intro c m r h
    obtain ⟨hlong, -, -, -, rfl⟩ := firstFrame_eq_some h
    rw [List.length_drop]
    omega
  stable := by
    intro c m r h d
    obtain ⟨hlong, hvalid, hwhole, rfl, rfl⟩ := firstFrame_eq_some h
    unfold firstFrame
    rw [take_append_of_le hlong, List.length_append, if_pos ⟨by omega, hvalid, by omega⟩,
      List.drop_append_of_le_length (by omega), List.drop_append_of_le_length hwhole,
      List.take_append_of_le_length (by rw [List.length_drop]; omega)]

/-- A refused header is no frame. -/
theorem Refused.stops {c : List UInt8} (h : Refused c) : frames.next c = none := by
  apply if_neg
  intro hframe
  have hbig := h.2
  omega

/-! ## One call

  The turns of one call decode the contents of the buffer up to where the parser stops. -/

/-- The messages handed to the callback. -/
def messages (calls : List Act) : List (List UInt8) := calls.filterMap fun
  | .deliver message => some message
  | _ => none

/-- The messages of several calls. -/
@[simp] theorem messages_append (calls calls' : List Act) :
    messages (calls ++ calls') = messages calls ++ messages calls' := List.filterMap_append

/-- What a call of `onMessage` leaves of the buffer `b`, and the calls it makes. The storage
    is the one there was, since nothing is written. -/
structure Decoded (b b' : Buffer) (calls : List Act) : Prop where
  ok : b'.Ok
  buffer_eq : b'.buffer_ = b.buffer_
  decodes : Decodes frames b.contents (messages calls) b'.contents
  shutdown_iff : .shutdown ∈ calls ↔ Refused b'.contents

/-- Nothing can be taken off. -/
theorem Decoded.idle {b : Buffer} (hok : b.Ok)
    (h : b.contents.length ≤ 4 ∨
      ofBytes (b.contents.take 4) ≤ 65536 ∧ b.contents.length < 4 + ofBytes (b.contents.take 4)) :
    Decoded b b [] where
  ok := hok
  buffer_eq := rfl
  decodes := by
    apply Decodes.stop
    apply if_neg
    omega
  shutdown_iff := by
    simp only [List.not_mem_nil, false_iff, Refused]
    omega

/-- The loop from a buffer with at most `n` bytes, after the calls `before`. -/
theorem loop_decodes (n : Nat) :
    ∀ (b : Buffer), b.Ok → b.contents.length ≤ n → ∀ before : List Act,
      ∃ k b' calls, loop turn k (b, before) = some (.ok (b', before ++ calls)) ∧
        Decoded b b' calls := by
  induction n with
  | zero =>
    intro b hok hlen before
    exact ⟨1, b, [], by rw [loop_done (turn_short hok (by omega) before) 0, List.append_nil],
      .idle hok (by omega)⟩
  | succ n ih =>
    intro b hok hlen before
    obtain ⟨t, ht, hturned⟩ := turn_cases hok before
    cases hturned with
    | short hshort =>
      exact ⟨1, b, [], by rw [loop_done ht 0, List.append_nil], .idle hok (by omega)⟩
    | refused hlong hbig =>
      refine ⟨1, b, [.shutdown], loop_done ht 0, hok, rfl, ?_, ?_⟩
      · exact .stop (Refused.stops ⟨hlong, hbig⟩)
      · simp [Refused, hlong, hbig]
    | waits hlong k hk hvalid hpart =>
      exact ⟨1, b, [], by rw [loop_done ht 0, List.append_nil], .idle hok (by omega)⟩
    | taken hlong k hk hvalid hwhole b₁ hok₁ hcont hbuf hall =>
      -- one frame is taken off, and the rest is shorter
      obtain ⟨turns, b', calls, hloop, hdec⟩ := ih b₁ hok₁
        (by rw [hcont, List.length_drop]; omega)
        (before ++ [.deliver ((b.contents.drop 4).take k)])
      refine ⟨turns + 1, b', .deliver ((b.contents.drop 4).take k) :: calls, ?_, hdec.ok,
        hdec.buffer_eq.trans hbuf, ?_, ?_⟩
      · rw [loop_next ht, hloop, List.append_assoc, List.singleton_append]
      · apply Decodes.next (r := b₁.contents)
        · show firstFrame b.contents = _
          rw [firstFrame, hk, if_pos ⟨hlong, hvalid, hwhole⟩, hcont]
        · exact hdec.decodes
      · simp [hdec.shutdown_iff]

/-- **One call**: `onMessage` decodes the contents of the buffer. -/
theorem onMessage_decodes {b : Buffer} (hok : b.Ok) :
    ∃ b' calls, onMessage b = .ok (b', calls) ∧ Decoded b b' calls := by
  obtain ⟨k, b', calls, hloop, hdec⟩ := loop_decodes b.contents.length b hok (Nat.le_refl _) []
  exact ⟨b', calls, onMessage_eq hok hloop, hdec⟩

/-! ## The stream in chunks

  The calls one after the other.  What is in the buffer between two of them is the rest of the
  decoding so far. -/

/-- What has been received so far is `stream`, in a buffer of less than `size` bytes. It is
    the invariant of the run over the chunks; the bound on the storage is there for the
    `append` of the next chunk. -/
structure Received (size : Nat) (stream : List UInt8) (s : Buffer × List Act) : Prop where
  ok : s.1.Ok
  size_lt : s.1.buffer_.size < size
  decodes : Decodes frames stream (messages s.2) s.1.contents
  shutdown_iff : .shutdown ∈ s.2 ↔ Refused s.1.contents

/-- What is left is no longer than what has arrived. -/
theorem Received.length_le {size : Nat} {stream : List UInt8} {s : Buffer × List Act}
    (h : Received size stream s) : s.1.contents.length ≤ stream.length := h.decodes.length_le

section Receive

variable [VectorImpl]

/-- A chunk is appended, and `onMessage` is called. -/
def chunk (s : Buffer × List Act) (bytes : List UInt8) :
    Outcome Fault Buffer (Buffer × List Act) := do
  let b ← s.1.append bytes
  let (b, calls) ← onMessage b
  return (b, s.2 ++ calls)

/-- Chunk after chunk, with all the calls made. -/
def receive (b : Buffer) (chunks : List (List UInt8)) : Outcome Fault Buffer (Buffer × List Act) :=
  run chunk (b, []) chunks

/-- **One chunk** more.  After an invalid length nothing is taken off any more, and it is still at
    the front. -/
theorem Received.chunk {size : Nat} {stream : List UInt8} {s : Buffer × List Act}
    (h : Received size stream s) (bytes : List UInt8)
    (hsize : 2 * (stream ++ bytes).length + 8 < size)
    (hmax : size + bytes.length ≤ VectorImpl.maxSize) :
    ∃ s', chunk s bytes = .ok s' ∧ Received size (stream ++ bytes) s' := by
  have hlt := VectorImpl.maxSize_lt
  have hw := h.ok.writer_le
  have hs := h.size_lt
  have hle := h.length_le
  rw [List.length_append] at hsize
  rw [LengthHeaderCodec.chunk]
  -- `append` has the room, as the stream is bounded by `size`
  rcases Buffer.append_cases h.ok (show bytes.length < 2 ^ 63 by omega) with
    ⟨b₁, v, hm, -, hv, -, happ, hok, hcont⟩ | ⟨-, hthrow⟩
  · obtain ⟨b', calls, hmsg, hdec⟩ := onMessage_decodes hok
    have hsize₁ := hm.size_lt h.ok (n := size) hs (by rw [Buffer.kCheapPrepend]; omega)
    have hdecodes := hdec.decodes
    rw [hcont] at hdecodes
    rw [happ, ok_bind, hmsg, ok_bind]
    refine ⟨(b', s.2 ++ calls), rfl, hdec.ok, ?_, ?_, ?_⟩
    · show b'.buffer_.size < size
      rw [hdec.buffer_eq]
      exact hv.trans_lt hsize₁
    · show Decodes frames _ (messages (s.2 ++ calls)) _
      rw [messages_append]
      exact h.decodes.append hdecodes
    · -- once the stream is refused it stays refused
      show _ ∈ s.2 ++ calls ↔ _
      rw [List.mem_append, h.shutdown_iff, hdec.shutdown_iff]
      constructor
      · rintro (hrefused | hrefused)
        · -- the old front is the new one
          have hstays := hrefused.append bytes
          obtain ⟨-, hsame⟩ := hdecodes.unique (.stop hstays.stops)
          rw [hsame]
          exact hstays
        · exact hrefused
      · exact Or.inr
  · omega

/-- By induction on the chunks. -/
theorem receive_decodes {size : Nat} (chunks : List (List UInt8)) :
    ∀ {stream : List UInt8} {s : Buffer × List Act}, Received size stream s →
      2 * (stream ++ chunks.flatten).length + 8 < size →
      size + chunks.flatten.length ≤ VectorImpl.maxSize →
      ∃ s', run LengthHeaderCodec.chunk s chunks = .ok s' ∧
        Received size (stream ++ chunks.flatten) s' := by
  induction chunks with
  | nil =>
    intro stream s h _ _
    refine ⟨s, rfl, ?_⟩
    rw [List.flatten_nil, List.append_nil]
    exact h
  | cons bytes chunks ih =>
    intro stream s h hsize hmax
    simp only [List.flatten_cons, List.length_append] at hsize hmax
    obtain ⟨s₁, hs₁, h₁⟩ := h.chunk bytes
      (by rw [List.length_append]; omega) (by omega)
    obtain ⟨s', hs', h'⟩ := ih h₁ (by simp only [List.length_append]; omega) (by omega)
    refine ⟨s', ?_, ?_⟩
    · rw [run_cons, hs₁, ok_bind, hs']
    · rw [List.flatten_cons, ← List.append_assoc]
      exact h'

/-- **The cut does not matter**: appended in chunks, with a call of `onMessage` after each, or
    all at once, a stream gives the same messages, the same bytes are left, and a shutdown is
    requested in both cases or in none. -/
theorem receive_chunks {b : Buffer} (hok : b.Ok) (hempty : b.contents = [])
    (chunks : List (List UInt8))
    (hmax : b.buffer_.size + 3 * chunks.flatten.length + 9 ≤ VectorImpl.maxSize) :
    ∃ s s', receive b chunks = .ok s ∧ receive b [chunks.flatten] = .ok s' ∧
      messages s.2 = messages s'.2 ∧ s.1.contents = s'.1.contents ∧
      (.shutdown ∈ s.2 ↔ .shutdown ∈ s'.2) := by
  have hstart : Received (b.buffer_.size + 2 * chunks.flatten.length + 9) [] (b, []) := by
    refine ⟨hok, by show b.buffer_.size < _; omega, ?_, ?_⟩
    · show Decodes frames [] [] b.contents
      rw [hempty]
      exact .stop rfl
    · simp [hempty, Refused]
  have hflat : [chunks.flatten].flatten = chunks.flatten := by simp
  obtain ⟨s, hs, h⟩ := receive_decodes chunks hstart (by rw [List.nil_append]; omega) (by omega)
  obtain ⟨s', hs', h'⟩ := receive_decodes [chunks.flatten] hstart
    (by rw [hflat, List.nil_append]; omega) (by rw [hflat]; omega)
  rw [List.nil_append] at h h'
  rw [hflat] at h'
  obtain ⟨hmessages, hrest⟩ := h.decodes.unique h'.decodes
  refine ⟨s, s', hs, hs', hmessages, hrest, ?_⟩
  rw [h.shutdown_iff, h'.shutdown_iff, hrest]

end Receive

section Examples

attribute [local instance] VectorImpl.exact

/-- Two frames, one of them empty, and an invalid length, cut inside the first header, inside the
    second one and between two frames. -/
theorem receive_chunks_cut :
    ∃ s s', receive (Buffer.new 4) [[0, 0], [0, 1, 7, 0, 0], [0, 0], [255, 0, 0, 0, 1]] = .ok s ∧
      receive (Buffer.new 4) [[0, 0, 0, 1, 7, 0, 0, 0, 0, 255, 0, 0, 0, 1]] = .ok s' ∧
      messages s.2 = messages s'.2 ∧ s.1.contents = s'.1.contents ∧
      (.shutdown ∈ s.2 ↔ .shutdown ∈ s'.2) :=
  receive_chunks (Buffer.new_ok (by decide)) (Buffer.contents_new 4) _ (by decide)

end Examples

end LengthHeaderCodec

end IOEvent
