/-
  Decoding stays inside the frame.

  `parseInside` and `turnInside` are `parse` and the turn of `onMessage` once more, with each
  operation of the source checked: the differences of `size_t`s, the sum of two `int`s, each
  `int` that a comparison or a difference turns into a `size_t`, the casts to `int`, each pointer
  and each range.  The data of `parseInside` are the `bodyLen` bytes behind the length word, and
  those of `turnInside` are the readable bytes.  They never fail, and they do what `parse` and
  `turn` do (`decoding_stays_inside`).

  The proofs go check by check: under the guards that precede it in the source each operation
  has the mathematical result, so the checked one returns it and the unchecked one does too.
  What one guard establishes, the next operations use.
-/
import IOEvent.Foundation.Checked
import IOEvent.ProtobufCodec.Frames

open Foundation

namespace IOEvent

namespace ProtobufCodec

section Inside

variable {Message Descriptor : Type} (lib : Protobuf Message Descriptor)

/-- `parse(data, len)`. -/
def parseInside (data : List UInt8) : Except Slip (Option Message) := do
  let len := data.length
  -- `data + len - kHeaderLen`, and the word there
  let last ← checkedAdvance data 0 len
  let last ← checkedSub last (← checkedSize kHeaderLen)
  let expectedCheckSum := networkToHost32 (← checkedRange data last 4)
  -- `static_cast<int>(len - kHeaderLen)` bytes are summed
  let covered ← checkedCast 32 (← checkedSub len (← checkedSize kHeaderLen))
  let summed ← checkedRange data 0 (← checkedSize covered)
  if toSigned 32 (lib.adler32 1 summed) = expectedCheckSum then
    let nameLen := networkToHost32 (← checkedRange data 0 4)
    -- the second operand is evaluated when the first one holds
    if 2 ≤ nameLen then
      let room ← checkedSub len (← checkedSize (2 * kHeaderLen))
      if (← checkedSize nameLen) ≤ room then
        let first ← checkedAdvance data 0 (← checkedSize kHeaderLen)
        let behind ← checkedAdvance data first (← checkedSize nameLen)
        let typeName ← checkedRange data first (← checkedSub (← checkedSub behind 1) first)
        match createMessage lib typeName with
        | none => return none
        | some message =>
          let buf := behind
          let dataLen ← checkedSub (← checkedSub len (← checkedSize nameLen))
            (← checkedSize (2 * kHeaderLen))
          let payload ← checkedRange data buf (← checkedSize (← checkedCast 32 dataLen))
          return some (lib.ParseFromArray message payload)
      else
        return none
    else
      return none
  else
    return none

/-- The `n` bytes at `peek() + i`, which are readable. -/
def readableInside (b : Buffer) (i n : Nat) : Except Slip (List UInt8) := do
  let readable ← checkedSub b.writerIndex_ b.readerIndex_
  if i + n ≤ readable then checkedCall (b.bytesAt (addSize b.readerIndex_ i) n)
  else .error .outside

/-- One turn of the loop of `onMessage`. -/
def turnInside : Buffer × List (Call Message) →
    Except Slip (Turn (Buffer × List (Call Message)) (Buffer × List (Call Message)))
  | (buf, calls) => do
    let readable ← checkedSub buf.writerIndex_ buf.readerIndex_
    if (← checkedSize (← checkedSum 32 kMinMessageLen kHeaderLen)) ≤ readable then
      let bodyLen ← checkedCall buf.peekInt32
      if kMaxMessageLen < bodyLen ∨ bodyLen < kMinMessageLen then
        return .done (buf, calls ++ [.shutdown])
      else if (← checkedSize (← checkedSum 32 bodyLen kHeaderLen)) ≤ readable then
        let data ← readableInside buf (← checkedSize kHeaderLen) (← checkedSize bodyLen)
        match ← parseInside lib data with
        | some message =>
          let buf ← checkedCall (buf.retrieve (← checkedSize (← checkedSum 32 bodyLen kHeaderLen)))
          return .next (buf, calls ++ [.messageCallback message])
        | none => return .next (buf, calls)
      else
        return .next (buf, calls)
    else
      return .done (buf, calls)

variable {lib}

/-- **`parse`** of as many bytes as a frame body has: no check fails. -/
theorem parseInside_eq {data : List UInt8} (hmin : 10 ≤ data.length) (hmax : data.length < 2 ^ 31) :
    parseInside lib data = .ok (parse lib data) := by
  have hheader : checkedSize kHeaderLen = .ok 4 := checkedSize_natCast (n := 4) (by decide)
  have htwice : checkedSize (2 * kHeaderLen) = .ok 8 := checkedSize_natCast (n := 8) (by decide)
  have hend : checkedAdvance data 0 data.length = .ok data.length := by
    rw [checkedAdvance_of_le (by omega), Nat.zero_add]
  have hlast : checkedSub data.length 4 = .ok (data.length - 4) := checkedSub_of_le (by omega)
  have hword : checkedRange data (data.length - 4) 4 = .ok (data.drop (data.length - 4)) := by
    rw [checkedRange_of_le (by omega), List.take_of_length_le (by rw [List.length_drop]; omega)]
  have hcast : checkedCast 32 (data.length - 4) = .ok ((data.length - 4 : Nat) : Int) :=
    checkedCast_of_lt (by decide) (by omega)
  have hcovered : checkedSize ((data.length - 4 : Nat) : Int) = .ok (data.length - 4) :=
    checkedSize_natCast (by omega)
  have hsummed : checkedRange data 0 (data.length - 4) = .ok (covered data) := by
    rw [checkedRange_of_le (by omega), List.drop_zero, covered]
  have hfront : checkedRange data 0 4 = .ok (data.take 4) := by
    rw [checkedRange_of_le (by omega), List.drop_zero]
  have hnameLen : networkToHost32 (data.take 4) = nameLen data := by
    rw [networkToHost32, List.take_take, Nat.min_self, nameLen, networkToHost32]
  have hroom : checkedSub data.length 8 = .ok (data.length - 8) := checkedSub_of_le (by omega)
  have hsum : toSigned 32 (lib.adler32 1 (covered data)) = checkSum lib (covered data) :=
    (checkSum_covered (by omega)).symm
  have hfirst : checkedAdvance data 0 4 = .ok 4 := checkedAdvance_of_le (by omega)
  rw [parseInside]
  dsimp only
  rw [hend, ok_bind, hheader, ok_bind, hlast, ok_bind, hword, ok_bind, ok_bind, hlast,
    ok_bind, hcast, ok_bind, hcovered, ok_bind, hsummed, ok_bind, hsum]
  -- the same tests as `parse` makes
  have hback : subSize data.length 4 = data.length - 4 := subSize_of_le (by omega)
  have hback' : subSize data.length (2 * 4) = data.length - 8 := subSize_of_le (by omega)
  have hfour : toUnsigned 64 kHeaderLen = 4 := rfl
  have hname : networkToHost32 data = nameLen data := rfl
  have htake : data.take (data.length - 4) = covered data := rfl
  simp only [parse, hfour, hback, hback', hname, htake]
  by_cases hequal : checkSum lib (covered data) = networkToHost32 (data.drop (data.length - 4))
  · rw [if_pos hequal, if_pos hequal, hfront, ok_bind, hnameLen]
    by_cases htwo : 2 ≤ nameLen data
    · obtain ⟨-, hlt⟩ : -2 ^ 31 ≤ nameLen data ∧ nameLen data < 2 ^ 31 :=
        toSigned_range (by decide) _
      obtain ⟨n, hn⟩ : ∃ n : Nat, nameLen data = n := ⟨(nameLen data).toNat, by omega⟩
      have hsize : checkedSize (nameLen data) = .ok n := by
        rw [hn]
        exact checkedSize_natCast (by omega)
      have hwidth : toUnsigned 64 (nameLen data) = n := by
        rw [hn]
        exact toUnsigned_natCast (by omega)
      rw [if_pos htwo, htwice, ok_bind, hroom, ok_bind, hsize, ok_bind, hwidth]
      by_cases hfits : n ≤ data.length - 8
      · -- the name and the payload fill what is left between the two words
        have hbehind : checkedAdvance data 4 n = .ok (4 + n) := checkedAdvance_of_le (by omega)
        have hback₁ : checkedSub (4 + n) 1 = .ok (4 + n - 1) := checkedSub_of_le (by omega)
        have hback₂ : checkedSub (4 + n - 1) 4 = .ok (n - 1) := by
          rw [checkedSub_of_le (by omega), show 4 + n - 1 - 4 = n - 1 by omega]
        have htypeName : checkedRange data 4 (n - 1) = .ok ((data.drop 4).take (n - 1)) :=
          checkedRange_of_le (by omega)
        have hrest : checkedSub data.length n = .ok (data.length - n) := checkedSub_of_le (by omega)
        have hdataLen : checkedSub (data.length - n) 8 = .ok (data.length - n - 8) :=
          checkedSub_of_le (by omega)
        have hcast' : checkedCast 32 (data.length - n - 8) =
            .ok ((data.length - n - 8 : Nat) : Int) := checkedCast_of_lt (by decide) (by omega)
        have hsize' : checkedSize ((data.length - n - 8 : Nat) : Int) = .ok (data.length - n - 8) :=
          checkedSize_natCast (by omega)
        have hpayload : checkedRange data (4 + n) (data.length - n - 8) =
            .ok ((data.drop (4 + n)).take (data.length - n - 8)) := checkedRange_of_le (by omega)
        have hdataLen' : subSize (subSize data.length n) (2 * 4) = data.length - n - 8 := by
          rw [subSize_of_le (b := n) (by omega), subSize_of_le (by omega)]
        rw [if_pos hfits, if_pos ⟨htwo, hfits⟩, ok_bind, hfirst, ok_bind, ok_bind, hbehind, ok_bind,
          hback₁, ok_bind, hback₂, ok_bind, htypeName, ok_bind]
        cases createMessage lib ((data.drop 4).take (n - 1)) with
        | none => rfl
        | some message =>
          dsimp only
          rw [ok_bind, hrest, ok_bind, ok_bind, hdataLen, ok_bind, hcast', ok_bind, hsize', ok_bind,
            hpayload, ok_bind, hdataLen']
          rfl
      · rw [if_neg hfits, if_neg fun h => hfits h.2]
        rfl
    · rw [if_neg htwo, if_neg fun h => htwo h.1]
      rfl
  · rw [if_neg hequal, if_neg hequal]
    rfl

variable {b : Buffer}

/-- A range within the contents is read as it stands; outside there would be a slip. -/
theorem readableInside_eq (h : b.Ok) {i n : Nat} (hlen : i + n ≤ b.contents.length) :
    readableInside b i n = .ok ((b.contents.drop i).take n) := by
  have hr := h.reader_le
  have hw := h.writer_le
  have hs := h.size_lt
  have hl := h.contents_length
  rw [readableInside, checkedSub_of_le hr, ok_bind, if_pos (by omega), addSize_of_lt (by omega),
    Buffer.bytesAt_spec h hlen, checkedCall_ok]

/-- The turn that takes out a frame. -/
theorem turn_whole (h : b.Ok) (calls : List (Call Message)) (hlong : 14 ≤ b.contents.length)
    {n : Nat} (hn : bodyLen b.contents = n) (hlen : InRange n) (hwhole : 4 + n ≤ b.contents.length)
    {message : Message} (hparse : parse lib (frameBody b.contents n) = some message) :
    turn lib (b, calls) =
      b.retrieve (4 + n) >>= fun buf =>
        pure (.next (buf, calls ++ [.messageCallback message])) := by
  obtain ⟨hlo, hhi⟩ := hlen
  have hmaxLen : kMaxMessageLen = 64 * 1024 * 1024 := rfl
  have hminLen : kMinMessageLen = 10 := rfl
  have hmin : toUnsigned 64 (kMinMessageLen + kHeaderLen) = 14 := rfl
  have hheader : toUnsigned 64 kHeaderLen = 4 := rfl
  have hfour : kHeaderLen = 4 := rfl
  have hpeek : b.peekInt32 = .ok (n : Int) := by
    rw [Buffer.peekInt32_spec h (by omega), ← hn]
    rfl
  have hsum : toUnsigned 64 ((n : Int) + kHeaderLen) = 4 + n := by
    rw [hfour, Int.add_comm]
    exact toUnsigned_natCast (n := 4 + n) (by omega)
  have hdata : b.bytesAt (addSize b.readerIndex_ 4) n = .ok (frameBody b.contents n) := by
    have hr := h.reader_le
    have hw := h.writer_le
    have hs := h.size_lt
    rw [addSize_of_lt (by omega), Buffer.bytesAt_spec h hwhole]
    rfl
  rw [turn, hmin, hheader, h.readableBytes_eq_length, if_pos hlong, hpeek, ok_bind,
    if_neg (by omega), hsum, if_pos hwhole, toUnsigned_natCast (by omega), hdata, ok_bind, hparse]

/-- **One turn** of `onMessage` on a well-formed buffer: no check fails. -/
theorem turnInside_eq (h : b.Ok) (calls : List (Call Message)) :
    ∃ t, turn lib (b, calls) = .ok t ∧ turnInside lib (b, calls) = .ok t ∧
      Turn.Holds (fun s => s.1.Ok) (fun _ => True) t := by
  have hl := h.contents_length
  have hread : checkedSub b.writerIndex_ b.readerIndex_ = .ok b.contents.length := by
    rw [checkedSub_of_le h.reader_le, hl]
  have hmin : checkedSum 32 kMinMessageLen kHeaderLen = .ok 14 :=
    checkedSum_of_range (by decide) (by decide)
  have hneed : checkedSize 14 = .ok 14 := checkedSize_natCast (n := 14) (by decide)
  have hheader : checkedSize kHeaderLen = .ok 4 := checkedSize_natCast (n := 4) (by decide)
  have hpeek : 14 ≤ b.contents.length → b.peekInt32 = .ok (bodyLen b.contents) :=
    fun hlong => Buffer.peekInt32_spec h (by omega)
  obtain ⟨t, ht, hturned⟩ := turn_cases lib h calls
  refine ⟨t, ht, ?_, ?_⟩
  · rw [turnInside, hread, ok_bind, hmin, ok_bind, hneed, ok_bind]
    -- a length in range, as an `int` and as a `size_t`
    have hinside : ∀ n : Nat, InRange n →
        ¬ (kMaxMessageLen < (n : Int) ∨ (n : Int) < kMinMessageLen) ∧
        checkedSum 32 n kHeaderLen = .ok ((4 + n : Nat) : Int) ∧
        checkedSize ((4 + n : Nat) : Int) = .ok (4 + n) ∧ checkedSize (n : Int) = .ok n := by
      rintro n ⟨hlo, hhi⟩
      have hmaxLen : kMaxMessageLen = 64 * 1024 * 1024 := rfl
      have hminLen : kMinMessageLen = 10 := rfl
      have hfour : kHeaderLen = 4 := rfl
      refine ⟨by omega, ?_, checkedSize_natCast (by omega), checkedSize_natCast (by omega)⟩
      rw [checkedSum_of_range (by omega) (by omega)]
      congr 1
      omega
    have hbody : ∀ n : Nat, InRange n → 4 + n ≤ b.contents.length →
        parseInside lib ((b.contents.drop 4).take n) =
        .ok (parse lib (frameBody b.contents n)) := by
      rintro n ⟨hlo, hhi⟩ hwhole
      have hlen : (frameBody b.contents n).length = n := by
        rw [frameBody, List.length_take, List.length_drop]
        omega
      show parseInside lib (frameBody b.contents n) = _
      exact parseInside_eq (by omega) (by omega)
    cases hturned with
    | short hshort => rw [if_neg (by omega)]; rfl
    | refused hlong hout =>
      have hrange : kMaxMessageLen < bodyLen b.contents ∨ bodyLen b.contents < kMinMessageLen := by
        by_contra hin
        have hmaxLen : kMaxMessageLen = 64 * 1024 * 1024 := rfl
        have hminLen : kMinMessageLen = 10 := rfl
        exact hout (bodyLen b.contents).toNat ⟨by omega, by omega⟩ (by omega)
      rw [if_pos hlong, hpeek hlong, checkedCall_ok, ok_bind, if_pos hrange]
      rfl
    | waits hlong n hn hlen hpart =>
      obtain ⟨hin, hsum, hsize, -⟩ := hinside n hlen
      rw [if_pos hlong, hpeek hlong, checkedCall_ok, ok_bind, hn, if_neg hin, hsum, ok_bind, hsize,
        ok_bind, if_neg (by omega)]
      rfl
    | unparsed hlong n hn hlen hwhole hparse =>
      obtain ⟨hin, hsum, hsize, hwidth⟩ := hinside n hlen
      rw [if_pos hlong, hpeek hlong, checkedCall_ok, ok_bind, hn, if_neg hin, hsum, ok_bind, hsize,
        ok_bind, if_pos hwhole, hheader, ok_bind, hwidth, ok_bind,
        readableInside_eq h hwhole, ok_bind,
        hbody n hlen hwhole, ok_bind, hparse]
      rfl
    | taken hlong n hn hlen hwhole message hparse b' hok hcont =>
      obtain ⟨hin, hsum, hsize, hwidth⟩ := hinside n hlen
      obtain ⟨b₁, hb₁, -⟩ := Buffer.retrieve_spec h hwhole
      rw [turn_whole h calls hlong hn hlen hwhole hparse, hb₁, ok_bind] at ht
      rw [if_pos hlong, hpeek hlong, checkedCall_ok, ok_bind, hn, if_neg hin, hsum, ok_bind, hsize,
        ok_bind, if_pos hwhole, hheader, ok_bind, hwidth, ok_bind,
        readableInside_eq h hwhole, ok_bind,
        hbody n hlen hwhole, ok_bind, hparse]
      dsimp only
      rw [ok_bind, hsize, ok_bind, hb₁, checkedCall_ok, ok_bind]
      cases ht
      rfl
  · cases hturned with
    | short | refused => exact trivial
    | waits | unparsed => exact h
    | taken _ _ _ _ _ _ _ _ hok => exact hok

/-- **Decoding stays inside the frame.** From every well-formed buffer `onMessage` with all its
    operations checked does what `onMessage` does, for as many turns as it is followed: no check
    fails. -/
theorem decoding_stays_inside (h : b.Ok) (calls : List (Call Message)) (n : Nat) :
    Agree (loop (turnInside lib) n (b, calls)) (loop (turn lib) n (b, calls)) := by
  refine loop_agree (I := fun s => s.1.Ok) (fun s hs => ?_) n (b, calls) h
  obtain ⟨t, ht, ht', hok⟩ := turnInside_eq hs s.2
  exact ⟨t, ht', ht, hok⟩

end Inside

section Examples

attribute [local instance] VectorImpl.exact

/-- The condition can be met: one frame, decoded to its end. -/
theorem decoding_stays_inside_oneFrame : ∃ b : Buffer, b.Ok ∧
    b.contents = encoded bytesValue [1, 2, 3] ∧
    ∀ n, Agree (loop (turnInside bytesValue) n (b, [])) (loop (turn bytesValue) n (b, [])) := by
  have hnew : (Buffer.new 1024).Ok := Buffer.new_ok (by decide)
  obtain ⟨b, -, hok, -, hcont⟩ := Buffer.append_spec hnew
    rfl (encoded bytesValue [1, 2, 3]) (by decide +kernel)
  exact ⟨b, hok, hcont, fun n => decoding_stays_inside hok [] n⟩

end Examples

end ProtobufCodec

end IOEvent
