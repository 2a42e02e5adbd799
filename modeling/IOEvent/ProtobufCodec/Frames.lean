/-
  What `ProtobufCodec` does with bytes that `send` did not write.

  Two questions about input a peer is free to choose:

    1. does the loop of `onMessage` come to an end?  Only a frame that parses is taken out of the
       buffer, and only a bad length or fewer than 14 bytes leave the loop.  A frame that is still
       incomplete, or complete and not parsed, is looked at again and again (`settles_iff`).
    2. does `parse` accept just the format?  It compares the checksum, bounds the name length and
       looks the type up, but it neither looks at the byte behind the name nor at what
       `ParseFromArray` returns (`accepts_format_iff`).

  Both are read off one lemma about a turn of the loop, `turn_cases`.
-/
import IOEvent.ProtobufCodec

open Foundation

namespace IOEvent

namespace ProtobufCodec

/-- The length word at the front. -/
def bodyLen (bytes : List UInt8) : Int := networkToHost32 bytes

/-- The length of a frame that `onMessage` does not refuse. -/
def InRange (n : Nat) : Prop := 10 ≤ n ∧ n ≤ 64 * 1024 * 1024

/-- The bytes that a frame of length `n` is parsed from. -/
def frameBody (bytes : List UInt8) (n : Nat) : List UInt8 := (bytes.drop 4).take n

/-! ## One turn

  The five things a turn does, each with its condition on the bytes at the front. -/

section Turns

variable {Message Descriptor : Type} (lib : Protobuf Message Descriptor)

/-- What a turn does to a well-formed buffer. -/
inductive Turned (b : Buffer) (calls : List (Call Message)) :
    Turn (Buffer × List (Call Message)) (Buffer × List (Call Message)) → Prop
  | short (h : b.contents.length < 14) : Turned b calls (.done (b, calls))
  /-- The length is out of bounds: the connection is shut down. -/
  | refused (h : 14 ≤ b.contents.length) (hlen : ∀ n : Nat, InRange n → bodyLen b.contents ≠ n) :
      Turned b calls (.done (b, calls ++ [.shutdown]))
  /-- Part of the frame is still to come. -/
  | waits (h : 14 ≤ b.contents.length) (n : Nat) (hn : bodyLen b.contents = n) (hlen : InRange n)
      (hpart : b.contents.length < 4 + n) : Turned b calls (.next (b, calls))
  | unparsed (h : 14 ≤ b.contents.length) (n : Nat) (hn : bodyLen b.contents = n)
      (hlen : InRange n) (hwhole : 4 + n ≤ b.contents.length)
      (hparse : parse lib (frameBody b.contents n) = none) : Turned b calls (.next (b, calls))
  /-- A frame is taken out, and its message handed on. -/
  | taken (h : 14 ≤ b.contents.length) (n : Nat) (hn : bodyLen b.contents = n)
      (hlen : InRange n) (hwhole : 4 + n ≤ b.contents.length) (message : Message)
      (hparse : parse lib (frameBody b.contents n) = some message) (b' : Buffer) (hok : b'.Ok)
      (hcont : b'.contents = b.contents.drop (4 + n)) :
      Turned b calls (.next (b', calls ++ [.messageCallback message]))

variable {b : Buffer}

/-- One turn of the loop of `onMessage` delivers a message, finds an error, or asks for more
    bytes. -/
theorem turn_cases (h : b.Ok) (calls : List (Call Message)) :
    ∃ t, turn lib (b, calls) = .ok t ∧ Turned lib b calls t := by
  have hread := h.readableBytes_eq_length
  have hmin : toUnsigned 64 (kMinMessageLen + kHeaderLen) = 14 := rfl
  have hheader : toUnsigned 64 kHeaderLen = 4 := rfl
  have hmaxLen : kMaxMessageLen = 64 * 1024 * 1024 := rfl
  have hminLen : kMinMessageLen = 10 := rfl
  have hfour : kHeaderLen = 4 := rfl
  rw [turn, hmin, hheader, hread]
  -- the smallest message has 14 bytes, header included
  by_cases hlong : 14 ≤ b.contents.length
  · rw [if_pos hlong, Buffer.peekInt32_spec h (by omega), ok_bind]
    have hword : toSigned 32 (ofBytes (b.contents.take 4)) = bodyLen b.contents := rfl
    rw [hword]
    by_cases hrange : kMaxMessageLen < bodyLen b.contents ∨ bodyLen b.contents < kMinMessageLen
    · rw [if_pos hrange]
      refine ⟨_, rfl, .refused hlong ?_⟩
      rintro n ⟨hlo, hhi⟩ hn
      omega
    · rw [if_neg hrange]
      obtain ⟨n, hn⟩ : ∃ n : Nat, bodyLen b.contents = n := ⟨(bodyLen b.contents).toNat, by omega⟩
      rw [hn] at hrange ⊢
      have hlen : InRange n := ⟨by omega, by omega⟩
      have hsum : toUnsigned 64 ((n : Int) + kHeaderLen) = 4 + n := by
        rw [hfour, Int.add_comm]
        exact toUnsigned_natCast (n := 4 + n) (by omega)
      rw [hsum, toUnsigned_natCast (by omega)]
      by_cases hwhole : 4 + n ≤ b.contents.length
      · have hr := h.reader_le
        have hw := h.writer_le
        have hs := h.size_lt
        rw [if_pos hwhole, addSize_of_lt (by omega), Buffer.bytesAt_spec h hwhole, ok_bind]
        have hbody : (b.contents.drop 4).take n = frameBody b.contents n := rfl
        rw [hbody]
        cases hparse : parse lib (frameBody b.contents n) with
        | none => exact ⟨_, rfl, .unparsed hlong n hn hlen hwhole hparse⟩
        | some message =>
          obtain ⟨b', hb', hok, hcont, -⟩ := Buffer.retrieve_spec h hwhole
          simp only [hb', ok_bind]
          exact ⟨_, rfl, .taken hlong n hn hlen hwhole message hparse b' hok hcont⟩
      · rw [if_neg hwhole]
        exact ⟨_, rfl, .waits hlong n hn hlen (Nat.lt_of_not_le hwhole)⟩
  · rw [if_neg hlong]
    exact ⟨_, rfl, .short (Nat.lt_of_not_le hlong)⟩

/-! ## Whether the loop is left

  A turn that changes nothing is followed by itself, so the loop is left if and only if the
  frames in front of the rest all parse.  `Drains` is that condition, by recursion on the
  bytes. -/

/-- The bytes that `onMessage` comes to an end with: frames that parse, and behind them fewer
    than 14 bytes or a length that it refuses. It is a condition on the bytes and uses of the
    code only `parse`, a pure function of them. -/
inductive Drains : List UInt8 → Prop
  | short {bytes : List UInt8} (h : bytes.length < 14) : Drains bytes
  | refused {bytes : List UInt8} (h : 14 ≤ bytes.length)
      (hlen : ∀ n : Nat, InRange n → bodyLen bytes ≠ n) : Drains bytes
  | frame {bytes : List UInt8} (h : 14 ≤ bytes.length) (n : Nat) (hn : bodyLen bytes = n)
      (hlen : InRange n) (hwhole : 4 + n ≤ bytes.length)
      (hparse : parse lib (frameBody bytes n) ≠ none) (hrest : Drains (bytes.drop (4 + n))) :
      Drains bytes

/-- A proper prefix of one frame. -/
def Partial (bytes : List UInt8) : Prop :=
  bytes.length < 14 ∨ ∃ n : Nat, InRange n ∧ bodyLen bytes = n ∧ bytes.length < 4 + n

/-- `onMessage` returns, and it has shut the connection down or left a part of a frame.  A loop that
    returns has looked at no buffer twice: what it does next depends on the buffer alone. -/
def Settles (b : Buffer) : Prop :=
  ∃ n b' calls, loop (turn lib) n (b, []) = some (.ok (b', calls)) ∧
    (.shutdown ∈ calls ∨ Partial b'.contents)

/-- By induction on the frames: they are taken out one by one. -/
theorem settles_of_drains {bytes : List UInt8} (hd : Drains lib bytes) :
    ∀ {b : Buffer} (calls : List (Call Message)), b.Ok → b.contents = bytes →
      ∃ n b' calls', loop (turn lib) n (b, calls) = some (.ok (b', calls')) ∧
        (.shutdown ∈ calls' ∨ Partial b'.contents) := by
  -- induction on how the bytes drain, one turn of the loop for each frame
  induction hd with
  | short h =>
    intro b calls hb hcont
    subst hcont
    obtain ⟨t, ht, hturned⟩ := turn_cases lib hb calls
    cases hturned with
    | short => exact ⟨1, b, calls, loop_done ht 0, .inr (.inl h)⟩
    | refused | waits | unparsed | taken => omega
  | refused h hlen =>
    intro b calls hb hcont
    subst hcont
    obtain ⟨t, ht, hturned⟩ := turn_cases lib hb calls
    cases hturned with
    | short => omega
    | refused =>
      exact ⟨1, b, calls ++ [.shutdown], loop_done ht 0,
        .inl (List.mem_append_right _ List.mem_cons_self)⟩
    | waits _ n hn hin | unparsed _ n hn hin | taken _ n hn hin => exact absurd hn (hlen n hin)
  | frame h n hn hlen hwhole hparse _ ih =>
    intro b calls hb hcont
    subst hcont
    obtain ⟨t, ht, hturned⟩ := turn_cases lib hb calls
    cases hturned with
    | short => omega
    | refused _ hout => exact absurd hn (hout n hlen)
    | waits _ m hm _ hpart => omega
    | unparsed _ m hm _ _ hnone =>
      obtain rfl : n = m := by omega
      exact absurd hnone hparse
    | taken _ m hm _ _ message _ b₁ hok₁ hcont₁ =>
      obtain rfl : n = m := by omega
      obtain ⟨k, b', calls', hloop, hend⟩ := ih (calls ++ [.messageCallback message]) hok₁ hcont₁
      refine ⟨k + 1, b', calls', ?_, hend⟩
      rw [loop_next ht, hloop]

/-- Bytes of another kind are never drained: a turn leaves them as they are, or takes a frame out
    and goes on with bytes of that kind. -/
theorem loop_of_not_drains (k : Nat) (b : Buffer) (calls : List (Call Message)) (hb : b.Ok)
    (hd : ¬ Drains lib b.contents) : loop (turn lib) k (b, calls) = none := by
  refine loop_diverges (I := fun s => s.1.Ok ∧ ¬ Drains lib s.1.contents) ?_ k (b, calls) ⟨hb, hd⟩
  rintro ⟨b, calls⟩ ⟨hb, hd⟩
  obtain ⟨t, ht, hturned⟩ := turn_cases lib hb calls
  cases hturned with
  | short h => exact absurd (.short h) hd
  | refused h hlen => exact absurd (.refused h hlen) hd
  | waits | unparsed => exact ⟨_, ht, hb, hd⟩
  | taken h n hn hlen hwhole message hparse b' hok hcont =>
    refine ⟨_, ht, hok, fun hrest => hd ?_⟩
    have hsome : parse lib (frameBody b.contents n) ≠ none := by
      rw [hparse]
      exact Option.some_ne_none message
    exact .frame h n hn hlen hwhole hsome (hcont ▸ hrest)

/-- **Termination.**  `onMessage` settles the buffer if and only if what is in it drains. -/
theorem settles_iff (h : b.Ok) : Settles lib b ↔ Drains lib b.contents := by
  constructor
  · rintro ⟨n, b', calls, hloop, -⟩
    by_contra hd
    rw [loop_of_not_drains lib n b [] h hd] at hloop
    cases hloop
  · exact fun hd => settles_of_drains lib hd [] h rfl

end Turns

/-! ## What `parse` accepts

  The format is stated by the fields of a body (`WellFormed`); `parse_eq_some_iff` states the
  same of the function, and the two differ in the terminator and in the result of
  `ParseFromArray`. -/

section Format

variable {Message Descriptor : Type} (lib : Protobuf Message Descriptor)

/-! The fields of a frame body. -/

/-- Everything in front of the last word. -/
def covered (data : List UInt8) : List UInt8 := data.take (data.length - 4)

/-- The last word of a body, where the checksum stands. -/
def lastWord (data : List UInt8) : Int := networkToHost32 (data.drop (data.length - 4))

/-- The first word, the length of the name with its zero. -/
def nameLen (data : List UInt8) : Int := networkToHost32 data

/-- The name that this length gives. -/
def typeName (data : List UInt8) : List UInt8 := (data.drop 4).take ((nameLen data).toNat - 1)

/-- The byte behind the name. -/
def terminator (data : List UInt8) : Option UInt8 := data[4 + (nameLen data).toNat - 1]?

/-- What lies between the name and the checksum. -/
def payload (data : List UInt8) : List UInt8 :=
  (data.drop (4 + (nameLen data).toNat)).take (data.length - (nameLen data).toNat - 8)

/-- The name has room in the body, and there is a type of this name. -/
structure Known (data : List UInt8) (message : Message) : Prop where
  two_le : 2 ≤ nameLen data
  le_length : nameLen data ≤ data.length - 8
  created : createMessage lib (typeName data) = some message

/-- A NUL ends the name, and `ParseFromArray` returns true. -/
def Sound (parsed : Message → List UInt8 → Prop) (data : List UInt8) (message : Message) : Prop :=
  terminator data = some 0 ∧ parsed message (payload data)

/-- A body in the form `send` writes (`wellFormed_iff`). The fields say where in the body
    things stand, and not how it was made. -/
structure WellFormed (parsed : Message → List UInt8 → Prop) (data : List UInt8)
    (message : Message) : Prop where
  known : Known lib data message
  sound : Sound parsed data message
  sum : toSigned 32 (lib.adler32 1 (covered data)) = lastWord data

variable {lib} {parsed : Message → List UInt8 → Prop} {data : List UInt8}

/-- **`parse`** looks at the checksum, the length of the name and its type. -/
theorem parse_eq_some_iff (h : 10 ≤ data.length) {result : Message} :
    parse lib data = some result ↔
      checkSum lib (covered data) = lastWord data ∧
        ∃ message, Known lib data message ∧ lib.ParseFromArray message (payload data) = result := by
  have hheader : toUnsigned 64 kHeaderLen = 4 := rfl
  have hback : subSize data.length 4 = data.length - 4 := subSize_of_le (by omega)
  have hroom : subSize data.length (2 * 4) = data.length - 8 := subSize_of_le (by omega)
  have hname : networkToHost32 data = nameLen data := rfl
  obtain ⟨-, hlt⟩ : -2 ^ 31 ≤ nameLen data ∧ nameLen data < 2 ^ 31 := toSigned_range (by decide) _
  have hcovered : data.take (data.length - 4) = covered data := rfl
  have hlast : networkToHost32 (data.drop (data.length - 4)) = lastWord data := rfl
  simp only [parse, hheader, hback, hroom, hname, hcovered, hlast]
  -- the tests of `parse` in its order: the checksum, the length of the name, the message
  by_cases hsum : checkSum lib (covered data) = lastWord data
  · rw [if_pos hsum]
    by_cases hfits : 2 ≤ nameLen data ∧ nameLen data ≤ data.length - 8
    · have hwidth : toUnsigned 64 (nameLen data) = (nameLen data).toNat := by
        rw [toUnsigned, Int.emod_eq_of_lt (by omega) (by omega)]
      have hdataLen : subSize (subSize data.length (nameLen data).toNat) (2 * 4) =
          data.length - (nameLen data).toNat - 8 := by
        rw [subSize_of_le (b := (nameLen data).toNat) (by omega), subSize_of_le (by omega)]
      have htype : (data.drop 4).take ((nameLen data).toNat - 1) = typeName data := rfl
      have hpayload : (data.drop (4 + (nameLen data).toNat)).take
          (data.length - (nameLen data).toNat - 8) = payload data := rfl
      rw [if_pos ⟨hfits.1, by omega⟩, hwidth, hdataLen, htype, hpayload]
      cases hcreated : createMessage lib (typeName data) with
      | none =>
        constructor
        · intro hnone
          cases hnone
        · rintro ⟨-, message, hk, -⟩
          cases hcreated.symm.trans hk.created
      | some message =>
        constructor
        · intro hresult
          exact ⟨hsum, message, ⟨hfits.1, hfits.2, hcreated⟩, Option.some.inj hresult⟩
        · rintro ⟨-, message', hk, hresult⟩
          obtain rfl := Option.some.inj (hcreated.symm.trans hk.created)
          exact congrArg some hresult
    · have hrefused : ¬ (2 ≤ nameLen data ∧
          toUnsigned 64 (nameLen data) ≤ data.length - 8) := by
        rintro ⟨hlo, hhi⟩
        rw [toUnsigned, Int.emod_eq_of_lt (by omega) (by omega)] at hhi
        omega
      rw [if_neg hrefused]
      constructor
      · intro hnone
        cases hnone
      · rintro ⟨-, message, hk, -⟩
        exact absurd ⟨hk.two_le, hk.le_length⟩ hfits
  · rw [if_neg hsum]
    constructor
    · intro hnone
      cases hnone
    · rintro ⟨hsum', -⟩
      exact absurd hsum' hsum

/-- A body is parsed exactly when its checksum is right and its name and payload are known. -/
theorem parse_ne_none_iff (h : 10 ≤ data.length) :
    parse lib data ≠ none ↔
      checkSum lib (covered data) = lastWord data ∧ ∃ message, Known lib data message := by
  rw [Option.ne_none_iff_exists']
  constructor
  · rintro ⟨result, hparse⟩
    obtain ⟨hsum, message, hk, -⟩ := (parse_eq_some_iff h).mp hparse
    exact ⟨hsum, message, hk⟩
  · rintro ⟨hsum, message, hk⟩
    exact ⟨_, (parse_eq_some_iff h).mpr ⟨hsum, message, hk, rfl⟩⟩

/-- The cast of the length loses nothing of a body that fits a frame. -/
theorem checkSum_covered (hlen : data.length < 2 ^ 32 + 4) :
    checkSum lib (covered data) = toSigned 32 (lib.adler32 1 (covered data)) := by
  have hlength : (covered data).length < 2 ^ 32 := by
    rw [covered, List.length_take]
    omega
  rw [checkSum, toUnsigned_toSigned, Nat.mod_eq_of_lt hlength, List.take_length]

/-- Four bytes spell the word that is read from them. -/
theorem word_networkToHost32 {bytes : List UInt8} (h : 4 ≤ bytes.length) :
    word (networkToHost32 bytes) = bytes.take 4 := by
  have hlen : (bytes.take 4).length = 4 := by
    rw [List.length_take, Nat.min_eq_left h]
  have hlt := ofBytes_lt (bytes.take 4)
  have hback := toBytes_ofBytes (bytes.take 4)
  rw [hlen] at hlt hback
  have hpow : (256 : Nat) ^ 4 = 2 ^ 32 := rfl
  rw [hpow] at hlt
  rw [word, networkToHost32, toUnsigned_toSigned, Nat.mod_eq_of_lt hlt, hback]

/-- A body in the form `send` writes is the length of a name, the name and a NUL, a payload, and the
    checksum of all this. -/
theorem WellFormed.eq_append {message : Message} (h : 10 ≤ data.length)
    (hw : WellFormed lib parsed data message) :
    covered data = word (typeName data).length.succ ++ (typeName data ++ [0]) ++ payload data ∧
      data = covered data ++ word (toSigned 32 (lib.adler32 1 (covered data))) := by
  obtain ⟨⟨hlo, hhi, -⟩, ⟨hnul, -⟩, hsum⟩ := hw
  obtain ⟨n, hn⟩ : ∃ n : Nat, nameLen data = n := ⟨(nameLen data).toNat, by omega⟩
  rw [terminator, hn, Int.toNat_natCast] at hnul
  rw [hn] at hlo hhi
  -- the fields, with the length of the name as a number `n`
  have htype : (data.drop 4).take (n - 1) = typeName data := by
    rw [typeName, hn, Int.toNat_natCast]
  have hpayload : (data.drop (4 + n)).take (data.length - n - 8) = payload data := by
    rw [payload, hn, Int.toNat_natCast]
  have hname : (typeName data).length.succ = n := by
    rw [← htype, List.length_take, List.length_drop]
    omega
  have hfirst : data.take 4 = word (typeName data).length.succ := by
    rw [hname, ← hn]
    exact (word_networkToHost32 (by omega)).symm
  have hzero : (data.drop (4 + (n - 1))).take 1 = [0] := by
    have hpos : 4 + (n - 1) = 4 + n - 1 := by omega
    rw [List.take_one, List.head?_drop, hpos, hnul, Option.toList_some]
  -- first what is covered, then the checksum behind it
  constructor
  · have hlen : data.length - 4 = 4 + (n - 1 + 1) + (data.length - n - 8) := by omega
    rw [covered, hlen, List.take_add, List.take_add, List.take_add, List.drop_drop, hzero,
      hfirst, htype,
      show 4 + (n - 1 + 1) = 4 + n by omega, hpayload]
  · have hlast : (data.drop (data.length - 4)).length = 4 := by
      rw [List.length_drop]
      omega
    rw [hsum, lastWord, word_networkToHost32 hlast.ge, List.take_of_length_le hlast.le, covered,
      List.take_append_drop]

/-- A body has one message at most. -/
theorem Known.unique {message message' : Message} (h : Known lib data message)
    (h' : Known lib data message') : message = message' :=
  Option.some.inj (h.created.symm.trans h'.created)

variable (lib) (parsed) (data)

/-- `parse` accepts the bodies in the form `send` writes and no others, and so does `onMessage` when
    one of them is in a frame at the front of the buffer. -/
def AcceptsFormat : Prop :=
  (parse lib data ≠ none ↔ ∃ message, WellFormed lib parsed data message) ∧
    ∀ (b b' : Buffer) (calls : List (Call Message)) (result : Message), b.Ok →
      bodyLen b.contents = data.length → frameBody b.contents data.length = data →
      turn lib (b, calls) = .ok (.next (b', calls ++ [.messageCallback result])) →
      ∃ message, WellFormed lib parsed data message

/-- What passes the checks of `parse` is sound, and the checksum of a body longer than any
    frame is not changed by the cast of its length. It is a condition on one body. Where
    `parse` checks too little, it says that this body is sound anyway. -/
structure Trustworthy : Prop where
  sound : ∀ message, Known lib data message → checkSum lib (covered data) = lastWord data →
    Sound parsed data message
  cast : 2 ^ 32 + 4 ≤ data.length → ∀ message, Known lib data message →
    Sound parsed data message → (checkSum lib (covered data) = lastWord data ↔
      toSigned 32 (lib.adler32 1 (covered data)) = lastWord data)

variable {lib} {parsed} {data}

/-- Whether the code and the format agree on a body is decided by what the code does not check, and
    by the cast of its length. -/
theorem parse_iff_wellFormed (h : 10 ≤ data.length) :
    (parse lib data ≠ none ↔ ∃ message, WellFormed lib parsed data message) ↔
      Trustworthy lib parsed data := by
  rw [parse_ne_none_iff h]
  constructor
  · intro hiff
    refine ⟨fun message hk hsum => ?_, fun _ message hk hsound => ⟨fun hsum => ?_, fun hsum => ?_⟩⟩
    · obtain ⟨message', hw⟩ := hiff.mp ⟨hsum, message, hk⟩
      rw [hk.unique hw.known]
      exact hw.sound
    · obtain ⟨message', hw⟩ := hiff.mp ⟨hsum, message, hk⟩
      exact hw.sum
    · exact (hiff.mpr ⟨message, hk, hsound, hsum⟩).1
  · intro ht
    have hsame : ∀ message, Known lib data message → Sound parsed data message →
        (checkSum lib (covered data) = lastWord data ↔
          toSigned 32 (lib.adler32 1 (covered data)) = lastWord data) := by
      intro message hk hsound
      rcases Nat.lt_or_ge data.length (2 ^ 32 + 4) with hlen | hlen
      · rw [checkSum_covered hlen]
      · exact ht.cast hlen message hk hsound
    constructor
    · rintro ⟨hsum, message, hk⟩
      have hsound := ht.sound message hk hsum
      exact ⟨message, hk, hsound, (hsame message hk hsound).mp hsum⟩
    · rintro ⟨message, hk, hsound, hsum⟩
      exact ⟨(hsame message hk hsound).mpr hsum, message, hk⟩

/-- A frame whose message `onMessage` hands on has a body that parses. -/
theorem parse_of_turn {b b' : Buffer} {calls : List (Call Message)} {result : Message} (hb : b.Ok)
    (hlen : bodyLen b.contents = data.length) (hbody : frameBody b.contents data.length = data)
    (hturn : turn lib (b, calls) = .ok (.next (b', calls ++ [.messageCallback result]))) :
    parse lib data ≠ none := by
  have hmore : calls ≠ calls ++ [.messageCallback result] := fun h =>
    absurd (List.self_eq_append_right.mp h) (List.cons_ne_nil _ _)
  obtain ⟨t, ht, hturned⟩ := turn_cases lib hb calls
  have heq := Except.ok.inj (ht.symm.trans hturn)
  cases hturned with
  | short | refused => cases heq
  | waits | unparsed =>
    injection heq with heq
    exact absurd (congrArg Prod.snd heq) hmore
  | taken _ n hn _ _ message hparse =>
    obtain rfl : n = data.length := by omega
    rw [hbody] at hparse
    rw [hparse]
    exact Option.some_ne_none message

/-- **The frame format.**  `parse` accepts just the bodies in the form `send` writes if and only if
    the byte behind the name is a NUL and the payload is parsed whenever its own checks pass. -/
theorem accepts_format_iff (h : 10 ≤ data.length) :
    AcceptsFormat lib parsed data ↔ Trustworthy lib parsed data := by
  refine ⟨fun hacc => (parse_iff_wellFormed h).mp hacc.1, fun ht => ?_⟩
  have hiff := (parse_iff_wellFormed h).mpr ht
  exact ⟨hiff, fun b b' calls result hb hlen hbody hturn =>
    hiff.mp (parse_of_turn hb hlen hbody hturn)⟩

end Format

section Examples

/-- A buffer that holds these bytes. -/
def holding (bytes : List UInt8) : Buffer where
  buffer_ := ⟨List.replicate Buffer.kCheapPrepend 0 ++ bytes, _, 0, Nat.le_refl _⟩
  readerIndex_ := Buffer.kCheapPrepend
  writerIndex_ := Buffer.kCheapPrepend + bytes.length

/-- The storage of a buffer that holds given bytes. -/
theorem holding_size (bytes : List UInt8) :
    (holding bytes).buffer_.size = Buffer.kCheapPrepend + bytes.length := by
  rw [Vec.size, holding, List.length_append, List.length_replicate]

/-- It is in order. -/
theorem holding_ok {bytes : List UInt8} (h : bytes.length < 2 ^ 32) : (holding bytes).Ok where
  reader_le := Nat.le_add_right _ _
  writer_le := (holding_size bytes).ge
  cheap_le := by
    rw [holding_size]
    exact Nat.le_add_right _ _
  size_lt := by
    have hk : Buffer.kCheapPrepend = 8 := rfl
    rw [holding_size]
    omega

/-- It holds them. -/
theorem contents_holding (bytes : List UInt8) : (holding bytes).contents = bytes := by
  have hfront : (List.replicate Buffer.kCheapPrepend (0 : UInt8)).length = Buffer.kCheapPrepend :=
    List.length_replicate
  rw [Buffer.contents, holding, Foundation.segment, Nat.add_sub_cancel_left, List.drop_left' hfront,
    List.take_length]

/-- The condition can be met: a buffer with one frame. -/
theorem settles_oneFrame : Settles bytesValue (holding (encoded bytesValue [1, 2, 3])) := by
  refine (settles_iff bytesValue (holding_ok (by decide +kernel))).mpr ?_
  rw [contents_holding]
  refine .frame (by decide +kernel) 40 (by decide +kernel) ⟨by decide, by decide⟩
    (by decide +kernel)
    (by decide +kernel) ?_
  exact .short (by decide +kernel)

/-- **The loop is not left** when a frame is incomplete (11 bytes are announced and 10 are
    there), or complete with a wrong checksum. -/
theorem bad_frames_loop :
    ¬ Settles bytesValue (holding (word 11 ++ List.replicate 10 0)) ∧
      ¬ Settles bytesValue (holding (word 10 ++ List.replicate 10 0)) := by
  have hloops : ∀ bytes : List UInt8, bytes.length < 2 ^ 32 → ¬ Drains bytesValue bytes →
      ¬ Settles bytesValue (holding bytes) := by
    rintro bytes hlen hd ⟨k, b', calls, hloop, -⟩
    rw [← contents_holding bytes] at hd
    rw [loop_of_not_drains bytesValue k _ [] (holding_ok hlen) hd] at hloop
    cases hloop
  constructor
  · refine hloops _ (by decide) fun hd => ?_
    have hword : bodyLen (word 11 ++ List.replicate 10 0) = (11 : Nat) := by decide +kernel
    have hlength : (word 11 ++ List.replicate 10 0).length = 14 := rfl
    cases hd with
    | short h => omega
    | refused _ hlen => exact hlen 11 ⟨by decide, by decide⟩ hword
    | frame _ n hn _ hwhole => omega
  · refine hloops _ (by decide) fun hd => ?_
    have hword : bodyLen (word 10 ++ List.replicate 10 0) = (10 : Nat) := by decide +kernel
    have hlength : (word 10 ++ List.replicate 10 0).length = 14 := rfl
    cases hd with
    | short h => omega
    | refused _ hlen => exact hlen 10 ⟨by decide, by decide⟩ hword
    | frame _ n hn _ _ hparse =>
      obtain rfl : n = 10 := by omega
      exact hparse (by decide +kernel)

/-- The payloads of `bytesValue`. -/
def bytesParsed (_ : List UInt8) : List UInt8 → Prop
  | [] => True
  | [_] => False
  | tag :: length :: value => tag = 10 ∧ length.toNat = value.length

/-- The condition can be met: the body of one message. -/
theorem accepts_format_oneMessage :
    AcceptsFormat bytesValue bytesParsed (body bytesValue [1, 2, 3]) := by
  have hpayload : payload (body bytesValue [1, 2, 3]) = [10, 3, 1, 2, 3] := by decide +kernel
  refine (accepts_format_iff (by decide +kernel)).mpr
    ⟨fun message _ _ => ⟨by decide +kernel, ?_⟩, ?_⟩
  · rw [hpayload]
    exact ⟨rfl, rfl⟩
  · intro hlen
    exact absurd hlen (by decide +kernel)

/-- A frame body with this byte behind the name, this payload, and its checksum. -/
def bodyWith (byte : UInt8) (payload : List UInt8) : List UInt8 :=
  let front := word 27 ++ bytesValueName ++ [byte] ++ payload
  front ++ word (checkSum bytesValue front)

/-- **Not the format, and parsed**: a payload that ends in the middle of its bytes, and a name that
    is not followed by a NUL. -/
theorem malformed_bodies_parse :
    (10 ≤ (bodyWith 0 [10, 3, 1]).length ∧ parse bytesValue (bodyWith 0 [10, 3, 1]) ≠ none ∧
      ¬ ∃ message, WellFormed bytesValue bytesParsed (bodyWith 0 [10, 3, 1]) message) ∧
    10 ≤ (bodyWith 1 []).length ∧ parse bytesValue (bodyWith 1 []) ≠ none ∧
      ¬ ∃ message, WellFormed bytesValue bytesParsed (bodyWith 1 []) message := by
  have hpayload : payload (bodyWith 0 [10, 3, 1]) = [10, 3, 1] := by decide +kernel
  have hterminator : terminator (bodyWith 1 []) = some 1 := by decide +kernel
  refine ⟨⟨by decide +kernel, by decide +kernel, ?_⟩, by decide +kernel, by decide +kernel, ?_⟩
  · rintro ⟨message, -, ⟨-, hparsed⟩, -⟩
    rw [hpayload] at hparsed
    exact absurd hparsed.2 (by decide)
  · rintro ⟨message, -, ⟨hnul, -⟩, -⟩
    rw [hterminator] at hnul
    exact absurd hnul (by decide)

end Examples

end ProtobufCodec

end IOEvent
