/-
  `ProtobufCodec` (ProtobufCodec.h, ProtobufCodec.cpp): messages as checksummed frames.

      int32  len            of everything behind it
      int32  nameLen        of typeName, its NUL included
      char   typeName[nameLen]
      char   protobufData[len - nameLen - 8]
      int32  checkSum       adler32 of nameLen, typeName and protobufData

  `send` builds a frame in a buffer of its own, in the order above from the second line on, and
  prepends the length; `onMessage` takes frames out of the input buffer in a loop, and `parse`
  undoes what `send` did.  The two are written separately, so that they agree is a theorem:
  `round_trip`.

  The protobuf library and adler32 are not part of the repository.  `Protobuf` is what the codec
  uses of them, and `Protobuf.Sendable` what it relies on for a message.
-/
import IOEvent.Buffer
import IOEvent.Foundation.Loops

open Foundation

namespace IOEvent

/-- The protobuf library and zlib, as far as the codec calls them. A message class is known by
    its descriptor, and a message by its name; what the library does inside is not modelled. -/
structure Protobuf (Message Descriptor : Type) where
  GetTypeName : Message → List UInt8
  ByteSize : Message → Int
  /-- The bytes written. -/
  SerializeWithCachedSizesToArray : Message → List UInt8
  FindMessageTypeByName : List UInt8 → Option Descriptor
  GetPrototype : Descriptor → Option Message
  New : Message → Message
  /-- What becomes of a message that the bytes are parsed into. -/
  ParseFromArray : Message → List UInt8 → Message
  adler32 : Nat → List UInt8 → Nat

namespace ProtobufCodec

/-- `kHeaderLen`. -/
def kHeaderLen : Int := 4

/-- `kMinMessageLen`: the length of the name, a name of one character with its zero, and the
    checksum. -/
def kMinMessageLen : Int := 2 * kHeaderLen + 2

/-- `kMaxMessageLen`: 64 MiB. -/
def kMaxMessageLen : Int := 64 * 1024 * 1024

/-- What `onMessage` calls: the message callback, or `conn->shutdown()`. -/
inductive Call (Message : Type)
  | messageCallback (message : Message)
  | shutdown

section Codec

variable {Message Descriptor : Type} (lib : Protobuf Message Descriptor)

/-- `networkToHost32`: the first four bytes. -/
def networkToHost32 (buf : List UInt8) : Int := toSigned 32 (ofBytes (buf.take 4))

/-- `static_cast<int32_t>(adler32(1, data, static_cast<int>(len)))`, of the `len` bytes `data`. -/
def checkSum (data : List UInt8) : Int :=
  toSigned 32 (lib.adler32 1 (data.take (toUnsigned 32 (toSigned 32 data.length))))

/-- `createMessage`: the message class of a name, if the library knows one and has a prototype of
    it. -/
def createMessage (typeName : List UInt8) : Option Message :=
  match lib.FindMessageTypeByName typeName with
  | none => none
  | some descriptor =>
    match lib.GetPrototype descriptor with
    | none => none
    | some protoType => some (lib.New protoType)

/-- `parse(data, len)`, of the `len` bytes `data`. -/
def parse (data : List UInt8) : Option Message :=
  let len := data.length
  let headerLen := toUnsigned 64 kHeaderLen
  let expectedCheckSum := networkToHost32 (data.drop (subSize len headerLen))
  if checkSum lib (data.take (subSize len headerLen)) = expectedCheckSum then
    let nameLen := networkToHost32 data
    if 2 ≤ nameLen ∧ toUnsigned 64 nameLen ≤ subSize len (2 * headerLen) then
      let nameLen := toUnsigned 64 nameLen
      let typeName := (data.drop headerLen).take (nameLen - 1)
      match createMessage lib typeName with
      | none => none
      | some message =>
        let buf := data.drop (headerLen + nameLen)
        let dataLen := subSize (subSize len nameLen) (2 * headerLen)
        some (lib.ParseFromArray message (buf.take dataLen))
    else
      none
  else
    none

/-- One turn of the loop of `onMessage`: the buffer, and the calls made so far.  A frame that
    is not complete or does not parse is left where it is, and the loop goes on. What is left
    to do is a function of the buffer alone, which is why a turn that changes nothing is
    followed by itself. -/
def turn : Buffer × List (Call Message) →
    Outcome Fault Buffer (Turn (Buffer × List (Call Message)) (Buffer × List (Call Message)))
  | (buf, calls) =>
    if toUnsigned 64 (kMinMessageLen + kHeaderLen) ≤ buf.readableBytes then do
      let bodyLen ← buf.peekInt32
      if kMaxMessageLen < bodyLen ∨ bodyLen < kMinMessageLen then
        return .done (buf, calls ++ [.shutdown])
      else if toUnsigned 64 (bodyLen + kHeaderLen) ≤ buf.readableBytes then do
        let data ← buf.bytesAt (addSize buf.readerIndex_ (toUnsigned 64 kHeaderLen))
          (toUnsigned 64 bodyLen)
        match parse lib data with
        | some message =>
          let buf ← buf.retrieve (toUnsigned 64 (bodyLen + kHeaderLen))
          return .next (buf, calls ++ [.messageCallback message])
        | none => return .next (buf, calls)
      else
        return .next (buf, calls)
    else
      return .done (buf, calls)

variable [VectorImpl]

/-- `send`, up to `conn->send(&buff)`: the buffer it hands over. -/
def send (message : Message) : Outcome Fault Buffer Buffer := do
  let buff := Buffer.new Buffer.kInitialSize
  let typeName := lib.GetTypeName message
  let nameLen := toSigned 32 (addSize typeName.length 1)
  let buff ← buff.appendInt32 nameLen
  -- `c_str()` is the name and a NUL
  require (toUnsigned 64 nameLen ≤ (typeName ++ [0]).length) .outOfBounds buff
  let buff ← buff.append ((typeName ++ [0]).take (toUnsigned 64 nameLen))
  let byteSize := lib.ByteSize message
  let buff ← buff.ensureWritableBytes (toUnsigned 64 byteSize)
  let written := lib.SerializeWithCachedSizesToArray message
  let buff ← buff.copyTo buff.writerIndex_ written
  require ((written.length : Int) = byteSize) .fatal buff
  let buff ← buff.hasWritten (toUnsigned 64 byteSize)
  let data ← buff.bytesAt buff.readerIndex_ buff.readableBytes
  let buff ← buff.appendInt32 (checkSum lib data)
  require (buff.readableBytes = toUnsigned 64 (4 + nameLen + byteSize + 4))
    (.assertFailed .send) buff
  let len := toSigned 32 buff.readableBytes
  buff.prepend (toBytes 4 (toUnsigned 32 len))

/-! ## The frame of a message

  The bytes of a frame as a function of the message.  `body` is what the length counts, and
  `summed` what the checksum covers. -/

omit [VectorImpl]

/-- What the codec relies on for a message it sends. The last field is the contract of the
    library, and the others are what its caller sees to. -/
structure Sendable (message : Message) : Prop where
  name_ne : lib.GetTypeName message ≠ []
  size : ((lib.SerializeWithCachedSizesToArray message).length : Int) = lib.ByteSize message
  found : ∃ prototype, createMessage lib (lib.GetTypeName message) = some prototype
  /-- Parsing inverts serialization. -/
  parses : ∀ prototype, createMessage lib (lib.GetTypeName message) = some prototype →
    lib.ParseFromArray prototype (lib.SerializeWithCachedSizesToArray message) = message

/-- Four big-endian bytes. -/
def word (i : Int) : List UInt8 := toBytes 4 (toUnsigned 32 i)

/-- The part of a frame that the checksum covers. -/
def summed (message : Message) : List UInt8 :=
  word (lib.GetTypeName message).length.succ ++ (lib.GetTypeName message ++ [0]) ++
    lib.SerializeWithCachedSizesToArray message

/-- A frame without its length. -/
def body (message : Message) : List UInt8 :=
  summed lib message ++ word (checkSum lib (summed lib message))

/-- A message as it travels: the length of its body, and the body. -/
def encoded (message : Message) : List UInt8 :=
  word (body lib message).length ++ body lib message

/-- A word is four bytes. -/
@[simp] theorem word_length (i : Int) : (word i).length = 4 := toBytes_length 4 _

section Lengths

variable (message : Message)

/-- What the checksum is taken over: the length of the name, the name with its zero, the
    serialised message. -/
theorem summed_length : (summed lib message).length =
    4 + ((lib.GetTypeName message).length + 1) +
      (lib.SerializeWithCachedSizesToArray message).length := by
  simp only [summed, List.length_append, word_length, List.length_singleton]

/-- The body is that, and the checksum. -/
theorem body_length : (body lib message).length = (summed lib message).length + 4 := by
  rw [body, List.length_append, word_length]

/-- The frame is the body, and its length. -/
theorem encoded_length : (encoded lib message).length = 4 + (body lib message).length := by
  rw [encoded, List.length_append, word_length]

end Lengths

/-- A word is read back from the front of what starts with it. -/
theorem networkToHost32_word {i : Int} (hlo : -2 ^ 31 ≤ i) (hhi : i < 2 ^ 31) (rest : List UInt8) :
    networkToHost32 (word i ++ rest) = i := by
  have hlt : toUnsigned 32 i < 256 ^ 4 := by
    rw [toUnsigned]
    omega
  rw [networkToHost32, List.take_append_of_le_length (word_length i).ge,
    List.take_of_length_le (word_length i).le, word, ofBytes_toBytes, Nat.mod_eq_of_lt hlt]
  exact toSigned_toUnsigned (by decide) hlo hhi

/-- A checksum is a signed 32-bit number. -/
theorem checkSum_range (data : List UInt8) :
    -2 ^ 31 ≤ checkSum lib data ∧ checkSum lib data < 2 ^ 31 := toSigned_range (by decide) _

/-! ## Decoding undoes encoding

  On the body of a frame each check of `parse` goes through, and the message comes out; a turn
  of the loop takes the frame off, whatever is behind it. -/

variable {lib} {message : Message}

/-- **`parse`** of a frame body gives the message back. -/
theorem parse_body (h : Sendable lib message)
    (hlen : (body lib message).length ≤ 64 * 1024 * 1024) :
    parse lib (body lib message) = some message := by
  have hsummed := summed_length lib message
  have hbody := body_length lib message
  have hname : 0 < (lib.GetTypeName message).length := List.length_pos_of_ne_nil h.name_ne
  obtain ⟨prototype, hfound⟩ := h.found
  have hheader : toUnsigned 64 kHeaderLen = 4 := rfl
  have hfront : subSize (body lib message).length 4 = (summed lib message).length := by
    rw [subSize_of_le (by omega)]
    omega
  -- the checksum is the last word
  have hsum : networkToHost32 ((body lib message).drop (summed lib message).length) =
      checkSum lib (summed lib message) := by
    obtain ⟨hlo, hhi⟩ := checkSum_range lib (summed lib message)
    rw [body, List.drop_left, ← List.append_nil (word _)]
    exact networkToHost32_word hlo hhi []
  have htake : (body lib message).take (summed lib message).length = summed lib message := by
    rw [body, List.take_left]
  -- and the length of the name is the first
  have hnameLen : networkToHost32 (body lib message) = (lib.GetTypeName message).length.succ := by
    rw [body, summed, List.append_assoc, List.append_assoc]
    exact networkToHost32_word (by omega) (by omega) _
  have hwidth : toUnsigned 64 ((lib.GetTypeName message).length.succ : Nat) =
      (lib.GetTypeName message).length + 1 := toUnsigned_natCast (by omega)
  have hbehind : (body lib message).drop 4 = lib.GetTypeName message ++ ([0] ++
      (lib.SerializeWithCachedSizesToArray message ++
        word (checkSum lib (summed lib message)))) := by
    rw [body, summed, List.append_assoc, List.append_assoc, List.append_assoc, ← word_length
      ((lib.GetTypeName message).length.succ : Nat), List.drop_left]
  have htypeName : ((body lib message).drop 4).take (lib.GetTypeName message).length =
      lib.GetTypeName message := by
    rw [hbehind, List.take_left]
  have hpayload : ((body lib message).drop (4 + ((lib.GetTypeName message).length + 1))).take
      (lib.SerializeWithCachedSizesToArray message).length =
        lib.SerializeWithCachedSizesToArray message := by
    rw [← List.drop_drop, hbehind, ← List.drop_drop, List.drop_left]
    exact List.take_left
  have hdataLen : subSize (subSize (body lib message).length ((lib.GetTypeName message).length + 1))
      (2 * 4) = (lib.SerializeWithCachedSizesToArray message).length := by
    rw [subSize_of_le (b := (lib.GetTypeName message).length + 1) (by omega),
      subSize_of_le (by omega)]
    omega
  have hfits : (2 : Int) ≤ (lib.GetTypeName message).length.succ ∧
      (lib.GetTypeName message).length + 1 ≤ subSize (body lib message).length (2 * 4) := by
    rw [subSize_of_le (by omega)]
    omega
  simp only [parse, hheader, hfront, htake, hsum, if_true, hnameLen, hwidth, if_pos hfits,
    Nat.add_sub_cancel, htypeName, hfound, hdataLen, hpayload]
  exact congrArg some (h.parses prototype hfound)

section Turns

variable {b : Buffer}

/-- **One turn** of `onMessage` with a frame at the front of the buffer: the message is handed over
    and the frame taken out. -/
theorem turn_encoded (h : Sendable lib message)
    (hlen : (body lib message).length ≤ 64 * 1024 * 1024) (hb : b.Ok) {rest : List UInt8}
    (hcont : b.contents = encoded lib message ++ rest) (calls : List (Call Message)) :
    ∃ b', turn lib (b, calls) = .ok (.next (b', calls ++ [.messageCallback message])) ∧ b'.Ok ∧
      b'.contents = rest := by
  have hsummed := summed_length lib message
  have hbody := body_length lib message
  have hencoded := encoded_length lib message
  have hname : 0 < (lib.GetTypeName message).length := List.length_pos_of_ne_nil h.name_ne
  have hread := hb.readableBytes_eq_length
  have hlong : b.contents.length = 4 + (body lib message).length + rest.length := by
    rw [hcont, List.length_append, hencoded]
  -- the constants, and each of the conversions of `turn`
  have hmin : toUnsigned 64 (kMinMessageLen + kHeaderLen) = 14 := rfl
  have hheader : toUnsigned 64 kHeaderLen = 4 := rfl
  have hpeek : b.peekInt32 = .ok (body lib message).length := by
    rw [Buffer.peekInt32_spec hb (by omega), hcont, encoded, List.append_assoc]
    exact congrArg Except.ok (networkToHost32_word (by omega) (by omega) _)
  have hrange : ¬ (kMaxMessageLen < (body lib message).length ∨
      ((body lib message).length : Int) < kMinMessageLen) := by
    have hmaxLen : kMaxMessageLen = 64 * 1024 * 1024 := rfl
    have hminLen : kMinMessageLen = 10 := rfl
    omega
  have hwhole : toUnsigned 64 ((body lib message).length + kHeaderLen) =
      (body lib message).length + 4 := toUnsigned_natCast (n := (body lib message).length + 4)
        (by omega)
  have hwidth : toUnsigned 64 ((body lib message).length : Nat) = (body lib message).length :=
    toUnsigned_natCast (by omega)
  have hreader : addSize b.readerIndex_ 4 = b.readerIndex_ + 4 := by
    have hr := hb.reader_le
    have hw := hb.writer_le
    have hs := hb.size_lt
    exact addSize_of_lt (by omega)
  have hdata : b.bytesAt (b.readerIndex_ + 4) (body lib message).length =
      .ok (body lib message) := by
    rw [Buffer.bytesAt_spec hb (by omega), hcont, encoded, List.append_assoc,
      ← word_length ((body lib message).length : Nat), List.drop_left, List.take_left]
  obtain ⟨b', hb', hok', hcont', -⟩ :=
    Buffer.retrieve_spec hb (show (body lib message).length + 4 ≤ b.contents.length by omega)
  -- the checks go through one after the other, and `parse` reads the body
  refine ⟨b', ?_, hok', ?_⟩
  · rw [turn, hmin, hheader, if_pos (by omega), hpeek, ok_bind, if_neg hrange, hwhole,
      if_pos (by omega), hreader, hwidth, hdata, ok_bind, parse_body h hlen]
    simp only [hb', ok_bind]
    rfl
  · rw [hcont', hcont, Nat.add_comm, ← hencoded, List.drop_left]

/-- By induction on the messages: the loop hands them over one by one and empties the buffer. -/
theorem loop_encoded (messages : List Message) (hsend : ∀ m ∈ messages, Sendable lib m)
    (hlen : ∀ m ∈ messages, (body lib m).length ≤ 64 * 1024 * 1024) :
    ∀ {b : Buffer} (calls : List (Call Message)), b.Ok →
      b.contents = messages.flatMap (encoded lib) →
      ∃ b', loop (turn lib) (messages.length + 1) (b, calls) =
        some (.ok (b', calls ++ messages.map .messageCallback)) ∧ b'.contents = [] := by
  induction messages with
  | nil =>
    intro b calls hb hempty
    have hread := hb.readableBytes_eq_length
    rw [List.flatMap_nil] at hempty
    rw [hempty, List.length_nil] at hread
    refine ⟨b, ?_, hempty⟩
    rw [loop_done (a := (b, calls)), List.map_nil, List.append_nil]
    rw [turn, if_neg]
    · rfl
    · rw [hread]
      decide
  | cons message messages ih =>
    intro b calls hb hcont
    rw [List.flatMap_cons] at hcont
    obtain ⟨b₁, hturn, hok₁, hcont₁⟩ := turn_encoded (hsend message List.mem_cons_self)
      (hlen message List.mem_cons_self) hb hcont calls
    obtain ⟨b', hloop, hempty⟩ := ih (fun m hm => hsend m (List.mem_cons_of_mem _ hm))
      (fun m hm => hlen m (List.mem_cons_of_mem _ hm))
      (calls ++ [.messageCallback message]) hok₁ hcont₁
    refine ⟨b', ?_, hempty⟩
    rw [List.length_cons, loop_next hturn, hloop, List.append_assoc, List.map_cons,
      List.singleton_append]

end Turns

/-! ## `send` builds the frame

  The appends one by one, the prepend at the end, and the assertion of the length between
  them. -/

variable [VectorImpl]

/-- **`send`** hands over a well-formed buffer with the frame of the message. -/
theorem send_ok (hmax : Buffer.kCheapPrepend + 64 * 1024 * 1024 ≤ VectorImpl.maxSize)
    (h : Sendable lib message) (hlen : (body lib message).length ≤ 64 * 1024 * 1024) :
    ∃ b, send lib message = .ok b ∧ b.Ok ∧ b.contents = encoded lib message := by
  have hsummed := summed_length lib message
  have hbody := body_length lib message
  have hsize := h.size
  have hk : Buffer.kCheapPrepend = 8 := rfl
  rw [hk] at hmax
  have hnameLen : toSigned 32 (addSize (lib.GetTypeName message).length 1) =
      ((lib.GetTypeName message).length.succ : Nat) := by
    rw [addSize_of_lt (by omega)]
    exact toSigned_of_lt (by decide) (by omega)
  have hnameWidth : toUnsigned 64 ((lib.GetTypeName message).length.succ : Nat) =
      (lib.GetTypeName message).length + 1 := toUnsigned_natCast (by omega)
  have hbyteSize : toUnsigned 64 (lib.ByteSize message) =
      (lib.SerializeWithCachedSizesToArray message).length := by
    rw [← hsize]
    exact toUnsigned_natCast (by omega)
  have hname : (lib.GetTypeName message ++ [0]).length = (lib.GetTypeName message).length + 1 := by
    rw [List.length_append, List.length_singleton]
  -- the four pieces, each appended to a buffer whose reader is still at its first position
  have hempty := Buffer.contents_new Buffer.kInitialSize
  have hok₀ : (Buffer.new Buffer.kInitialSize).Ok := Buffer.new_ok (by decide)
  have hreader₀ : (Buffer.new Buffer.kInitialSize).readerIndex_ = Buffer.kCheapPrepend := rfl
  generalize hnew : Buffer.new Buffer.kInitialSize = b₀ at hempty hok₀ hreader₀
  obtain ⟨b₁, hb₁, hok₁, hreader₁, hcont₁⟩ := Buffer.append_spec hok₀ hreader₀
    (word (lib.GetTypeName message).length.succ)
    (by rw [hempty, word_length, List.length_nil]; omega)
  rw [hempty, List.nil_append] at hcont₁
  obtain ⟨b₂, hb₂, hok₂, hreader₂, hcont₂⟩ := Buffer.append_spec hok₁ hreader₁
    (lib.GetTypeName message ++ [0]) (by rw [hcont₁, word_length, hname]; omega)
  rw [hcont₁] at hcont₂
  obtain ⟨b₃, hb₃, hok₃, hreader₃, hcont₃⟩ := Buffer.append_spec hok₂ hreader₂
    (lib.SerializeWithCachedSizesToArray message)
    (by rw [hcont₂, List.length_append, word_length, hname]; omega)
  rw [hcont₂] at hcont₃
  replace hcont₃ : b₃.contents = summed lib message := hcont₃
  obtain ⟨b₄, hb₄, hok₄, hreader₄, hcont₄⟩ := Buffer.append_spec hok₃ hreader₃
    (word (checkSum lib (summed lib message))) (by rw [hcont₃, word_length]; omega)
  rw [hcont₃] at hcont₄
  replace hcont₄ : b₄.contents = body lib message := hcont₄
  obtain ⟨b₅, hb₅, hok₅, hcont₅, -⟩ := Buffer.prepend_spec hok₄ (word (body lib message).length)
    (by rw [hreader₄, word_length]; decide)
  -- the payload is stored by the library, between the steps of an append
  rw [Buffer.append] at hb₃
  obtain ⟨b₂', hspace, hb₃⟩ := bind_ok hb₃
  obtain ⟨b₂'', hstored, hwritten⟩ := bind_ok hb₃
  have hread₃ := hok₃.readableBytes_eq_length
  have hread₄ := hok₄.readableBytes_eq_length
  rw [hcont₃] at hread₃
  rw [hcont₄] at hread₄
  have hdata : b₃.bytesAt b₃.readerIndex_ b₃.readableBytes = .ok (summed lib message) := by
    have hall := Buffer.bytesAt_spec hok₃ (i := 0)
      (show 0 + (summed lib message).length ≤ b₃.contents.length by rw [hcont₃]; omega)
    rw [Nat.add_zero, List.drop_zero, hcont₃, List.take_length] at hall
    rw [hread₃, hall]
  have hassert : (body lib message).length = toUnsigned 64
      (4 + ((lib.GetTypeName message).length.succ : Nat) + lib.ByteSize message + 4) := by
    rw [← hsize, toUnsigned]
    omega
  have hlenWord : toSigned 32 (body lib message).length = ((body lib message).length : Nat) :=
    toSigned_of_lt (by decide) (by omega)
  refine ⟨b₅, ?_, hok₅, by rw [hcont₅, hcont₄]; rfl⟩
  have htaken : (lib.GetTypeName message ++ [0]).take ((lib.GetTypeName message).length + 1) =
      lib.GetTypeName message ++ [0] := List.take_of_length_le hname.le
  have hb₁' : b₀.appendInt32 ((lib.GetTypeName message).length.succ : Nat) = .ok b₁ := hb₁
  have hb₄' : b₃.appendInt32 (checkSum lib (summed lib message)) = .ok b₄ := hb₄
  rw [send]
  simp only [hnew, hnameLen, hnameWidth, hbyteSize, hb₁', ok_bind]
  rw [require_pos _ _ hname.ge, ok_bind, htaken, hb₂, ok_bind, hspace, ok_bind, hstored, ok_bind,
    require_pos _ _ hsize, ok_bind, hwritten, ok_bind, hdata, ok_bind, hb₄', ok_bind, hread₄,
    require_pos _ _ hassert, ok_bind, hlenWord]
  exact hb₅

/-- **`send` fills a buffer with the frame** of a message whose body is no longer than the
    largest. -/
theorem send_spec (hmax : Buffer.kCheapPrepend + 64 * 1024 * 1024 ≤ VectorImpl.maxSize)
    (h : Sendable lib message) (hlen : (body lib message).length ≤ 64 * 1024 * 1024) :
    ∃ b, send lib message = .ok b ∧ b.contents = encoded lib message := by
  obtain ⟨b, hb, -, hcont⟩ := send_ok hmax h hlen
  exact ⟨b, hb, hcont⟩

/-- **Round trip.**  The frames that `send` builds for messages whose frame bodies are at most
    `kMaxMessageLen` bytes, put one behind the other into a buffer, come out of `onMessage` as
    these messages, in order, one call each, and leave the buffer empty. -/
theorem round_trip (hmax : Buffer.kCheapPrepend + 64 * 1024 * 1024 ≤ VectorImpl.maxSize)
    (messages : List Message) (hsend : ∀ m ∈ messages, Sendable lib m)
    (hlen : ∀ m ∈ messages, ((body lib m).length : Int) ≤ kMaxMessageLen) :
    ∃ frames, messages.mapM (send lib) = .ok frames ∧
      ∀ b : Buffer, b.Ok → b.contents = frames.flatMap Buffer.contents →
        ∃ b' n, b'.contents = [] ∧ ∀ k ≥ n,
          loop (turn lib) k (b, []) = some (.ok (b', messages.map .messageCallback)) := by
  have hlen' : ∀ m ∈ messages, (body lib m).length ≤ 64 * 1024 * 1024 := by
    intro m hm
    have hm := hlen m hm
    rw [kMaxMessageLen] at hm
    omega
  -- `send` of each message gives its frame
  have hframes : ∀ ms : List Message, (∀ m ∈ ms, m ∈ messages) →
      ∃ frames, ms.mapM (send lib) = .ok frames ∧
        frames.flatMap Buffer.contents = ms.flatMap (encoded lib) := by
    intro ms
    induction ms with
    | nil => exact fun _ => ⟨[], rfl, rfl⟩
    | cons m ms ih =>
      intro hin
      have hm := hin m List.mem_cons_self
      obtain ⟨b, hb, hcont⟩ := send_spec hmax (hsend m hm) (hlen' m hm)
      obtain ⟨frames, hms, hflat⟩ := ih fun m hm => hin m (List.mem_cons_of_mem _ hm)
      refine ⟨b :: frames, ?_, ?_⟩
      · rw [List.mapM_cons, hb, ok_bind, hms]
        rfl
      · rw [List.flatMap_cons, List.flatMap_cons, hcont, hflat]
  obtain ⟨frames, hbuilt, hflat⟩ := hframes messages fun _ hm => hm
  refine ⟨frames, hbuilt, fun b hb hcont => ?_⟩
  rw [hflat] at hcont
  obtain ⟨b', hloop, hempty⟩ := loop_encoded messages hsend hlen' [] hb hcont
  exact ⟨b', messages.length + 1, hempty, fun k hk => loop_mono hloop hk⟩

end Codec

section Examples

attribute [local instance] VectorImpl.exact

/-- The checksum of zlib. -/
def adler32 (start : Nat) (data : List UInt8) : Nat :=
  let sums := data.foldl (fun (a, b) byte =>
    ((a + byte.toNat) % 65521, (b + (a + byte.toNat) % 65521) % 65521))
    (start % 65536, start / 65536)
  sums.2 * 65536 + sums.1

/-- The name of the one message type of `bytesValue`. -/
def bytesValueName : List UInt8 :=
  "google.protobuf.BytesValue".toList.map fun c => UInt8.ofNat c.toNat

/-- A message type with one field of bytes (fewer than 128), which is left out when it is empty. -/
def bytesValue : Protobuf (List UInt8) Unit where
  GetTypeName _ := bytesValueName
  ByteSize
    | [] => 0
    | value => 2 + value.length
  SerializeWithCachedSizesToArray
    | [] => []
    | value => 10 :: UInt8.ofNat value.length :: value
  FindMessageTypeByName name := if name = bytesValueName then some () else none
  GetPrototype _ := some []
  New _ := []
  ParseFromArray
    | _, [] => []
    | _, _ :: length :: value => value.take length.toNat
    | message, [_] => message
  adler32 := adler32

/-- The conditions can be met: two messages, an empty one and one of three bytes. -/
theorem round_trip_twoMessages : ∃ frames, [[], [1, 2, 3]].mapM (send bytesValue) = .ok frames ∧
    ∀ b : Buffer, b.Ok → b.contents = frames.flatMap Buffer.contents →
      ∃ b' n, b'.contents = [] ∧ ∀ k ≥ n,
        loop (turn bytesValue) k (b, []) =
          some (.ok (b', [.messageCallback [], .messageCallback [1, 2, 3]])) := by
  have hparses : ∀ value : List UInt8, value = [] ∨ value = [1, 2, 3] →
      Sendable bytesValue value := by
    rintro value (rfl | rfl)
    · exact ⟨by decide +kernel, by decide, ⟨[], by decide +kernel⟩, fun _ _ => rfl⟩
    · exact ⟨by decide +kernel, by decide, ⟨[], by decide +kernel⟩, fun _ _ => rfl⟩
  exact round_trip (by decide) [[], [1, 2, 3]]
    (fun m hm => hparses m (by simpa using hm)) (by decide +kernel)

end Examples

end ProtobufCodec

end IOEvent
