/-
  `LengthHeaderCodec` (Codec.h, Codec.cpp), and a connection that uses it for its messages.

  The codec frames the stream a second time: its `onMessage` takes whole frames out of the input
  buffer and hands their bodies on.  Together with the connection's own framing this works
  because `onMessage` is called when exactly one frame is in the buffer and takes it out, so that
  the next header is read into an empty buffer.

  One frame it does not take out.  Its loop asks for MORE than the four bytes of a header, so the
  frame of an empty body stays where it is, although `kMinMessageLen` is 0; `ProtobufCodec`'s
  loop has `>=` in this place.  `delivers_iff` shows that this is all there is: the bodies are
  delivered if and only if none of them is empty.
-/
import IOEvent.TcpConnection.Stream
import IOEvent.Foundation.Loops

open Foundation

namespace IOEvent

namespace LengthHeaderCodec

/-- `kHeaderLen`. -/
def kHeaderLen : Int := 4

/-- `kMaxMessageLen`. -/
def kMaxMessageLen : Int := 65536

/-- `kMinMessageLen`: zero, so that a message of no bytes passes the check of the length. -/
def kMinMessageLen : Int := 0

/-- One turn of the loop of `onMessage`: the buffer, and the calls made so far. It ends the
    loop or goes on with what is left of the buffer. -/
def turn : Buffer × List Act → Outcome Fault Buffer (Turn (Buffer × List Act) (Buffer × List Act))
  | (message, calls) =>
    if toUnsigned 64 kHeaderLen < message.readableBytes then do
      let bodyLen ← message.peekInt32
      if kMaxMessageLen < bodyLen ∨ bodyLen < kMinMessageLen then
        return .done (message, calls ++ [.shutdown])
      else if toUnsigned 64 (bodyLen + kHeaderLen) ≤ message.readableBytes then do
        let message ← message.retrieve (toUnsigned 64 kHeaderLen)
        let s ← message.bytesAt message.readerIndex_ (toUnsigned 64 bodyLen)
        let message ← message.retrieve (toUnsigned 64 bodyLen)
        return .next (message, calls ++ [.deliver s])
      else
        return .done (message, calls)
    else
      return .done (message, calls)

/-- `onMessage`.  Every turn that goes on retrieves a header, so the readable bytes bound the turns
    (`turns_suffice`). -/
def onMessage : MessageCallback := fun message =>
  (loop turn (message.readableBytes + 1) (message, [])).getD (.ok (message, []))

/-! ## One turn

  What the body of the loop does to the contents of a buffer that is `Ok`. -/

/-- What a turn does to a well-formed buffer. The cases exclude each other and are all there
    are (`turn_cases`), so the loop needs no other fact about its body. -/
inductive Turned (b : Buffer) (calls : List Act) :
    Turn (Buffer × List Act) (Buffer × List Act) → Prop
  /-- There is no more than a header. -/
  | short (h : b.contents.length ≤ 4) : Turned b calls (.done (b, calls))
  /-- The length is out of bounds: the connection is shut down. -/
  | refused (h : 4 < b.contents.length) (hbig : 65536 < ofBytes (b.contents.take 4)) :
      Turned b calls (.done (b, calls ++ [.shutdown]))
  /-- Part of the body is still to come. -/
  | waits (h : 4 < b.contents.length) (n : Nat)
      (hn : ofBytes (b.contents.take 4) = n) (hvalid : n ≤ 65536)
      (hlen : b.contents.length < 4 + n) : Turned b calls (.done (b, calls))
  /-- A frame is taken out, and its body handed on. -/
  | taken (h : 4 < b.contents.length) (n : Nat) (hn : ofBytes (b.contents.take 4) = n)
      (hvalid : n ≤ 65536) (hlen : 4 + n ≤ b.contents.length) (b' : Buffer) (hok : b'.Ok)
      (hcont : b'.contents = b.contents.drop (4 + n)) (hbuf : b'.buffer_ = b.buffer_)
      (hall : 4 + n = b.contents.length →
        b'.readerIndex_ = Buffer.kCheapPrepend ∧ b'.writerIndex_ = Buffer.kCheapPrepend) :
      Turned b calls (.next (b', calls ++ [.deliver ((b.contents.drop 4).take n)]))

section Turns

variable {b : Buffer}

/-- One turn of the loop of `onMessage` delivers the first message, asks for more bytes, or finds
    a length it refuses. -/
theorem turn_cases (h : b.Ok) (calls : List Act) :
    ∃ t, turn (b, calls) = .ok t ∧ Turned b calls t := by
  have hread := h.readableBytes_eq_length
  have hheader : toUnsigned 64 kHeaderLen = 4 := rfl
  have hmax : kMaxMessageLen = 65536 := rfl
  have hmin : kMinMessageLen = 0 := rfl
  have hfour : kHeaderLen = 4 := rfl
  rw [turn, hheader, hread]
  -- a header needs more than 4 readable bytes here, so a message needs a byte of body
  by_cases hlong : 4 < b.contents.length
  · rw [if_pos hlong, Buffer.peekInt32_spec h (Nat.le_of_lt hlong), ok_bind]
    have hlt := ofBytes_lt (b.contents.take 4)
    have hword : ((b.contents.take 4)).length = 4 := by
      rw [List.length_take, Nat.min_eq_left (Nat.le_of_lt hlong)]
    rw [hword] at hlt
    generalize hn : ofBytes (b.contents.take 4) = n at hlt ⊢
    by_cases hrange : kMaxMessageLen < toSigned 32 n ∨ toSigned 32 n < kMinMessageLen
    · -- a word below 2^31 is its own value, so a word refused is out of range itself
      rw [if_pos hrange]
      refine ⟨_, rfl, .refused hlong ?_⟩
      rw [hn]
      by_contra hsmall
      rw [toSigned_of_lt (by decide) (show n < 2 ^ 31 by omega)] at hrange
      omega
    · -- a word accepted is below 2^31, and the sums do not wrap
      rw [if_neg hrange]
      have hbody : toSigned 32 n = n := by
        refine toSigned_of_lt (by decide) ?_
        by_contra hbig
        rw [toSigned, if_neg (by omega)] at hrange
        omega
      rw [hbody] at hrange ⊢
      have hsum : toUnsigned 64 ((n : Int) + kHeaderLen) = 4 + n := by
        rw [hfour, Int.add_comm]
        exact toUnsigned_natCast (n := 4 + n) (by omega)
      rw [hsum, toUnsigned_natCast (by omega)]
      by_cases hcomplete : 4 + n ≤ b.contents.length
      · -- `retrieve` of the header and of the body, with the message copied in between
        rw [if_pos hcomplete]
        obtain ⟨b₁, hb₁, hok₁, hcont₁, hbuf₁, -⟩ := Buffer.retrieve_spec h (Nat.le_of_lt hlong)
        have hlen₁ : n ≤ b₁.contents.length := by
          rw [hcont₁, List.length_drop]
          omega
        obtain ⟨b₂, hb₂, hok₂, hcont₂, hbuf₂, -, hall₂⟩ := Buffer.retrieve_spec hok₁ hlen₁
        have hfront := Buffer.bytesAt_spec hok₁ (i := 0) (show 0 + n ≤ _ by omega)
        rw [Nat.add_zero, List.drop_zero] at hfront
        rw [hb₁, ok_bind, hfront, ok_bind, hb₂, ok_bind, hcont₁]
        refine ⟨_, rfl, .taken hlong n hn (by omega) hcomplete b₂ hok₂ ?_ (hbuf₂.trans hbuf₁) ?_⟩
        · rw [hcont₂, hcont₁, List.drop_drop]
        · intro hlast
          refine hall₂ ?_
          rw [hcont₁, List.length_drop]
          omega
      · -- the body has not come yet
        rw [if_neg hcomplete]
        exact ⟨_, rfl, .waits hlong n hn (by omega) (Nat.lt_of_not_le hcomplete)⟩
  · rw [if_neg hlong]
    exact ⟨_, rfl, .short (Nat.le_of_not_lt hlong)⟩

/-- With no more than a header in the buffer the loop is left. -/
theorem turn_short (h : b.Ok) (hshort : b.contents.length ≤ 4) (calls : List Act) :
    turn (b, calls) = .ok (.done (b, calls)) := by
  obtain ⟨t, ht, hturned⟩ := turn_cases h calls
  cases hturned with
  | short => exact ht
  | refused => omega
  | waits => exact ht
  | taken => omega

/-- The turns `onMessage` allows are enough. -/
theorem turns_suffice (h : b.Ok) (calls : List Act) :
    ∃ r, loop turn (b.readableBytes + 1) (b, calls) = some r := by
  refine loop_of_measure (I := fun s => s.1.Ok) (μ := fun s => s.1.readableBytes) ?_ _ _ h
    (Nat.lt_succ_self _)
  rintro ⟨b, calls⟩ ⟨b', calls'⟩ hb hturn
  obtain ⟨t, ht, hturned⟩ := turn_cases hb calls
  obtain rfl := Except.ok.inj (ht.symm.trans hturn)
  cases hturned with
  | taken hlong n hn _ hlen _ hok hcont hbuf hall =>
    refine ⟨hok, ?_⟩
    show b'.readableBytes < b.readableBytes
    rw [hok.readableBytes_eq_length, hb.readableBytes_eq_length, hcont, List.length_drop]
    omega

/-- `onMessage` is its loop, with any number of turns that suffices. -/
theorem onMessage_eq (h : b.Ok) {n : Nat} {r : Outcome Fault Buffer (Buffer × List Act)}
    (hloop : loop turn n (b, []) = some r) : onMessage b = r := by
  obtain ⟨r', hr'⟩ := turns_suffice h []
  have hboth := loop_mono hr' (Nat.le_max_left _ n)
  rw [loop_mono hloop (Nat.le_max_right (b.readableBytes + 1) n)] at hboth
  rw [onMessage, hr', Option.getD_some]
  exact (Option.some.inj hboth).symm

/-- The length word of a frame. -/
theorem ofBytes_frame (body : List UInt8) (hlen : body.length ≤ 65536) :
    ofBytes ((frame body).take 4) = body.length := by
  rw [frame, List.take_append_of_le_length (header_length body).ge,
    List.take_of_length_le (header_length body).le, header, ofBytes_toBytes]
  exact Nat.mod_eq_of_lt (Nat.lt_of_le_of_lt hlen (by decide))

/-- **A whole frame** in the buffer, whose body is not empty, is taken out and handed on. -/
theorem onMessage_frame {body : List UInt8} (h : b.Ok) (hcont : b.contents = frame body)
    (hne : body ≠ []) (hlen : body.length ≤ 65536) :
    ∃ b', onMessage b = .ok (b', [.deliver body]) ∧ b'.Ok ∧ b'.contents = [] ∧
      b'.buffer_ = b.buffer_ ∧ b'.readerIndex_ = Buffer.kCheapPrepend ∧
      b'.writerIndex_ = Buffer.kCheapPrepend := by
  have hframe := frame_length body
  have hpos : 0 < body.length := List.length_pos_of_ne_nil hne
  have hword := ofBytes_frame body hlen
  rw [← hcont] at hframe hword
  obtain ⟨t, ht, hturned⟩ := turn_cases h []
  cases hturned with
  | short hshort => omega
  | refused hlong hbig => omega
  | waits hlong n hn _ hpart => omega
  | taken hlong n hn _ hwhole b' hok hrest hbuf hall =>
    obtain rfl : n = body.length := hn.symm.trans hword
    have hempty : b'.contents = [] := by
      rw [hrest, List.drop_eq_nil_of_le hframe.le]
    have hbody : (b.contents.drop 4).take body.length = body := by
      rw [hcont, frame, List.drop_append_of_le_length (header_length body).ge,
        List.drop_eq_nil_of_le (header_length body).le, List.nil_append, List.take_length]
    rw [hbody] at ht
    -- the second turn finds the buffer empty
    have hsecond := turn_short hok (by rw [hempty]; decide) ([] ++ [.deliver body])
    refine ⟨b', onMessage_eq h (n := 2) ?_, hok, hempty, hbuf, hall hframe.symm⟩
    rw [loop_next ht, loop_done hsecond]
    rfl

/-- The frame of an empty body is left in the buffer. -/
theorem onMessage_empty (h : b.Ok) (hcont : b.contents = frame []) : onMessage b = .ok (b, []) := by
  refine onMessage_eq h (n := 1) (loop_done (turn_short h ?_ []) 0)
  rw [hcont, frame_length]
  decide

end Turns

/-! ## A connection with this codec

  The frames arrive one by one.  While none of them is empty, each is delivered and the
  connection is `Ready` for the next; the first empty one is still in the buffer after its
  bytes. -/

/-- The bodies handed to the `StringMessageCallback`. -/
def delivered (s : TcpConnection) : List (List UInt8) := s.trace.filterMap fun
  | .deliver message => some message
  | _ => none

section EndToEnd

variable [VectorImpl]

/-- After the bytes of each frame, the bodies up to it have been delivered and the connection
    is not being shut down; after the last one nothing is left in the input buffer. It speaks
    of every prefix of the frames, as the messages are to be delivered in time and not at the
    end of the stream. -/
def Delivers (s : TcpConnection) (bodies : List (List UInt8)) : Prop :=
  ∀ k ≤ bodies.length, ∃ s',
    Receiver.feed (fun _ => onMessage) ⟨s, []⟩ ((bodies.take k).flatMap frame) = .ok ⟨s', []⟩ ∧
      delivered s' = delivered s ++ bodies.take k ∧ s'.state_ = .kConnected ∧
      (k = bodies.length → s'.inputBuffer_.contents = [])

/-- The connection is about to read a header into an empty buffer. This is the state between
    two frames, and the invariant of the proof. -/
structure Ready (s : TcpConnection) : Prop where
  input : s.inputBuffer_.Ok
  output : s.outputBuffer_.Ok
  empty : s.inputBuffer_.contents = []
  writer : s.inputBuffer_.writerIndex_ = Buffer.kCheapPrepend
  size : Buffer.kCheapPrepend + Buffer.kInitialSize ≤ s.inputBuffer_.buffer_.size
  reading : s.reading = some ⟨.header, s.inputBuffer_.writerIndex_, 4⟩
  messageCallback : s.messageCallback_ = true
  state : s.state_ = .kConnected

/-- **One frame**, up to the call of `onMessage`: room is made for any body the codec accepts, and
    the codec gets a buffer with just this frame. -/
theorem Ready.feed {s : TcpConnection} (h : Ready s)
    (hmax : Buffer.kCheapPrepend + 4 + 65536 ≤ VectorImpl.maxSize) (body : List UInt8)
    (hlen : body.length ≤ 65536) :
    ∃ b₁ b, b.Ok ∧ b.contents = frame body ∧
      Buffer.kCheapPrepend + Buffer.kInitialSize ≤ b.buffer_.size ∧
      ∀ b' calls s', onMessage b = .ok (b', calls) →
        ((Receiver.handed s b₁ b body.length).setInput b').acts calls = .ok s' →
        Receiver.feed (fun _ => onMessage) ⟨s, []⟩ (frame body) = .ok ⟨s'.readHeader, []⟩ := by
  have hk : Buffer.kCheapPrepend = 8 := rfl
  have hi : Buffer.kInitialSize = 1024 := rfl
  have hw := h.writer
  have hsize := h.size
  have hfront : (s.inputBuffer_.contents ++ header body).take 4 = header body := by
    rw [h.empty, List.nil_append]
    exact List.take_of_length_le (header_length body).le
  have hspace : ∀ b, TcpConnection.Counted s.inputBuffer_ b (header body) →
      ∃ b', b.ensureWritableBytes body.length = .ok b' ∧ Buffer.MadeSpace b body.length b' := by
    intro b hc
    have hwb := hc.writer
    rw [header_length] at hwb
    rcases Buffer.ensureWritableBytes_cases hc.ok (show body.length < 2 ^ 63 by omega) with
      hok | ⟨-, hthrow⟩
    · exact hok
    · omega
  obtain ⟨b₀, b₁, b, hc₀, hm, hc, hcont, hfeed⟩ := Receiver.feed_frame (fun _ => onMessage) h.input
    h.reading (by omega) h.messageCallback (show body.length < 2 ^ 31 by omega) hfront hspace
  refine ⟨b₁, b, hc.ok, ?_, ?_, hfeed⟩
  · rw [hcont, h.empty, List.nil_append]
  · rw [hc.size]
    exact Nat.le_trans (hc₀.size ▸ hsize) hm.size_le

/-- A frame whose body is not empty is delivered, and the connection is ready for the next one. -/
theorem Ready.step {s : TcpConnection} (h : Ready s) {body : List UInt8}
    (hmax : Buffer.kCheapPrepend + 4 + 65536 ≤ VectorImpl.maxSize) (hne : body ≠ [])
    (hlen : body.length ≤ 65536) :
    ∃ s', Receiver.feed (fun _ => onMessage) ⟨s, []⟩ (frame body) = .ok ⟨s', []⟩ ∧
      delivered s' = delivered s ++ [body] ∧ Ready s' := by
  obtain ⟨b₁, b, hok, hcont, hsize, hfeed⟩ := h.feed hmax body hlen
  obtain ⟨b', hmsg, hok', hempty, hbuf, hr, hw⟩ := onMessage_frame hok hcont hne hlen
  refine ⟨_, hfeed b' [.deliver body] _ hmsg rfl, ?_, ?_⟩
  · show delivered ((Receiver.handed s b₁ b body.length).observe (.deliver body)) = _
    show ((Receiver.handed s b₁ b body.length).trace ++ [_]).filterMap _ = _
    rw [Receiver.handed_trace, List.filterMap_append, List.filterMap_append, List.append_assoc]
    rfl
  · constructor
    · exact hok'
    · exact h.output
    · exact hempty
    · exact hw
    · show _ ≤ b'.buffer_.size
      rw [hbuf]
      exact hsize
    · rfl
    · exact h.messageCallback
    · exact h.state

/-- The frame of an empty body is not delivered. -/
theorem Ready.step_empty {s : TcpConnection} (h : Ready s)
    (hmax : Buffer.kCheapPrepend + 4 + 65536 ≤ VectorImpl.maxSize) :
    ∃ s', Receiver.feed (fun _ => onMessage) ⟨s, []⟩ (frame []) = .ok ⟨s', []⟩ ∧
      delivered s' = delivered s := by
  obtain ⟨b₁, b, hok, hcont, hsize, hfeed⟩ := h.feed hmax [] (by decide)
  refine ⟨_, hfeed b [] _ (onMessage_empty hok hcont) rfl, ?_⟩
  show (Receiver.handed s b₁ b ([] : List UInt8).length).trace.filterMap _ = _
  rw [Receiver.handed_trace, List.filterMap_append]
  exact List.append_nil _

/-- By induction on the bodies: a connection that is ready delivers them if and only if none is
    empty. -/
theorem delivers_iff_of_ready (hmax : Buffer.kCheapPrepend + 4 + 65536 ≤ VectorImpl.maxSize)
    (bodies : List (List UInt8)) :
    ∀ {s : TcpConnection}, Ready s → (∀ body ∈ bodies, body.length ≤ 65536) →
      (Delivers s bodies ↔ ∀ body ∈ bodies, body ≠ []) := by
  induction bodies with
  | nil =>
    intro s h _
    constructor
    · exact fun _ => nofun
    · intro _ k hk
      rw [Nat.le_zero.mp hk]
      exact ⟨s, rfl, (List.append_nil _).symm, h.state, fun _ => h.empty⟩
  | cons body bodies ih =>
    intro s h hlen
    have hbody := hlen body List.mem_cons_self
    by_cases hne : body = []
    · -- the first frame already fails
      subst hne
      refine ⟨fun hdel => ?_, fun hall => absurd rfl (hall [] List.mem_cons_self)⟩
      obtain ⟨s', hfeed, hnone⟩ := h.step_empty hmax
      obtain ⟨s'', hfeed', hsome, -⟩ := hdel 1 (Nat.succ_le_succ (Nat.zero_le _))
      rw [List.take_succ_cons, List.take_zero, List.flatMap_singleton, hfeed] at hfeed'
      obtain rfl : s' = s'' := congrArg Receiver.connection (Except.ok.inj hfeed')
      rw [hnone] at hsome
      exact absurd (List.self_eq_append_right.mp hsome) (List.cons_ne_nil _ _)
    · obtain ⟨s', hfeed, hdone, hready⟩ := h.step hmax hne hbody
      have happend : ∀ bytes, Receiver.feed (fun _ => onMessage) ⟨s, []⟩ (frame body ++ bytes) =
          Receiver.feed (fun _ => onMessage) ⟨s', []⟩ bytes := Receiver.feed_append hfeed
      have hrest : Delivers s (body :: bodies) ↔ Delivers s' bodies := by
        constructor
        · intro hdel k hk
          obtain ⟨s'', hfeed', hdel', hstate, hempty⟩ := hdel (k + 1) (Nat.succ_le_succ hk)
          rw [List.take_succ_cons, List.flatMap_cons, happend] at hfeed'
          refine ⟨s'', hfeed', ?_, hstate, fun hk' => hempty (congrArg Nat.succ hk')⟩
          rw [hdel', hdone, List.take_succ_cons, List.append_assoc, List.singleton_append]
        · rintro hdel (_ | k) hk
          · exact ⟨s, rfl, (List.append_nil _).symm, h.state, nofun⟩
          · obtain ⟨s'', hfeed', hdel', hstate, hempty⟩ := hdel k (Nat.le_of_succ_le_succ hk)
            rw [List.take_succ_cons, List.flatMap_cons, happend]
            refine ⟨s'', hfeed', ?_, hstate, fun hk' => hempty (Nat.succ.inj hk')⟩
            rw [hdel', hdone, List.append_assoc, List.singleton_append]
      rw [hrest, ih hready fun b hb => hlen b (List.mem_cons_of_mem _ hb), List.forall_mem_cons]
      exact ⟨fun hall => ⟨hne, hall⟩, fun hall => hall.2⟩

/-- A connection that has just been established is ready. -/
theorem ready_of_established {cc clc : Bool} {s : TcpConnection}
    (hs : (TcpConnection.new cc true clc).connectEstablished [] = .ok s) : Ready s := by
  obtain ⟨o, -, rfl⟩ := TcpConnection.established_eq (b := .new Buffer.kInitialSize) hs
  constructor
  · exact Buffer.new_ok (by decide)
  · exact Buffer.new_ok (by decide)
  · exact Buffer.contents_new Buffer.kInitialSize
  · rfl
  · show _ ≤ (Vec.ofSize (0 : UInt8) _).size
    rw [Vec.size_ofSize]
  · rfl
  · rfl
  · rfl

/-- **End to end.**  A connection with this codec delivers the bodies its peer frames, each of at
    most 65536 bytes, if and only if none of them is empty. -/
theorem delivers_iff (hmax : Buffer.kCheapPrepend + 4 + 65536 ≤ VectorImpl.maxSize) (cc clc : Bool)
    {s : TcpConnection} (hs : (TcpConnection.new cc true clc).connectEstablished [] = .ok s)
    (bodies : List (List UInt8)) (hlen : ∀ body ∈ bodies, body.length ≤ 65536) :
    Delivers s bodies ↔ ∀ body ∈ bodies, body ≠ [] :=
  delivers_iff_of_ready hmax bodies (ready_of_established hs) hlen

end EndToEnd

section Examples

attribute [local instance] VectorImpl.exact

/-- The established connection. -/
def established : TcpConnection :=
  (((TcpConnection.new true true true).setState .kConnected).observe
    (.connectionCallback .kConnected)).readHeader

/-- The condition can be met: two bodies, read in one go. -/
theorem delivers_iff_twoBodies :
    (TcpConnection.new true true true).connectEstablished [] = .ok established ∧
    Delivers established [[7], [8, 9]] := by
  have hs : (TcpConnection.new true true true).connectEstablished [] = .ok established := rfl
  have hiff := delivers_iff (by decide) true true hs [[7], [8, 9]] (by decide)
  exact ⟨hs, hiff.mpr (by decide)⟩

/-- **Delivery fails** for one empty body. -/
theorem empty_body_not_delivered :
    (TcpConnection.new true true true).connectEstablished [] = .ok established ∧
    ¬ Delivers established [[]] := by
  refine ⟨rfl, fun hdel => ?_⟩
  obtain ⟨s', hfeed, hsome, -⟩ := hdel 1 (Nat.le_refl _)
  have hend : ((Receiver.feed (fun _ => onMessage) ⟨established, []⟩
      ([[]].flatMap frame)).toOption.map fun r => delivered r.connection) = some [] := by
    decide +kernel
  rw [show Receiver.feed (fun _ => onMessage) ⟨established, []⟩ ([[]].flatMap frame) =
    .ok ⟨s', []⟩ from hfeed] at hend
  have hnone := hsome.symm.trans (Option.some.inj hend)
  exact absurd hnone (by decide +kernel)

end Examples

end LengthHeaderCodec

end IOEvent
