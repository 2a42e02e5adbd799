/-
  A connection whose message callback takes out what it is given.

  Between two frames such a connection always looks the same: it is about to read a header, into an
  empty input buffer with its indices at the front (`AtHeader`).  `AtHeader.feed_frame` is one frame
  from there: the callback gets just this frame, and if it leaves the buffer empty the connection is
  at a header again, whatever calls the callback made on it.  One of these calls may fail, a `send`
  whose append throws; the frame then ends there.

  Part of a frame changes nothing that can be seen from outside (`AtHeader.feed_part`).
-/
import IOEvent.TcpConnection.Stream

open Foundation

namespace IOEvent

/-! ## The calls of a callback

  What a list of calls adds to the messages handed on, and that the receiving side is as it
  was. -/

/-- A call that closes the connection. -/
def Act.closes : Act → Bool
  | .shutdown | .forceClose => true
  | .deliver _ | .send _ => false

/-- The messages that the calls hand on. -/
def Act.notes (as : List Act) : List (List UInt8) := as.filterMap fun
  | .deliver message => some message
  | _ => none

namespace TcpConnection

/-- The messages handed on so far. -/
def notes (s : TcpConnection) : List (List UInt8) := s.trace.filterMap fun
  | .deliver message => some message
  | _ => none

/-- Entries that deliver nothing hand on nothing. -/
theorem notes_append {s s' : TcpConnection} {o : List Obs} (h : s'.trace = s.trace ++ o)
    (ho : ∀ message, .deliver message ∉ o) : s'.notes = s.notes := by
  rw [notes, h, List.filterMap_append, notes]
  have hnone : (o.filterMap fun
      | .deliver message => some message
      | _ => none) = ([] : List (List UInt8)) := by
    refine List.filterMap_eq_nil_iff.mpr fun x hx => ?_
    cases x with
    | deliver message => exact absurd hx (ho message)
    | connectionCallback | messageCallback | closeCallback | readDone | readBody | shutdownSend
    | writeFailed => rfl
  rw [hnone, List.append_nil]

/-- `shutdownInThisThread` hands on nothing. -/
theorem shutdownInThisThread_notes (s : TcpConnection) :
    s.shutdownInThisThread.notes = s.notes := by
  rw [shutdownInThisThread]
  split
  · exact notes_append rfl (by simp)
  · rfl

/-- Neither does `shutdown`. -/
theorem shutdown_notes (s : TcpConnection) (isInLoopThread : Bool) :
    (s.shutdown isInLoopThread).notes = s.notes := by
  rw [shutdown]
  split
  · cases isInLoopThread with
    | true => exact shutdownInThisThread_notes _
    | false => rfl
  · rfl

/-- Nor does `forceClose`. -/
theorem forceClose_notes (s : TcpConnection) : s.forceClose.notes = s.notes := by
  rw [forceClose]
  split <;> rfl

section Calls

variable [VectorImpl]

/-- What the calls `as` do: they hand their messages on, or a `send` among them throws. -/
def Makes (s : TcpConnection) (as : List Act) (r : M) : Prop :=
  Holds (fun s' => Calm s s' ∧ s'.notes = s.notes ++ Act.notes as ∧
      ((∀ a ∈ as, a.closes = false) → s'.state_ = s.state_)) (fun e => e.1 = .lengthError) r

/-- `send` hands on its message, or throws. -/
theorem send_makes {s : TcpConnection} (h : s.outputBuffer_.Ok) (message : StringPiece) :
    Makes s [.send message] (s.send true message) := by
  have hsame : ∀ s' : TcpConnection, s'.trace = s.trace → s'.notes = s.notes ++ [] := by
    intro s' htrace
    rw [notes, htrace, List.append_nil, notes]
  rw [send]
  split
  · rcases sendInThisThread_cases h message with ⟨-, hr⟩ | ⟨-, b, -, hb, -, hr⟩ | ⟨-, hr⟩
    · rw [if_pos rfl, hr]
      exact .ok ⟨Calm.refl h, hsame _ rfl, fun _ => rfl⟩
    · rw [if_pos rfl, hr]
      split
      · exact .ok ⟨(Calm.setOutput hb).trans (Calm.write hb), hsame _ rfl, fun _ => rfl⟩
      · exact .ok ⟨Calm.setOutput hb, hsame _ rfl, fun _ => rfl⟩
    · rw [if_pos rfl, hr]
      exact .error rfl
  · exact .ok ⟨Calm.refl h, hsame _ rfl, fun _ => rfl⟩

/-- **Each call makes what it says**, so the calls of a callback make what they say together. -/
theorem act_makes {s : TcpConnection} (h : s.outputBuffer_.Ok) (a : Act) :
    Makes s [a] (s.act a) := by
  cases a with
  | deliver message =>
    refine .ok ⟨Calm.observe h rfl, ?_, fun _ => rfl⟩
    show (s.trace ++ [_]).filterMap _ = _
    rw [List.filterMap_append]
    rfl
  | shutdown =>
    refine .ok ⟨shutdown_calm h true, ?_, fun hno => nomatch hno _ List.mem_cons_self⟩
    rw [shutdown_notes]
    exact (List.append_nil _).symm
  | forceClose =>
    refine .ok ⟨forceClose_calm h, ?_, fun hno => nomatch hno _ List.mem_cons_self⟩
    rw [forceClose_notes]
    exact (List.append_nil _).symm
  | send message => exact send_makes h message

/-- By induction on the calls. -/
theorem acts_makes (as : List Act) :
    ∀ {s : TcpConnection}, s.outputBuffer_.Ok → Makes s as (s.acts as) := by
  induction as with
  | nil => exact fun h => .ok ⟨Calm.refl h, (List.append_nil _).symm, fun _ => rfl⟩
  | cons a as ih =>
    intro s h
    rw [acts, run_cons]
    refine Holds.bind (act_makes h a) fun s₁ hs₁ => (ih hs₁.1.output).mono ?_ fun _ he => he
    rintro s' ⟨hcalm, hnotes, hstate⟩
    refine ⟨hs₁.1.trans hcalm, ?_, fun hno => ?_⟩
    · rw [hnotes, hs₁.2.1, List.append_assoc, Act.notes, Act.notes, Act.notes,
        ← List.filterMap_append, List.singleton_append]
    · rw [hstate fun a ha => hno a (List.mem_cons_of_mem _ ha)]
      exact hs₁.2.2 fun a ha => hno a (List.mem_singleton.mp ha ▸ List.mem_cons_self)

end Calls

end TcpConnection

/-! ## Between two frames

  A header read from the empty buffer makes room for the body; the body is read behind the
  header, so the callback sees one whole frame. -/

namespace Receiver

section Machine

variable [VectorImpl] {s : TcpConnection} {messageCallback : Callback}

/-- The connection is about to read a header into an empty buffer. Nothing of what came before
    is left in it, so all frames are alike. -/
structure AtHeader (s : TcpConnection) : Prop where
  input : s.inputBuffer_.Ok
  output : s.outputBuffer_.Ok
  empty : s.inputBuffer_.contents = []
  writer : s.inputBuffer_.writerIndex_ = Buffer.kCheapPrepend
  size : Buffer.kCheapPrepend + Buffer.kInitialSize ≤ s.inputBuffer_.buffer_.size
  reading : s.reading = some ⟨.header, s.inputBuffer_.writerIndex_, 4⟩
  messageCallback : s.messageCallback_ = true

/-- A connection that has just been established. -/
theorem established_atHeader {cc clc : Bool} {s : TcpConnection}
    (hs : (TcpConnection.new cc true clc).connectEstablished [] = .ok s) :
    AtHeader s ∧ s.notes = [] ∧ s.state_ = .kConnected := by
  obtain ⟨o, ho, rfl⟩ := TcpConnection.established_eq (b := .new Buffer.kInitialSize) hs
  refine ⟨⟨Buffer.new_ok (by decide), Buffer.new_ok (by decide),
    Buffer.contents_new Buffer.kInitialSize, rfl, ?_, rfl, rfl⟩, ?_, rfl⟩
  · show _ ≤ (Vec.ofSize (0 : UInt8) _).size
    rw [Vec.size_ofSize]
  · exact TcpConnection.notes_append (s := TcpConnection.new cc true clc) (o := o) rfl
      fun message hmessage => nomatch ho _ hmessage

/-- **Part of a read**: its bytes are stored, and nothing else happens.  By induction on the
    bytes. -/
theorem feed_part {op : AsyncRead} (hread : s.reading = some op) :
    ∀ (bytes stored : List UInt8), stored.length + bytes.length < op.len →
      feed messageCallback ⟨s, stored⟩ bytes = .ok ⟨s, stored ++ bytes⟩
  | [], stored, _ => by
    rw [List.append_nil]
    rfl
  | byte :: bytes, stored, hlen => by
    rw [List.length_cons] at hlen
    have hshort : complete messageCallback ⟨s, stored ++ [byte]⟩ = .ok ⟨s, stored ++ [byte]⟩ := by
      refine complete_of_ne hread ?_
      rw [List.length_append, List.length_singleton]
      omega
    have hrest := feed_part hread bytes (stored ++ [byte])
      (by rw [List.length_append, List.length_singleton]; omega)
    rw [feed] at hrest
    rw [feed, run_cons, recvByte, hshort, ok_bind, hshort, ok_bind, hrest, List.append_assoc,
      List.singleton_append]

/-- What the header of a frame makes of the connection: room for the body, and a read of it. -/
structure AtBody (s s₁ : TcpConnection) (n : Nat) : Prop where
  input : s₁.inputBuffer_.Ok
  output : s₁.outputBuffer_ = s.outputBuffer_
  length : s₁.inputBuffer_.contents.length = 4
  size : s.inputBuffer_.buffer_.size ≤ s₁.inputBuffer_.buffer_.size
  room : s₁.inputBuffer_.writerIndex_ + n ≤ s₁.inputBuffer_.buffer_.size
  reading : s₁.reading = some ⟨.body, s₁.inputBuffer_.writerIndex_, n⟩
  messageCallback : s₁.messageCallback_ = true
  state : s₁.state_ = s.state_
  notes : s₁.notes = s.notes

variable (messageCallback) in
/-- The header of a frame. -/
theorem AtHeader.feed_header (h : AtHeader s) {body : List UInt8} (hne : body ≠ [])
    (hbody : body.length < 2 ^ 31)
    (hmax : Buffer.kCheapPrepend + 4 + body.length ≤ VectorImpl.maxSize) :
    ∃ s₁, feed messageCallback ⟨s, []⟩ (header body) = .ok ⟨s₁, []⟩ ∧ AtBody s s₁ body.length ∧
      s₁.inputBuffer_.contents = header body := by
  have hk : Buffer.kCheapPrepend = 8 := rfl
  have hi : Buffer.kInitialSize = 1024 := rfl
  have hw := h.writer
  have hsize := h.size
  have hpos : 0 < body.length := List.length_pos_of_ne_nil hne
  -- the input buffer was empty, so the header is all that is in it
  have hfront : (s.inputBuffer_.contents ++ header body).take 4 = header body := by
    rw [h.empty, List.nil_append]
    exact List.take_of_length_le (header_length body).le
  obtain ⟨b₀, hc₀, hdone⟩ := TcpConnection.readDone_header h.reading rfl h.input rfl
    (by show _ + 4 ≤ _; omega) rfl (header_length body) (messageCallback s)
  have hwb := hc₀.writer
  rw [header_length] at hwb
  -- room for the body, as the length is small enough
  obtain ⟨b₁, hb₁, hm⟩ : ∃ b', b₀.ensureWritableBytes body.length = .ok b' ∧
      Buffer.MadeSpace b₀ body.length b' := by
    rcases Buffer.ensureWritableBytes_cases hc₀.ok (show body.length < 2 ^ 63 by omega) with
      hok | ⟨-, hthrow⟩
    · exact hok
    · omega
  obtain ⟨hok₁, hroom⟩ := hm.room hc₀.ok
  have hcont : b₁.contents = header body := by
    rw [hm.contents_eq hc₀.ok, hc₀.contents, h.empty, List.nil_append]
  rw [lengthWord_of_front hbody hfront, hb₁, within_ok, ok_bind] at hdone
  refine ⟨(TcpConnection.received s b₁ 4).readBody body.length, ?_,
    ⟨hok₁, rfl, ?_, ?_, hroom, rfl, h.messageCallback, rfl, ?_⟩, hcont⟩
  · -- the body has bytes, so its read does not complete yet
    rw [feed_read h.reading (header body) [] (header_ne_nil body)
      (show 0 + (header body).length = 4 by rw [header_length]), List.nil_append,
      complete_of_eq h.reading (header_length body) hdone, ok_bind]
    exact complete_of_ne rfl (show 0 ≠ body.length by omega)
  · show b₁.contents.length = 4
    rw [hcont, header_length]
  · exact hc₀.size ▸ hm.size_le
  · exact TcpConnection.notes_append (o := [.readDone 4, .readBody body.length])
      (List.append_assoc _ _ _) (by simp)

variable (messageCallback) in
/-- **One frame.**  The callback gets it and leaves the buffer empty; then the connection is at a
    header again, unless one of the calls `as` throws. -/
theorem AtHeader.feed_frame (h : AtHeader s) {body : List UInt8} (hne : body ≠ [])
    (hbody : body.length < 2 ^ 31)
    (hmax : Buffer.kCheapPrepend + 4 + body.length ≤ VectorImpl.maxSize) {as : List Act}
    (hcall : ∀ s b, b.Ok → b.contents = frame body → ∃ b', messageCallback s b = .ok (b', as) ∧
      b'.Ok ∧ b'.contents = [] ∧ b'.buffer_ = b.buffer_ ∧
      b'.writerIndex_ = Buffer.kCheapPrepend) :
    Holds (fun r => r.stored = [] ∧ AtHeader r.connection ∧
        r.connection.notes = s.notes ++ Act.notes as ∧
        ((∀ a ∈ as, a.closes = false) → r.connection.state_ = s.state_))
      (fun e => e.1 = .lengthError) (feed messageCallback ⟨s, []⟩ (frame body)) := by
  obtain ⟨s₁, hfeed, hat, hcont⟩ := h.feed_header messageCallback hne hbody hmax
  obtain ⟨b, hc, hdone⟩ := TcpConnection.readDone_body hat.reading rfl hat.input rfl hat.room
    (show body.length = _ from rfl) (messageCallback s₁)
  have hframe : b.contents = frame body := by rw [hc.contents, hcont, frame]
  obtain ⟨b', hb', hok', hempty, hbuf, hwriter⟩ := hcall s₁ b hc.ok hframe
  rw [if_pos hat.messageCallback] at hdone
  simp only [hb', within_ok, ok_bind] at hdone
  rw [frame, feed_append hfeed, feed_read hat.reading body [] hne (by simp), List.nil_append]
  -- the state in which the callback makes its calls
  generalize hs₂ : TcpConnection.setInput _ b' = s₂ at hdone
  have hin : s₂.inputBuffer_ = b' := by rw [← hs₂]; rfl
  have hout : s₂.outputBuffer_ = s.outputBuffer_ := by rw [← hs₂]; exact hat.output
  have hmc : s₂.messageCallback_ = true := by rw [← hs₂]; exact hat.messageCallback
  have hstate : s₂.state_ = s.state_ := by rw [← hs₂]; exact hat.state
  have hnotes : s₂.notes = s.notes := by
    rw [← hs₂, ← hat.notes]
    exact TcpConnection.notes_append (o := [.readDone body.length, .messageCallback s₁.state_])
      (List.append_assoc _ _ _) (by simp)
  have hacts := TcpConnection.acts_makes as (s := s₂) (by rw [hout]; exact h.output)
  cases hr : s₂.acts as with
  | error e =>
    obtain ⟨f, c⟩ := e
    rw [hr, error_bind] at hdone
    rw [hr, TcpConnection.Makes, holds_error] at hacts
    rw [complete, hat.reading]
    simp only [if_true, hdone, within_error, error_bind]
    exact .error hacts
  | ok s₃ =>
    rw [hr, ok_bind] at hdone
    rw [hr] at hacts
    obtain ⟨hcalm, hnotes₃, hopen⟩ := holds_ok.mp hacts
    rw [complete_of_eq hat.reading rfl hdone, ok_bind,
      complete_of_ne rfl (by show 0 ≠ 4; decide)]
    refine .ok ⟨rfl, ?_, ?_, fun hno => (hopen hno).trans hstate⟩
    · have hin₃ : s₃.readHeader.inputBuffer_ = b' := hcalm.input.trans hin
      refine ⟨?_, hcalm.output, ?_, ?_, ?_, rfl, hcalm.callbacks.2.1.trans hmc⟩
      · rw [hin₃]
        exact hok'
      · rw [hin₃]
        exact hempty
      · rw [hin₃]
        exact hwriter
      · rw [hin₃, hbuf, hc.size]
        exact Nat.le_trans h.size hat.size
    · show s₃.notes = _
      rw [hnotes₃, hnotes]

variable (messageCallback) in
/-- **Part of a frame** hands nothing on. -/
theorem AtHeader.feed_part (h : AtHeader s) {body : List UInt8} (hne : body ≠ [])
    (hbody : body.length < 2 ^ 31)
    (hmax : Buffer.kCheapPrepend + 4 + body.length ≤ VectorImpl.maxSize) {bytes : List UInt8}
    (hpart : bytes <+: frame body) (hlen : bytes.length < (frame body).length) :
    ∃ r, feed messageCallback ⟨s, []⟩ bytes = .ok r ∧ r.connection.notes = s.notes ∧
      r.connection.state_ = s.state_ := by
  rw [frame_length] at hlen
  by_cases hshort : bytes.length < 4
  · exact ⟨_, Receiver.feed_part h.reading bytes [] (by show 0 + _ < 4; omega), rfl, rfl⟩
  · -- the header is there, and part of the body
    obtain ⟨s₁, hfeed, hat, -⟩ :=
      h.feed_header messageCallback hne hbody hmax
    have hsplit : bytes = header body ++ bytes.drop 4 := by
      have htake := List.prefix_iff_eq_take.mp hpart
      have hfront : bytes.take 4 = header body := by
        rw [htake, List.take_take, Nat.min_eq_left (by omega), frame,
          List.take_append_of_le_length (header_length body).ge,
          List.take_of_length_le (header_length body).le]
      rw [← hfront, List.take_append_drop]
    refine ⟨⟨s₁, bytes.drop 4⟩, ?_, hat.notes, hat.state⟩
    rw [hsplit, feed_append hfeed]
    refine Receiver.feed_part hat.reading (bytes.drop 4) [] ?_
    rw [List.length_drop]
    show 0 + _ < body.length
    omega

end Machine

end Receiver

end IOEvent
