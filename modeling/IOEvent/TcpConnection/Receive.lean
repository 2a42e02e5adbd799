/-
  The two read completions, one equation each.

  An `async_read` was given the range at the write end, and its completion counts the stored bytes
  in with `hasWritten`; up to there `readHeader` and `readBody` agree, and `received` is the state
  they reach.  From it `readHeader`'s lambda takes the length out of the first four readable bytes
  (`readDone_header`) and `readBody`'s calls the message callback (`readDone_body`).

  The equations hold of any connection whose input buffer is in order and whose read has its
  range, and say nothing about what comes before or after.  Each module that follows a read to
  its end begins with one of them.
-/
import IOEvent.TcpConnection.Frame

open Foundation

namespace IOEvent

namespace TcpConnection

/-- The length word `readHeader`'s lambda takes from an input buffer once `bytes` are counted in:
    the first four readable bytes. -/
def lengthWord (b : Buffer) (bytes : List UInt8) : Int :=
  toSigned 32 (ofBytes ((b.contents ++ bytes).take 4))

/-- The length in a header is a signed 32-bit number, whatever the four bytes are. -/
theorem lengthWord_range (b : Buffer) (bytes : List UInt8) :
    -2 ^ 31 ≤ lengthWord b bytes ∧ lengthWord b bytes < 2 ^ 31 := toSigned_range (by decide) _

/-- The connection once a read of `n` bytes has completed and they are counted in. -/
def received (s : TcpConnection) (b : Buffer) (n : Nat) : TcpConnection :=
  { (s.setInput b).observe (.readDone n) with reading := none }

/-- The input buffer once `n` bytes are counted in behind the readable ones. -/
structure Counted (b b' : Buffer) (bytes : List UInt8) : Prop where
  ok : b'.Ok
  contents : b'.contents = b.contents ++ bytes
  reader : b'.readerIndex_ = b.readerIndex_
  writer : b'.writerIndex_ = b.writerIndex_ + bytes.length
  size : b'.buffer_.size = b.buffer_.size

/-- The scripted callback retrieves what it says, and the rest of the buffer stays in place. -/
theorem retrieving_spec {b : Buffer} (hb : b.Ok) (consume : Nat) (as : List Act) :
    ∃ b', retrieving consume as b = .ok (b', as) ∧ b'.Ok ∧
      b'.contents = b.contents.drop (min consume b.contents.length) ∧ b'.buffer_ = b.buffer_ ∧
      (consume < b.contents.length →
        b'.readerIndex_ = b.readerIndex_ + consume ∧ b'.writerIndex_ = b.writerIndex_) ∧
      (b.contents.length ≤ consume →
        b'.readerIndex_ = Buffer.kCheapPrepend ∧ b'.writerIndex_ = Buffer.kCheapPrepend) := by
  obtain ⟨b', hb', hok, hcont, hbuf, hsome, hall⟩ :=
    Buffer.retrieve_spec hb (Nat.min_le_right consume b.contents.length)
  refine ⟨b', ?_, hok, hcont, hbuf, fun hlt => ?_, fun hle => hall (Nat.min_eq_right hle)⟩
  · rw [retrieving, hb.readableBytes_eq_length, hb', ok_bind]
    rfl
  · rw [← Nat.min_eq_left (Nat.le_of_lt hlt)]
    exact hsome (by omega)

section

variable [VectorImpl] {s : TcpConnection} {op : AsyncRead} {bytes : List UInt8}

/-- A read completion up to the point where the two lambdas part. -/
theorem readDone_stored (hread : s.reading = some op) (hin : s.inputBuffer_.Ok)
    (hpos : op.pos = s.inputBuffer_.writerIndex_)
    (hroom : s.inputBuffer_.writerIndex_ + op.len ≤ s.inputBuffer_.buffer_.size)
    (hlen : bytes.length = op.len) (messageCallback : MessageCallback) :
    ∃ b b', Counted s.inputBuffer_ b' bytes ∧ b.hasWritten op.len = .ok b' ∧
      s.readDone messageCallback bytes = match op.handler with
        | .header => (received s b op.len).headerDone op.len
        | .body => (received s b op.len).bodyDone messageCallback op.len := by
  rw [← hlen] at hroom ⊢
  obtain ⟨v, hv, -, hsize, -, -, hok, hok', hcont⟩ := Buffer.stored_spec hin hroom
  refine ⟨{ s.inputBuffer_ with buffer_ := v }, _, ⟨hok', hcont, rfl, rfl, hsize⟩, ?_, ?_⟩
  · exact Buffer.hasWritten_spec hok (by rw [hsize]; exact hroom)
  · rw [readDone, hread]
    simp only [hlen, if_true, hpos, Buffer.copyTo, hv, within_ok, ok_bind]
    rfl

/-- **`readHeader`'s lambda**: make room for as many bytes as the length word says, and ask for
    them. -/
theorem readDone_header (hread : s.reading = some op) (hhandler : op.handler = .header)
    (hin : s.inputBuffer_.Ok) (hpos : op.pos = s.inputBuffer_.writerIndex_)
    (hroom : s.inputBuffer_.writerIndex_ + op.len ≤ s.inputBuffer_.buffer_.size)
    (hop : op.len = 4) (hlen : bytes.length = op.len) (messageCallback : MessageCallback) :
    ∃ b, Counted s.inputBuffer_ b bytes ∧
      s.readDone messageCallback bytes = do
        let b' ← within (received s b 4).setInput
          (b.ensureWritableBytes (toUnsigned 64 (lengthWord s.inputBuffer_ bytes)))
        return (received s b' 4).readBody (toUnsigned 64 (lengthWord s.inputBuffer_ bytes)) := by
  obtain ⟨b, b', hc, hw, hr⟩ := readDone_stored hread hin hpos hroom hlen messageCallback
  have hfour : 4 ≤ b'.contents.length := by
    rw [hc.contents, List.length_append]
    omega
  refine ⟨b', hc, ?_⟩
  have hpeek : b'.peekInt32 = .ok (lengthWord s.inputBuffer_ bytes) := by
    rw [Buffer.peekInt32_spec hc.ok hfour, hc.contents, lengthWord]
  rw [hr, hhandler, hop] at *
  simp only [headerDone]
  rw [show (received s b 4).inputBuffer_ = b from rfl, hw, within_ok, ok_bind]
  show (within _ b'.peekInt32 >>= _) = _
  rw [hpeek, within_ok, ok_bind]
  rfl

/-- **`readBody`'s lambda**: call the message callback, then read the next header. -/
theorem readDone_body (hread : s.reading = some op) (hhandler : op.handler = .body)
    (hin : s.inputBuffer_.Ok) (hpos : op.pos = s.inputBuffer_.writerIndex_)
    (hroom : s.inputBuffer_.writerIndex_ + op.len ≤ s.inputBuffer_.buffer_.size)
    (hlen : bytes.length = op.len) (messageCallback : MessageCallback) :
    ∃ b, Counted s.inputBuffer_ b bytes ∧
      s.readDone messageCallback bytes =
        if s.messageCallback_ then do
          let s₁ := (received s b op.len).observe (.messageCallback s.state_)
          let (b', as) ← within s₁.setInput (messageCallback b)
          let s₂ ← (s₁.setInput b').acts as
          return s₂.readHeader
        else
          .error (.badFunctionCall, received s b op.len) := by
  obtain ⟨b, b', hc, hw, hr⟩ := readDone_stored hread hin hpos hroom hlen messageCallback
  refine ⟨b', hc, ?_⟩
  rw [hr, hhandler]
  simp only [bodyDone]
  rw [show (received s b op.len).inputBuffer_ = b from rfl, hw, within_ok, ok_bind]
  rfl

/-- **A connection that has just been established**, with `b` as its input buffer: it has called
    the connection callback, if there is one, and reads its first header. -/
theorem established_eq {cc mc clc : Bool} {b : Buffer} {s : TcpConnection}
    (hs : ((new cc mc clc).setInput b).connectEstablished [] = .ok s) :
    ∃ o : List Obs, (∀ x ∈ o, x = .connectionCallback .kConnected) ∧
      s = ({ ((new cc mc clc).setInput b).setState .kConnected with
        trace := o } : TcpConnection).readHeader := by
  cases cc with
  | false => exact ⟨[], by simp, (Except.ok.inj hs).symm⟩
  | true => exact ⟨[.connectionCallback .kConnected], by simp, (Except.ok.inj hs).symm⟩

end

end TcpConnection

end IOEvent
