/-
  The received byte stream: a connection as the peer sees it.

  The peer sends bytes; it does not choose how reads complete.  A `Receiver` is a connection with
  the bytes asio has stored for the outstanding read so far.  `recvByte` stores one more byte and
  completes the read once it has all its bytes, and `feed` is `recvByte` byte after byte.  A read
  of no bytes (the body of an empty frame) completes without waiting for a byte, which is why
  `recvByte` looks twice: the read a header starts may be one.

  On a stream of frames the two lambdas alternate, and `feed_frame` is what one frame does to a
  connection that is about to read a header and finds it at the front of its queue: both reads
  complete, and the message callback gets the queue with the whole frame at its end.  What the
  callback leaves there decides about the next frame, and is up to the modules that use this one.
-/
import IOEvent.TcpConnection.Receive

open Foundation

namespace IOEvent

/-- A frame of the length-header protocol: the length as a 4-byte big-endian word, and the body. -/
def header (body : List UInt8) : List UInt8 := toBytes 4 body.length

/-- A message as it travels: four bytes that hold its length, and the body. -/
def frame (body : List UInt8) : List UInt8 := header body ++ body

/-- A header is four bytes. -/
@[simp] theorem header_length (body : List UInt8) : (header body).length = 4 := toBytes_length 4 _

/-- So it is not empty, and a frame is always more than its body. -/
theorem header_ne_nil (body : List UInt8) : header body ≠ [] := by
  intro hnil
  have hfour := header_length body
  rw [hnil] at hfour
  exact absurd hfour (by decide)

/-- The length of a frame. -/
theorem frame_length (body : List UInt8) : (frame body).length = 4 + body.length := by
  rw [frame, List.length_append, header_length]

/-- A connection, and the bytes stored for its outstanding read so far. Until a read is
    complete its bytes have no effect on the connection. -/
structure Receiver where
  connection : TcpConnection
  stored : List UInt8

/-- A message callback that may look at what the connection did before. -/
abbrev Callback := TcpConnection → MessageCallback

namespace Receiver

section Machine

variable [VectorImpl]

/-- The outstanding read completes if all its bytes are stored. -/
def complete (messageCallback : Callback) (r : Receiver) : Outcome Fault Receiver Receiver :=
  match r.connection.reading with
  | none => .ok r
  | some op =>
    if r.stored.length = op.len then do
      let s ← within (fun s => { r with connection := s })
        (r.connection.readDone (messageCallback r.connection) r.stored)
      return ⟨s, []⟩
    else
      .ok r

/-- One byte arrives. A read of no bytes may be complete before it and another one behind it, so
    completion is looked for twice. -/
def recvByte (messageCallback : Callback) (r : Receiver) (byte : UInt8) :
    Outcome Fault Receiver Receiver := do
  let r ← complete messageCallback { r with stored := r.stored ++ [byte] }
  complete messageCallback r

/-- The peer sends `bytes`. -/
def feed (messageCallback : Callback) (r : Receiver) (bytes : List UInt8) :
    Outcome Fault Receiver Receiver :=
  run (recvByte messageCallback) r bytes

/-! ## One read

  Bytes that are not all there yet are stored, and the read completes with the last of them. -/

variable {messageCallback : Callback} {s : TcpConnection} {op : AsyncRead}

/-- A read that lacks bytes does not complete. -/
theorem complete_of_ne {r : Receiver} (hread : r.connection.reading = some op)
    (hlen : r.stored.length ≠ op.len) : complete messageCallback r = .ok r := by
  rw [complete, hread]
  simp only [if_neg hlen]

/-- A read that has all its bytes completes, and the next one starts with none stored. -/
theorem complete_of_eq {r : Receiver} {s' : TcpConnection}
    (hread : r.connection.reading = some op) (hlen : r.stored.length = op.len)
    (hdone : r.connection.readDone (messageCallback r.connection) r.stored = .ok s') :
    complete messageCallback r = .ok ⟨s', []⟩ := by
  rw [complete, hread]
  simp only [if_pos hlen, hdone, within_ok, ok_bind]
  rfl

/-- Bytes are stored until the last one of the read has come: by induction on the bytes still to
    come. -/
theorem feed_read (hread : s.reading = some op) :
    ∀ (bytes stored : List UInt8), bytes ≠ [] → stored.length + bytes.length = op.len →
      feed messageCallback ⟨s, stored⟩ bytes =
        complete messageCallback ⟨s, stored ++ bytes⟩ >>= complete messageCallback
  | [], _, hne, _ => absurd rfl hne
  | [byte], stored, _, _ => by
    rw [feed, run_cons, recvByte]
    show (complete _ _ >>= complete _) >>= (fun r => .ok r) = _
    cases complete messageCallback ⟨s, stored ++ [byte]⟩ >>= complete messageCallback with
    | ok r => rfl
    | error e => rfl
  | byte :: byte' :: bytes, stored, _, hlen => by
    simp only [List.length_cons] at hlen
    have hshort : complete messageCallback ⟨s, stored ++ [byte]⟩ = .ok ⟨s, stored ++ [byte]⟩ := by
      refine complete_of_ne hread ?_
      rw [List.length_append, List.length_singleton]
      omega
    rw [feed, run_cons, recvByte, hshort, ok_bind, hshort, ok_bind]
    have hrest := feed_read hread (byte' :: bytes) (stored ++ [byte]) (List.cons_ne_nil _ _)
      (by simp only [List.length_append, List.length_cons, List.length_nil]; omega)
    rw [feed] at hrest
    rw [hrest, List.append_assoc, List.singleton_append]

/-- **One frame, read by read**: the header's read completes, then the body's, whether or not the
    body has bytes. -/
theorem feed_header_body {s₁ s₂ : TcpConnection} {hd body : List UInt8} {op' : AsyncRead}
    (hread : s.reading = some op) (hhd : hd.length = op.len) (hne : hd ≠ [])
    (hdone : s.readDone (messageCallback s) hd = .ok s₁)
    (hread₁ : s₁.reading = some op') (hbody : body.length = op'.len)
    (hdone₁ : s₁.readDone (messageCallback s₁) body = .ok s₂)
    (hread₂ : ∃ op'', s₂.reading = some op'' ∧ op''.len ≠ 0) :
    feed messageCallback ⟨s, []⟩ (hd ++ body) = .ok ⟨s₂, []⟩ := by
  obtain ⟨op'', hread₂, hop''⟩ := hread₂
  have hsecond : complete messageCallback ⟨s₁, body⟩ = .ok ⟨s₂, []⟩ :=
    complete_of_eq hread₁ hbody hdone₁
  have hthird : complete messageCallback ⟨s₂, []⟩ = .ok ⟨s₂, []⟩ :=
    complete_of_ne hread₂ (Ne.symm hop'')
  have hfirst : feed messageCallback ⟨s, []⟩ hd = complete messageCallback ⟨s₁, []⟩ := by
    rw [feed_read hread hd [] hne (by simpa using hhd), List.nil_append,
      complete_of_eq hread hhd hdone, ok_bind]
  rw [feed, run_append, ← feed, hfirst]
  by_cases hempty : body = []
  · -- an empty body completes with the header's last byte
    rw [← hempty, hsecond, ok_bind, hempty]
    rfl
  · have hlen : 0 < body.length := List.length_pos_of_ne_nil hempty
    rw [complete_of_ne hread₁ (by show 0 ≠ op'.len; omega), ok_bind, ← feed,
      feed_read hread₁ body [] hempty (by simpa using hbody), List.nil_append, hsecond,
      ok_bind, hthird]

/-- What comes behind bytes that leave no read half stored. -/
theorem feed_append {s' : TcpConnection} {bytes : List UInt8}
    (h : feed messageCallback ⟨s, []⟩ bytes = .ok ⟨s', []⟩) (more : List UInt8) :
    feed messageCallback ⟨s, []⟩ (bytes ++ more) = feed messageCallback ⟨s', []⟩ more := by
  rw [feed, run_append, ← feed, h, ok_bind]
  rfl

/-! ## One frame

  The four bytes of the header, the read that they start, and the body.  An empty body starts a
  read that is complete at once. -/

/-- What a frame leaves in the trace. -/
def observed (body : List UInt8) (state : StateE) : List Obs :=
  [.readDone 4, .readBody body.length, .readDone body.length, .messageCallback state]

/-- The connection that calls its message callback for a frame: `b₁` is its input buffer once room
    is made for the body, and `b₂` once the body is counted in. -/
def handed (s : TcpConnection) (b₁ b₂ : Buffer) (n : Nat) : TcpConnection :=
  (TcpConnection.received ((TcpConnection.received s b₁ 4).readBody n) b₂ n).observe
    (.messageCallback s.state_)

omit [VectorImpl] in
/-- What the owner has seen when a body was handed over. -/
theorem handed_trace (s : TcpConnection) (b₁ b₂ : Buffer) (body : List UInt8) :
    (handed s b₁ b₂ body.length).trace = s.trace ++ observed body s.state_ := by
  show (((s.trace ++ [_]) ++ [_]) ++ [_]) ++ [_] = _
  rw [List.append_assoc, List.append_assoc, List.append_assoc]
  rfl

omit [VectorImpl] in
/-- The length word at the front of the queue, when the front is the header. -/
theorem lengthWord_of_front {b : Buffer} {body : List UInt8} (hbody : body.length < 2 ^ 31)
    (hfront : (b.contents ++ header body).take 4 = header body) :
    toUnsigned 64 (TcpConnection.lengthWord b (header body)) = body.length := by
  have hword : TcpConnection.lengthWord b (header body) = (body.length : Int) := by
    rw [TcpConnection.lengthWord, hfront, header, ofBytes_toBytes,
      Nat.mod_eq_of_lt (Nat.lt_trans hbody (by decide))]
    exact toSigned_of_lt (by decide) hbody
  rw [hword, toUnsigned_natCast (by omega)]

omit [VectorImpl] in
/-- And conversely: a length word that comes out as the length of the body is the header's. -/
theorem front_of_lengthWord {b : Buffer} {body : List UInt8} (hbody : body.length < 2 ^ 31)
    (hword : toUnsigned 64 (TcpConnection.lengthWord b (header body)) = body.length) :
    (b.contents ++ header body).take 4 = header body := by
  rw [TcpConnection.lengthWord] at hword
  have hfour : ((b.contents ++ header body).take 4).length = 4 := by
    rw [List.length_take, List.length_append, header_length]
    omega
  have hlt := ofBytes_lt ((b.contents ++ header body).take 4)
  have hbytes := toBytes_ofBytes ((b.contents ++ header body).take 4)
  rw [hfour] at hlt hbytes
  generalize ofBytes ((b.contents ++ header body).take 4) = n at *
  have hn : n = body.length := by
    rw [toSigned, toUnsigned] at hword
    split at hword <;> omega
  rw [← hbytes, hn]
  rfl

variable (messageCallback) in
/-- **One frame.**  The header is found at the front of the queue, room is made for the body, and
    the message callback gets the queue with the frame at its end.  When it and the calls it makes
    return, the connection reads the next header. -/
theorem feed_frame {body : List UInt8} (hin : s.inputBuffer_.Ok)
    (hread : s.reading = some ⟨.header, s.inputBuffer_.writerIndex_, 4⟩)
    (hroom : s.inputBuffer_.writerIndex_ + 4 ≤ s.inputBuffer_.buffer_.size)
    (hcb : s.messageCallback_ = true) (hbody : body.length < 2 ^ 31)
    (hfront : (s.inputBuffer_.contents ++ header body).take 4 = header body)
    (hspace : ∀ b, TcpConnection.Counted s.inputBuffer_ b (header body) →
      ∃ b', b.ensureWritableBytes body.length = .ok b' ∧ Buffer.MadeSpace b body.length b') :
    ∃ b₀ b₁ b₂, TcpConnection.Counted s.inputBuffer_ b₀ (header body) ∧
      Buffer.MadeSpace b₀ body.length b₁ ∧ TcpConnection.Counted b₁ b₂ body ∧
      b₂.contents = s.inputBuffer_.contents ++ frame body ∧
      ∀ b' as s', messageCallback ((TcpConnection.received s b₁ 4).readBody body.length) b₂ =
          .ok (b', as) →
        ((handed s b₁ b₂ body.length).setInput b').acts as = .ok s' →
        feed messageCallback ⟨s, []⟩ (frame body) = .ok ⟨s'.readHeader, []⟩ := by
  -- the read of the header, room for the body, then the read of the body
  obtain ⟨b₀, hc₀, hdone₀⟩ := TcpConnection.readDone_header hread rfl hin rfl hroom rfl
    (header_length body) (messageCallback s)
  obtain ⟨b₁, hb₁, hm⟩ := hspace b₀ hc₀
  obtain ⟨hok₁, hroom₁⟩ := hm.room hc₀.ok
  rw [lengthWord_of_front hbody hfront, hb₁, within_ok, ok_bind] at hdone₀
  obtain ⟨b₂, hc₂, hdone₂⟩ := TcpConnection.readDone_body
    (s := (TcpConnection.received s b₁ 4).readBody body.length) rfl rfl hok₁ rfl hroom₁ rfl
    (messageCallback ((TcpConnection.received s b₁ 4).readBody body.length))
  have hc₂ : TcpConnection.Counted b₁ b₂ body := hc₂
  refine ⟨b₀, b₁, b₂, hc₀, hm, hc₂, ?_, ?_⟩
  · rw [hc₂.contents, hm.contents_eq hc₀.ok, hc₀.contents, List.append_assoc]
    rfl
  · intro b' as s' hcall hacts
    rw [if_pos (show ((TcpConnection.received s b₁ 4).readBody body.length).messageCallback_ = true
      from hcb)] at hdone₂
    simp only [hcall, within_ok, ok_bind] at hdone₂
    refine feed_header_body hread (header_length body) (header_ne_nil body) hdone₀ rfl rfl ?_
      ⟨_, rfl, (by decide : (4 : Nat) ≠ 0)⟩
    rw [hdone₂]
    show ((handed s b₁ b₂ body.length).setInput b').acts as >>= _ = _
    rw [hacts]
    rfl

/-! ## The trace only grows

  Whatever is fed, what has been seen stays seen. -/

/-- The output buffer stays well-formed, and the trace keeps what it had. -/
def Grows (s s' : TcpConnection) : Prop := s'.outputBuffer_.Ok ∧ s.trace <+: s'.trace

omit [VectorImpl] in
/-- What was seen stays seen. -/
theorem Grows.trans {s s' s'' : TcpConnection} (h : Grows s s') (h' : Grows s' s'') : Grows s s'' :=
  ⟨h'.1, h.2.trans h'.2⟩

/-- A read completion only adds to the trace. -/
theorem readDone_grows (h : s.outputBuffer_.Ok) (mc : MessageCallback) (bytes : List UInt8) :
    Holds (Grows s) (fun _ => True) (s.readDone mc bytes) := by
  -- what the function notes is put at the end of the trace
  have hadd : ∀ {s' : TcpConnection} (o : Obs), Grows s s' → Grows s (s'.observe o) :=
    fun o h' => ⟨h'.1, h'.2.trans (List.prefix_append _ _)⟩
  have hwithin : ∀ {α : Type} (put : Buffer → TcpConnection) (r : Outcome Fault Buffer α),
      Holds (fun _ => True) (fun _ => True) (within put r) := by
    intro α put r
    cases r with
    | ok a => exact .ok trivial
    | error e => exact .error trivial
  have hstart : Grows s s := ⟨h, List.prefix_refl _⟩
  rw [TcpConnection.readDone]
  split
  · -- no read is outstanding
    exact .ok hstart
  rename_i op _
  split
  · -- the header is in, and a body of some length is asked for
    refine Holds.bind (hwithin _ _) fun b _ => ?_
    have hread : Grows s { (s.setInput b).observe (.readDone op.len) with reading := none } :=
      hadd (.readDone op.len) hstart
    split
    · refine Holds.bind (hwithin _ _) fun b _ => Holds.bind (hwithin _ _) fun len _ =>
        Holds.bind (hwithin _ _) fun b _ => .ok ?_
      exact hadd (.readBody (toUnsigned 64 len)) hread
    · -- the body is in, and the message callback runs
      refine Holds.bind (hwithin _ _) fun b _ => ?_
      simp only
      split
      · refine Holds.bind (hwithin _ _) fun p _ => ?_
        have hmsg := hadd (.messageCallback s.state_) hread
        refine Holds.bind (Holds.mono ?_ (fun _ _ => trivial) (TcpConnection.acts_calm p.2 ?_))
          fun s' hs' => .ok hs'
        · intro s' hs'
          obtain ⟨o, ho, -⟩ := hs'.trace
          exact hmsg.trans ⟨hs'.output, ⟨o, ho.symm⟩⟩
        · exact h
      · exact .error trivial
  · -- not the number of bytes that was asked for
    exact .ok hstart

variable (messageCallback) in
/-- Completing a read can only add to it. -/
theorem complete_grows {r : Receiver} (h : Grows s r.connection) :
    Holds (fun r => Grows s r.connection) (fun _ => True) (complete messageCallback r) := by
  rw [complete]
  split
  · exact .ok h
  split
  · have hdone := readDone_grows h.1 (messageCallback r.connection) r.stored
    cases hs' : r.connection.readDone (messageCallback r.connection) r.stored with
    | error e => exact .error trivial
    | ok s' =>
      rw [hs'] at hdone
      exact .ok (h.trans (holds_ok.mp hdone))
  · exact .ok h

variable (messageCallback) in
/-- Whatever the peer sends only adds to the trace. -/
theorem feed_grows {r : Receiver} (h : Grows s r.connection) (bytes : List UInt8) :
    Holds (fun r => Grows s r.connection) (fun _ => True) (feed messageCallback r bytes) := by
  refine run_keeps ?_ bytes r h
  intro r byte hr
  have hstored : Grows s ({ r with stored := r.stored ++ [byte] } : Receiver).connection := hr
  exact Holds.bind (complete_grows messageCallback hstored) fun r' hr' =>
    complete_grows messageCallback hr'

end Machine

end Receiver

end IOEvent
