/-
  Messages from end to end: a connection whose messages go through `ProtobufCodec::onMessage` to
  `Dispatcher::onMessage`.

  Three layers frame and route the stream a peer sends, each with conditions of its own: the
  connection takes off a length and calls the codec, the codec takes off the SAME length, because
  the connection leaves it in the buffer, and the dispatcher finds the callback.  They fit
  together: the connection calls the codec with exactly one frame, so that the loop of
  `onMessage`, which goes round for ever on part of a frame, finds a whole one and then an empty
  buffer (`onMessage_encoded`).

  The callbacks may do what they like with the connection.

  The proof has the same shape as that for the codec alone: `feed_arrived` is by induction on
  the messages, and between two frames the connection is at a header (`Receiver.AtHeader`), with
  an empty buffer.  What the callbacks have done up to then is in `Came`.
-/
import IOEvent.Dispatcher
import IOEvent.Foundation.Decoding
import IOEvent.ProtobufCodec
import IOEvent.TcpConnection.Replies

open Foundation

namespace IOEvent

namespace ProtobufCodec

section Codec

variable {Message Descriptor Class : Type} (lib : Protobuf Message Descriptor)

/-- What a call of `onMessage` does with the connection, when `messageCallback_` is `handler`. -/
def Call.acts (handler : Option Message → Except Dispatcher.Fault (List Act)) :
    Call Message → Except Dispatcher.Fault (List Act)
  | .messageCallback message => handler (some message)
  | .shutdown => .ok [.shutdown]

/-- What the calls do, in order.  A failed assert aborts the process. -/
def perform (handler : Option Message → Except Dispatcher.Fault (List Act)) (buf : Buffer)
    (calls : List (Call Message)) : Outcome Fault Buffer (Buffer × List Act) :=
  match calls.mapM (Call.acts handler) with
  | .ok acts => .ok (buf, acts.flatten)
  | .error _ => .error (.fatal, buf)

/-- `onMessage`, when `messageCallback_` is `handler`.  A turn of its loop takes out a frame or
    changes nothing, so that a loop with more turns than there are bytes never comes to an end;
    `hang` stands for that. -/
def onMessage (handler : Option Message → Except Dispatcher.Fault (List Act))
    (hang : Outcome Fault Buffer (Buffer × List Act)) : MessageCallback := fun buf =>
  match loop (turn lib) (buf.readableBytes + 1) (buf, []) with
  | none => hang
  | some (.error e) => .error e
  | some (.ok (buf, calls)) => perform handler buf calls

variable {lib} {message : Message} {b b' : Buffer}

/-- A frame of the codec is a frame of the connection. -/
theorem encoded_eq_frame (hlen : (body lib message).length ≤ 64 * 1024 * 1024) :
    encoded lib message = frame (body lib message) := by
  rw [encoded, frame, word, header, toUnsigned]
  congr 2
  omega

/-- No body is empty, which is why the empty-body slip of the other codec does not show here. -/
theorem body_ne_nil : body lib message ≠ [] := by
  intro hnil
  have hlen := body_length lib message
  rw [hnil, List.length_nil] at hlen
  omega

/-- A turn that hands a message on has retrieved a frame. -/
theorem turn_retrieves {calls : List (Call Message)}
    (h : turn lib (b, calls) = .ok (.next (b', calls ++ [.messageCallback message]))) :
    ∃ len, b.retrieve len = .ok b' := by
  have hmore : ∀ b₁ : Buffer, (Turn.next (b₁, calls) : Turn (Buffer × List (Call Message))
      (Buffer × List (Call Message))) ≠ .next (b', calls ++ [.messageCallback message]) := by
    intro b₁ heq
    have hcalls := congrArg Prod.snd (Turn.next.inj heq)
    exact absurd (List.self_eq_append_right.mp hcalls) (List.cons_ne_nil _ _)
  rw [turn] at h
  split at h
  · obtain ⟨len, -, h⟩ := bind_ok h
    split at h
    · cases Except.ok.inj h
    split at h
    · obtain ⟨data, -, h⟩ := bind_ok h
      split at h
      · obtain ⟨b₁, hb₁, h⟩ := bind_ok h
        obtain rfl : b₁ = b' := congrArg Prod.fst (Turn.next.inj (Except.ok.inj h))
        exact ⟨_, hb₁⟩
      · exact absurd (Except.ok.inj h) (hmore _)
    · exact absurd (Except.ok.inj h) (hmore _)
  · cases Except.ok.inj h

/-- What a buffer is like when everything has been retrieved from it. -/
theorem retrieved_all {len : Nat} (hb : b.Ok) (hr : b.retrieve len = .ok b')
    (hempty : b'.contents = []) :
    b'.buffer_ = b.buffer_ ∧ b'.writerIndex_ = Buffer.kCheapPrepend := by
  have hlen : len ≤ b.contents.length := by
    by_contra hlong
    rw [Buffer.retrieve, require_neg _ _ (by rw [hb.readableBytes_eq_length]; exact hlong)] at hr
    cases hr
  obtain ⟨b₁, hb₁, -, hcont, hbuf, -, hall⟩ := Buffer.retrieve_spec hb hlen
  obtain rfl := Except.ok.inj (hb₁.symm.trans hr)
  refine ⟨hbuf, (hall (Nat.le_antisymm hlen ?_)).2⟩
  rw [hempty] at hcont
  exact List.drop_eq_nil_iff.mp hcont.symm

/-- **`onMessage` with one frame** in the buffer: the message is handed on, and the buffer is empty
    when the loop looks at it again. -/
theorem onMessage_encoded {handler : Option Message → Except Dispatcher.Fault (List Act)}
    {hang : Outcome Fault Buffer (Buffer × List Act)} {as : List Act} (h : Sendable lib message)
    (hlen : (body lib message).length ≤ 64 * 1024 * 1024)
    (hhandler : handler (some message) = .ok as) (hb : b.Ok)
    (hcont : b.contents = encoded lib message) :
    ∃ b', onMessage lib handler hang b = .ok (b', as) ∧ b'.Ok ∧ b'.contents = [] ∧
      b'.buffer_ = b.buffer_ ∧ b'.writerIndex_ = Buffer.kCheapPrepend := by
  have hbody := body_length lib message
  have hframe := encoded_length lib message
  have hnil : b.contents = encoded lib message ++ [] := by rw [hcont, List.append_nil]
  obtain ⟨b', hturn, hok, hempty⟩ := turn_encoded h hlen hb hnil []
  obtain ⟨len, hr⟩ := turn_retrieves hturn
  obtain ⟨hbuf, hwriter⟩ := retrieved_all hb hr hempty
  -- the second turn finds nothing left
  have hdone : turn lib (b', [.messageCallback message]) =
      .ok (.done (b', [.messageCallback message])) := by
    rw [turn, if_neg]
    · rfl
    · rw [hok.readableBytes_eq_length, hempty]
      decide
  have hloop : loop (turn lib) (b.readableBytes + 1) (b, []) =
      some (.ok (b', [.messageCallback message])) := by
    refine loop_mono (n := 2) ?_ ?_
    · rw [loop_next hturn]
      exact loop_done hdone 0
    · rw [hb.readableBytes_eq_length, hcont, hframe]
      omega
  refine ⟨b', ?_, hok, hempty, hbuf, hwriter⟩
  rw [onMessage, hloop]
  simp only [perform, List.mapM_cons, Call.acts, hhandler, ok_bind, List.mapM_nil]
  exact congrArg (fun acts => Except.ok (b', acts)) (List.append_nil as)

/-! ## A connection with this codec

  A stream is cut anywhere, so the last frame may be there in part.  Its bytes then make the
  connection read, and call nothing. -/

section Connection

variable [VectorImpl] (lib)

/-- What the connection relies on for a message: it can be sent, and its callback makes the calls
    `as`. -/
structure Handled (handler : Option Message → Except Dispatcher.Fault (List Act))
    (as : Message → List Act) (message : Message) : Prop where
  sendable : Sendable lib message
  length : (body lib message).length ≤ 64 * 1024 * 1024
  handler_eq : handler (some message) = .ok (as message)

/-- The connection has come from `s`, and has made the calls `as` on the way. -/
structure Came (s : TcpConnection) (as : List Act) (r : Receiver) : Prop where
  notes : r.connection.notes = s.notes ++ Act.notes as
  state : (∀ a ∈ as, a.closes = false) → r.connection.state_ = s.state_

variable {lib} {handler : Option Message → Except Dispatcher.Fault (List Act)}
  {hang : Outcome Fault Buffer (Buffer × List Act)} {as : Message → List Act} {s : TcpConnection}

omit [VectorImpl] in
/-- What came in two parts came. -/
theorem Came.trans {as₁ as₂ : List Act} {s₁ : TcpConnection} {r : Receiver}
    (h : Came s as₁ ⟨s₁, []⟩) (h' : Came s₁ as₂ r) : Came s (as₁ ++ as₂) r where
  notes := by
    rw [h'.notes, h.notes, List.append_assoc, Act.notes, Act.notes, Act.notes,
      ← List.filterMap_append]
  state := fun hno => (h'.state fun a ha => hno a (List.mem_append_right _ ha)).trans
    (h.state fun a ha => hno a (List.mem_append_left _ ha))

variable (hang) in
/-- **The first `n` bytes of the frames** of messages: the callbacks have been called for the
    messages whose frames have arrived.  By induction on the messages. -/
theorem feed_arrived (hmax : Buffer.kCheapPrepend + 4 + 64 * 1024 * 1024 ≤ VectorImpl.maxSize)
    (messages : List Message) (hall : ∀ m ∈ messages, Handled lib handler as m) :
    ∀ {s : TcpConnection} (n : Nat), Receiver.AtHeader s →
      Holds (fun r => Came s ((arrived (encoded lib) n messages).flatMap as) r ∧
          ((messages.flatMap (encoded lib)).length ≤ n →
            Receiver.AtHeader r.connection ∧ r.stored = []))
        (fun e => e.1 = .lengthError)
        (Receiver.feed (fun _ => onMessage lib handler hang) ⟨s, []⟩
          ((messages.flatMap (encoded lib)).take n)) := by
  induction messages with
  | nil =>
    intro s n hat
    rw [List.flatMap_nil, List.take_nil]
    exact .ok ⟨⟨(List.append_nil _).symm, fun _ => rfl⟩, fun _ => ⟨hat, rfl⟩⟩
  | cons m messages ih =>
    intro s n hat
    have hm := hall m List.mem_cons_self
    have hlen := hm.length
    have hframe := encoded_eq_frame hm.length
    have hne : body lib m ≠ [] := body_ne_nil
    rw [List.flatMap_cons, arrived]
    by_cases hwhole : (encoded lib m).length ≤ n
    · -- the frame is there, and the rest comes from a connection at a header again
      have hone := hat.feed_frame (fun _ => onMessage lib handler hang) hne (by omega) (by omega)
        fun s b hb hcont => onMessage_encoded hm.sendable hm.length hm.handler_eq hb
          (hcont.trans hframe.symm)
      rw [if_pos hwhole, List.take_append, List.take_of_length_le hwhole, Receiver.feed, run_append,
        ← Receiver.feed, hframe]
      refine Holds.bind hone ?_
      rintro ⟨s₁, stored⟩ ⟨rfl, hat₁, hnotes, hstate⟩
      refine (ih (fun m hm => hall m (List.mem_cons_of_mem _ hm)) (n - (frame (body lib m)).length)
        hat₁).mono ?_ fun _ he => he
      rintro r ⟨hcame, hend⟩
      refine ⟨Came.trans ⟨hnotes, hstate⟩ hcame, fun hle => hend ?_⟩
      rw [List.length_append] at hle
      omega
    · -- only a part of it is
      rw [if_neg hwhole, List.take_append_of_le_length (by omega)]
      have hpart : (encoded lib m).take n <+: frame (body lib m) := hframe ▸ List.take_prefix _ _
      obtain ⟨r, hr, hnotes, hstate⟩ := hat.feed_part (fun _ => onMessage lib handler hang) hne
        (by omega) (by omega) hpart (by rw [← hframe, List.length_take]; omega)
      rw [hr]
      refine .ok ⟨⟨hnotes.trans (List.append_nil _).symm, fun _ => hstate⟩, fun hle => ?_⟩
      rw [List.length_append] at hle
      omega

/-- By induction on the messages: `send` builds their frames. -/
theorem mapM_send (hmax : Buffer.kCheapPrepend + 64 * 1024 * 1024 ≤ VectorImpl.maxSize)
    (messages : List Message) (hsend : ∀ m ∈ messages, Sendable lib m)
    (hlen : ∀ m ∈ messages, (body lib m).length ≤ 64 * 1024 * 1024) :
    ∃ frames, messages.mapM (send lib) = .ok frames ∧
      frames.flatMap Buffer.contents = messages.flatMap (encoded lib) := by
  induction messages with
  | nil => exact ⟨[], rfl, rfl⟩
  | cons m messages ih =>
    obtain ⟨b, hb, hcont⟩ := send_spec hmax (hsend m List.mem_cons_self) (hlen m List.mem_cons_self)
    obtain ⟨frames, hframes, hflat⟩ := ih (fun m hm => hsend m (List.mem_cons_of_mem _ hm))
      fun m hm => hlen m (List.mem_cons_of_mem _ hm)
    refine ⟨b :: frames, ?_, ?_⟩
    · rw [List.mapM_cons, hb, ok_bind, hframes]
      rfl
    · rw [List.flatMap_cons, List.flatMap_cons, hcont, hflat]

/-- **End to end.**  When the peer sends the frames that `send` builds for messages, every message
    is handed to the callback registered last for its type, or to the default callback when there is
    none: once each, in order, and the input buffer is left empty.  Only the callbacks close the
    connection, and only a `send` of theirs can fail. -/
theorem delivers [DecidableEq Descriptor]
    (hmax : Buffer.kCheapPrepend + 4 + 64 * 1024 * 1024 ≤ VectorImpl.maxSize)
    (classes : Classes Message Descriptor Class) (defaultCb : Message → List Act)
    (callbacks : List (Dispatcher.CallbackT Message Class)) (messages : List Message)
    (hsend : ∀ m ∈ messages, Sendable lib m)
    (hlen : ∀ m ∈ messages, ((body lib m).length : Int) ≤ kMaxMessageLen)
    (hgen : ∀ m ∈ messages, Dispatcher.Generated classes m) (cc clc : Bool)
    (hs : (TcpConnection.new cc true clc).connectEstablished [] = .ok s) :
    ∃ frames, messages.mapM (send lib) = .ok frames ∧
      Holds (fun r => Came s (messages.flatMap fun m =>
            Dispatcher.tableOf classes defaultCb callbacks (classes.GetDescriptor m) m) r ∧
          r.connection.inputBuffer_.contents = [])
        (fun e => e.1 = .lengthError)
        (Receiver.feed (fun _ => onMessage lib
            (((Dispatcher.new defaultCb).registerAll classes callbacks).onMessage classes) hang)
          ⟨s, []⟩ (frames.flatMap Buffer.contents)) := by
  have hlen' : ∀ m ∈ messages, (body lib m).length ≤ 64 * 1024 * 1024 := by
    intro m hm
    have hm := hlen m hm
    rw [kMaxMessageLen] at hm
    omega
  obtain ⟨frames, hframes, hflat⟩ := mapM_send (by omega) messages hsend hlen'
  have hfiled := (Dispatcher.new_filed classes defaultCb).registerAll callbacks
  have hall : ∀ m ∈ messages, Handled lib
      (((Dispatcher.new defaultCb).registerAll classes callbacks).onMessage classes)
      (fun m => Dispatcher.tableOf classes defaultCb callbacks (classes.GetDescriptor m) m) m := by
    intro m hm
    refine ⟨hsend m hm, hlen' m hm, ?_⟩
    rw [hfiled.onMessage_eq (hgen m hm), Dispatcher.table_registerAll]
  refine ⟨frames, hframes, ?_⟩
  have hfeed := feed_arrived hang hmax messages hall
    (messages.flatMap (encoded lib)).length (Receiver.established_atHeader hs).1
  rw [List.take_length, arrived_all _ _ _ (Nat.le_refl _)] at hfeed
  rw [hflat]
  exact hfeed.mono (fun r hr => ⟨hr.1, (hr.2 (Nat.le_refl _)).1.empty⟩) fun _ he => he

end Connection

end Codec

section Examples

attribute [local instance] VectorImpl.exact

/-- The established connection. -/
def established : TcpConnection :=
  (((TcpConnection.new true true true).setState .kConnected).observe
    (.connectionCallback .kConnected)).readHeader

/-- The one class of `bytesValue`. -/
def bytesValueClass : Classes (List UInt8) Unit Unit where
  GetDescriptor _ := ()
  descriptor _ := ()
  dynamic_cast _ _ := true

/-- The messages of the example can be sent. -/
theorem bytesValue_sendable {value : List UInt8} (h : value = [] ∨ value = [1, 2, 3]) :
    Sendable bytesValue value := by
  rcases h with rfl | rfl
  · exact ⟨by decide +kernel, by decide, ⟨[], by decide +kernel⟩, fun _ _ => rfl⟩
  · exact ⟨by decide +kernel, by decide, ⟨[], by decide +kernel⟩, fun _ _ => rfl⟩

/-- Every value is handed on. -/
theorem delivers_twoMessages : ∃ frames, [[], [1, 2, 3]].mapM (send bytesValue) = .ok frames ∧
    Holds (fun r => Came established [.deliver [], .deliver [1, 2, 3]] r ∧
        r.connection.inputBuffer_.contents = [])
      (fun e => e.1 = .lengthError)
      (Receiver.feed (fun _ => onMessage bytesValue
          (((Dispatcher.new fun _ => []).registerAll bytesValueClass
            [⟨(), fun value => [.deliver value]⟩]).onMessage bytesValueClass)
          (.error (.fatal, established.inputBuffer_)))
        ⟨established, []⟩ (frames.flatMap Buffer.contents)) :=
  delivers (by decide) bytesValueClass (fun _ => []) [⟨(), fun value => [.deliver value]⟩]
    [[], [1, 2, 3]] (fun _ hm => bytesValue_sendable (by simpa using hm)) (by decide +kernel)
    (fun _ _ _ _ => rfl) true true rfl

end Examples

end ProtobufCodec

end IOEvent
