/-
  Two connections and the wire between them.

  One side sends messages through `ProtobufCodec::send`: each becomes a frame at the end of its
  output buffer, asio transmits what `write` gave it, and what it transmits is on the wire.  The
  other side gets the bytes of the wire one by one, in order, and reads frames out of them.  How
  much is sent, transmitted and received when is up to the run (`Link.Event`).

  What the receiving callbacks see is a function of two numbers of the state alone: of the
  messages sent, those whose frames lie within the bytes received (`link_delivers`).  The
  condition is the one on the sending side's buffer (`Outbound.Undisturbed`), for the frames
  appended while a write is in flight.  It is the middle link: the sender's invariant says that
  the wire carries the frames, and `feed_arrived` what the receiver makes of their first bytes.
-/
import IOEvent.Buffer.Queue
import IOEvent.ProtobufCodec.Delivery
import IOEvent.TcpConnection.Outbound

open Foundation

namespace IOEvent

/-! ## What the sending side keeps

  `Outbound` says what is on the wire.  This part adds that the wire only grows, so that bytes
  received stay received. -/

namespace TcpConnection

/-- The state stays, and the wire only grows. -/
structure Wired (s s' : TcpConnection) : Prop where
  state : s'.state_ = s.state_
  wire : s.wire <+: s'.wire

variable {s s' : TcpConnection}

/-- With the state and the wire as they were, nothing was taken from the wire. -/
theorem Wired.of_same (hstate : s'.state_ = s.state_) (hwire : s'.wire = s.wire) : Wired s s' :=
  ⟨hstate, hwire ▸ List.prefix_refl _⟩

/-- A half-close leaves the wire. -/
theorem shutdownInThisThread_wired : Wired s s.shutdownInThisThread := by
  rw [shutdownInThisThread]
  split <;> exact .of_same rfl rfl

/-- Bytes taken by the socket are added to it. -/
theorem transmit_wired {i n : Nat} (h : s.transmit i n = .ok s') : Wired s s' := by
  rw [transmit] at h
  split at h
  · exact Except.ok.inj h ▸ .of_same rfl rfl
  split at h
  · split at h
    · obtain ⟨bytes, -, h⟩ := bind_ok h
      exact Except.ok.inj h ▸ ⟨rfl, List.prefix_append _ _⟩
    · cases h
  · exact Except.ok.inj h ▸ .of_same rfl rfl

/-- The end of a write leaves it. -/
theorem writeDone_wired {i : Nat} (h : s.writeDone i = .ok s') : Wired s s' := by
  rw [writeDone] at h
  split at h
  · exact Except.ok.inj h ▸ .of_same rfl rfl
  split at h
  · obtain ⟨b, -, h⟩ := bind_ok h
    simp only at h
    split at h
    · exact Except.ok.inj h ▸ .of_same rfl rfl
    split at h
    · have hshut := shutdownInThisThread_wired
        (s := ({ s with writing := s.writing.eraseIdx i } : TcpConnection).setOutput b)
      exact Except.ok.inj h ▸ ⟨hshut.state, hshut.wire⟩
    · exact Except.ok.inj h ▸ .of_same rfl rfl
  · exact Except.ok.inj h ▸ .of_same rfl rfl

/-- So does a failed one. -/
theorem writeError_wired (i : Nat) : Wired s (s.writeError i) := by
  rw [writeError]
  split <;> exact .of_same rfl rfl

/-- So does a message appended. -/
theorem sendInThisThread_wired [VectorImpl] {str : StringPiece}
    (h : s.sendInThisThread str = .ok s') :
    Wired s s' := by
  rw [sendInThisThread] at h
  split at h
  · exact Except.ok.inj h ▸ .of_same rfl rfl
  · obtain ⟨b, -, h⟩ := bind_ok h
    simp only at h
    split at h <;> exact Except.ok.inj h ▸ .of_same rfl rfl

end TcpConnection

namespace Outbound

section Steps

variable [VectorImpl] {o o' : Outbound} {e : Event}

/-- The bytes an event hands to `sendInThisThread`. -/
def Event.bytes : Event → List UInt8
  | .sendInThisThread str => str.bytes
  | .transmit _ _ | .writeDone _ | .writeError _ => []

/-- What an event leaves. -/
theorem step_wired (h : o.step e = .ok o') :
    TcpConnection.Wired o.connection o'.connection ∧ o'.sent = o.sent ++ e.bytes := by
  cases e with
  | sendInThisThread str =>
    obtain ⟨s, hs, h⟩ := bind_ok h
    rw [← Except.ok.inj h]
    exact ⟨TcpConnection.sendInThisThread_wired (within_eq_ok hs), rfl⟩
  | transmit i n =>
    obtain ⟨s, hs, h⟩ := bind_ok h
    rw [← Except.ok.inj h]
    exact ⟨TcpConnection.transmit_wired (within_eq_ok hs), (List.append_nil _).symm⟩
  | writeDone i =>
    obtain ⟨s, hs, h⟩ := bind_ok h
    rw [← Except.ok.inj h]
    exact ⟨TcpConnection.writeDone_wired (within_eq_ok hs), (List.append_nil _).symm⟩
  | writeError i =>
    rw [← Except.ok.inj h]
    exact ⟨TcpConnection.writeError_wired i, (List.append_nil _).symm⟩

/-- Every event keeps the invariant of the sending side, or its append throws. -/
theorem step_keepsStream (h : ∃ acked k, SendInv acked k o) (hguard : Undisturbed o e) :
    KeepsStream (o.step e) := by
  obtain ⟨acked, k, h⟩ := h
  cases e with
  | sendInThisThread str => exact sendInThisThread_keeps h str hguard
  | transmit i n => exact transmit_keeps h i n
  | writeDone i => exact writeDone_keeps h i hguard
  | writeError i => exact writeError_keeps h i

end Steps

end Outbound

/-! ## The link

  The two connections and what can happen next.  Nothing orders the events: any byte may arrive,
  once it is on the wire, before or after anything the sender does. -/

/-- A sending connection, the messages it was given, a receiving connection, and how many bytes of
    the wire the latter has got. -/
structure Link (Message : Type) where
  sender : Outbound
  sent : List Message
  receiver : Receiver
  received : Nat

namespace Link

open ProtobufCodec

section Link

variable {Message Descriptor : Type} (lib : Protobuf Message Descriptor)

variable (Message) in
/-- What can happen next on either side. -/
inductive Event
  /-- `ProtobufCodec::send`, on the loop thread of the sending connection. -/
  | send (message : Message)
  | transmit (i n : Nat)
  | writeDone (i : Nat)
  | writeError (i : Nat)
  /-- The next byte of the wire arrives. -/
  | arrive

/-- The link with another sending side. -/
def setSender (s : Link Message) (o : Outbound) : Link Message := { s with sender := o }

variable [VectorImpl]

/-- `conn->send(&buff)`: `retrieveAllAsString` gives `sendInThisThread` a string, which views itself
    when its size is an `int`. -/
def sendBuffer (s : Link Message) (message : Message) (buff : Buffer) :
    Outcome Fault (Link Message) (Link Message) :=
  if s.sender.connection.state_ = .kConnected then do
    let (str, _) ← within (fun _ => s) buff.retrieveAllAsString
    if h : str.length < 2 ^ 31 then do
      let o ← within s.setSender (s.sender.step (.sendInThisThread ⟨str, h⟩))
      return { s.setSender o with sent := s.sent ++ [message] }
    else
      .error (.outOfBounds, s)
  else
    return s

/-- An event of the sending side. -/
def perform (s : Link Message) (e : Outbound.Event) :
    Outcome Fault (Link Message) (Link Message) := do
  let o ← within s.setSender (s.sender.step e)
  return s.setSender o

/-- The receiving connection gets the next byte of the wire, if there is one. -/
def arrive (messageCallback : Callback) (s : Link Message) :
    Outcome Fault (Link Message) (Link Message) :=
  match s.sender.connection.wire[s.received]? with
  | none => return s
  | some byte => do
    let r ← within (fun r => { s with receiver := r })
      (Receiver.recvByte messageCallback s.receiver byte)
    return { s with receiver := r, received := s.received + 1 }

/-- One step of the link: a message is sent, the socket takes or ends a write, bytes arrive. -/
def step (messageCallback : Callback) (s : Link Message) :
    Event Message → Outcome Fault (Link Message) (Link Message)
  | .send message => do
    let buff ← within (fun _ => s) (ProtobufCodec.send lib message)
    s.sendBuffer message buff
  | .transmit i n => s.perform (.transmit i n)
  | .writeDone i => s.perform (.writeDone i)
  | .writeError i => s.perform (.writeError i)
  | .arrive => s.arrive messageCallback

/-- A connected sender, and a receiver that has been established. -/
def start (cc mc clc : Bool) (receiver : TcpConnection) : Link Message :=
  ⟨.start cc mc clc .kConnected, [], ⟨receiver, []⟩, 0⟩

/-- What a step must meet on the sending side: no append disturbs a range in flight. -/
def Undisturbed (s : Link Message) : Event Message → Prop
  | .send message => ∀ op ∈ s.sender.connection.inFlight,
    s.sender.connection.outputBuffer_.Clear (encoded lib message).length op.pos op.len
  | .writeDone i => s.sender.Undisturbed (.writeDone i)
  | _ => True

/-- Whether a step disturbs a write can be computed. -/
instance (s : Link Message) : ∀ e, Decidable (Undisturbed lib s e)
  | .send message => inferInstanceAs (Decidable (∀ op ∈ s.sender.connection.inFlight,
      s.sender.connection.outputBuffer_.Clear (encoded lib message).length op.pos op.len))
  | .writeDone i => inferInstanceAs (Decidable (s.sender.Undisturbed (.writeDone i)))
  | .transmit _ _ | .writeError _ | .arrive => .isTrue trivial

/-! ## The invariant

  The wire carries a prefix of the frames, and the receiver is where the bytes it has got have
  brought it.  Each event moves one of the two. -/

variable {lib} {handler : Option Message → Except Dispatcher.Fault (List Act)}
  {hang : Outcome Fault Buffer (Buffer × List Act)} {as : Message → List Act} {r₀ : TcpConnection}
  {s s' : Link Message}

variable (lib handler hang as r₀) in
/-- The sender's stream carries the frames of the messages, and the receiver is where its
    bytes have brought it. The last field is why nothing has to be known about the receiving
    connection: it is the result of a function of the wire. -/
structure LinkInv (s : Link Message) : Prop where
  state : s.sender.connection.state_ = .kConnected
  stream : ∃ acked k, Outbound.SendInv acked k s.sender
  handled : ∀ m ∈ s.sent, Handled lib handler as m
  sent_eq : s.sender.sent = s.sent.flatMap (encoded lib)
  received_le : s.received ≤ s.sender.connection.wire.length
  fed : Receiver.feed (fun _ => onMessage lib handler hang) ⟨r₀, []⟩
    (s.sender.connection.wire.take s.received) = .ok s.receiver

/-- The wire carries some of the first bytes of the frames. -/
theorem LinkInv.wire_prefix (h : LinkInv lib handler hang as r₀ s) :
    s.sender.connection.wire <+: s.sent.flatMap (encoded lib) := by
  obtain ⟨acked, k, hstream⟩ := h.stream
  exact h.sent_eq ▸ hstream.wire_prefix

/-- What has been transmitted is a prefix of the frames of the messages sent, so what arrives is
    too. -/
theorem LinkInv.bytes_eq (h : LinkInv lib handler hang as r₀ s) {n : Nat}
    (hn : n ≤ s.sender.connection.wire.length) :
    s.sender.connection.wire.take n = (s.sent.flatMap (encoded lib)).take n := by
  obtain ⟨rest, hrest⟩ := h.wire_prefix
  rw [← hrest, List.take_append_of_le_length hn]

/-- An event of the sending side, which hands over the frames of `ms`. -/
theorem LinkInv.sends (h : LinkInv lib handler hang as r₀ s) {o : Outbound} {ms : List Message}
    (hstream : ∃ acked k, Outbound.SendInv acked k o)
    (hwired : TcpConnection.Wired s.sender.connection o.connection)
    (hms : ∀ m ∈ ms, Handled lib handler as m)
    (hsent : o.sent = s.sender.sent ++ ms.flatMap (encoded lib)) :
    LinkInv lib handler hang as r₀ { s.setSender o with sent := s.sent ++ ms } where
  state := hwired.state.trans h.state
  stream := hstream
  handled := fun m hm => (List.mem_append.mp hm).elim (h.handled m) (hms m)
  sent_eq := by
    show o.sent = (s.sent ++ ms).flatMap (encoded lib)
    rw [hsent, h.sent_eq, List.flatMap_append]
  received_le := Nat.le_trans h.received_le hwired.wire.length_le
  fed := by
    obtain ⟨more, hmore⟩ := hwired.wire
    show Receiver.feed _ _ (o.connection.wire.take s.received) = _
    rw [← hmore, List.take_append_of_le_length h.received_le]
    exact h.fed

/-- What an event does: the invariant is kept, or an append throws. -/
def Keeps (lib : Protobuf Message Descriptor)
    (handler : Option Message → Except Dispatcher.Fault (List Act))
    (hang : Outcome Fault Buffer (Buffer × List Act)) (as : Message → List Act) (r₀ : TcpConnection)
    (r : Outcome Fault (Link Message) (Link Message)) : Prop :=
  Holds (LinkInv lib handler hang as r₀) (fun e => e.1 = .lengthError) r

/-- A step of the socket on the sending side keeps it. -/
theorem LinkInv.perform_keeps (h : LinkInv lib handler hang as r₀ s) {e : Outbound.Event}
    (hguard : s.sender.Undisturbed e) (hnone : e.bytes = []) :
    Keeps lib handler hang as r₀ (s.perform e) := by
  have hkeeps := Outbound.step_keepsStream h.stream hguard
  rw [Link.perform]
  cases ho : s.sender.step e with
  | error e =>
    rw [ho, Outbound.KeepsStream, holds_error] at hkeeps
    exact .error hkeeps.1
  | ok o =>
    rw [ho, Outbound.KeepsStream, holds_ok] at hkeeps
    obtain ⟨hwired, hsent⟩ := Outbound.step_wired ho
    rw [hnone] at hsent
    have hnew : ∀ m ∈ ([] : List Message), Handled lib handler as m := nofun
    have hinv := h.sends hkeeps hwired hnew hsent
    rw [List.append_nil] at hinv
    exact .ok hinv

/-- **A message sent** adds its frame to the stream. -/
theorem LinkInv.send_keeps (h : LinkInv lib handler hang as r₀ s)
    (hmax : Buffer.kCheapPrepend + 4 + 64 * 1024 * 1024 ≤ VectorImpl.maxSize) {m : Message}
    (hm : Handled lib handler as m) (hguard : Undisturbed lib s (.send m)) :
    Keeps lib handler hang as r₀
      (s.step lib (fun _ => onMessage lib handler hang) (.send m)) := by
  have hlen := hm.length
  have hframe := encoded_length lib m
  obtain ⟨b, hb, hok, hcont⟩ := send_ok (by omega) hm.sendable hm.length
  -- `sendBuffer` empties the buffer into one string
  obtain ⟨b', hall, -⟩ := Buffer.retrieveAllAsString_spec hok
  have hsize : b.contents.length < 2 ^ 31 := by
    rw [hcont]
    omega
  rw [step, hb, within_ok, ok_bind, sendBuffer, if_pos h.state, hall, within_ok, ok_bind]
  simp only
  rw [dif_pos hsize]
  have hclear : s.sender.Undisturbed (.sendInThisThread ⟨b.contents, hsize⟩) := by
    show ∀ op ∈ _, Buffer.Clear _ b.contents.length _ _
    rw [hcont]
    exact hguard
  have hkeeps := Outbound.step_keepsStream h.stream hclear
  -- `append` of the output buffer may throw; then the sender stays as it was
  cases ho : s.sender.step (.sendInThisThread ⟨b.contents, hsize⟩) with
  | error e =>
    rw [ho, Outbound.KeepsStream, holds_error] at hkeeps
    exact .error hkeeps.1
  | ok o =>
    rw [ho, Outbound.KeepsStream, holds_ok] at hkeeps
    obtain ⟨hwired, hsent⟩ := Outbound.step_wired ho
    rw [within_ok, ok_bind]
    refine .ok (h.sends hkeeps hwired (by simpa using hm) ?_)
    rw [hsent, List.flatMap_singleton, ← hcont]
    rfl

/-- The next byte is read as `feed_arrived` says. -/
theorem LinkInv.arrive_keeps (h : LinkInv lib handler hang as r₀ s) (hat : Receiver.AtHeader r₀)
    (hmax : Buffer.kCheapPrepend + 4 + 64 * 1024 * 1024 ≤ VectorImpl.maxSize) :
    Keeps lib handler hang as r₀ (s.arrive fun _ => onMessage lib handler hang) := by
  rw [Link.arrive]
  cases hbyte : s.sender.connection.wire[s.received]? with
  | none => exact .ok h
  | some byte =>
    obtain ⟨hlt, hget⟩ := List.getElem?_eq_some_iff.mp hbyte
    have hfeed := feed_arrived hang hmax s.sent h.handled (s.received + 1) hat
    have hmore : s.sender.connection.wire.take (s.received + 1) =
        s.sender.connection.wire.take s.received ++ [byte] := by
      rw [List.take_add_one, hbyte, Option.toList_some]
    rw [← h.bytes_eq hlt, hmore, Receiver.feed, run_append, ← Receiver.feed, h.fed, ok_bind,
      run_cons] at hfeed
    cases hr : Receiver.recvByte (fun _ => onMessage lib handler hang) s.receiver byte with
    | error e =>
      obtain ⟨f, r⟩ := e
      rw [hr, error_bind, holds_error] at hfeed
      simp only [hr, within_error, error_bind]
      exact .error hfeed
    | ok r =>
      simp only [hr, within_ok, ok_bind]
      refine .ok ⟨h.state, h.stream, h.handled, h.sent_eq, hlt, ?_⟩
      show Receiver.feed _ _ (s.sender.connection.wire.take (s.received + 1)) = .ok r
      rw [hmore, Receiver.feed, run_append, ← Receiver.feed, h.fed, ok_bind, run_cons, hr]
      rfl

/-- What both callers and the library see to: the messages sent can be sent and are handled. -/
def Event.Handled (lib : Protobuf Message Descriptor)
    (handler : Option Message → Except Dispatcher.Fault (List Act)) (as : Message → List Act) :
    Event Message → Prop
  | .send message => ProtobufCodec.Handled lib handler as message
  | _ => True

/-- **Every undisturbed step keeps the invariant.** -/
theorem step_keeps (h : LinkInv lib handler hang as r₀ s) (hat : Receiver.AtHeader r₀)
    (hmax : Buffer.kCheapPrepend + 4 + 64 * 1024 * 1024 ≤ VectorImpl.maxSize) {e : Event Message}
    (hguard : Undisturbed lib s e) (he : e.Handled lib handler as) :
    Keeps lib handler hang as r₀ (s.step lib (fun _ => onMessage lib handler hang) e) := by
  cases e with
  | send m => exact h.send_keeps hmax he hguard
  | transmit i n => exact h.perform_keeps (e := .transmit i n) trivial rfl
  | writeDone i => exact h.perform_keeps (e := .writeDone i) hguard rfl
  | writeError i => exact h.perform_keeps (e := .writeError i) trivial rfl
  | arrive => exact h.arrive_keeps hat hmax

/-- It holds at the start, where nothing was sent. -/
theorem start_inv (cc mc clc : Bool) : LinkInv lib handler hang as r₀ (start cc mc clc r₀) where
  state := rfl
  stream := ⟨[], 0, Outbound.start_inv cc mc clc (by decide)⟩
  handled := nofun
  sent_eq := rfl
  received_le := Nat.zero_le _
  fed := rfl

/-- What the receiving side of a link has seen: of the messages sent, those whose frames have
    arrived, once each and in order; and they are all of them once everything is written, no write
    has failed and every byte of the wire has come. -/
structure Delivered (lib : Protobuf Message Descriptor) (as : Message → List Act)
    (r₀ : TcpConnection) (s : Link Message) : Prop where
  came : Came r₀ ((arrived (encoded lib) s.received s.sent).flatMap as) s.receiver
  received_le : s.received ≤ s.sender.connection.wire.length
  wire : s.sender.connection.wire <+: s.sent.flatMap (encoded lib)
  all : s.sender.connection.writing = [] → .writeFailed ∉ s.sender.connection.trace →
    s.received = s.sender.connection.wire.length → arrived (encoded lib) s.received s.sent = s.sent

/-- The invariant has the property in it: the bytes that have arrived are a prefix of the frames,
    and every whole frame among them was delivered. -/
theorem LinkInv.delivered (h : LinkInv lib handler hang as r₀ s) (hat : Receiver.AtHeader r₀)
    (hmax : Buffer.kCheapPrepend + 4 + 64 * 1024 * 1024 ≤ VectorImpl.maxSize) :
    Delivered lib as r₀ s where
  came := by
    have hfeed := feed_arrived hang hmax s.sent h.handled s.received hat
    rw [← h.bytes_eq h.received_le, h.fed] at hfeed
    exact (holds_ok.mp hfeed).1
  received_le := h.received_le
  wire := h.wire_prefix
  all := by
    intro hnone hok hall
    obtain ⟨acked, k, hstream⟩ := h.stream
    have hwire := hstream.intact.complete hnone hok
    refine arrived_all _ _ _ ?_
    rw [hall, hwire, h.sent_eq]

/-- **The link.**  In every run in which the sending side disturbs no range in flight, the callbacks
    of the receiving connection have been called, in every state, for exactly the messages whose
    frames have arrived.  Only an append that throws can fail. -/
theorem link_delivers [DecidableEq Descriptor] {Class : Type}
    (hmax : Buffer.kCheapPrepend + 4 + 64 * 1024 * 1024 ≤ VectorImpl.maxSize)
    (classes : Classes Message Descriptor Class) (defaultCb : Message → List Act)
    (callbacks : List (Dispatcher.CallbackT Message Class)) (cc mc clc rcc rclc : Bool)
    (hr₀ : (TcpConnection.new rcc true rclc).connectEstablished [] = .ok r₀)
    (es : List (Event Message))
    (hes : ∀ m, .send m ∈ es → Sendable lib m ∧ ((body lib m).length : Int) ≤ kMaxMessageLen ∧
      Dispatcher.Generated classes m)
    (hguard : Guarded (step lib fun _ => onMessage lib
        (((Dispatcher.new defaultCb).registerAll classes callbacks).onMessage classes) hang)
      (Undisturbed lib) (start cc mc clc r₀) es) :
    Holds (Delivered lib (fun m =>
        Dispatcher.tableOf classes defaultCb callbacks (classes.GetDescriptor m) m) r₀)
      (fun e => e.1 = .lengthError)
      (run (step lib fun _ => onMessage lib
          (((Dispatcher.new defaultCb).registerAll classes callbacks).onMessage classes) hang)
        (start cc mc clc r₀) es) := by
  have hat := (Receiver.established_atHeader hr₀).1
  have hfiled := (Dispatcher.new_filed classes defaultCb).registerAll callbacks
  have hhandled : ∀ e ∈ es, e.Handled lib
      (((Dispatcher.new defaultCb).registerAll classes callbacks).onMessage classes)
      (fun m => Dispatcher.tableOf classes defaultCb callbacks (classes.GetDescriptor m) m) := by
    intro e he
    cases e with
    | send m =>
      obtain ⟨hsend, hlen, hgen⟩ := hes m he
      rw [kMaxMessageLen] at hlen
      refine ⟨hsend, by omega, ?_⟩
      rw [hfiled.onMessage_eq hgen, Dispatcher.table_registerAll]
    | transmit | writeDone | writeError | arrive => trivial
  refine (run_holds (fun s e hs he => step_keeps hs hat hmax he.1 he.2) es _
    (start_inv cc mc clc) (hguard.and_mem hhandled)).mono (fun s hs => hs.delivered hat hmax)
    fun _ he => he

end Link

section Examples

attribute [local instance] VectorImpl.exact

/-- The second frame is appended while the first is in flight, and part of it arrives. -/
def twoFrames : List (Event (List UInt8)) :=
  [.send [], .transmit 0 20, .send [1, 2, 3], .arrive, .transmit 0 18, .writeDone 0, .transmit 0 30,
    .arrive]

/-- The conditions can be met: two messages, arriving in pieces. -/
theorem link_delivers_twoFrames :
    Guarded (step bytesValue fun _ => onMessage bytesValue
        (((Dispatcher.new fun _ => []).registerAll bytesValueClass
          [⟨(), fun value => [.deliver value]⟩]).onMessage bytesValueClass)
        (.error (.fatal, established.inputBuffer_)))
      (Undisturbed bytesValue) (start true true true established) twoFrames ∧
    Holds (Delivered bytesValue (fun value => [.deliver value]) established)
      (fun e => e.1 = .lengthError)
      (run (step bytesValue fun _ => onMessage bytesValue
          (((Dispatcher.new fun _ => []).registerAll bytesValueClass
            [⟨(), fun value => [.deliver value]⟩]).onMessage bytesValueClass)
          (.error (.fatal, established.inputBuffer_)))
        (start true true true established) twoFrames) := by
  have hguard : Guarded (step bytesValue fun _ => onMessage bytesValue
        (((Dispatcher.new fun _ => []).registerAll bytesValueClass
          [⟨(), fun value => [.deliver value]⟩]).onMessage bytesValueClass)
        (.error (.fatal, established.inputBuffer_)))
      (Undisturbed bytesValue) (start true true true established) twoFrames := by
    decide +kernel
  refine And.intro hguard (link_delivers (by decide) bytesValueClass (fun _ => [])
    [⟨(), fun value => [.deliver value]⟩] true true true true true rfl twoFrames ?_ hguard)
  intro m hm
  have hvalue : m = [] ∨ m = [1, 2, 3] := by simpa [twoFrames] using hm
  refine ⟨bytesValue_sendable hvalue, ?_, fun _ _ => rfl⟩
  rcases hvalue with rfl | rfl
  · decide +kernel
  · decide +kernel

end Examples

end Link

end IOEvent
