/-
  Graceful shutdown: what is on the wire when the sending side is closed.

  `shutdown()` marks the connection at once, and `shutdownInThisThread` (or the last write that
  completes on a marked connection) closes the sending side when `outputBuffer_` is empty.  But
  bytes that wait to be sent are not only in that buffer: a `send()` from another thread posts its
  message, and until the loop has run the handler the message is in the loop's queue.  Nothing
  makes the half-close wait for it.

  `Closing` is the sending side with its callers.  The loop thread's calls are single steps.  A
  call from another thread takes the steps of the source (look at `state_`; for `shutdown`, set it;
  post), any number of them may be under way, and the loop runs the posted handlers in any order
  that keeps those of one thread in theirs.  The sends are numbered as they return, so `promised`
  is how many had returned when `shutdown()` was called.

  `Flushable` says that whenever the half-close is about to happen, no promised message is posted,
  and that the buffer is not disturbed while it is being written (`Undisturbed`).  Under it every
  half-close finds the promised messages on the wire.
-/
import IOEvent.TcpConnection.Outbound

open Foundation

namespace IOEvent

/-- A call of another thread, under way. -/
inductive Calling
  /-- `send` has found the connection connected, and has not posted the message. -/
  | send (str : StringPiece)
  /-- `shutdown` has found it connected; it may have set the state. -/
  | shutdown (set : Bool)

/-- A posted handler; a message with its number. -/
inductive PostedCall
  | sendInThisThread (number : Nat) (str : StringPiece)
  | shutdownInThisThread

/-- `socket_.shutdown(shutdown_send)` is executed: how many messages were promised, the
    messages handed to `sendInThisThread` with their numbers, and what is on the wire. It is a
    record taken at that moment, so that what comes later cannot make it true. -/
structure HalfClose where
  promised : Nat
  handled : List (Nat × List UInt8)
  wire : List UInt8

/-- Every byte of the message has been transmitted, in its place. -/
def HalfClose.Transmitted (h : HalfClose) (number : Nat) : Prop :=
  ∃ before bytes after, h.handled = before ++ (number, bytes) :: after ∧
    (before.map Prod.snd).flatten ++ bytes <+: h.wire

/-- The sending side with the threads that use it, and three records that the property is
    about: how many messages were accepted, which were handed over, and what was promised when
    `shutdown()` was called. The threads are numbers, and each has at most one call under way. -/
structure Closing where
  outbound : Outbound
  /-- The calls of other threads under way, each with its thread. -/
  calls : List (Nat × Calling)
  /-- The posted handlers, each with the thread that posted it. -/
  posted : List (Nat × PostedCall)
  /-- The number of sends that have returned after they found the connection connected. -/
  accepted : Nat
  handled : List (Nat × List UInt8)
  /-- The sends accepted before `shutdown()` was called, if it was. -/
  promised : Option Nat
  halfCloses : List HalfClose

namespace Closing

variable {s : Closing}

/-- The connection itself. -/
def connection (s : Closing) : TcpConnection := s.outbound.connection

/-- What a thread calls. -/
inductive Request
  | send (str : StringPiece)
  | shutdown

/-- One step of the loop thread, of another thread, or of the socket. The calls of other threads
    are split where the code leaves a gap between looking at the state and posting. -/
inductive Event
  /-- The loop thread calls `send` or `shutdown`. -/
  | callInLoop (request : Request)
  /-- Another thread does, and finds out whether the connection is connected. -/
  | call (thread : Nat) (request : Request)
  /-- The `i`-th call under way takes its next step. -/
  | advance (i : Nat)
  /-- The loop runs the `i`-th posted handler, when its thread has posted none before it. -/
  | runPosted (i : Nat)
  | transmit (i n : Nat)
  | writeDone (i : Nat)

/-- `shutdown()` is called on a connected connection. -/
def shutdownCalled (s : Closing) : Closing :=
  { s with promised := some (s.promised.getD s.accepted) }

/-- The sending side after a step; a half-close is recorded. -/
def note (s : Closing) (o : Outbound) : Closing :=
  if o.connection.trace.count .shutdownSend = s.connection.trace.count .shutdownSend then
    { s with outbound := o }
  else
    { s with
      outbound := o
      halfCloses := s.halfCloses ++ [⟨s.promised.getD 0, s.handled, o.connection.wire⟩] }

/-- The members of the connection that are no event of the sending side alone. -/
def setConnection (s : Closing) (c : TcpConnection) : Closing :=
  s.note (s.outbound.setConnection c)

section Machine

variable [VectorImpl]

/-- An established connection with nothing sent. -/
def start (cc mc clc : Bool) : Closing where
  outbound := .start cc mc clc .kConnected
  calls := []
  posted := []
  accepted := 0
  handled := []
  promised := none
  halfCloses := []

/-- A message reaches `sendInThisThread`, in its place among the messages. -/
def sendInThisThread (s : Closing) (number : Nat) (str : StringPiece) :
    Outcome Fault Closing Closing := do
  let o ← within (fun o => { s with outbound := o }) (s.outbound.step (.sendInThisThread str))
  return { s.note o with handled := s.handled ++ [(number, str.bytes)] }

/-- The loop thread calls; what it finds is what it acts on, since nobody else changes the state. -/
def callInLoop (s : Closing) : Request → Outcome Fault Closing Closing
  | .send str =>
    if s.connection.state_ = .kConnected then do
      let s ← s.sendInThisThread s.accepted str
      return { s with accepted := s.accepted + 1 }
    else
      return s
  | .shutdown =>
    if s.connection.state_ = .kConnected then
      return s.shutdownCalled.setConnection (s.connection.shutdown true)
    else
      return s

/-- A thread makes one call at a time. -/
def call (s : Closing) (thread : Nat) (request : Request) : Closing :=
  if s.connection.state_ = .kConnected ∧ ∀ c ∈ s.calls, c.1 ≠ thread then
    match request with
    | .send str => { s with calls := s.calls ++ [(thread, .send str)] }
    | .shutdown => { s.shutdownCalled with calls := s.calls ++ [(thread, .shutdown false)] }
  else
    s

/-- The second half of a call from another thread: the handler is posted, whatever the state is by
    now. -/
def advance (s : Closing) (i : Nat) : Closing :=
  match s.calls[i]? with
  | none => s
  | some (thread, .send str) =>
    { s with
      calls := s.calls.eraseIdx i
      posted := s.posted ++ [(thread, .sendInThisThread s.accepted str)]
      accepted := s.accepted + 1 }
  | some (thread, .shutdown false) =>
    { s.setConnection (s.connection.setState .kDisconnecting) with
      calls := s.calls.set i (thread, .shutdown true) }
  | some (thread, .shutdown true) =>
    { s with
      calls := s.calls.eraseIdx i
      posted := s.posted ++ [(thread, .shutdownInThisThread)] }

/-- The loop runs a posted handler. Those of one thread are run in the order in which it posted
    them. -/
def runPosted (s : Closing) (i : Nat) : Outcome Fault Closing Closing :=
  match s.posted[i]? with
  | none => return s
  | some (thread, handler) =>
    if ∀ p ∈ s.posted.take i, p.1 ≠ thread then
      let s := { s with posted := s.posted.eraseIdx i }
      match handler with
      | .sendInThisThread number str => s.sendInThisThread number str
      | .shutdownInThisThread => return s.setConnection s.connection.shutdownInThisThread
    else
      return s

/-- An event of the sending side alone. -/
def perform (s : Closing) (e : Outbound.Event) : Outcome Fault Closing Closing := do
  let o ← within (fun o => { s with outbound := o }) (s.outbound.step e)
  return s.note o

/-- One step of the system. -/
def step (s : Closing) : Event → Outcome Fault Closing Closing
  | .callInLoop request => s.callInLoop request
  | .call thread request => return s.call thread request
  | .advance i => return s.advance i
  | .runPosted i => s.runPosted i
  | .transmit i n => s.perform (.transmit i n)
  | .writeDone i => s.perform (.writeDone i)

end Machine

/-! ## The property and the condition

  Both speak of the messages by number.  The property is about the half-closes there have been,
  and the condition about the one that an event would make. -/

/-- Every half-close found the promised messages on the wire. -/
def Flushed (s : Closing) : Prop :=
  ∀ h ∈ s.halfCloses, ∀ number < h.promised, h.Transmitted number

/-- The handler of none of the first `n` messages is posted. -/
def Drained (s : Closing) (n : Nat) : Prop :=
  ∀ p ∈ s.posted, match p.2 with
    | .sendInThisThread number _ => n ≤ number
    | .shutdownInThisThread => True

/-- Whether the promised messages are all handed over is read off the posted handlers. -/
instance (s : Closing) (n : Nat) : Decidable (s.Drained n) := by
  have hdec : ∀ p : Nat × PostedCall, Decidable (match p.2 with
      | .sendInThisThread number _ => n ≤ number
      | .shutdownInThisThread => True) := by
    intro p
    split <;> infer_instance
  exact List.decidableBAll _ _

section Condition

variable [VectorImpl]

/-- A half-close finds no promised message posted, and the writes are not disturbed. The
    second half of it is that of `Outbound`, since a message that is damaged in the buffer is
    not transmitted either. -/
def Flushable (s : Closing) : Event → Prop
  | .callInLoop (.send str) =>
    s.connection.state_ = .kConnected → s.outbound.Undisturbed (.sendInThisThread str)
  | .callInLoop .shutdown =>
    s.connection.state_ = .kConnected → s.connection.outputBuffer_.readableBytes = 0 →
      s.Drained (s.promised.getD s.accepted)
  | .runPosted i =>
    ∀ p ∈ s.posted[i]?, (∀ p' ∈ s.posted.take i, p'.1 ≠ p.1) → match p.2 with
      | .sendInThisThread _ str => s.outbound.Undisturbed (.sendInThisThread str)
      | .shutdownInThisThread =>
        s.connection.outputBuffer_.readableBytes = 0 → s.Drained (s.promised.getD 0)
  | .writeDone i =>
    s.outbound.Undisturbed (.writeDone i) ∧
      ∀ op ∈ s.connection.writing[i]?, op.sent = op.len →
        op.len = s.connection.outputBuffer_.readableBytes → s.connection.state_ = .kDisconnecting →
          s.Drained (s.promised.getD 0)
  | _ => True

/-- So whether a step can flush too early can be computed. -/
instance (s : Closing) (e : Event) : Decidable (s.Flushable e) := by
  cases e with
  | callInLoop request => cases request <;> unfold Flushable <;> infer_instance
  | runPosted i =>
    have hdec : ∀ p : Nat × PostedCall, Decidable (match p.2 with
        | .sendInThisThread _ str => s.outbound.Undisturbed (.sendInThisThread str)
        | .shutdownInThisThread =>
          s.connection.outputBuffer_.readableBytes = 0 → s.Drained (s.promised.getD 0)) := by
      intro p
      split <;> infer_instance
    unfold Flushable
    infer_instance
  | _ => unfold Flushable; infer_instance

end Condition

/-! ## When the sending side is closed

  Which events add a half-close to the trace, and that the buffer is empty when they do. -/

section Frames

variable {c c' : TcpConnection}

/-- Bytes taken by the socket are nothing that the owner sees. -/
theorem transmit_trace {i n : Nat} (h : c.transmit i n = .ok c') : c'.trace = c.trace := by
  rw [TcpConnection.transmit] at h
  split at h
  · cases h
    rfl
  · split at h
    · split at h
      · obtain ⟨bytes, -, hc'⟩ := bind_ok h
        cases hc'
        rfl
      · cases h
    · cases h
      rfl

/-- A completed write closes it only when it was the last of a connection that is shutting down. -/
theorem writeDone_trace {i : Nat} (hok : c.outputBuffer_.Ok) (h : c.writeDone i = .ok c') :
    c'.trace = c.trace ∨ c'.outputBuffer_.readableBytes = 0 ∧ ∃ op ∈ c.writing[i]?,
      op.sent = op.len ∧ op.len = c.outputBuffer_.readableBytes ∧ c.state_ = .kDisconnecting := by
  rw [TcpConnection.writeDone] at h
  split at h
  case h_1 =>
    cases h
    exact .inl rfl
  case h_2 op hop =>
    split at h
    case isFalse =>
      cases h
      exact .inl rfl
    case isTrue hsent =>
      rcases TcpConnection.retrieve_calm hok op.len with ⟨b, hb, hbok⟩ | hb
      · dsimp only at h
        rw [hb, within_ok, ok_bind] at h
        split at h
        · cases h
          exact .inl rfl
        · rename_i hzero
          have hzero : b.readableBytes = 0 := not_not.mp hzero
          -- only here `writeDone` shuts down
          split at h
          · rename_i hstate
            cases h
            refine .inr ⟨?_, op, hop, hsent, ?_, hstate⟩
            · rw [TcpConnection.shutdownInThisThread]
              split <;> exact hzero
            · -- what was retrieved is all there was
              by_cases hlen : op.len ≤ c.outputBuffer_.contents.length
              · obtain ⟨b', hb', hok', hcont, -⟩ := Buffer.retrieve_spec hok hlen
                cases hb.symm.trans hb'
                have hrest := hok'.readableBytes_eq_length
                rw [hzero, hcont, List.length_drop] at hrest
                rw [hok.readableBytes_eq_length]
                omega
              · rw [Buffer.retrieve, require_neg _ _ (by
                  rw [hok.readableBytes_eq_length]; exact hlen), error_bind] at hb
                cases hb
          · cases h
            exact .inl rfl
      · dsimp only at h
        rw [hb, within_error, error_bind] at h
        cases h

/-- A half-close is seen only where the buffer is empty. -/
theorem shutdownInThisThread_trace :
    c.shutdownInThisThread.trace = c.trace ∨ c.outputBuffer_.readableBytes = 0 := by
  rw [TcpConnection.shutdownInThisThread]
  split
  case isTrue hzero => exact .inr hzero
  case isFalse => exact .inl rfl

end Frames

/-! ## The invariant

  A message that is not posted any more has been handed over; a message handed over is in the
  stream; and with an empty buffer the stream is on the wire. -/

/-- The invariant: the stream is what was sent in the order of the numbers, every accepted message
    was handed over or waits in its handler, and every half-close so far kept its promise. -/
structure FlushInv (s : Closing) : Prop where
  stream : ∃ acked k, Outbound.SendInv acked k s.outbound
  sent_eq : s.outbound.sent = (s.handled.map Prod.snd).flatten
  /-- An accepted message was handed over, or its handler is posted. -/
  numbered : ∀ number < s.accepted, (∃ bytes, (number, bytes) ∈ s.handled) ∨
    ∃ thread str, (thread, .sendInThisThread number str) ∈ s.posted
  promised_le : ∀ n ∈ s.promised, n ≤ s.accepted
  flushed : s.Flushed

/-- What was promised is no more than what was accepted. -/
theorem FlushInv.getD_le (h : FlushInv s) : s.promised.getD 0 ≤ s.accepted := by
  have hle := h.promised_le
  generalize s.promised = promised at hle
  cases promised with
  | none => exact Nat.zero_le _
  | some n => exact hle n rfl

/-- The first call of `shutdown()` promises what is accepted at that moment; later calls promise
    no more. -/
theorem FlushInv.shutdownCalled (h : FlushInv s) : FlushInv s.shutdownCalled where
  stream := h.stream
  sent_eq := h.sent_eq
  numbered := h.numbered
  promised_le := by
    intro n hn
    obtain rfl : s.promised.getD s.accepted = n := Option.some.inj hn
    have hle := h.promised_le
    show s.promised.getD s.accepted ≤ s.accepted
    generalize s.promised = promised at hle
    cases promised with
    | none => exact Nat.le_refl _
    | some n => exact hle n rfl
  flushed := h.flushed

/-- Once the buffer is empty, everything that was sent is on the wire. -/
theorem wire_eq_sent {o : Outbound} (h : ∃ acked k, Outbound.SendInv acked k o)
    (hempty : o.connection.outputBuffer_.contents = []) : o.connection.wire = o.sent := by
  obtain ⟨acked, k, h⟩ := h
  rw [h.wire_eq, h.sent_eq, hempty, List.take_nil]

/-- **A half-close** with an empty buffer and no promised message posted. -/
theorem FlushInv.transmitted (h : FlushInv s) {o : Outbound}
    (hstream : ∃ acked k, Outbound.SendInv acked k o) (hsent : o.sent = s.outbound.sent)
    (hempty : o.connection.outputBuffer_.contents = []) (hdrained : s.Drained (s.promised.getD 0))
    {number : Nat} (hnumber : number < s.promised.getD 0) :
    HalfClose.Transmitted ⟨s.promised.getD 0, s.handled, o.connection.wire⟩ number := by
  have hle := h.getD_le
  rcases h.numbered number (by omega) with ⟨bytes, hmem⟩ | ⟨thread, str, hmem⟩
  · obtain ⟨before, after, hsplit⟩ := List.append_of_mem hmem
    refine ⟨before, bytes, after, hsplit, ?_⟩
    show _ <+: o.connection.wire
    rw [wire_eq_sent hstream hempty, hsent, h.sent_eq, hsplit]
    simp
  · have hlate : s.promised.getD 0 ≤ number := hdrained _ hmem
    omega

/-- The outbound after a step that sends nothing. -/
theorem FlushInv.note (h : FlushInv s) {o : Outbound}
    (hstream : ∃ acked k, Outbound.SendInv acked k o) (hsent : o.sent = s.outbound.sent)
    (hclose : o.connection.trace = s.connection.trace ∨
      o.connection.outputBuffer_.contents = [] ∧ s.Drained (s.promised.getD 0)) :
    FlushInv (s.note o) := by
  rw [Closing.note]
  split
  · exact ⟨hstream, hsent.trans h.sent_eq, h.numbered, h.promised_le, h.flushed⟩
  case isFalse hcount =>
    obtain ⟨hempty, hdrained⟩ := hclose.resolve_left fun hsame => hcount (by rw [hsame])
    refine ⟨hstream, hsent.trans h.sent_eq, h.numbered, h.promised_le, fun hc hmem => ?_⟩
    rcases List.mem_append.mp hmem with hmem | hmem
    · exact h.flushed hc hmem
    · rw [List.mem_singleton.mp hmem]
      exact fun number hnumber => h.transmitted hstream hsent hempty hdrained hnumber

/-- The connection changes its state, or closes the sending side; its buffer and its writes stay. -/
structure Marked (c c' : TcpConnection) : Prop where
  state : c'.state_ ≠ .kDisconnected
  output : c'.outputBuffer_ = c.outputBuffer_
  writing : c'.writing = c.writing
  wire : c'.wire = c.wire
  failed : .writeFailed ∈ c.trace → .writeFailed ∈ c'.trace

/-- Changing the state of the connection disturbs no write. -/
theorem sendInv_marked {o : Outbound} {c : TcpConnection}
    (h : ∃ acked k, Outbound.SendInv acked k o) (hc : Marked o.connection c) :
    ∃ acked k, Outbound.SendInv acked k (o.setConnection c) := by
  obtain ⟨acked, k, h⟩ := h
  refine ⟨acked, k, hc.state, ?_, ?_, ?_, ?_, ?_⟩
  · show c.outputBuffer_.Ok
    rw [hc.output]
    exact h.output
  · show o.sent = acked ++ c.outputBuffer_.contents
    rw [hc.output]
    exact h.sent_eq
  · show c.wire = acked ++ c.outputBuffer_.contents.take k
    rw [hc.wire, hc.output]
    exact h.wire_eq
  · show k ≤ c.outputBuffer_.contents.length
    rw [hc.output]
    exact h.le
  · show Outbound.Phase c.outputBuffer_ k (.writeFailed ∈ c.trace) c.inFlight
    rw [hc.output, TcpConnection.inFlight, hc.writing]
    exact h.phase.mono hc.failed

/-- The state may become anything but `kDisconnected`. -/
theorem setState_marked {c : TcpConnection} {state : StateE} (h : state ≠ .kDisconnected) :
    Marked c (c.setState state) := ⟨h, rfl, rfl, rfl, id⟩

/-- A half-close leaves the buffer and the writes. -/
theorem shutdownInThisThread_marked {c : TcpConnection} (h : c.state_ ≠ .kDisconnected) :
    Marked c c.shutdownInThisThread := by
  rw [TcpConnection.shutdownInThisThread]
  split
  · exact ⟨h, rfl, rfl, rfl, List.mem_append_left _⟩
  · exact ⟨h, rfl, rfl, rfl, id⟩

/-- The connection does not go down in these runs; the property is about a shutdown, not about a
    close. -/
theorem FlushInv.up (h : FlushInv s) : s.connection.state_ ≠ .kDisconnected := by
  obtain ⟨acked, k, hs⟩ := h.stream
  exact hs.state

/-- The number of readable bytes is that of the contents. -/
theorem FlushInv.readable (h : FlushInv s) :
    s.connection.outputBuffer_.readableBytes = s.connection.outputBuffer_.contents.length := by
  obtain ⟨acked, k, hs⟩ := h.stream
  exact hs.output.readableBytes_eq_length

/-- `shutdownInThisThread`, of a connection that may have been marked just before. -/
theorem FlushInv.shutdown (h : FlushInv s) {c : TcpConnection} (hc : Marked s.connection c)
    (htrace : c.trace = s.connection.trace)
    (hdrained : s.connection.outputBuffer_.readableBytes = 0 → s.Drained (s.promised.getD 0)) :
    FlushInv (s.setConnection c.shutdownInThisThread) := by
  have hclosed := sendInv_marked (sendInv_marked h.stream hc)
    (shutdownInThisThread_marked (c := c) hc.state)
  apply h.note
  · exact hclosed
  · rfl
  · rcases shutdownInThisThread_trace (c := c) with hsame | hzero
    · exact .inl (hsame.trans htrace)
    · rw [hc.output] at hzero
      refine .inr ⟨?_, hdrained hzero⟩
      have hout : c.shutdownInThisThread.outputBuffer_ = s.connection.outputBuffer_ :=
        (shutdownInThisThread_marked hc.state).output.trans hc.output
      show c.shutdownInThisThread.outputBuffer_.contents = []
      rw [hout, ← List.length_eq_zero_iff, ← h.readable]
      exact hzero

/-! ## The steps

  Each event keeps the invariant.  The calls of other threads only move a message from the
  caller to the queue of the loop. -/

/-- A call that begins changes nothing but who is under way. -/
theorem call_keepsFlush (h : FlushInv s) (thread : Nat) (request : Request) :
    FlushInv (s.call thread request) := by
  unfold call
  split
  · cases request with
    | send str => exact ⟨h.stream, h.sent_eq, h.numbered, h.promised_le, h.flushed⟩
    | shutdown =>
      have hcalled := h.shutdownCalled
      exact ⟨hcalled.stream, hcalled.sent_eq, hcalled.numbered, hcalled.promised_le,
        hcalled.flushed⟩
  · exact h

/-- The posted message is the one accepted last. -/
theorem advance_keepsFlush (h : FlushInv s) (i : Nat) : FlushInv (s.advance i) := by
  rw [advance]
  split
  · exact h
  case h_2 thread str hcall =>
    refine ⟨h.stream, h.sent_eq, fun number hnumber => ?_, fun n hn => ?_, h.flushed⟩
    · by_cases hnew : number = s.accepted
      · subst hnew
        exact .inr ⟨thread, str, List.mem_append_right _ (List.mem_singleton_self _)⟩
      · have hlt : number < s.accepted + 1 := hnumber
        rcases h.numbered number (by omega) with hhandled | ⟨thread', str', hmem⟩
        · exact .inl hhandled
        · exact .inr ⟨thread', str', List.mem_append_left _ hmem⟩
    · exact Nat.le_succ_of_le (h.promised_le n hn)
  case h_3 thread hcall =>
    have hmarked : FlushInv (s.setConnection (s.connection.setState .kDisconnecting)) := by
      apply h.note
      · exact sendInv_marked h.stream (setState_marked (by decide))
      · rfl
      · exact .inl rfl
    exact ⟨hmarked.stream, hmarked.sent_eq, hmarked.numbered, hmarked.promised_le, hmarked.flushed⟩
  case h_4 thread hcall =>
    refine ⟨h.stream, h.sent_eq, fun number hnumber => ?_, h.promised_le, h.flushed⟩
    rcases h.numbered number hnumber with hhandled | ⟨thread', str', hmem⟩
    · exact .inl hhandled
    · exact .inr ⟨thread', str', List.mem_append_left _ hmem⟩

/-- What is posted besides the handler at `i`. -/
theorem mem_eraseIdx_of_ne {α : Type} {l : List α} {i : Nat} {a b : α} (hi : l[i]? = some a)
    (hb : b ∈ l) (hne : b ≠ a) : b ∈ l.eraseIdx i := by
  obtain ⟨hlt, rfl⟩ := List.getElem?_eq_some_iff.mp hi
  have hperm := List.getElem_cons_eraseIdx_perm hlt
  rcases List.mem_cons.mp (hperm.mem_iff.mpr hb) with heq | hmem
  · exact absurd heq hne
  · exact hmem

section Steps

variable [VectorImpl]

/-- What a step keeps; it fails only by an append that throws. -/
def KeepsFlush (r : Outcome Fault Closing Closing) : Prop :=
  Holds FlushInv (fun e => e.1 = .lengthError ∧ Flushed e.2) r

/-- A message is handed over, and nothing is closed. -/
theorem sendInThisThread_cases (hstream : ∃ acked k, Outbound.SendInv acked k s.outbound)
    (number : Nat) (str : StringPiece) (hguard : s.outbound.Undisturbed (.sendInThisThread str)) :
    (∃ o, s.sendInThisThread number str =
        .ok { s with outbound := o, handled := s.handled ++ [(number, str.bytes)] } ∧
      (∃ acked k, Outbound.SendInv acked k o) ∧ o.sent = s.outbound.sent ++ str.bytes) ∨
    ∃ e, s.sendInThisThread number str = .error e ∧ e.1 = .lengthError ∧
      e.2.halfCloses = s.halfCloses := by
  obtain ⟨acked, k, h⟩ := hstream
  have hkeeps := Outbound.sendInThisThread_keeps h str hguard
  have hcases := TcpConnection.sendInThisThread_cases h.output str
  rw [sendInThisThread]
  rw [Outbound.step] at hkeeps ⊢
  dsimp only at hkeeps ⊢
  rcases hcases with ⟨hdown, -⟩ | ⟨-, b, -, -, -, hr⟩ | ⟨-, hr⟩
  · exact absurd hdown h.state
  · rw [hr, within_ok, ok_bind] at hkeeps ⊢
    have hsent := holds_ok.mp hkeeps
    refine .inl ⟨_, ?_, hsent, rfl⟩
    have htrace : (if s.outbound.connection.outputBuffer_.contents = [] then
        (s.outbound.connection.setOutput b).write else s.outbound.connection.setOutput b).trace =
          s.outbound.connection.trace := by
      split <;> rfl
    show Except.ok _ = _
    rw [Closing.note, if_pos (by rw [htrace]; rfl)]
  · rw [hr, within_error, error_bind, within_error, error_bind]
    exact .inr ⟨_, rfl, rfl, rfl⟩

/-- **A message handed over** becomes the last of the stream, and its promise is kept by the write
    that it joins or starts. -/
theorem FlushInv.sendInThisThread (h : FlushInv s) (str : StringPiece)
    (hguard : s.outbound.Undisturbed (.sendInThisThread str)) :
    KeepsFlush (s.sendInThisThread s.accepted str >>= fun s' =>
      .ok { s' with accepted := s'.accepted + 1 }) := by
  rcases sendInThisThread_cases h.stream s.accepted str hguard with
    ⟨o, ho, hstream, hsent⟩ | ⟨e, he, hfault, hsame⟩
  · rw [ho, ok_bind]
    refine .ok ⟨hstream, ?_, fun number hnumber => ?_, fun n hn => ?_, h.flushed⟩
    · show o.sent = ((s.handled ++ [(s.accepted, str.bytes)]).map Prod.snd).flatten
      rw [hsent, h.sent_eq]
      simp
    · by_cases hnew : number = s.accepted
      · exact .inl ⟨str.bytes, by
          rw [hnew]; exact List.mem_append_right _ (List.mem_singleton_self _)⟩
      · have hlt : number < s.accepted + 1 := hnumber
        rcases h.numbered number (by omega) with ⟨bytes, hmem⟩ | hposted
        · exact .inl ⟨bytes, List.mem_append_left _ hmem⟩
        · exact .inr hposted
    · exact Nat.le_succ_of_le (h.promised_le n hn)
  · rw [he, error_bind]
    exact .error ⟨hfault, fun hc hmem => h.flushed hc (hsame ▸ hmem)⟩

/-- A call of the loop thread keeps it. -/
theorem callInLoop_keepsFlush (h : FlushInv s) (request : Request)
    (hguard : s.Flushable (.callInLoop request)) : KeepsFlush (s.callInLoop request) := by
  cases request with
  | send str =>
    show KeepsFlush (if s.connection.state_ = .kConnected then _ else _)
    split
    case isTrue hstate => exact h.sendInThisThread str (hguard hstate)
    case isFalse => exact .ok h
  | shutdown =>
    show KeepsFlush (if s.connection.state_ = .kConnected then _ else _)
    split
    case isTrue hstate =>
      apply Holds.ok
      rw [TcpConnection.shutdown, if_pos hstate, if_pos rfl]
      apply h.shutdownCalled.shutdown
      · exact setState_marked (by decide)
      · rfl
      · exact hguard hstate
    case isFalse => exact .ok h

/-- A posted handler keeps it. This is where the condition is used: a half-close must find every
    promised message handed over. -/
theorem runPosted_keepsFlush (h : FlushInv s) (i : Nat) (hguard : s.Flushable (.runPosted i)) :
    KeepsFlush (s.runPosted i) := by
  rw [runPosted]
  split
  · exact .ok h
  case h_2 thread handler hposted =>
    split
    case isFalse => exact .ok h
    case isTrue hfirst =>
      have hcondition := hguard (thread, handler) hposted hfirst
      cases handler with
      | sendInThisThread number str =>
        dsimp only
        rcases sendInThisThread_cases (s := { s with posted := s.posted.eraseIdx i })
          h.stream number
          str hcondition with ⟨o, ho, hstream, hsent⟩ | ⟨e, he, hfault, hsame⟩
        · rw [ho]
          refine .ok ⟨hstream, ?_, fun number' hnumber => ?_, h.promised_le, h.flushed⟩
          · show o.sent = ((s.handled ++ [(number, str.bytes)]).map Prod.snd).flatten
            rw [hsent, h.sent_eq]
            simp
          -- the message that was posted is handled now, and the others are where they were
          · rcases h.numbered number' hnumber with ⟨bytes, hmem⟩ | ⟨thread', str', hmem⟩
            · exact .inl ⟨bytes, List.mem_append_left _ hmem⟩
            · by_cases hsame : ((thread', PostedCall.sendInThisThread number' str') :
                  Nat × PostedCall) =
                  (thread, .sendInThisThread number str)
              · cases hsame
                exact .inl ⟨str.bytes, List.mem_append_right _ (List.mem_singleton_self _)⟩
              · exact .inr ⟨thread', str', mem_eraseIdx_of_ne hposted hmem hsame⟩
        · rw [he]
          exact .error ⟨hfault, fun hc hmem => h.flushed hc (hsame ▸ hmem)⟩
      | shutdownInThisThread =>
        apply Holds.ok
        have hrest : FlushInv { s with posted := s.posted.eraseIdx i } := by
          refine ⟨h.stream, h.sent_eq, fun number hnumber => ?_, h.promised_le, h.flushed⟩
          rcases h.numbered number hnumber with hhandled | ⟨thread', str', hmem⟩
          · exact .inl hhandled
          · exact .inr ⟨thread', str', mem_eraseIdx_of_ne hposted hmem nofun⟩
        apply hrest.shutdown
        · exact ⟨h.up, rfl, rfl, rfl, id⟩
        · rfl
        · exact fun hzero p hp => hcondition hzero p (List.mem_of_mem_eraseIdx hp)

/-- Bytes taken by the socket keep it. -/
theorem transmit_keepsFlush (h : FlushInv s) (i n : Nat) :
    KeepsFlush (s.perform (.transmit i n)) := by
  obtain ⟨acked, k, hs⟩ := h.stream
  have hkeeps := Outbound.transmit_keeps hs i n
  rw [perform]
  unfold Outbound.step at hkeeps ⊢
  dsimp only at hkeeps ⊢
  cases htransmit : s.outbound.connection.transmit i n with
  | error e =>
    rw [htransmit] at hkeeps
    cases hkeeps with
    | error he => exact .error ⟨he.1, h.flushed⟩
  | ok c =>
    rw [htransmit] at hkeeps
    cases hkeeps with
    | ok hstream =>
      apply Holds.ok
      apply h.note hstream
      · rfl
      · exact .inl (transmit_trace htransmit)

/-- The end of a write keeps it; with the buffer empty it is where a pending shutdown
    half-closes. -/
theorem writeDone_keepsFlush (h : FlushInv s) (i : Nat) (hguard : s.Flushable (.writeDone i)) :
    KeepsFlush (s.perform (.writeDone i)) := by
  obtain ⟨acked, k, hs⟩ := h.stream
  have hkeeps := Outbound.writeDone_keeps hs i hguard.1
  rw [perform]
  unfold Outbound.step at hkeeps ⊢
  dsimp only at hkeeps ⊢
  cases hdone : s.outbound.connection.writeDone i with
  | error e =>
    rw [hdone] at hkeeps
    cases hkeeps with
    | error he => exact .error ⟨he.1, h.flushed⟩
  | ok c =>
    rw [hdone] at hkeeps
    cases hkeeps with
    | ok hstream =>
      apply Holds.ok
      apply h.note hstream
      · rfl
      · rcases writeDone_trace hs.output hdone with hsame | ⟨hzero, op, hop, hsent, hlast, hstate⟩
        · exact .inl hsame
        · refine .inr ⟨?_, hguard.2 op hop hsent hlast hstate⟩
          obtain ⟨acked', k', hs'⟩ := hstream
          have hread : c.outputBuffer_.readableBytes = c.outputBuffer_.contents.length :=
            hs'.output.readableBytes_eq_length
          exact List.length_eq_zero_iff.mp (hread.symm.trans hzero)

/-- **Every step keeps it.** -/
theorem step_keepsFlush (h : FlushInv s) (e : Event) (hguard : s.Flushable e) :
    KeepsFlush (s.step e) := by
  cases e with
  | callInLoop request => exact callInLoop_keepsFlush h request hguard
  | call thread request => exact .ok (call_keepsFlush h thread request)
  | advance i => exact .ok (advance_keepsFlush h i)
  | runPosted i => exact runPosted_keepsFlush h i hguard
  | transmit i n => exact transmit_keepsFlush h i n
  | writeDone i => exact writeDone_keepsFlush h i hguard

/-! ## Every run

  From an established connection with nothing sent. -/

/-- **Graceful shutdown flushes**, as long as no promised message is still posted when the sending
    side is closed and the writes are not disturbed: every message whose `send` had returned before
    `shutdown` was called is on the wire by then. -/
theorem shutdown_flushes (cc mc clc : Bool) (es : List Event)
    (h : Guarded step Flushable (start cc mc clc) es) :
    Holds Flushed (fun e => e.1 = .lengthError ∧ Flushed e.2) (run step (start cc mc clc) es) := by
  have hstart : FlushInv (start cc mc clc) := by
    refine ⟨⟨[], 0, Outbound.start_inv cc mc clc (by decide)⟩, rfl, ?_, ?_, ?_⟩
    · exact fun number hnumber => absurd hnumber (Nat.not_lt_zero _)
    · exact fun n hn => absurd hn (by simp [start])
    · exact fun hc hmem => absurd hmem List.not_mem_nil
  apply (run_holds (fun s e hs hg => step_keepsFlush hs e hg) es _ hstart h).mono
  · exact fun s hs => hs.flushed
  · exact fun e he => he

end Steps

section Examples

attribute [local instance] VectorImpl.exact

/-- The loop and another thread each send a message, and both are written before the shutdown. -/
def sentThenShut : List Event :=
  [.callInLoop (.send ⟨[71], by decide⟩), .call 1 (.send ⟨[72], by decide⟩), .advance 0,
    .transmit 0 1, .writeDone 0, .runPosted 0, .call 1 .shutdown, .advance 0, .transmit 0 1,
    .advance 0, .writeDone 0, .runPosted 0]

/-- The condition can be met: two threads send, and the connection is then shut down. -/
theorem shutdown_flushes_sentThenShut :
    Guarded step Flushable (start true true true) sentThenShut ∧
    Holds Flushed (fun e => e.1 = .lengthError ∧ Flushed e.2)
      (run step (start true true true) sentThenShut) := by
  have hguard : Guarded step Flushable (start true true true) sentThenShut := by decide +kernel
  exact ⟨hguard, shutdown_flushes true true true sentThenShut hguard⟩

/-- The loop shuts the connection down while another thread's message is posted. -/
def overtakenByLoop : List Event :=
  [.call 1 (.send ⟨[73], by decide⟩), .advance 0, .callInLoop .shutdown]

/-- A thread sends and then shuts down; its message is still posted when the write of an earlier
    one completes on the marked connection. -/
def overtakenByWrite : List Event :=
  [.callInLoop (.send ⟨[74], by decide⟩), .call 1 (.send ⟨[75], by decide⟩), .advance 0,
    .call 1 .shutdown, .advance 0, .transmit 0 1, .writeDone 0]

/-- A half-close with its promised messages and those handed over, of a run that is through. -/
def closedAt : Outcome Fault Closing Closing → Option (List (Nat × List Nat))
  | .ok s => some (s.halfCloses.map fun h => (h.promised, h.handled.map Prod.fst))
  | .error _ => none

/-- A promised message that was not handed over has not been transmitted. -/
theorem not_flushed {r : Outcome Fault Closing Closing} {n : Nat} {numbers : List Nat}
    (hclosed : closedAt r = some [(n, numbers)]) {number : Nat} (hlt : number < n)
    (hmissing : number ∉ numbers) :
    ¬ Holds Flushed (fun e => e.1 = .lengthError ∧ Flushed e.2) r := by
  intro h
  cases h with
  | error h => cases hclosed
  | ok h =>
    rename_i s
    have hmap : s.halfCloses.map (fun h => (h.promised, h.handled.map Prod.fst)) = [(n, numbers)] :=
      Option.some.inj hclosed
    obtain ⟨close, hone, heq⟩ := List.map_eq_singleton_iff.mp hmap
    obtain ⟨hpromised, hhandled⟩ := Prod.mk.inj heq
    have hmem : close ∈ s.halfCloses := by simp [hone]
    obtain ⟨before, bytes, after, hsplit, -⟩ := h close hmem number (by omega)
    apply hmissing
    rw [← hhandled, hsplit]
    simp

/-- **Messages are lost** in both: the sending side is closed before they are handed over. -/
theorem promised_lost :
    (¬ Holds Flushed (fun e => e.1 = .lengthError ∧ Flushed e.2)
      (run step (start true true true) overtakenByLoop)) ∧
    ¬ Holds Flushed (fun e => e.1 = .lengthError ∧ Flushed e.2)
      (run step (start true true true) overtakenByWrite) := by
  have hloop : closedAt (run step (start true true true) overtakenByLoop) = some [(1, [])] := by
    decide +kernel
  have hwrite : closedAt (run step (start true true true) overtakenByWrite) = some [(2, [0])] := by
    decide +kernel
  exact ⟨not_flushed hloop Nat.zero_lt_one (by decide),
    not_flushed hwrite Nat.one_lt_two (by decide)⟩

end Examples

end Closing

end IOEvent
