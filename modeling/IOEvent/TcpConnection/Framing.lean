/-
  Framing: does every `readBody` ask for the body that is coming?

  `readHeader` reads four bytes to the WRITE end of the input buffer, but its lambda takes the
  length from the READ end.  The two agree when the message callback leaves nothing unread, and
  otherwise only by luck: when the first four bytes of what is unread, with the new header behind
  it, happen to be the new header.

  `InStep` says this of a list of frames and the numbers of bytes the callback retrieves, by a
  computation on lists alone, and `framed_iff` shows it to be the exact condition: the connection
  follows the frames if and only if they are in step.

  `framed_iff` is by induction on the frames still to come, with `Waiting` as the invariant
  between two of them.  In one direction a callback that keeps in step brings the connection
  back to it; in the other the first frame at which it does not makes the connection read a
  wrong length, and `Framed` fails there.
-/
import IOEvent.TcpConnection.Stream

open Foundation

namespace IOEvent

namespace Receiver

/-- How often the message callback has been called. -/
def calls (s : TcpConnection) : Nat := s.trace.countP fun
  | .messageCallback _ => true
  | _ => false

/-- A message callback that at its `k`-th call retrieves `consume k` of the readable bytes, or all
    of them when there are fewer. -/
def consuming (consume : Nat → Nat) : Callback := fun s =>
  TcpConnection.retrieving (consume (calls s)) []

/-- Header by header, the first four bytes of what is unread and the new header are the new
    header. `i` frames came before, and `unread` is what their callbacks left. The condition
    is on the bodies and on how much is retrieved, and not on anything the connection does. -/
def InStep (consume : Nat → Nat) : Nat → List UInt8 → List (List UInt8) → Prop
  | _, _, [] => True
  | i, unread, body :: bodies =>
    (unread ++ header body).take 4 = header body ∧
      InStep consume (i + 1) ((unread ++ frame body).drop (consume i)) bodies

/-- Whether the callback keeps in step is computed along the frames. -/
instance decidableInStep (consume : Nat → Nat) :
    ∀ i unread bodies, Decidable (InStep consume i unread bodies)
  | _, _, [] => .isTrue trivial
  | i, unread, body :: bodies =>
    have : Decidable (InStep consume (i + 1) ((unread ++ frame body).drop (consume i)) bodies) :=
      decidableInStep consume _ _ bodies
    inferInstanceAs (Decidable (_ ∧ _))

/-- Retrieving every frame whole keeps the frames in step. -/
theorem inStep_of_consumed {consume : Nat → Nat} (bodies : List (List UInt8)) :
    ∀ i, (∀ j (hj : j < bodies.length), (frame bodies[j]).length ≤ consume (i + j)) →
      InStep consume i [] bodies := by
  induction bodies with
  | nil => exact fun _ _ => trivial
  | cons body bodies ih =>
    intro i hconsume
    constructor
    · exact List.take_of_length_le (header_length body).le
    · have hall : (frame body).length ≤ consume i := hconsume 0 (Nat.succ_pos _)
      rw [List.nil_append, List.drop_eq_nil_of_le hall]
      refine ih (i + 1) fun j hj => ?_
      have hnext := hconsume (j + 1) (Nat.succ_lt_succ hj)
      rw [Nat.add_assoc, Nat.add_comm 1 j]
      exact hnext

section Framing

variable [VectorImpl]

/-- After each frame, its two reads have completed, the body's with exactly the bytes of the body,
    and the message callback has been called for it, and nothing else has happened. -/
def Framed (messageCallback : Callback) (s : TcpConnection) (bodies : List (List UInt8)) : Prop :=
  ∀ k ≤ bodies.length, ∃ s',
    feed messageCallback ⟨s, []⟩ ((bodies.take k).flatMap frame) = .ok ⟨s', []⟩ ∧
      s'.trace = s.trace ++ (bodies.take k).flatMap fun body => observed body .kConnected

/-- The connection is about to read a header, and the storage has room for `room` bytes more.
    The room is kept through the frames by what an earlier header has made, as `readHeader`
    makes none itself. -/
structure Waiting (s : TcpConnection) (unread : List UInt8) (i room : Nat) : Prop where
  input : s.inputBuffer_.Ok
  output : s.outputBuffer_.Ok
  cheap : Buffer.kCheapPrepend ≤ s.inputBuffer_.readerIndex_
  contents : s.inputBuffer_.contents = unread
  reading : s.reading = some ⟨.header, s.inputBuffer_.writerIndex_, 4⟩
  messageCallback : s.messageCallback_ = true
  state : s.state_ = .kConnected
  calls : calls s = i
  room : s.inputBuffer_.writerIndex_ + room ≤ s.inputBuffer_.buffer_.size

/-- A frame in step: the connection has observed it and waits for the next one. -/
theorem waiting_step (consume : Nat → Nat) {s : TcpConnection} {unread body : List UInt8}
    {i room : Nat} (h : Waiting s unread i ((frame body).length + room))
    (hbody : body.length < 2 ^ 31) (hfront : (unread ++ header body).take 4 = header body) :
    ∃ s', feed (consuming consume) ⟨s, []⟩ (frame body) = .ok ⟨s', []⟩ ∧
      s'.trace = s.trace ++ observed body .kConnected ∧
      Waiting s' ((unread ++ frame body).drop (consume i)) (i + 1) room := by
  have hlen := frame_length body
  have hroom := h.room
  have hspace : ∀ b, TcpConnection.Counted s.inputBuffer_ b (header body) →
      ∃ b', b.ensureWritableBytes body.length = .ok b' ∧ Buffer.MadeSpace b body.length b' := by
    intro b hc
    have hfits : b.writerIndex_ + body.length ≤ b.buffer_.size := by
      rw [hc.writer, hc.size, header_length]
      omega
    exact ⟨b, Buffer.ensureWritableBytes_of_le hc.ok hfits, .enough hfits⟩
  obtain ⟨b₀, b₁, b₂, hc₀, hm, hc₂, hcont, hfeed⟩ :=
    feed_frame (consuming consume) h.input h.reading (by omega)
      h.messageCallback hbody (by rw [h.contents]; exact hfront) hspace
  have hw₀ := hc₀.writer
  have hs₀ := hc₀.size
  rw [header_length] at hw₀
  -- there was room, so the queue was neither moved nor the vector resized
  obtain rfl : b₁ = b₀ := by
    cases hm with
    | enough => rfl
    | grown v hlt => omega
    | moved v hlt => omega
  rw [h.contents] at hcont
  have hindex : calls ((TcpConnection.received s b₁ 4).readBody body.length) = i := by
    rw [← h.calls]
    show List.countP _ ((s.trace ++ [_]) ++ [_]) = List.countP _ s.trace
    rw [List.countP_append, List.countP_append]
    rfl
  obtain ⟨b', hb', hok', hcont', hbuf', hsome, hall⟩ :=
    TcpConnection.retrieving_spec hc₂.ok (consume i) []
  have hreader₁ := hc₀.reader
  have hreader₂ := hc₂.reader
  have hw₂ := hc₂.writer
  have hs₂ := hc₂.size
  have hcheap := h.cheap
  -- what is retrieved only moves the reader, or brings both indices back to the start
  have hindices : Buffer.kCheapPrepend ≤ b'.readerIndex_ ∧ b'.writerIndex_ ≤ b₂.writerIndex_ := by
    rcases Nat.lt_or_ge (consume i) b₂.contents.length with hlt | hge
    · obtain ⟨h1, h2⟩ := hsome hlt
      omega
    · obtain ⟨h1, h2⟩ := hall hge
      have hle := hc₂.ok.reader_le
      omega
  refine ⟨_, hfeed b' [] _ (by rw [consuming, hindex]; exact hb') rfl, ?_, ?_⟩
  · show (handed s b₁ b₂ body.length).trace = _
    rw [handed_trace, h.state]
  · constructor
    · exact hok'
    · exact h.output
    · exact hindices.1
    · show b'.contents = _
      rw [hcont', hcont]
      rcases Nat.le_total (consume i) (unread ++ frame body).length with hle | hge
      · rw [Nat.min_eq_left hle]
      · rw [Nat.min_eq_right hge, List.drop_length, List.drop_eq_nil_of_le hge]
    · rfl
    · exact h.messageCallback
    · exact h.state
    · show List.countP _ (handed s b₁ b₂ body.length).trace = _
      rw [handed_trace, List.countP_append, ← h.calls]
      rfl
    · show b'.writerIndex_ + room ≤ b'.buffer_.size
      rw [hbuf']
      omega

/-- A frame out of step: whatever follows, the connection has asked for a body that is not the one
    coming. -/
theorem not_framed_of_front_ne {consume : Nat → Nat} {s : TcpConnection} {unread body : List UInt8}
    {bodies : List (List UInt8)} {i room : Nat}
    (h : Waiting s unread i ((frame body).length + room)) (hbody : body.length < 2 ^ 31)
    (hfront : (unread ++ header body).take 4 ≠ header body) :
    ¬ Framed (consuming consume) s (body :: bodies) := by
  intro hframed
  obtain ⟨s', hfeed, htrace⟩ := hframed 1 (Nat.succ_le_succ (Nat.zero_le _))
  rw [List.take_succ_cons, List.take_zero, List.flatMap_singleton] at hfeed htrace
  have hlen := frame_length body
  have hroom := h.room
  obtain ⟨b₀, hc₀, hdone⟩ := TcpConnection.readDone_header h.reading rfl h.input rfl
    (show s.inputBuffer_.writerIndex_ + 4 ≤ s.inputBuffer_.buffer_.size by omega) rfl
    (header_length body) (consuming consume s)
  have hne := header_ne_nil body
  have hread : feed (consuming consume) ⟨s, []⟩ (header body) =
      complete (consuming consume) ⟨s, header body⟩ >>= complete (consuming consume) :=
    feed_read h.reading (header body) [] hne (by rw [header_length]; rfl)
  rw [frame, feed, run_append, ← feed, hread] at hfeed
  obtain ⟨r₂, hr₂, hrest⟩ := bind_ok hfeed
  obtain ⟨r₁, hr₁, hr₂⟩ := bind_ok hr₂
  -- the header's read completes, and the length word decides what is asked for
  have hasked : ∃ s₁, r₁ = ⟨s₁, []⟩ ∧ s₁.outputBuffer_.Ok ∧ s₁.trace = s.trace ++ [.readDone 4] ++
      [.readBody (toUnsigned 64 (TcpConnection.lengthWord s.inputBuffer_ (header body)))] := by
    rw [complete, h.reading] at hr₁
    simp only [header_length, if_true, hdone] at hr₁
    obtain ⟨s₁, hs₁, hr₁⟩ := bind_ok hr₁
    cases hspace : b₀.ensureWritableBytes
        (toUnsigned 64 (TcpConnection.lengthWord s.inputBuffer_ (header body))) with
    | error e =>
      rw [hspace] at hs₁
      cases hs₁
    | ok b₁ =>
      rw [hspace] at hs₁
      obtain rfl := Except.ok.inj hs₁
      exact ⟨_, (Except.ok.inj hr₁).symm, h.output, rfl⟩
  obtain ⟨s₁, rfl, hout₁, htrace₁⟩ := hasked
  -- from there the trace only grows
  have hgrow₂ := complete_grows (consuming consume) (r := ⟨s₁, []⟩)
    ⟨hout₁, List.prefix_refl s₁.trace⟩
  rw [hr₂] at hgrow₂
  obtain ⟨hgrow₂⟩ := hgrow₂
  have hgrow := feed_grows (consuming consume) hgrow₂ body
  rw [feed, hrest] at hgrow
  obtain ⟨-, hprefix⟩ := hgrow
  rw [htrace₁, htrace, List.append_assoc, List.prefix_append_right_inj, observed] at hprefix
  have hword : toUnsigned 64 (TcpConnection.lengthWord s.inputBuffer_ (header body)) =
      body.length := by
    obtain ⟨rest, hrest⟩ := hprefix
    simp only [List.cons_append, List.nil_append, List.cons.injEq, Obs.readBody.injEq] at hrest
    exact hrest.2.1
  have hcontra := front_of_lengthWord hbody hword
  rw [h.contents] at hcontra
  exact hfront hcontra

/-- The connection after a frame in step meets the rest of the frames as any other. -/
theorem framed_cons {messageCallback : Callback} {s s' : TcpConnection} {body : List UInt8}
    {bodies : List (List UInt8)} (hfeed : feed messageCallback ⟨s, []⟩ (frame body) = .ok ⟨s', []⟩)
    (htrace : s'.trace = s.trace ++ observed body .kConnected) :
    Framed messageCallback s (body :: bodies) ↔ Framed messageCallback s' bodies := by
  have happend : ∀ bytes, feed messageCallback ⟨s, []⟩ (frame body ++ bytes) =
      feed messageCallback ⟨s', []⟩ bytes := feed_append hfeed
  constructor
  · intro h k hk
    obtain ⟨s'', hfeed'', htrace''⟩ := h (k + 1) (Nat.succ_le_succ hk)
    rw [List.take_succ_cons, List.flatMap_cons] at hfeed'' htrace''
    refine ⟨s'', by rw [← happend]; exact hfeed'', ?_⟩
    rw [htrace'', htrace, List.append_assoc]
  · rintro h (_ | k) hk
    · exact ⟨s, rfl, (List.append_nil _).symm⟩
    · obtain ⟨s'', hfeed'', htrace''⟩ := h k (Nat.le_of_succ_le_succ hk)
      rw [List.take_succ_cons, List.flatMap_cons, List.flatMap_cons]
      refine ⟨s'', by rw [happend]; exact hfeed'', ?_⟩
      rw [htrace'', htrace, List.append_assoc]

/-- By induction on the frames: a connection that waits with `unread` bytes follows the frames if
    and only if they are in step. -/
theorem framed_iff_of_waiting {consume : Nat → Nat} (bodies : List (List UInt8)) :
    ∀ {s : TcpConnection} {unread : List UInt8} {i : Nat},
      Waiting s unread i (bodies.flatMap frame).length → (∀ body ∈ bodies, body.length < 2 ^ 31) →
      (Framed (consuming consume) s bodies ↔ InStep consume i unread bodies) := by
  induction bodies with
  | nil =>
    intro s unread i _ _
    refine ⟨fun _ => trivial, fun _ k hk => ⟨s, ?_, ?_⟩⟩
    · rw [Nat.le_zero.mp hk]; rfl
    · rw [Nat.le_zero.mp hk]; exact (List.append_nil _).symm
  | cons body bodies ih =>
    intro s unread i h hlen
    rw [List.flatMap_cons, List.length_append] at h
    have hbody := hlen body List.mem_cons_self
    by_cases hfront : (unread ++ header body).take 4 = header body
    · obtain ⟨s', hfeed, htrace, hwait⟩ := waiting_step consume h hbody hfront
      rw [framed_cons hfeed htrace, ih hwait fun b hb => hlen b (List.mem_cons_of_mem _ hb)]
      exact ⟨fun hin => ⟨hfront, hin⟩, fun hin => hin.2⟩
    · exact ⟨fun hframed => absurd hframed (not_framed_of_front_ne h hbody hfront),
        fun hin => absurd hin.1 hfront⟩

/-- A connection that has just been established waits for its first header. -/
theorem waiting_of_established {cc clc : Bool} {n : Nat} {s : TcpConnection}
    (hn : Buffer.kCheapPrepend + n < 2 ^ 63)
    (hs : ((TcpConnection.new cc true clc).setInput (.new n)).connectEstablished [] = .ok s) :
    Waiting s [] 0 n := by
  obtain ⟨o, ho, rfl⟩ := TcpConnection.established_eq hs
  constructor
  · exact Buffer.new_ok hn
  · exact Buffer.new_ok (by decide)
  · exact Nat.le_refl _
  · exact Buffer.contents_new n
  · rfl
  · rfl
  · rfl
  · -- the message callback has not been called yet
    refine List.countP_eq_zero.mpr fun x hx => ?_
    rw [ho x hx]
    exact Bool.false_ne_true
  · show Buffer.kCheapPrepend + n ≤ (Vec.ofSize (0 : UInt8) _).size
    rw [Vec.size_ofSize]

/-- **Framing.**  A freshly established connection whose storage can take the whole stream follows
    the frames it is sent if and only if they are in step with what its message callback
    retrieves. -/
theorem framed_iff (cc clc : Bool) {n : Nat} (hn : Buffer.kCheapPrepend + n < 2 ^ 63)
    {s : TcpConnection}
    (hs : ((TcpConnection.new cc true clc).setInput (.new n)).connectEstablished [] = .ok s)
    (consume : Nat → Nat) (bodies : List (List UInt8))
    (hlen : ∀ body ∈ bodies, body.length < 2 ^ 31)
    (hstream : (bodies.flatMap frame).length ≤ n) :
    Framed (consuming consume) s bodies ↔ InStep consume 0 [] bodies := by
  have hwait := waiting_of_established hn hs
  have hroom := hwait.room
  refine framed_iff_of_waiting bodies { hwait with room := ?_ } hlen
  omega

end Framing

section Examples

attribute [local instance] VectorImpl.exact

/-- The established connection with a storage for `n` bytes. -/
def established (n : Nat) : TcpConnection :=
  ((((TcpConnection.new true true true).setInput (.new n)).setState .kConnected).observe
    (.connectionCallback .kConnected)).readHeader

/-- The condition can be met: two bodies, each read as it arrives. -/
theorem framed_iff_twoFrames :
    ((TcpConnection.new true true true).setInput (.new 20)).connectEstablished [] =
      .ok (established 20) ∧ Framed (consuming fun _ => 9) (established 20) [[7], [8, 9]] := by
  have hs : ((TcpConnection.new true true true).setInput (.new 20)).connectEstablished [] =
      .ok (established 20) := rfl
  have hn : Buffer.kCheapPrepend + 20 < 2 ^ 63 := by decide
  have hiff := framed_iff true true hn hs (fun _ => 9) [[7], [8, 9]] (by decide) (by decide)
  exact ⟨hs, hiff.mpr (by decide)⟩

/-- **Framing fails** for two frames of different lengths when nothing is retrieved, as by the
    callback of main.cpp: the second body is asked for with the length of the first. -/
theorem second_frame_out_of_step :
    ((TcpConnection.new true true true).setInput (.new 20)).connectEstablished [] =
      .ok (established 20) ∧
    ¬ Framed (consuming fun _ => 0) (established 20) [[7], [8, 9]] := by
  refine ⟨rfl, fun hframed => ?_⟩
  obtain ⟨s', hfeed, htrace⟩ := hframed 2 (Nat.le_refl _)
  have hend : ((feed (consuming fun _ => 0) ⟨established 20, []⟩
      ([[7], [8, 9]].flatMap frame)).toOption.map fun r => r.connection.trace) =
      some ((established 20).trace ++ observed [7] .kConnected ++
        [.readDone 4, .readBody 1, .readDone 1, .messageCallback .kConnected]) := by decide +kernel
  rw [show feed (consuming fun _ => 0) ⟨established 20, []⟩ ([[7], [8, 9]].flatMap frame) =
    .ok ⟨s', []⟩ from hfeed] at hend
  have htraces := htrace.symm.trans (Option.some.inj hend)
  exact absurd htraces (by decide +kernel)

end Examples

end Receiver

end IOEvent
