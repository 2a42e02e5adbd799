/-
  The outbound byte stream.

  `write` hands asio the ADDRESS of the readable bytes and their number.  While that write is in
  flight every further message is appended to the same buffer, and `append` may do three things to
  the range asio is still reading: grow the vector into a new block, which frees it; move the
  readable bytes to the front, which stores over it; or store the new bytes behind the readable
  ones, which leaves it alone.  `Clear` tells these apart from the indices before the append.

  A second defect needs no race with the storage: a message of no bytes, sent to an empty buffer,
  starts a write of an empty range, and the lambda of that write calls `write` again when it finds
  bytes in the buffer, although the write of those bytes is already in flight.

  `Undisturbed` excludes both.  Under it at most one write has a range that is not empty
  (`SendInv`): what it was given is the front of the queue, and the wire carries everything
  acknowledged before, followed by what it has transmitted.
-/
import IOEvent.TcpConnection.Frame
import Mathlib.Data.List.Perm.Basic

open Foundation

namespace IOEvent

/-! ## What an append does to a range of the storage

  The three ways an append can take, seen from a range that asio holds the address of. -/

namespace Buffer

/-- An append of `n` bytes neither frees the range `[pos, pos + len)` nor stores into it:
    there is room behind the readable bytes; or the vector grows within its capacity (or
    throws); or the readable bytes are moved to the front. It is decided by the indices before
    the append, the capacity and the range. -/
def Clear [VectorImpl] (b : Buffer) (n pos len : Nat) : Prop :=
  if b.writerIndex_ + n ≤ b.buffer_.size then
    n = 0 ∨ b.writerIndex_ + n ≤ pos ∨ pos + len ≤ b.writerIndex_
  else if b.buffer_.size - b.writerIndex_ + b.readerIndex_ < n + kCheapPrepend then
    VectorImpl.maxSize < b.writerIndex_ + n ∨
      (b.writerIndex_ + n ≤ b.buffer_.capacity ∧
        (b.writerIndex_ + n ≤ pos ∨ pos + len ≤ b.writerIndex_))
  else
    kCheapPrepend + (b.writerIndex_ - b.readerIndex_) + n ≤ pos ∨ pos + len ≤ kCheapPrepend

/-- Whether a growth of the buffer is clear of the bytes in flight is an arithmetic question. -/
instance [VectorImpl] (b : Buffer) (n pos len : Nat) : Decidable (b.Clear n pos len) :=
  inferInstanceAs (Decidable (ite _ _ _))

/-- **A clear range is left as it is**: same block, still inside the elements, same bytes. -/
theorem append_clear [VectorImpl] {b b' : Buffer} {data : List UInt8} {pos len : Nat} (h : b.Ok)
    (hdata : data.length < 2 ^ 63) (happ : b.append data = .ok b')
    (hclear : b.Clear data.length pos len) (hpos : pos + len ≤ b.buffer_.size) :
    b'.buffer_.block = b.buffer_.block ∧
      b'.buffer_.slice pos len = b.buffer_.slice pos len := by
  have hl := h.contents_length
  have hr := h.reader_le
  have hw := h.writer_le
  rcases append_cases h hdata with ⟨b₁, v, hm, helems, hsize, hblock, happ', -, -⟩ | ⟨happ', -⟩
  · obtain rfl := Except.ok.inj (happ'.symm.trans happ)
    have hroom := (hm.room h).2
    rw [Clear] at hclear
    -- what is left of the range once space is made
    have hmade : b₁.buffer_.block = b.buffer_.block ∧ b.buffer_.size ≤ b₁.buffer_.size ∧
        segment b₁.buffer_.elems pos len = segment b.buffer_.elems pos len ∧
        (data = [] ∨ b₁.writerIndex_ + data.length ≤ pos ∨ pos + len ≤ b₁.writerIndex_) := by
      cases hm with
      | enough hroom' =>
        rw [if_pos hroom'] at hclear
        exact ⟨rfl, Nat.le_refl _, rfl, hclear.imp_left List.length_eq_zero_iff.mp⟩
      | grown v hlt hgrow hmax hpad hsz hblk =>
        rw [if_neg (by omega), if_pos hgrow] at hclear
        obtain ⟨hcap, hdisj⟩ := hclear.resolve_left (by omega)
        refine ⟨hblk hcap, by simp only; omega, ?_, Or.inr hdisj⟩
        simp only [hpad, padded]
        exact segment_append_left hpos _
      | moved v hlt hmove hover hsz hblk =>
        rw [if_neg (by omega), if_neg (by omega)] at hclear
        refine ⟨hblk, hsz.ge, ?_, Or.inr ?_⟩
        · simp only [hover]
          refine segment_overwrite_of_disjoint ?_ ?_
          · show kCheapPrepend + b.contents.length ≤ b.buffer_.size
            omega
          · omega
        · show kCheapPrepend + b.contents.length + data.length ≤ pos ∨
            pos + len ≤ kCheapPrepend + b.contents.length
          omega
    obtain ⟨hblk, hsz, hseg, hdisj⟩ := hmade
    refine ⟨hblock.trans hblk, ?_⟩
    rw [Vec.slice_of_le (show pos + len ≤ v.size by omega), Vec.slice_of_le hpos, ← hseg, helems]
    rcases hdisj with rfl | hdisj
    · rw [overwrite_nil]
    · exact congrArg some (segment_overwrite_of_disjoint hroom hdisj.symm)
  · cases happ'.symm.trans happ

end Buffer

/-! ## The sending side, with what was sent

  The connection with a record of the messages, and the events that concern it. -/

/-- The writes in flight whose range is not empty. -/
def TcpConnection.inFlight (s : TcpConnection) : List AsyncWrite :=
  s.writing.filter fun op => op.len ≠ 0

/-- A connection, and the bytes of the messages handed to `sendInThisThread` so far. -/
structure Outbound where
  connection : TcpConnection
  sent : List UInt8

namespace Outbound

/-- What can happen next on the sending side. -/
inductive Event
  | sendInThisThread (str : StringPiece)
  | transmit (i n : Nat)
  | writeDone (i : Nat)
  | writeError (i : Nat)

/-- The sending side with another connection. -/
def setConnection (o : Outbound) (s : TcpConnection) : Outbound := { o with connection := s }

section Machine

variable [VectorImpl]

/-- Nothing sent yet, in any state but `kDisconnected`. -/
def start (cc mc clc : Bool) (state : StateE) : Outbound :=
  ⟨(TcpConnection.new cc mc clc).setState state, []⟩

/-- One event of the sending side. A message counts as sent when it is appended. -/
def step (o : Outbound) : Event → Outcome Fault Outbound Outbound
  | .sendInThisThread str => do
    let s ← within o.setConnection (o.connection.sendInThisThread str)
    return ⟨s, o.sent ++ str.bytes⟩
  | .transmit i n => do
    let s ← within o.setConnection (o.connection.transmit i n)
    return o.setConnection s
  | .writeDone i => do
    let s ← within o.setConnection (o.connection.writeDone i)
    return o.setConnection s
  | .writeError i => return o.setConnection (o.connection.writeError i)

/-- What a step must meet: an append leaves the ranges in flight alone, and a write of an empty
    range completes while the buffer is empty. -/
def Undisturbed (o : Outbound) : Event → Prop
  | .sendInThisThread str =>
    ∀ op ∈ o.connection.inFlight, o.connection.outputBuffer_.Clear str.bytes.length op.pos op.len
  | .writeDone i => ∀ op ∈ o.connection.writing[i]?, op.len = 0 →
    o.connection.outputBuffer_.readableBytes = 0
  | _ => True

/-- So whether a step disturbs a write can be computed. -/
instance (o : Outbound) : ∀ e, Decidable (Undisturbed o e)
  | .sendInThisThread str => inferInstanceAs (Decidable (∀ op ∈ o.connection.inFlight,
      o.connection.outputBuffer_.Clear str.bytes.length op.pos op.len))
  | .writeDone i => inferInstanceAs (Decidable (∀ op ∈ o.connection.writing[i]?, op.len = 0 →
      o.connection.outputBuffer_.readableBytes = 0))
  | .transmit _ _ | .writeError _ => .isTrue trivial

end Machine

/-- The stream is intact: the wire carries a prefix of what was sent, all of it once no write
    is left and none has failed, and every range in flight still holds the bytes it was given
    with. The second field says that nothing is lost, and the third that asio reads what it
    was told to. -/
structure Intact (o : Outbound) : Prop where
  wire_prefix : o.connection.wire <+: o.sent
  complete : o.connection.writing = [] → .writeFailed ∉ o.connection.trace →
    o.connection.wire = o.sent
  inPlace : ∀ op ∈ o.connection.inFlight, op.block = o.connection.outputBuffer_.buffer_.block ∧
    o.connection.outputBuffer_.buffer_.slice op.pos op.len = some op.given

/-! ## The invariant

  What was acknowledged, what is in the queue, and how much of the queue is on the wire. -/

/-- A write was given the front of the queue, which is still where it was, and has transmitted
    `k` bytes of it. -/
structure GivenFront (b : Buffer) (k : Nat) (op : AsyncWrite) : Prop where
  sent_eq : op.sent = k
  sent_le : k ≤ op.len
  len_le : op.len ≤ b.contents.length
  len_ne : op.len ≠ 0
  given : op.given = b.contents.take op.len
  block : op.block = b.buffer_.block
  inPlace : b.buffer_.slice op.pos op.len = some op.given

/-- What the writes in flight are: none, and then the queue is empty or a write has failed; or
    one, and it was given the front of the queue. A write of an empty range does not count, as
    it transmits nothing. -/
inductive Phase (b : Buffer) (k : Nat) (failed : Prop) : List AsyncWrite → Prop
  | idle (h : b.contents = [] ∨ failed) : Phase b k failed []
  | busy (op : AsyncWrite) (h : GivenFront b k op) : Phase b k failed [op]

/-- The invariant: what was sent is what was acknowledged and the queue; the wire carries what was
    acknowledged and the first `k` bytes of the queue. -/
structure SendInv (acked : List UInt8) (k : Nat) (o : Outbound) : Prop where
  state : o.connection.state_ ≠ .kDisconnected
  output : o.connection.outputBuffer_.Ok
  sent_eq : o.sent = acked ++ o.connection.outputBuffer_.contents
  wire_eq : o.connection.wire = acked ++ o.connection.outputBuffer_.contents.take k
  le : k ≤ o.connection.outputBuffer_.contents.length
  phase : Phase o.connection.outputBuffer_ k (.writeFailed ∈ o.connection.trace)
    o.connection.inFlight

variable {acked : List UInt8} {k : Nat} {o : Outbound}

/-- What the peer has received is a prefix of what was sent. -/
theorem SendInv.wire_prefix (h : SendInv acked k o) : o.connection.wire <+: o.sent := by
  rw [h.wire_eq, h.sent_eq, List.prefix_append_right_inj]
  exact List.take_prefix _ _

/-- The invariant has the property in it. -/
theorem SendInv.intact (h : SendInv acked k o) : Intact o where
  wire_prefix := h.wire_prefix
  complete := by
    intro hnone hok
    have hle := h.le
    have hphase := h.phase
    rw [TcpConnection.inFlight, hnone] at hphase
    cases hphase with
    | idle hidle =>
      rw [hidle.resolve_right hok] at hle
      rw [h.wire_eq, h.sent_eq, hidle.resolve_right hok, List.take_nil]
  inPlace := by
    intro op hop
    have hphase := h.phase
    generalize o.connection.inFlight = ops at hphase hop
    cases hphase with
    | idle => exact nomatch hop
    | busy op' hgiven =>
      rw [List.mem_singleton.mp hop]
      exact ⟨hgiven.block, hgiven.inPlace⟩

/-- It holds at the start, where everything is empty. -/
theorem start_inv [VectorImpl] (cc mc clc : Bool)
    {state : StateE} (hstate : state ≠ .kDisconnected) :
    SendInv [] 0 (start cc mc clc state) where
  state := hstate
  output := Buffer.new_ok (by decide)
  sent_eq := (Buffer.contents_new Buffer.kInitialSize).symm
  wire_eq := rfl
  le := Nat.zero_le _
  phase := .idle (Or.inl (Buffer.contents_new Buffer.kInitialSize))

/-! ## Which write an event is about

  A write of an empty range may be outstanding next to the one that matters.  What it does when
  it completes depends on the buffer, and on nothing of its own. -/

section Writes

variable {b : Buffer} {failed : Prop} {s : TcpConnection} {i : Nat} {op : AsyncWrite}

/-- The write at `i` and the others. -/
theorem inFlight_eraseIdx (hop : s.writing[i]? = some op) :
    s.inFlight.Perm ((op :: s.writing.eraseIdx i).filter fun op => op.len ≠ 0) := by
  obtain ⟨hi, rfl⟩ := List.getElem?_eq_some_iff.mp hop
  exact (List.getElem_cons_eraseIdx_perm hi).symm.filter _

/-- When the write at `i` has a range that is not empty, it is the only one. -/
theorem Phase.of_ne (h : Phase b k failed s.inFlight) (hop : s.writing[i]? = some op)
    (hne : op.len ≠ 0) :
    GivenFront b k op ∧ (s.writing.eraseIdx i).filter (fun op => op.len ≠ 0) = [] := by
  have hperm := inFlight_eraseIdx hop
  rw [List.filter_cons_of_pos (by simpa using hne)] at hperm
  generalize s.inFlight = ops at h hperm
  cases h with
  | idle => exact nomatch hperm.length_eq
  | busy op' hgiven =>
    obtain ⟨rfl, hnil⟩ := List.cons.inj (List.singleton_perm.mp hperm)
    exact ⟨hgiven, hnil.symm⟩

/-- When it has an empty range, the others are in the same phase without it. -/
theorem Phase.of_eq (h : Phase b k failed s.inFlight) (hop : s.writing[i]? = some op)
    (hzero : op.len = 0) :
    Phase b k failed ((s.writing.eraseIdx i).filter fun op => op.len ≠ 0) := by
  have hperm := inFlight_eraseIdx hop
  rw [List.filter_cons_of_neg (by simpa using hzero)] at hperm
  generalize s.inFlight = ops at h hperm
  cases h with
  | idle hidle =>
    rw [List.nil_perm.mp hperm]
    exact .idle hidle
  | busy op' hgiven =>
    rw [← List.singleton_perm.mp hperm]
    exact .busy op' hgiven

/-- The write at `i` is replaced, and it is the only one. -/
theorem inFlight_set {op' : AsyncWrite} (hop : s.writing[i]? = some op)
    (hnil : (s.writing.eraseIdx i).filter (fun op => op.len ≠ 0) = []) (hne : op'.len ≠ 0) :
    (s.writing.set i op').filter (fun op => op.len ≠ 0) = [op'] := by
  obtain ⟨hi, -⟩ := List.getElem?_eq_some_iff.mp hop
  have hperm := (List.set_perm_cons_eraseIdx hi op').filter fun op => op.len ≠ 0
  rw [List.filter_cons_of_pos (by simpa using hne), hnil] at hperm
  exact List.perm_singleton.mp hperm

/-- A phase that is left by failing stays left. -/
theorem Phase.mono {failed' : Prop} {ops : List AsyncWrite} (h : Phase b k failed ops)
    (himp : failed → failed') : Phase b k failed' ops := by
  cases h with
  | idle hidle => exact .idle (hidle.imp_right himp)
  | busy op hgiven => exact .busy op hgiven

/-- `write` gives the whole queue to a new write. -/
theorem write_phase (hok : s.outputBuffer_.Ok) (hnone : s.inFlight = []) :
    Phase s.outputBuffer_ 0 failed s.write.inFlight := by
  have hread := hok.readableBytes_eq_length
  have hw := hok.writer_le
  have hr := hok.reader_le
  rw [TcpConnection.inFlight, TcpConnection.write, List.filter_append]
  rw [TcpConnection.inFlight] at hnone
  rw [hnone, List.nil_append]
  by_cases hempty : s.outputBuffer_.contents = []
  · rw [List.filter_cons_of_neg (by simp [hread, hempty])]
    exact .idle (Or.inl hempty)
  · have hne : s.outputBuffer_.readableBytes ≠ 0 := by
      rw [hread]
      exact fun hzero => hempty (List.length_eq_zero_iff.mp hzero)
    rw [List.filter_cons_of_pos (by simpa using hne)]
    refine .busy _ ⟨rfl, Nat.zero_le _, hread.le, hne, ?_, rfl, ?_⟩
    · exact (List.take_of_length_le hread.ge).symm
    · show s.outputBuffer_.buffer_.slice s.outputBuffer_.readerIndex_
        s.outputBuffer_.readableBytes = _
      rw [hok.readableBytes_eq, Vec.slice_of_le (by omega)]
      rfl

/-- The bytes of a write's range are still those of the queue it was given. -/
theorem GivenFront.bytesAt {b : Buffer} {op : AsyncWrite} (h : GivenFront b k op) {n : Nat}
    (hn : k + n ≤ op.len) :
    b.bytesAt (op.pos + k) n = .ok ((b.contents.drop k).take n) := by
  have hslice := h.inPlace
  rw [Vec.slice] at hslice
  split at hslice
  · rename_i hpos
    have hseg : segment b.buffer_.elems op.pos op.len = b.contents.take op.len :=
      (Option.some.inj hslice).trans h.given
    have hpart : segment b.buffer_.elems (op.pos + k) n = (b.contents.drop k).take n := by
      calc segment b.buffer_.elems (op.pos + k) n
          = ((segment b.buffer_.elems op.pos op.len).drop k).take n := by
            rw [drop_segment, take_segment _ _ (by omega)]
        _ = ((b.contents.take op.len).drop k).take n := by rw [hseg]
        _ = (b.contents.drop k).take n := by
            rw [List.drop_take, List.take_take, Nat.min_eq_left (by omega)]
    rw [Buffer.bytesAt, Vec.slice_of_le (by omega), hpart]
  · cases hslice

/-- The write that completes was given the front of the queue (of an empty queue, when its range is
    empty) and has transmitted all of it, and no other is in flight. -/
theorem SendInv.completes (h : SendInv acked k o) {i : Nat} {op : AsyncWrite}
    (hop : o.connection.writing[i]? = some op) (hdone : op.sent = op.len)
    (hguard : op.len = 0 → o.connection.outputBuffer_.readableBytes = 0) :
    op.len ≤ o.connection.outputBuffer_.contents.length ∧
      o.connection.wire = acked ++ o.connection.outputBuffer_.contents.take op.len ∧
      (o.connection.writing.eraseIdx i).filter (fun op => op.len ≠ 0) = [] := by
  by_cases hne : op.len = 0
  · have hempty : o.connection.outputBuffer_.contents = [] := by
      rw [← List.length_eq_zero_iff, ← h.output.readableBytes_eq_length]
      exact hguard hne
    have hphase := h.phase.of_eq hop hne
    refine ⟨hne ▸ Nat.zero_le _, by rw [h.wire_eq, hempty, List.take_nil, List.take_nil], ?_⟩
    generalize (o.connection.writing.eraseIdx i).filter _ = ops at hphase
    cases hphase with
    | idle => rfl
    | busy op' hgiven =>
      have hlen := hgiven.len_le
      rw [hempty] at hlen
      exact absurd (Nat.le_zero.mp hlen) hgiven.len_ne
  · obtain ⟨hgiven, hnil⟩ := h.phase.of_ne hop hne
    exact ⟨hgiven.len_le, by rw [h.wire_eq, ← hgiven.sent_eq, hdone], hnil⟩

end Writes

/-! ## The steps

  One lemma for each event.  An append leaves the range in flight, `transmit` moves `k`, and
  `writeDone` moves the acknowledged bytes over. -/

section Steps

variable [VectorImpl]

/-- What an event of the sending side does: the invariant is kept, or the append throws. -/
def KeepsStream (r : Outcome Fault Outbound Outbound) : Prop :=
  Holds (fun o => ∃ acked k, SendInv acked k o)
    (fun e => e.1 = .lengthError ∧ e.2.connection.wire <+: e.2.sent) r

/-- A message is appended behind the queue.  When the queue was empty a write is started, and no
    other can be in flight; otherwise the one in flight keeps its range. -/
theorem sendInThisThread_keeps (h : SendInv acked k o) (str : StringPiece)
    (hguard : Undisturbed o (.sendInThisThread str)) :
    KeepsStream (o.step (.sendInThisThread str)) := by
  have hsize : str.bytes.length < 2 ^ 63 := Nat.lt_trans str.size_lt (by decide)
  have hle := h.le
  -- the three outcomes: the connection is down, the string is appended, or `append` throws
  rw [step]
  rcases TcpConnection.sendInThisThread_cases h.output str with
    ⟨hd, -⟩ | ⟨hd, b, happ, hb, hcont, hr⟩ | ⟨hd, hr⟩
  · exact absurd hd h.state
  · rw [hr, within_ok, ok_bind]
    by_cases hempty : o.connection.outputBuffer_.contents = []
    · -- nothing was buffered, so no write is in flight and one is started
      rw [if_pos hempty]
      have hnone : o.connection.inFlight = [] := by
        have hphase := h.phase
        generalize o.connection.inFlight = ops at hphase
        cases hphase with
        | idle => rfl
        | busy op hgiven =>
          have hlen := hgiven.len_le
          rw [hempty] at hlen
          exact absurd (Nat.le_zero.mp hlen) hgiven.len_ne
      refine .ok ⟨acked, 0, h.state, hb, ?_, ?_, Nat.zero_le _,
        write_phase (s := o.connection.setOutput b) hb hnone⟩
      · show o.sent ++ str.bytes = acked ++ b.contents
        rw [h.sent_eq, hcont, List.append_assoc]
      · show o.connection.wire = acked ++ b.contents.take 0
        rw [h.wire_eq, hempty, List.take_nil, List.take_zero]
    · -- the message is put behind the write in flight, which does not move
      rw [if_neg hempty]
      refine .ok ⟨acked, k, h.state, hb, ?_, ?_, ?_, ?_⟩
      · show o.sent ++ str.bytes = acked ++ b.contents
        rw [h.sent_eq, hcont, List.append_assoc]
      · show o.connection.wire = acked ++ b.contents.take k
        rw [h.wire_eq, hcont, List.take_append_of_le_length hle]
      · show k ≤ b.contents.length
        rw [hcont, List.length_append]
        omega
      · show Phase b k (.writeFailed ∈ o.connection.trace) o.connection.inFlight
        have hphase := h.phase
        have hclear : ∀ op ∈ o.connection.inFlight, _ := hguard
        generalize o.connection.inFlight = ops at hphase hclear
        cases hphase with
        | idle hidle => exact .idle (Or.inr (hidle.resolve_left hempty))
        | busy op hgiven =>
          have hslice := hgiven.inPlace
          have hpos : op.pos + op.len ≤ o.connection.outputBuffer_.buffer_.size := by
            rw [Vec.slice] at hslice
            split at hslice
            · assumption
            · exact nomatch hslice
          obtain ⟨hblock, hsame⟩ := Buffer.append_clear h.output hsize happ
            (hclear op (List.mem_singleton_self op)) hpos
          refine .busy op ⟨hgiven.sent_eq, hgiven.sent_le, ?_, hgiven.len_ne, ?_,
            hgiven.block.trans hblock.symm, hsame.trans hslice⟩
          · rw [hcont, List.length_append]
            exact Nat.le_add_right_of_le hgiven.len_le
          · rw [hcont, List.take_append_of_le_length hgiven.len_le]
            exact hgiven.given
  · -- `append` throws: nothing reaches the wire
    rw [hr]
    exact .error ⟨rfl, h.wire_prefix⟩

/-- asio transmits part of the write in flight. -/
theorem transmit_keeps (h : SendInv acked k o) (i n : Nat) :
    KeepsStream (o.step (.transmit i n)) := by
  rw [step, TcpConnection.transmit]
  split
  · exact .ok ⟨acked, k, h⟩
  rename_i op hop
  by_cases hn : 0 < n ∧ op.sent + n ≤ op.len
  · obtain ⟨hgiven, hnil⟩ := h.phase.of_ne hop (by omega)
    have hsent := hgiven.sent_eq
    have hlen := hgiven.len_le
    rw [if_pos hn, if_pos hgiven.block, hsent, hgiven.bytesAt (by omega), within_ok, ok_bind]
    refine .ok ⟨acked, k + n, h.state, h.output, h.sent_eq, ?_, Nat.le_trans (by omega) hlen, ?_⟩
    · show o.connection.wire ++ _ = acked ++ o.connection.outputBuffer_.contents.take (k + n)
      rw [h.wire_eq, List.append_assoc, List.take_add]
    · show Phase _ _ _ ((o.connection.writing.set i _).filter _)
      rw [inFlight_set hop hnil (show ({ op with sent := k + n } : AsyncWrite).len ≠ 0 from
        hgiven.len_ne)]
      have hle : k + n ≤ op.len := by omega
      exact .busy _ ⟨rfl, hle, hlen, hgiven.len_ne, hgiven.given, hgiven.block, hgiven.inPlace⟩
  · rw [if_neg hn]
    exact .ok ⟨acked, k, h⟩

/-- A write completes: what it was given is acknowledged, and a write of the rest follows. -/
theorem writeDone_keeps (h : SendInv acked k o) (i : Nat) (hguard : Undisturbed o (.writeDone i)) :
    KeepsStream (o.step (.writeDone i)) := by
  rw [step, TcpConnection.writeDone]
  split
  · exact .ok ⟨acked, k, h⟩
  rename_i op hop
  by_cases hdone : op.sent = op.len
  · obtain ⟨hlen, hwire, hnil⟩ := h.completes hop hdone (hguard op hop)
    obtain ⟨b, hb, hok, hcont, -⟩ := Buffer.retrieve_spec h.output hlen
    have hread := hok.readableBytes_eq_length
    have hsent : o.sent =
        acked ++ o.connection.outputBuffer_.contents.take op.len ++ b.contents := by
      rw [h.sent_eq, hcont, List.append_assoc, List.take_append_drop]
    have hwire' : o.connection.wire = acked ++ o.connection.outputBuffer_.contents.take op.len ++
        b.contents.take 0 := by
      rw [hwire, List.take_zero, List.append_nil]
    simp only [if_pos hdone, hb, within_ok, ok_bind]
    split
    · exact .ok ⟨_, 0, h.state, hok, hsent, hwire', Nat.zero_le _, write_phase
        (s := ({ o.connection with writing := o.connection.writing.eraseIdx i } :
          TcpConnection).setOutput b) hok hnil⟩
    · rename_i hzero
      have hempty : b.contents = [] :=
        List.length_eq_zero_iff.mp (hread.symm.trans (Decidable.not_not.mp hzero))
      -- nothing is left to write, so nothing is in flight, whatever else is recorded
      have hidle : ∀ failed, Phase b 0 failed
          ((o.connection.writing.eraseIdx i).filter fun op => op.len ≠ 0) := fun failed => by
        rw [hnil]
        exact .idle (Or.inl hempty)
      split
      · rw [TcpConnection.shutdownInThisThread]
        split
        · exact .ok ⟨_, 0, h.state, hok, hsent, hwire', Nat.zero_le _, hidle _⟩
        · exact .ok ⟨_, 0, h.state, hok, hsent, hwire', Nat.zero_le _, hidle _⟩
      · exact .ok ⟨_, 0, h.state, hok, hsent, hwire', Nat.zero_le _, hidle _⟩
  · rw [if_neg hdone]
    exact .ok ⟨acked, k, h⟩

/-- A write fails; what it has transmitted stays on the wire. -/
theorem writeError_keeps (h : SendInv acked k o) (i : Nat) :
    KeepsStream (o.step (.writeError i)) := by
  rw [step, TcpConnection.writeError]
  split
  · exact .ok ⟨acked, k, h⟩
  rename_i op hop
  refine .ok ⟨acked, k, h.state, h.output, h.sent_eq, h.wire_eq, h.le, ?_⟩
  have hfailed : .writeFailed ∈ o.connection.trace ++ [.writeFailed] :=
    List.mem_append_right _ (List.mem_singleton_self _)
  show Phase _ k (.writeFailed ∈ o.connection.trace ++ [.writeFailed])
    ((o.connection.writing.eraseIdx i).filter _)
  by_cases hne : op.len = 0
  · exact (h.phase.of_eq hop hne).mono (List.mem_append_left _)
  · rw [(h.phase.of_ne hop hne).2]
    exact .idle (Or.inr hfailed)

/-! ## Every run

  From the first state on the invariant is kept, and the property is read off it. -/

/-- **The outbound stream.**  In every run whose steps respect `Undisturbed` the stream is intact:
    the wire carries the messages in the order of the calls, and no range in flight is moved, freed
    or stored into.  A step can only fail by an append that throws. -/
theorem outbound_stream (cc mc clc : Bool) {state : StateE} (hstate : state ≠ .kDisconnected)
    (es : List Event) (h : Guarded step Undisturbed (start cc mc clc state) es) :
    Holds Intact (fun e => e.1 = .lengthError ∧ e.2.connection.wire <+: e.2.sent)
      (run step (start cc mc clc state) es) := by
  have hstep : ∀ o e, (∃ acked k, SendInv acked k o) → Undisturbed o e →
      KeepsStream (o.step e) := by
    rintro o e ⟨acked, k, ho⟩ hg
    cases e with
    | sendInThisThread str => exact sendInThisThread_keeps ho str hg
    | transmit i n => exact transmit_keeps ho i n
    | writeDone i => exact writeDone_keeps ho i hg
    | writeError i => exact writeError_keeps ho i
  refine (run_holds hstep es _ ⟨[], 0, start_inv cc mc clc hstate⟩ h).mono ?_ fun _ he => he
  rintro o ⟨acked, k, ho⟩
  exact ho.intact

end Steps

section Examples

attribute [local instance] VectorImpl.exact

/-- The second message is appended behind the first while that is in flight. -/
def twoMessages : List Event :=
  [.sendInThisThread ⟨[1, 2, 3], by decide⟩, .transmit 0 2, .sendInThisThread ⟨[4], by decide⟩,
    .transmit 0 1, .writeDone 0, .transmit 0 1, .writeDone 0]

/-- The condition can be met: two messages, the second appended while the first is written. -/
theorem outbound_stream_twoMessages :
    Guarded step Undisturbed (start true true true .kConnected) twoMessages ∧
    Holds Intact (fun e => e.1 = .lengthError ∧ e.2.connection.wire <+: e.2.sent)
      (run step (start true true true .kConnected) twoMessages) := by
  have hguard : Guarded step Undisturbed (start true true true .kConnected) twoMessages := by
    decide +kernel
  have hstate : StateE.kConnected ≠ .kDisconnected := by decide
  have hintact := outbound_stream true true true hstate twoMessages hguard
  exact And.intro hguard hintact

/-- The message of the counterexample is one that `StringPiece` can hold. -/
theorem zeros_size_lt : (List.replicate 2000 (0 : UInt8)).length < 2 ^ 31 := by
  rw [List.length_replicate]
  decide

/-- The second message does not fit behind the first while that is in flight. -/
def grownInFlight : List Event :=
  [.sendInThisThread ⟨[7], by decide⟩,
    .sendInThisThread ⟨List.replicate 2000 0, zeros_size_lt⟩, .transmit 0 1]

/-- **The stream is broken** there: asio reads memory the vector has given back. -/
theorem freed_in_flight :
    ¬ Holds Intact (fun e => e.1 = .lengthError ∧ e.2.connection.wire <+: e.2.sent)
      (run step (start true true true .kConnected) grownInFlight) := by
  have hend : (match run step (start true true true .kConnected) grownInFlight with
      | .ok _ => none
      | .error e => some e.1) = some .useAfterFree := by decide +kernel
  generalize run step (start true true true .kConnected) grownInFlight = r at hend ⊢
  intro h
  cases h with
  | ok h => exact nomatch hend
  | error h => exact nomatch h.1.symm.trans (Option.some.inj hend)

end Examples

end Outbound

end IOEvent
