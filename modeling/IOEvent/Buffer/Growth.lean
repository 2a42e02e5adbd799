/-
  A buffer does not creep.

  `makeSpace` grows the vector only when the space behind the readable bytes and the space in
  front of them together are too small, and then by what is missing behind them; otherwise it
  moves the bytes to the front.  So the space that retrieved bytes leave behind is never more
  than what a later call asks for: the storage grows to `readable + 2 * len` bytes and
  `kCheapPrepend` more, at most.  `Within M` says that what a buffer holds and what is asked of
  it together stay within `M` bytes; the storage is then bounded by `M` alone, however long the
  run is.

  No other operation changes the size (`perform_kept`), and `swap` exchanges two sizes.

  The invariant of the proof is the bound itself, for all buffers of the pool (`AllBelow`),
  beside the one of `Queue` that says what the buffers hold; `step_below` is its step lemma.
-/
import IOEvent.Buffer.Queue

open Foundation

namespace IOEvent

/-- The space an operation asks for. -/
def BufferOp.asked : BufferOp → Nat
  | .append data => data.length
  | .ensureWritableBytes len => len
  | .shrink reserve => reserve
  | _ => 0

/-- An operation that makes space. -/
def BufferOp.Makes : BufferOp → Prop
  | .append _ | .ensureWritableBytes _ | .shrink _ => True
  | _ => False

namespace Buffer

variable {b : Buffer}

/-! ## Operations that leave the size alone

  All but three of the operations do not call `makeSpace`, and their results, failures
  included, have the vector they began with. -/

/-- The buffer left by an operation has the size of `b`. It holds of a failure as well, as an
    operation that fails has not made space. -/
def Kept {α : Type} (b : Buffer) (buffer : α → Buffer) (r : Outcome Fault Buffer α) : Prop :=
  Holds (fun a => (buffer a).buffer_.size = b.buffer_.size)
    (fun e => e.2.buffer_.size = b.buffer_.size) r

/-- An assertion in front of an operation touches no storage. -/
theorem Kept.check {α : Type} {buffer : α → Buffer} {p : Prop} [Decidable p] {f : Fault}
    {x : Outcome Fault Buffer α} (hx : Kept b buffer x) :
    Kept b buffer (require p f b >>= fun _ => x) := by
  by_cases hp : p
  · rw [require_pos _ _ hp, ok_bind]
    exact hx
  · rw [require_neg _ _ hp, error_bind]
    exact .error rfl

/-- The result of an operation is returned with a string, or with none. -/
theorem Kept.returned {r : Outcome Fault Buffer Buffer} (h : Kept b id r)
    (string : Option (List UInt8)) :
    Kept b Prod.snd (r >>= fun b => .ok (string, b)) :=
  Holds.bind h fun _ hb => .ok hb

/-- Writing into the storage does not change its size. -/
theorem splice_size {v v' : Vec UInt8} {i : Nat} {xs : List UInt8} (h : v.splice i xs = some v') :
    v'.size = v.size := by
  rw [Vec.splice] at h
  split at h
  · rename_i hle
    obtain rfl := Option.some.inj h
    exact length_overwrite hle
  · cases h

/-- So copying keeps it. -/
theorem copyTo_kept (b : Buffer) (i : Nat) (data : List UInt8) : Kept b id (b.copyTo i data) := by
  rw [copyTo]
  split
  · rename_i v hv
    exact .ok (splice_size hv)
  · exact .error rfl

/-- `hasWritten` moves a position. -/
theorem hasWritten_kept (b : Buffer) (len : Nat) : Kept b id (b.hasWritten len) :=
  Kept.check (.ok rfl)

/-- So does `retrieve`. -/
theorem retrieve_kept (b : Buffer) (len : Nat) : Kept b id (b.retrieve len) := by
  apply Kept.check
  split <;> exact .ok rfl

/-- So does `retrieveAsString`. -/
theorem retrieveAsString_kept (b : Buffer) (len : Nat) :
    Kept b Prod.snd (b.retrieveAsString len) := by
  apply Kept.check
  rw [bytesAt]
  split
  · rw [ok_bind]
    exact Holds.bind (retrieve_kept b len) fun _ hb => .ok hb
  · exact .error rfl

variable [VectorImpl]

/-- **Only the operations that make space can change the size of the storage.** -/
theorem perform_kept (b : Buffer) {op : BufferOp} (hop : ¬ op.Makes) :
    Kept b Prod.snd (b.perform op) := by
  cases op with
  | retrieve len => exact (retrieve_kept b len).returned none
  | retrieveUntil len =>
    refine Kept.returned ?_ none
    exact Kept.check (Kept.check (retrieve_kept b _))
  | retrieveAll => exact .ok rfl
  | retrieveAsString len => exact Holds.bind (retrieveAsString_kept b len) fun _ hb => .ok hb
  | retrieveAllAsString =>
    exact Holds.bind (retrieveAsString_kept b b.readableBytes) fun _ hb => .ok hb
  | write data => exact (copyTo_kept b _ data).returned none
  | hasWritten len => exact (hasWritten_kept b len).returned none
  | unwrite len =>
    have hkept : Kept b id (b.unwrite len) := Kept.check (.ok rfl)
    exact hkept.returned none
  | prepend data =>
    refine Kept.returned (Kept.check ?_) none
    exact copyTo_kept { b with readerIndex_ := subSize b.readerIndex_ data.length } _ data
  | append _ => exact absurd trivial hop
  | ensureWritableBytes _ => exact absurd trivial hop
  | shrink _ => exact absurd trivial hop

/-! ## Operations that make space

  The three that do.  The size they leave is less than `n` when it was, and when what is asked
  for is not too much. -/

/-- The size of the buffer is less than `n`. The bound is kept by a failure too, so it is a
    statement about all that a run leaves. -/
def Below (n : Nat) (r : Outcome Fault Buffer (Option (List UInt8) × Buffer)) : Prop :=
  Holds (fun r => r.2.buffer_.size < n) (fun e => e.2.buffer_.size < n) r

/-- The buffer that `shrink` makes has the size its `ensureWritableBytes` gave it. -/
theorem shrink_size (h : b.Ok) {reserve : Nat} (hlen : b.contents.length + reserve < 2 ^ 31) :
    Holds (fun b' => ∃ other,
      MadeSpace (Buffer.new kInitialSize) (b.contents.length + reserve) other ∧
        b'.buffer_.size = other.buffer_.size)
      (fun e => e.2 = b) (b.shrink reserve) := by
  have hother : (Buffer.new kInitialSize).Ok := new_ok (by decide)
  have hsum : addSize b.readableBytes reserve = b.contents.length + reserve := by
    rw [h.readableBytes_eq_length, addSize_of_lt (by omega)]
  have hpiece : toUnsigned 64 b.toStringPiece.2 = b.contents.length := by
    show toUnsigned 64 (toSigned 32 b.readableBytes) = _
    rw [h.readableBytes_eq_length, toSigned_of_lt (by decide) (by omega),
      toUnsigned_natCast (by omega)]
  rw [shrink]
  dsimp only
  rw [hsum, hpiece]
  rcases ensureWritableBytes_cases hother (show b.contents.length + reserve < 2 ^ 63 by omega) with
    ⟨other, he, hm⟩ | ⟨he, -⟩
  · obtain ⟨hok, hroom⟩ := hm.room hother
    rw [he, within_ok, ok_bind, ensureWritableBytes_of_le hok (by omega), within_ok, ok_bind]
    -- what follows fills the storage and exchanges the two buffers
    have hpart {r : Outcome Fault Buffer Buffer} (hr : Kept other id r) :
        Holds (fun o => o.buffer_.size = other.buffer_.size) (fun e => e.2 = b)
          (within (fun _ => b) r) := by
      cases hr with
      | ok hsize => exact .ok hsize
      | error _ => exact .error rfl
    rw [bytesAt]
    split
    · rename_i data _
      rw [ok_bind]
      refine Holds.bind (hpart (copyTo_kept other _ data)) fun o ho => ?_
      have hwritten : Kept other id (o.hasWritten b.contents.length) := by
        have hkept := hasWritten_kept o b.contents.length
        rw [Kept, ho] at hkept
        exact hkept
      exact Holds.bind (hpart hwritten) fun o' ho' => .ok ⟨other, hm, ho'⟩
    · exact .error rfl
  · rw [he]
    exact .error rfl

/-- **One operation**: the storage stays below `n`, when `n` has room for a new buffer and for twice
    what the buffer holds and is asked for. -/
theorem perform_below {q : ByteQueue} (h : Tracks b q) {op : BufferOp} (hpre : Pre b q op) {n : Nat}
    (hsize : b.buffer_.size < n) (hnew : kCheapPrepend + kInitialSize < n)
    (hasked : 2 * (b.readableBytes + op.asked) + kCheapPrepend < n) : Below n (b.perform op) := by
  have hread := h.ok.readableBytes_eq_length
  have hk : kCheapPrepend = 8 := rfl
  -- only the operations that make room can grow the storage
  by_cases hop : op.Makes
  · cases op with
    | append data =>
      have hlen : b.readableBytes + data.length < 2 ^ 31 := hpre
      have hfit : 2 * (b.readableBytes + data.length) + kCheapPrepend < n := hasked
      show Below n (b.append data >>= fun b => .ok (none, b))
      rcases append_cases h.ok (show data.length < 2 ^ 63 by omega) with
        ⟨b₁, v, hm, -, hv, -, happ, -, -⟩ | ⟨hthrow, -⟩
      · have hlt := hm.size_lt h.ok hsize (by omega)
        rw [happ, ok_bind]
        apply Holds.ok
        show v.size < n
        omega
      · rw [hthrow, error_bind]
        exact .error hsize
    | ensureWritableBytes len =>
      have hlen : b.readableBytes + len < 2 ^ 31 := hpre
      have hfit : 2 * (b.readableBytes + len) + kCheapPrepend < n := hasked
      show Below n (b.ensureWritableBytes len >>= fun b => .ok (none, b))
      rcases ensureWritableBytes_cases h.ok (show len < 2 ^ 63 by omega) with
        ⟨b₁, he, hm⟩ | ⟨hthrow, -⟩
      · rw [he, ok_bind]
        exact .ok (hm.size_lt h.ok hsize (by omega))
      · rw [hthrow, error_bind]
        exact .error hsize
    | shrink reserve =>
      have hlen : b.readableBytes + reserve < 2 ^ 31 := hpre
      have hfit : 2 * (b.readableBytes + reserve) + kCheapPrepend < n := hasked
      have hshrink := shrink_size h.ok (show b.contents.length + reserve < 2 ^ 31 by omega)
      refine Holds.bind (P := fun b' => b'.buffer_.size < n) (hshrink.mono ?_ ?_) fun _ hb => .ok hb
      · rintro b' ⟨other, hm, hb'⟩
        rw [hb']
        apply hm.size_lt (new_ok (by decide))
        · rw [new, Vec.size_ofSize]
          exact hnew
        · rw [contents_new, List.length_nil]
          omega
      · rintro e he
        rw [he]
        exact hsize
    | _ => exact absurd hop id
  · -- the other ones keep the storage
    apply Holds.mono _ _ (perform_kept b hop)
    · exact fun r hr => hr.trans_lt hsize
    · exact fun e he => he.trans_lt hsize

end Buffer

/-! ## Every run

  The step lemma for all buffers of a pool, and the induction over the run. -/

namespace Pools

section Runs

variable {ι : Type} [DecidableEq ι]

/-- What a buffer holds and is asked for stays within `M` bytes. It is the user's side of the
    bound: how much is in flight at a time, and not how much goes through. -/
def Within (M : Nat) (s : Pools ι) : PoolOp ι → Prop
  | .on i op => (s.buffers.buffer i).readableBytes + op.asked ≤ M
  | .swap _ _ => True

/-- Whether an operation stays within the bound can be computed. -/
instance (M : Nat) (s : Pools ι) (op : PoolOp ι) : Decidable (s.Within M op) :=
  op.casesOn
    (fun i op => decidable_of_iff ((s.buffers.buffer i).readableBytes + op.asked ≤ M) Iff.rfl)
    fun _ _ => .isTrue trivial

/-- Every buffer is below `n`. -/
def AllBelow (n : Nat) (buffers : Buffers ι) : Prop := ∀ i, (buffers.buffer i).buffer_.size < n

/-- A bound for all buffers is one for each of them. -/
theorem allBelow_update {n : Nat} {buffer : ι → Buffer}
    (h : ∀ i, (buffer i).buffer_.size < n) (i : ι)
    {b : Buffer} (hb : b.buffer_.size < n) (k : ι) :
    (Function.update buffer i b k).buffer_.size < n := by
  by_cases hk : k = i
  · subst hk
    rw [Function.update_self]
    exact hb
  · rw [Function.update_of_ne hk]
    exact h k

variable [VectorImpl]

/-- **No operation brings the storage beyond the bound**: it grows only where the free bytes on
    both sides are too few, and what lies in front of the contents is then less than what is asked
    for. -/
theorem step_below {M n : Nat} {s : Pools ι} (h : PoolInv s) (hs : AllBelow n s.buffers)
    (hnew : Buffer.kCheapPrepend + Buffer.kInitialSize < n) (hn : 2 * M + Buffer.kCheapPrepend < n)
    (op : PoolOp ι) (hpre : s.Pre op) (hwithin : s.Within M op) :
    Holds (fun s' => AllBelow n s'.buffers) (fun e => AllBelow n e.2.buffers) (step s op) := by
  cases op with
  | on i op =>
    have hasked : (s.buffers.buffer i).readableBytes + op.asked ≤ M := hwithin
    have hbelow := Buffer.perform_below (h.tracks i) hpre (hs i) hnew (by omega)
    rw [step, Buffers.perform]
    dsimp only
    cases hperform : (s.buffers.buffer i).perform op with
    | error e =>
      rw [hperform] at hbelow
      cases hbelow with
      | error he => exact .error (allBelow_update hs i he)
    | ok r =>
      rw [hperform] at hbelow
      cases hbelow with
      | ok hr => exact .ok (allBelow_update hs i hr)
  | swap i j => exact .ok (allBelow_update (allBelow_update hs i (hs j)) j (hs i))

/-- **A buffer does not creep**: in every run of operations whose preconditions hold and in which
    what a buffer holds and is asked for stays within `M` bytes, the storage of every buffer
    stays within what it was made with, a new buffer, or `2 * M` bytes and `kCheapPrepend`. -/
theorem storage_bounded {initialSize : ι → Nat} {L M : Nat} (hinitial : ∀ i, initialSize i ≤ L)
    (hL : L < 2 ^ 31) (ops : List (PoolOp ι))
    (hpre : Guarded step (fun s op => s.Pre op ∧ s.Within M op) (new initialSize) ops) :
    Holds (fun s => ∀ i, (s.buffers.buffer i).buffer_.size ≤
        max (Buffer.kCheapPrepend + max L Buffer.kInitialSize) (2 * M + Buffer.kCheapPrepend))
      (fun e => ∀ i, (e.2.buffers.buffer i).buffer_.size ≤
        max (Buffer.kCheapPrepend + max L Buffer.kInitialSize) (2 * M + Buffer.kCheapPrepend))
      (run step (new initialSize) ops) := by
  generalize hbound : max (Buffer.kCheapPrepend + max L Buffer.kInitialSize)
    (2 * M + Buffer.kCheapPrepend) = bound
  -- at the start both the invariant and the bound hold
  have hinv : PoolInv (new initialSize) ∧ AllBelow (bound + 1) (new initialSize).buffers := by
    refine ⟨⟨fun i => .new ((hinitial i).trans_lt hL), rfl⟩, fun i => ?_⟩
    have hi := hinitial i
    have hsize : (Buffer.new (initialSize i)).buffer_.size = Buffer.kCheapPrepend + initialSize i :=
      Vec.size_ofSize _ _
    show (Buffer.new (initialSize i)).buffer_.size < bound + 1
    omega
  apply (run_holds (I := fun s => PoolInv s ∧ AllBelow (bound + 1) s.buffers)
    (Q := fun e => AllBelow (bound + 1) e.2.buffers) ?_ ops _ hinv hpre).mono
  · exact fun s hs i => Nat.le_of_lt_succ (hs.2 i)
  · exact fun e he i => Nat.le_of_lt_succ (he i)
  · -- each step keeps both
    intro s op hs hC
    have hstep := step_inv hs.1 op hC.1
    have hbelow := step_below hs.1 hs.2 (by omega) (by omega) op hC.1 hC.2
    cases hr : step s op with
    | error e =>
      rw [hr] at hbelow
      cases hbelow with
      | error he => exact .error he
    | ok s' =>
      rw [hr] at hstep hbelow
      cases hbelow with
      | ok hs' => exact .ok ⟨holds_ok.mp hstep, hs'⟩

end Runs

section Examples

attribute [local instance] VectorImpl.exact

/-- A small buffer through which twelve bytes pass, four at a time. -/
theorem storage_bounded_passing :
    Holds (fun s : Pools Unit => ∀ i, (s.buffers.buffer i).buffer_.size ≤
        max (Buffer.kCheapPrepend + max 4 Buffer.kInitialSize) (2 * 8 + Buffer.kCheapPrepend))
      (fun e => ∀ i, (e.2.buffers.buffer i).buffer_.size ≤
        max (Buffer.kCheapPrepend + max 4 Buffer.kInitialSize) (2 * 8 + Buffer.kCheapPrepend))
      (run step (new fun _ => 4)
        [.on () (.append [1, 2, 3, 4]), .on () (.append [5, 6, 7, 8]), .on () (.retrieve 6),
          .on () (.append [9, 10, 11, 12]), .on () (.shrink 2)]) :=
  storage_bounded (fun _ => Nat.le_refl 4) (by decide) _ (by decide +kernel)

end Examples

end Pools

end IOEvent
