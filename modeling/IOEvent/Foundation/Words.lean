/-
  Machine words as numbers: big-endian byte strings, and the conversions between signed and
  unsigned values of a fixed width.

  A `w`-bit unsigned value is a `Nat` below `2 ^ w` and a `w`-bit signed value an `Int` in
  `[-2 ^ (w - 1), 2 ^ (w - 1))`; `toSigned` and `toUnsigned` are the two's-complement conversions
  between them (`toUnsigned` at a larger width is the sign extension).  `toBytes k n` stores the
  low `k` bytes of `n` most significant byte first, and `ofBytes` reads them back.  `addSize` and
  `subSize` are the wrapping sums and differences of 64-bit sizes, `wrapInt64` the 64-bit value of a
  signed sum or difference.
-/
import Mathlib.Data.List.Basic
import Mathlib.Tactic.Ring

namespace Foundation

/-! ## Big-endian bytes

  The first byte is the most significant one.  `k` bytes hold the numbers below `256 ^ k`, and
  for these the two functions are inverse (`ofBytes_toBytes`, `toBytes_ofBytes`). -/

/-- The low `k` bytes of `n`, most significant first. -/
def toBytes : Nat → Nat → List UInt8
  | 0, _ => []
  | k + 1, n => UInt8.ofNat (n / 256 ^ k) :: toBytes k n

/-- The number a byte string spells, most significant byte first. -/
def ofBytes : List UInt8 → Nat
  | [] => 0
  | b :: l => b.toNat * 256 ^ l.length + ofBytes l

/-- A word is written in as many bytes as it has. -/
@[simp] theorem toBytes_length : ∀ k n, (toBytes k n).length = k
  | 0, _ => rfl
  | k + 1, n => congrArg (· + 1) (toBytes_length k n)

/-- What a number of bytes holds is bounded by their number. -/
theorem ofBytes_lt : ∀ l : List UInt8, ofBytes l < 256 ^ l.length
  | [] => Nat.one_pos
  | b :: l => by
    have ih := ofBytes_lt l
    have hb : b.toNat < 256 := b.toNat_lt
    have hmul : b.toNat * 256 ^ l.length ≤ 255 * 256 ^ l.length :=
      Nat.mul_le_mul_right _ (by omega)
    rw [ofBytes, List.length_cons, Nat.pow_succ]
    omega

/-- Written and read back, a number is what is left of it in that width. -/
theorem ofBytes_toBytes : ∀ k n, ofBytes (toBytes k n) = n % 256 ^ k
  | 0, n => by rw [toBytes, ofBytes, Nat.pow_zero, Nat.mod_one]
  | k + 1, n => by
    have h8 : (2 : Nat) ^ 8 = 256 := rfl
    rw [toBytes, ofBytes, toBytes_length, ofBytes_toBytes k n, UInt8.toNat_ofNat', h8, Nat.pow_succ,
      Nat.mod_mul]
    ring

/-- What does not fit into the width is cut off. -/
theorem toBytes_add (k a c : Nat) : toBytes k (a * 256 ^ k + c) = toBytes k c := by
  induction k generalizing a with
  | zero => rfl
  | succ k ih =>
    have hsplit : a * 256 ^ (k + 1) = a * 256 * 256 ^ k := by rw [Nat.pow_succ]; ring
    rw [toBytes, toBytes, hsplit, ih, Nat.add_comm,
      Nat.add_mul_div_right _ _ (Nat.pow_pos (by decide))]
    congr 1
    apply UInt8.toNat_inj.mp
    rw [UInt8.toNat_ofNat', UInt8.toNat_ofNat']
    omega

/-- Read and written back, bytes are the same bytes. -/
theorem toBytes_ofBytes : ∀ l : List UInt8, toBytes l.length (ofBytes l) = l
  | [] => rfl
  | b :: l => by
    have hlt := ofBytes_lt l
    rw [List.length_cons, toBytes, ofBytes, toBytes_add, toBytes_ofBytes l, Nat.add_comm,
      Nat.add_mul_div_right _ _ (Nat.pow_pos (by decide)), Nat.div_eq_of_lt hlt, Nat.zero_add,
      UInt8.ofNat_toNat]

/-! ## Signed and unsigned

  The same bits read in two ways.  A value below half the range is the same in both
  (`toSigned_of_lt`), and the two conversions are inverse in both directions. -/

/-- The signed value of the low `w` bits. -/
def toSigned (w n : Nat) : Int :=
  if n % 2 ^ w < 2 ^ (w - 1) then (n % 2 ^ w : Nat) else (n % 2 ^ w : Nat) - 2 ^ w

/-- The low `w` bits of a signed value. -/
def toUnsigned (w : Nat) (i : Int) : Nat := (i % 2 ^ w).toNat

/-- A power of two is the same number in `Nat` and in `Int`. -/
theorem two_pow_cast (w : Nat) : ((2 ^ w : Nat) : Int) = 2 ^ w := by
  push_cast
  ring

/-- The signed values are half of the unsigned ones on each side of zero. -/
theorem two_pow_half {w : Nat} (hw : 0 < w) :
    (2 : Nat) ^ w = 2 * 2 ^ (w - 1) ∧ (2 : Int) ^ w = 2 * (2 ^ (w - 1) : Nat) := by
  have hpow : (2 : Nat) ^ w = 2 * 2 ^ (w - 1) := by
    rw [← Nat.pow_succ', Nat.succ_eq_add_one, Nat.sub_add_cancel hw]
  refine ⟨hpow, ?_⟩
  rw [← two_pow_cast, hpow, Nat.cast_mul]
  rfl

/-- A word below its sign bit is the number it holds. -/
theorem toSigned_of_lt {w n : Nat} (hw : 0 < w) (h : n < 2 ^ (w - 1)) : toSigned w n = n := by
  have hle : n < 2 ^ w := Nat.lt_of_lt_of_le h (Nat.pow_le_pow_right (by omega) (by omega))
  rw [toSigned, Nat.mod_eq_of_lt hle, if_pos h]

/-- A number within the width keeps its value. -/
theorem toUnsigned_natCast {w n : Nat} (h : n < 2 ^ w) : toUnsigned w n = n := by
  rw [toUnsigned, ← two_pow_cast, ← Int.natCast_emod, Int.toNat_natCast, Nat.mod_eq_of_lt h]

/-- An unsigned word is below the width. -/
theorem toUnsigned_lt (w : Nat) (i : Int) : toUnsigned w i < 2 ^ w := by
  have hpos : (0 : Int) < (2 ^ w : Nat) := Int.natCast_pos.mpr (Nat.two_pow_pos w)
  have hlo := Int.emod_nonneg i (Int.ne_of_gt hpos)
  have hhi := Int.emod_lt_of_pos i hpos
  rw [toUnsigned, ← two_pow_cast]
  omega

/-- A signed word is in the two's complement range. -/
theorem toSigned_range {w : Nat} (hw : 0 < w) (n : Nat) :
    -2 ^ (w - 1) ≤ toSigned w n ∧ toSigned w n < 2 ^ (w - 1) := by
  obtain ⟨hpow, hpow'⟩ := two_pow_half hw
  have hlt : n % 2 ^ w < 2 ^ w := Nat.mod_lt _ (Nat.two_pow_pos w)
  rw [toSigned, hpow', ← two_pow_cast]
  split <;> omega

/-- Two numbers of `w` bits with the same signed value are the same. -/
theorem toSigned_injective {w n m : Nat} (hn : n < 2 ^ w) (hm : m < 2 ^ w)
    (h : toSigned w n = toSigned w m) : n = m := by
  rw [toSigned, toSigned, Nat.mod_eq_of_lt hn, Nat.mod_eq_of_lt hm, ← two_pow_cast] at h
  split at h <;> split at h <;> omega

/-- A signed value is read back from its bits. -/
theorem toSigned_toUnsigned {w : Nat} (hw : 0 < w) {i : Int} (hlo : -2 ^ (w - 1) ≤ i)
    (hhi : i < 2 ^ (w - 1)) : toSigned w (toUnsigned w i) = i := by
  obtain ⟨hpow, hpow'⟩ := two_pow_half hw
  rw [← two_pow_cast] at hlo hhi
  rcases Int.lt_or_le i 0 with hneg | hpos
  · -- the bits of a negative value are those of its distance from `2 ^ w`
    have hmod : i % 2 ^ w = i + 2 ^ w := by
      rw [← Int.add_emod_right, Int.emod_eq_of_lt] <;> rw [hpow'] <;> omega
    have hbits : toUnsigned w i = 2 * 2 ^ (w - 1) - (-i).toNat := by
      rw [toUnsigned, hmod, hpow']
      omega
    rw [toSigned, hbits, hpow, Nat.mod_eq_of_lt (by omega), if_neg (by omega), hpow']
    omega
  · obtain ⟨n, rfl⟩ := Int.eq_ofNat_of_zero_le hpos
    rw [toUnsigned_natCast (by omega)]
    exact toSigned_of_lt hw (by omega)

/-- The bits of a signed value are those it was made of. -/
theorem toUnsigned_toSigned (w n : Nat) : toUnsigned w (toSigned w n) = n % 2 ^ w := by
  rw [toUnsigned, toSigned, ← two_pow_cast]
  split
  · rw [← Int.natCast_emod, Int.toNat_natCast, Nat.mod_mod]
  · rw [Int.sub_emod_right, ← Int.natCast_emod, Int.toNat_natCast, Nat.mod_mod]

/-! ## Sizes

  The operands of the next two are values of a 64-bit `size_t`, so a sum wraps at most once.  They
  are written with a test instead of a remainder because they are unfolded on symbolic operands. -/

/-- `a + b` in a 64-bit `size_t`. -/
def addSize (a b : Nat) : Nat := if a + b < 2 ^ 64 then a + b else a + b - 2 ^ 64

/-- `a - b` in a 64-bit `size_t`. -/
def subSize (a b : Nat) : Nat := if b ≤ a then a - b else a + 2 ^ 64 - b

/-- A `size_t` sum that does not wrap is the sum. -/
theorem addSize_of_lt {a b : Nat} (h : a + b < 2 ^ 64) : addSize a b = a + b := if_pos h

/-- A `size_t` difference that does not wrap is the difference. -/
theorem subSize_of_le {a b : Nat} (h : b ≤ a) : subSize a b = a - b := if_pos h

/-! ## Signed 64-bit results

  The sums and products that the code makes of times are 64-bit values.  Where one is out of
  range the hardware wraps; the lemmas say what can still be told of it then. -/

/-- What is left of a sum or difference in an `int64_t`: the value in range that differs by a
    multiple of `2 ^ 64`. -/
def wrapInt64 (i : Int) : Int := i.bmod (2 ^ 64)

/-- A value in range is kept. -/
theorem wrapInt64_of_range {i : Int} (hlo : -2 ^ 63 ≤ i) (hhi : i < 2 ^ 63) : wrapInt64 i = i := by
  rw [wrapInt64, Int.bmod_eq_of_le] <;> omega

/-- Values that differ by a whole number of ranges are the same word. -/
theorem wrapInt64_add_mul (i k : Int) : wrapInt64 (i + k * 2 ^ 64) = wrapInt64 i := by
  rw [wrapInt64, wrapInt64]
  rw [Int.mul_comm]
  exact Int.add_mul_bmod_self_left i (2 ^ 64) k

/-- The wrapped value is below the upper bound of the range. -/
theorem wrapInt64_lt (i : Int) : wrapInt64 i < 2 ^ 63 := Int.bmod_lt (by decide)

/-- It is not below the lower one. -/
theorem neg_le_wrapInt64 (i : Int) : -2 ^ 63 ≤ wrapInt64 i := Int.le_bmod (by decide)

/-- A result that does not underflow is made no larger by the wrap. -/
theorem wrapInt64_le {i : Int} (hlo : -2 ^ 63 ≤ i) : wrapInt64 i ≤ i := by
  rcases Int.lt_or_le i (2 ^ 63) with hhi | hhi
  · exact le_of_eq (wrapInt64_of_range hlo hhi)
  · have hlt := wrapInt64_lt i
    omega

end Foundation
