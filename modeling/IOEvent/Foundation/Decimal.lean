/-
  Integers as `printf("%d")` writes them.

  `decimal` is the decimal notation of an integer, as a list of characters.  Two facts are needed
  of it: different integers are written differently, and how long the text can get.

  Both are needed of names that are built from numbers: two names are equal only if the numbers
  are (`decimal_injective`), and a name fits into a buffer of fixed size (`decimal_length_le`).
-/
import Mathlib.Data.List.Basic
import Mathlib.Tactic.Ring

namespace Foundation

/-- The decimal notation, with a sign when the number is negative. -/
def decimal : Int → List Char
  | .ofNat n => Nat.toDigits 10 n
  | .negSucc n => '-' :: Nat.toDigits 10 (n + 1)

/-- Two numbers with the same decimal digits are one number. -/
theorem toDigits_injective {n m : Nat} (h : Nat.toDigits 10 n = Nat.toDigits 10 m) : n = m := by
  have hread : ∀ k, Nat.ofDigitChars 10 (Nat.toDigits 10 k) 0 = k :=
    fun _ => Nat.ofDigitChars_toDigits (by decide) (by decide)
  rw [← hread n, h, hread]

/-- A sign is not a digit. -/
theorem toDigits_ne_sign (n : Nat) (l : List Char) : Nat.toDigits 10 n ≠ '-' :: l := by
  intro h
  have hdigit : ('-' : Char).isDigit = true := by
    apply Nat.isDigit_of_mem_toDigits (b := 10) (n := n) (by decide) (by decide)
    rw [h]
    exact List.mem_cons_self
  exact absurd hdigit (by decide)

/-- `std::to_string` gives different integers different texts, the sign included. -/
theorem decimal_injective {i j : Int} (h : decimal i = decimal j) : i = j := by
  cases i with
  | ofNat n =>
    cases j with
    | ofNat m => rw [toDigits_injective h]
    | negSucc m => exact absurd h (toDigits_ne_sign n _)
  | negSucc n =>
    cases j with
    | ofNat m => exact absurd h.symm (toDigits_ne_sign m _)
    | negSucc m =>
      have hdigits := toDigits_injective (List.cons.inj h).2
      rw [Nat.succ.inj hdigits]

/-- A number below `10 ^ k` has at most `k` digits, which bounds the buffers they are printed in. -/
theorem toDigits_length_le {n k : Nat} (hk : 0 < k) (hn : n < 10 ^ k) :
    (Nat.toDigits 10 n).length ≤ k :=
  (Nat.length_toDigits_le_iff (by decide) hk).mpr hn

/-- `k` digits and a sign. -/
theorem decimal_length_le {i : Int} {k : Nat} (hk : 0 < k) (hi : i.natAbs < 10 ^ k) :
    (decimal i).length ≤ k + 1 := by
  cases i with
  | ofNat n => exact Nat.le_succ_of_le (toDigits_length_le hk hi)
  | negSucc n => exact Nat.succ_le_succ (toDigits_length_le hk hi)

end Foundation
