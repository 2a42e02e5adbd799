/-
  Machine arithmetic that says when it is not arithmetic.

  The operations of a program on `size_t`s and `int`s are total: a difference wraps, a conversion
  takes another value, a pointer is computed wherever it leads.  A checked operation does the
  same and fails with a `Slip` where the result is not the mathematical one, or where a range
  leaves the data it is a range of.  A program written with checked operations that never fails
  is the program written with the others, and nothing in it wraps, overflows or leaves the data.
-/
import IOEvent.Foundation.Loops
import IOEvent.Foundation.Words

namespace Foundation

/-- The ways in which an arithmetic step or an access of the code can leave what is defined or
    meant. A function written with the checked operations below returns one of these where the
    code would go on with a wrong value. -/
inductive Slip
  /-- A `size_t` difference is negative. -/
  | wraps
  /-- A signed sum is out of range. -/
  | overflows
  /-- A conversion changes the value. -/
  | converts
  /-- A pointer or a range leaves the data. -/
  | outside
  /-- A function is called outside its precondition. -/
  | refused
  deriving DecidableEq, Repr

section Checked

variable {α φ : Type} {a b i n w : Nat} {x y : Int} {l : List α}

/-- `a - b` in a `size_t`: the wrapped difference would be a huge size, so a negative one
    is a slip. -/
def checkedSub (a b : Nat) : Except Slip Nat :=
  if b ≤ a then .ok (subSize a b) else .error .wraps

/-- `x + y` in a signed type of `w` bits. Overflow is undefined there, and so it is a slip. -/
def checkedSum (w : Nat) (x y : Int) : Except Slip Int :=
  if -2 ^ (w - 1) ≤ x + y ∧ x + y < 2 ^ (w - 1) then .ok (x + y) else .error .overflows

/-- The `size_t` that a signed operand becomes when it meets an unsigned one; of a negative
    operand it would be a number near `2 ^ 64`. -/
def checkedSize (x : Int) : Except Slip Nat :=
  if 0 ≤ x ∧ x < 2 ^ 64 then .ok (toUnsigned 64 x) else .error .converts

/-- The signed value of `w` bits that a `size_t` is cast to, where it has room for it. -/
def checkedCast (w n : Nat) : Except Slip Int :=
  if n < 2 ^ (w - 1) then .ok (toSigned w n) else .error .converts

/-- The pointer `n` elements behind the position `i` of the data; the end is a position. -/
def checkedAdvance (l : List α) (i n : Nat) : Except Slip Nat :=
  if i + n ≤ l.length then .ok (i + n) else .error .outside

/-- The `n` elements from the position `i` on, all of them within the data. -/
def checkedRange (l : List α) (i n : Nat) : Except Slip (List α) :=
  if i + n ≤ l.length then .ok ((l.drop i).take n) else .error .outside

/-- A call that fails has been made outside its precondition. -/
def checkedCall : Except φ α → Except Slip α
  | .ok a => .ok a
  | .error _ => .error .refused

/-- A call that returns hands its value through. -/
@[simp] theorem checkedCall_ok (a : α) : checkedCall (φ := φ) (.ok a) = .ok a := rfl

/-- A difference that does not go below zero is the difference. -/
theorem checkedSub_of_le (h : b ≤ a) : checkedSub a b = .ok (a - b) := by
  rw [checkedSub, if_pos h, subSize_of_le h]

/-- A signed sum within its width is the sum. -/
theorem checkedSum_of_range (hlo : -2 ^ (w - 1) ≤ x + y) (hhi : x + y < 2 ^ (w - 1)) :
    checkedSum w x y = .ok (x + y) := if_pos ⟨hlo, hhi⟩

/-- A number that fits 64 bits keeps its value as a `size_t`. -/
theorem checkedSize_natCast (h : n < 2 ^ 64) : checkedSize n = .ok n := by
  rw [checkedSize, if_pos ⟨Int.natCast_nonneg n, by omega⟩, toUnsigned_natCast h]

/-- A number below the sign bit keeps its value as a signed one. -/
theorem checkedCast_of_lt (hw : 0 < w) (h : n < 2 ^ (w - 1)) : checkedCast w n = .ok (n : Int) := by
  rw [checkedCast, if_pos h, toSigned_of_lt hw h]

/-- A pointer moved within its buffer stays in it; the end itself is allowed. -/
theorem checkedAdvance_of_le (h : i + n ≤ l.length) : checkedAdvance l i n = .ok (i + n) := if_pos h

/-- A range within the buffer is read as it stands. -/
theorem checkedRange_of_le (h : i + n ≤ l.length) :
    checkedRange l i n = .ok ((l.drop i).take n) := if_pos h

end Checked

section Agreement

variable {σ α φ ψ : Type}

/-- Two results that are the same, and no failures. Both loops may also go on for ever; then
    neither has a result. -/
def Agree (r : Option (Except φ α)) (r' : Option (Except ψ α)) : Prop :=
  r = none ∧ r' = none ∨ ∃ a, r = some (.ok a) ∧ r' = some (.ok a)

/-- **Loops whose bodies agree agree**, however many turns they are followed for. -/
theorem loop_agree {body : σ → Except φ (Turn σ α)} {body' : σ → Except ψ (Turn σ α)}
    {I : σ → Prop} (h : ∀ s, I s → ∃ t, body s = .ok t ∧ body' s = .ok t ∧
      Turn.Holds I (fun _ => True) t) :
    ∀ (n : Nat) (s : σ), I s → Agree (loop body n s) (loop body' n s) := by
  intro n
  induction n with
  | zero => exact fun _ _ => Or.inl ⟨rfl, rfl⟩
  | succ n ih =>
    intro s hs
    obtain ⟨t, ht, ht', hI⟩ := h s hs
    cases t with
    | done a => exact Or.inr ⟨a, loop_done ht n, loop_done ht' n⟩
    | next s' =>
      rw [loop_next ht, loop_next ht']
      exact ih s' hI

end Agreement

end Foundation
