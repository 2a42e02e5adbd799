/-
  Contiguous storage: the `std::vector` of trivially copyable elements, with what a pointer into it
  depends on.

  A `Vec` is its elements, its capacity and the BLOCK of memory that holds them, counted from the
  first one the vector was given.  Growing past the capacity moves the elements to a new block and
  frees the old one, so an address taken earlier is an address in a block that no longer exists;
  every other operation keeps the block.  Where the C++ standard leaves a choice (the largest size,
  the capacity after growing) the choice is a `VectorImpl`, and what is proved holds of all of them.

  Reads and writes of a range are partial: a range that leaves the elements has no value.
-/
import IOEvent.Foundation.Words
import Mathlib.Tactic.SplitIfs

namespace Foundation

/-! ## Ranges of a list

  A range is given by its first position and its length, as a pointer and a size are.  Reading a
  range and writing one are inverse where they meet (`segment_overwrite_self`) and do not see
  each other where they do not (`segment_overwrite_of_disjoint`). -/

section Range

variable {α : Type}

/-- The `n` elements from position `i`. -/
def segment (l : List α) (i n : Nat) : List α := (l.drop i).take n

/-- The list with the elements from position `i` replaced by `xs`. -/
def overwrite (l : List α) (i : Nat) (xs : List α) : List α :=
  l.take i ++ xs ++ l.drop (i + xs.length)

/-- The list with copies of `fill` behind it, up to `n` elements. -/
def padded (l : List α) (n : Nat) (fill : α) : List α := l ++ List.replicate (n - l.length) fill

/-- A list padded to a length has it. -/
theorem length_padded {l : List α} {n : Nat} (fill : α) (h : l.length ≤ n) :
    (padded l n fill).length = n := by
  rw [padded, List.length_append, List.length_replicate]
  omega

/-- Padding never goes beyond the larger of the two lengths. -/
theorem length_padded_le {l : List α} {n m : Nat} {fill : α} (hl : l.length ≤ m) (hn : n ≤ m) :
    (padded l n fill).length ≤ m := by
  rw [padded, List.length_append, List.length_replicate]
  omega

/-- The entries of a segment are those of the list, shifted. -/
theorem getElem?_segment (l : List α) (i n j : Nat) :
    (segment l i n)[j]? = if j < n then l[i + j]? else none := by
  rw [segment, List.getElem?_take, List.getElem?_drop]

/-- A segment within the list is as long as was asked for. -/
theorem length_segment {l : List α} {i n : Nat} (h : i + n ≤ l.length) :
    (segment l i n).length = n := by
  rw [segment, List.length_take, List.length_drop]
  omega

/-- Writing nothing changes nothing. -/
@[simp] theorem overwrite_nil (l : List α) (i : Nat) : overwrite l i [] = l := by
  rw [overwrite, List.append_nil, List.length_nil, Nat.add_zero, List.take_append_drop]

/-- Writing within the list does not change its length. -/
theorem length_overwrite {l xs : List α} {i : Nat} (h : i + xs.length ≤ l.length) :
    (overwrite l i xs).length = l.length := by
  simp only [overwrite, List.length_append, List.length_take, List.length_drop]
  omega

/-- Behind a write the list holds the new entries in their range and the old ones outside. -/
theorem getElem?_overwrite {l xs : List α} {i : Nat} (h : i + xs.length ≤ l.length) (j : Nat) :
    (overwrite l i xs)[j]? =
      if j < i then l[j]? else if j < i + xs.length then xs[j - i]? else l[j]? := by
  have hi : (l.take i).length = i := by rw [List.length_take]; omega
  have hix : (l.take i ++ xs).length = i + xs.length := by rw [List.length_append, hi]
  rw [overwrite]
  split_ifs with h1 h2
  · rw [List.getElem?_append_left (by omega), List.getElem?_append_left (by omega),
      List.getElem?_take, if_pos h1]
  · rw [List.getElem?_append_left (by omega), List.getElem?_append_right (by omega), hi]
  · rw [List.getElem?_append_right (by omega), hix, List.getElem?_drop]
    congr 1
    omega

/-- An empty range holds nothing. -/
@[simp] theorem segment_zero (l : List α) (i : Nat) : segment l i 0 = [] := List.take_zero

/-- A range is cut at any point. -/
theorem segment_add (l : List α) (i m n : Nat) :
    segment l i (m + n) = segment l i m ++ segment l (i + m) n := by
  rw [segment, segment, segment, List.take_add, List.drop_drop]

/-- The front of a segment is a shorter segment. -/
theorem take_segment (l : List α) (i : Nat) {m n : Nat} (h : m ≤ n) :
    (segment l i n).take m = segment l i m := by
  rw [segment, List.take_take, Nat.min_eq_left h, segment]

/-- Its back is a segment that starts later. -/
theorem drop_segment (l : List α) (i m n : Nat) :
    (segment l i n).drop m = segment l (i + m) (n - m) := by
  rw [segment, List.drop_take, List.drop_drop, segment]

/-- A segment within the front part does not see what is appended. -/
theorem segment_append_left {l : List α} {i n : Nat} (h : i + n ≤ l.length) (r : List α) :
    segment (l ++ r) i n = segment l i n := by
  apply List.ext_getElem?
  intro j
  rw [getElem?_segment, getElem?_segment]
  split_ifs with hj
  · exact List.getElem?_append_left (by omega)
  · rfl

/-- A range read back where it was written. -/
theorem segment_overwrite_self {l xs : List α} {i : Nat} (h : i + xs.length ≤ l.length) :
    segment (overwrite l i xs) i xs.length = xs := by
  apply List.ext_getElem?
  intro j
  rw [getElem?_segment, getElem?_overwrite h]
  split_ifs with h1 h2 h3
  · omega
  · rw [Nat.add_sub_cancel_left]
  · omega
  · exact (List.getElem?_eq_none (by omega)).symm

/-- A write leaves the ranges that end before it or start after it as they were. -/
theorem segment_overwrite_of_disjoint {l xs : List α} {i j n : Nat}
    (h : i + xs.length ≤ l.length) (hd : j + n ≤ i ∨ i + xs.length ≤ j) :
    segment (overwrite l i xs) j n = segment l j n := by
  apply List.ext_getElem?
  intro k
  rw [getElem?_segment, getElem?_segment]
  split_ifs with hk
  · rw [getElem?_overwrite h]
    split_ifs with h1 h2
    · rfl
    · omega
    · rfl
  · rfl

end Range

/-! ## The vector

  What a vector holds is a list; what a pointer into it depends on is the block.  The lemmas
  below say for each operation what becomes of both, under the condition for which it has a
  value. -/

/-- What a C++ implementation chooses about vectors: the largest size it grants, and the capacity
    it takes when it has to grow. -/
class VectorImpl where
  maxSize : Nat
  /-- `max_size()` is at most `PTRDIFF_MAX`. -/
  maxSize_lt : maxSize < 2 ^ 63
  /-- The capacity after growing from a capacity to hold a size. -/
  growth : Nat → Nat → Nat
  le_growth : ∀ capacity n, n ≤ growth capacity n

/-- The implementation that grows to exactly the size asked for, up to `PTRDIFF_MAX`. -/
@[reducible] def VectorImpl.exact : VectorImpl where
  maxSize := 2 ^ 63 - 1
  maxSize_lt := by decide
  growth := fun _ n => n
  le_growth := fun _ n => Nat.le_refl n

/-- A vector: its elements, its capacity, and the block of memory that holds them. The
    elements fit into the capacity, so a resize within it moves nothing. -/
structure Vec (α : Type) where
  elems : List α
  capacity : Nat
  block : Nat
  size_le : elems.length ≤ capacity

namespace Vec

variable {α : Type}

/-- The number of elements, `size()`. -/
def size (v : Vec α) : Nat := v.elems.length

/-- `vector(n)`: `n` copies of the default element. -/
def ofSize [VectorImpl] (fill : α) (n : Nat) : Vec α where
  elems := List.replicate n fill
  capacity := VectorImpl.growth 0 n
  block := 0
  size_le := by rw [List.length_replicate]; exact VectorImpl.le_growth 0 n

/-- Read the range `[i, i + n)`; no value when it leaves the elements. Capacity beyond the
    size does not count: reading there is undefined. -/
def slice (v : Vec α) (i n : Nat) : Option (List α) :=
  if i + n ≤ v.size then some (segment v.elems i n) else none

/-- Write `xs` over the range that starts at `i`; no value when it leaves the elements. -/
def splice (v : Vec α) (i : Nat) (xs : List α) : Option (Vec α) :=
  if h : i + xs.length ≤ v.elems.length then
    some { v with
      elems := overwrite v.elems i xs
      size_le := (length_overwrite h).trans_le v.size_le }
  else none

/-- `resize(n)`: drop elements, or append default ones, moving to a new block when the capacity is
    too small.  No value (an exception) when `n` is more than `max_size()`. -/
def resize [VectorImpl] (v : Vec α) (fill : α) (n : Nat) : Option (Vec α) :=
  if VectorImpl.maxSize < n then none
  else if n ≤ v.size then
    some { v with elems := v.elems.take n, size_le := (List.length_take_le' n _).trans v.size_le }
  else if h : n ≤ v.capacity then
    some { v with elems := padded v.elems n fill, size_le := length_padded_le v.size_le h }
  else
    some { elems := padded v.elems n fill
           capacity := VectorImpl.growth v.capacity n
           block := v.block + 1
           size_le := length_padded_le
             (by have := v.size_le; have := VectorImpl.le_growth v.capacity n; omega)
             (VectorImpl.le_growth v.capacity n) }

/-- A vector made with `n` elements has `n`. -/
@[simp] theorem size_ofSize [VectorImpl] (fill : α) (n : Nat) : (ofSize fill n).size = n :=
  List.length_replicate

/-- Reading within the vector gives the range; outside there is no value. -/
theorem slice_of_le {v : Vec α} {i n : Nat} (h : i + n ≤ v.size) :
    v.slice i n = some (segment v.elems i n) := if_pos h

/-- A write inside the elements succeeds and keeps the size, the capacity and the block. -/
theorem splice_of_le {v : Vec α} {i : Nat} {xs : List α} (h : i + xs.length ≤ v.size) :
    ∃ v', v.splice i xs = some v' ∧ v'.elems = overwrite v.elems i xs ∧ v'.size = v.size ∧
      v'.capacity = v.capacity ∧ v'.block = v.block :=
  ⟨_, dif_pos h, rfl, length_overwrite h, rfl, rfl⟩

/-- Growing keeps the elements in front of default ones, and keeps the block when the capacity was
    enough. -/
theorem resize_of_lt [VectorImpl] {v : Vec α} {n : Nat} (fill : α) (hn : v.size < n)
    (hmax : n ≤ VectorImpl.maxSize) :
    ∃ v', v.resize fill n = some v' ∧ v'.elems = padded v.elems n fill ∧ v'.size = n ∧
      (n ≤ v.capacity → v'.block = v.block) := by
  have hlen : (padded v.elems n fill).length = n := length_padded fill (Nat.le_of_lt hn)
  rw [resize, if_neg (by omega), if_neg (by omega)]
  by_cases hcap : n ≤ v.capacity
  · rw [dif_pos hcap]
    exact ⟨_, rfl, rfl, hlen, fun _ => rfl⟩
  · rw [dif_neg hcap]
    exact ⟨_, rfl, rfl, hlen, fun h => absurd h hcap⟩

/-- Growing up to the maximum succeeds, and the new size is the one asked for. -/
theorem resize_of_le [VectorImpl] {v : Vec α} {n : Nat} (fill : α) (hn : n ≤ v.size)
    (hmax : n ≤ VectorImpl.maxSize) :
    ∃ v', v.resize fill n = some v' ∧ v'.size = n := by
  rw [resize, if_neg (by omega), if_pos hn]
  exact ⟨_, rfl, List.length_take_of_le hn⟩

/-- Growing beyond the maximum throws. -/
theorem resize_of_maxSize_lt [VectorImpl] {v : Vec α} {n : Nat} (fill : α)
    (hmax : VectorImpl.maxSize < n) : v.resize fill n = none := if_pos hmax

end Vec

end Foundation
