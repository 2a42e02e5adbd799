/-
  Ordered sets: a set of values of a linear order kept as its strictly increasing list.

  The operations are those of an associative container that keeps its keys in order: `emplace` and
  `erase` report whether they changed the set, `first` is its least element, and `before` /
  `fromBound` cut it at the least element that is not below a bound.  The list is an implementation
  detail: every operation is described by the membership it leaves (`mem_emplace`, `mem_erase`,
  `mem_before`, `mem_fromBound`), and two sets whose elements correspond one to one have the same
  size (`size_eq_of_bij`).
-/
import Mathlib.Data.List.Basic
import Mathlib.Data.List.Nodup
import Mathlib.Data.List.Perm.Basic
import Mathlib.Order.Lattice

namespace Foundation

/-- A finite set of a linear order, as the list of its elements in increasing order. -/
structure OrderedSet (α : Type) [LinearOrder α] where
  elems : List α
  sorted : elems.Pairwise (· < ·)

namespace OrderedSet

variable {α : Type} [LinearOrder α]

/-- Membership is membership among the elements; their order is an invariant of the structure, so
    no set is held twice. -/
instance : Membership α (OrderedSet α) := ⟨fun s a => a ∈ s.elems⟩

/-- It can be tested, which the guards of the model need. -/
instance (s : OrderedSet α) (a : α) : Decidable (a ∈ s) := inferInstanceAs (Decidable (a ∈ s.elems))

/-- The set without elements. -/
def empty : OrderedSet α := ⟨[], .nil⟩

/-- The empty set has no elements. -/
@[simp] theorem not_mem_empty (a : α) : a ∉ (empty : OrderedSet α) := List.not_mem_nil

/-- The number of elements. -/
def size (s : OrderedSet α) : Nat := s.elems.length

/-- Strictly ordered elements are all different. -/
theorem nodup (s : OrderedSet α) : s.elems.Nodup := s.sorted.imp fun h => ne_of_lt h

/-! ## Insertion

  `place` walks to the first greater element, so the list stays increasing and no element is
  in it twice. -/

/-- Put `a` where it belongs in an increasing list, unless it is there. -/
def place (a : α) : List α → List α
  | [] => [a]
  | b :: l => if a < b then a :: b :: l else if a = b then b :: l else b :: place a l

/-- Placing adds one element and drops none. -/
theorem mem_place {a b : α} {l : List α} : b ∈ place a l ↔ b = a ∨ b ∈ l := by
  induction l with
  | nil => rw [place, List.mem_singleton]; simp
  | cons c l ih =>
    rw [place]
    split
    · rw [List.mem_cons]
    · split
      case isTrue _ heq => subst heq; simp
      case isFalse => rw [List.mem_cons, ih, List.mem_cons, or_left_comm]

/-- Placing keeps the order, so `emplace` builds a set again. -/
theorem sorted_place {a : α} {l : List α} (h : l.Pairwise (· < ·)) :
    (place a l).Pairwise (· < ·) := by
  induction l with
  | nil => exact List.pairwise_singleton _ a
  | cons c l ih =>
    obtain ⟨hc, hl⟩ := List.pairwise_cons.mp h
    rw [place]
    split
    case isTrue hac =>
      -- `a` is below the head, so it is below everything after it
      refine List.pairwise_cons.mpr ⟨?_, h⟩
      intro b hb
      rcases List.mem_cons.mp hb with rfl | hb
      · exact hac
      · exact lt_trans hac (hc b hb)
    case isFalse hac =>
      split
      case isTrue => exact h
      case isFalse hne =>
        refine List.pairwise_cons.mpr ⟨?_, ih hl⟩
        intro b hb
        rcases mem_place.mp hb with rfl | hb
        · exact lt_of_le_of_ne (not_lt.mp hac) (Ne.symm hne)
        · exact hc b hb

/-- Insert `a`; the second component tells whether it was not there before. -/
def emplace (s : OrderedSet α) (a : α) : OrderedSet α × Bool :=
  (⟨place a s.elems, sorted_place s.sorted⟩, decide (a ∉ s))

/-- `emplace` adds its element, whether or not it was there. -/
@[simp] theorem mem_emplace {s : OrderedSet α} {a b : α} : b ∈ (s.emplace a).1 ↔ b = a ∨ b ∈ s :=
  mem_place

/-- The flag that `std::set::emplace` returns says whether it was new. -/
@[simp] theorem emplace_snd {s : OrderedSet α} {a : α} : (s.emplace a).2 = true ↔ a ∉ s :=
  decide_eq_true_iff

/-! ## Removal

  An increasing list has an element at most once, so erasing it once removes it. -/

/-- Remove `a`; the second component is the number of elements removed. -/
def erase (s : OrderedSet α) (a : α) : OrderedSet α × Nat :=
  (⟨s.elems.erase a, s.sorted.sublist List.erase_sublist⟩, s.elems.count a)

/-- `erase` takes out its element and no other. -/
@[simp] theorem mem_erase {s : OrderedSet α} {a b : α} : b ∈ (s.erase a).1 ↔ b ≠ a ∧ b ∈ s :=
  s.nodup.mem_erase_iff

/-- The number that `std::set::erase` returns is `1` when there was something to erase. -/
@[simp] theorem erase_snd {s : OrderedSet α} {a : α} : (s.erase a).2 = 1 ↔ a ∈ s := by
  constructor
  · intro h
    exact List.count_pos_iff.mp (Nat.lt_of_lt_of_eq Nat.one_pos h.symm)
  · intro h
    exact List.count_eq_one_of_mem s.nodup h

/-! ## The least element

  The head of the list is below all the others. -/

/-- The least element, if there is one. -/
def first (s : OrderedSet α) : Option α := s.elems.head?

/-- There is no first element exactly in the empty set. -/
theorem first_eq_none {s : OrderedSet α} : s.first = none ↔ ∀ a, a ∉ s := by
  rw [first, List.head?_eq_none_iff, List.eq_nil_iff_forall_not_mem]
  exact Iff.rfl

/-- `begin()` is the least element, which is what a timer queue reads its next expiry from. -/
theorem first_eq_some {s : OrderedSet α} {a : α} :
    s.first = some a ↔ a ∈ s ∧ ∀ b ∈ s, a ≤ b := by
  obtain ⟨l, hl⟩ := s
  cases l with
  | nil =>
    constructor
    · intro h
      cases h
    · intro h
      exact absurd h.1 List.not_mem_nil
  | cons c l =>
    have hc : ∀ b ∈ c :: l, c ≤ b := by
      intro b hb
      rcases List.mem_cons.mp hb with rfl | hb
      · exact le_refl b
      · exact le_of_lt ((List.pairwise_cons.mp hl).1 b hb)
    constructor
    · intro h
      obtain rfl : c = a := Option.some.inj h
      exact ⟨List.mem_cons_self, hc⟩
    · rintro ⟨ha, hle⟩
      exact congrArg some (le_antisymm (hc a ha) (hle c List.mem_cons_self))

/-! ## Cutting at a bound

  The two parts of a cut are the set, in order: what is below the bound and what is not.  The
  bound itself need not be in the set, and goes to the second part when it is. -/

/-- The elements below `a`, in order. -/
def before (s : OrderedSet α) (a : α) : List α := s.elems.takeWhile (· < a)

/-- The elements from the first that is not below `a` on. -/
def fromBound (s : OrderedSet α) (a : α) : OrderedSet α :=
  ⟨s.elems.dropWhile (· < a), s.sorted.sublist (List.dropWhile_sublist _)⟩

/-- In an increasing list the elements below `a` come first. -/
theorem mem_cut {a b : α} {l : List α} (h : l.Pairwise (· < ·)) :
    (b ∈ l.takeWhile (· < a) ↔ b ∈ l ∧ b < a) ∧ (b ∈ l.dropWhile (· < a) ↔ b ∈ l ∧ a ≤ b) := by
  induction l with
  | nil => simp
  | cons c l ih =>
    obtain ⟨hc, hl⟩ := List.pairwise_cons.mp h
    obtain ⟨ih1, ih2⟩ := ih hl
    rw [List.takeWhile_cons, List.dropWhile_cons]
    by_cases hca : c < a
    · rw [if_pos (decide_eq_true hca), if_pos (decide_eq_true hca)]
      constructor
      · rw [List.mem_cons, ih1, List.mem_cons]
        constructor
        · rintro (rfl | hb)
          · exact ⟨Or.inl rfl, hca⟩
          · exact ⟨Or.inr hb.1, hb.2⟩
        · rintro ⟨rfl | hb, hba⟩
          · exact Or.inl rfl
          · exact Or.inr ⟨hb, hba⟩
      · rw [ih2, List.mem_cons]
        constructor
        · exact fun hb => ⟨Or.inr hb.1, hb.2⟩
        · rintro ⟨rfl | hb, hab⟩
          · exact absurd hca (not_lt.mpr hab)
          · exact ⟨hb, hab⟩
    · rw [if_neg (by simpa using hca), if_neg (by simpa using hca)]
      -- the head is not below `a`, hence nothing is
      have hall : ∀ b ∈ c :: l, a ≤ b := by
        intro b hb
        rcases List.mem_cons.mp hb with rfl | hb
        · exact not_lt.mp hca
        · exact le_trans (not_lt.mp hca) (le_of_lt (hc b hb))
      constructor
      · constructor
        · exact fun hb => absurd hb List.not_mem_nil
        · exact fun hb => absurd hb.2 (not_lt.mpr (hall b hb.1))
      · exact ⟨fun hb => ⟨hb, hall b hb⟩, And.left⟩

/-- What stands before a bound is what is smaller. -/
@[simp] theorem mem_before {s : OrderedSet α} {a b : α} : b ∈ s.before a ↔ b ∈ s ∧ b < a :=
  (mem_cut s.sorted).1

/-- What stands from the bound on is the rest, the bound included. -/
@[simp] theorem mem_fromBound {s : OrderedSet α} {a b : α} :
    b ∈ s.fromBound a ↔ b ∈ s ∧ a ≤ b :=
  (mem_cut s.sorted).2

/-- The part before a bound is in the order of the set. -/
theorem before_sorted (s : OrderedSet α) (a : α) : (s.before a).Pairwise (· < ·) :=
  s.sorted.sublist (List.takeWhile_sublist _)

/-- No element is in it twice. -/
theorem before_nodup (s : OrderedSet α) (a : α) : (s.before a).Nodup :=
  s.nodup.sublist (List.takeWhile_sublist _)

/-! ## Size

  Two sets that index the same objects by different keys have the same size, without a word
  about how they were built. -/

/-- Two sets whose elements correspond one to one have the same size. -/
theorem size_eq_of_bij {β : Type} [LinearOrder β] {s : OrderedSet α} {t : OrderedSet β} (f : α → β)
    (hinj : ∀ a ∈ s, ∀ b ∈ s, f a = f b → a = b) (himage : ∀ b, b ∈ t ↔ ∃ a ∈ s, f a = b) :
    s.size = t.size := by
  have hnodup : (s.elems.map f).Nodup := List.Nodup.map_on hinj s.nodup
  have hperm : (s.elems.map f).Perm t.elems := by
    refine (List.perm_ext_iff_of_nodup hnodup t.nodup).mpr fun b => ?_
    rw [List.mem_map]
    exact (himage b).symm
  have hlen := hperm.length_eq
  rwa [List.length_map] at hlen

end OrderedSet

end Foundation
