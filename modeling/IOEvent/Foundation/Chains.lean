/-
  Intrusive doubly linked lists.

  A node holds the addresses of its two neighbours, `none` at the ends, and `m` says which
  addresses hold a node and with which links.  `Linked m h l` is the list whose head pointer is
  `h` and whose nodes are `l`, first to last.  It is a `Segment`, which two segments put together
  make: `p` is the neighbour in front of it, `q` its last node (`p` when it is empty), and `r`
  what comes after.

  `Forward` is what is left of a list when only its next pointers are good, as while its nodes
  are deleted from the head on.  The operations are `pushFront` and `unlink`.  Each writes the
  links of a node and of its neighbours only, so lists that share no node with the list it works
  on stay as they are.

  The parts of the development: first segments, which compose (`segment_append`) and have no
  node twice (`Segment.nodup`); then lists, where what a node says of its neighbours is true of
  them (`Linked.next_of_prev`, `Linked.prev_of_next`); and last the two operations, each with
  one lemma for the list it works on and one for the others.
-/
import Mathlib.Data.List.Nodup

namespace Foundation

/-- The links of a node. A node is known by its address, so the links are addresses too, and
    there is no node at the ends. -/
structure Links (α : Type) where
  prev : Option α
  next : Option α

section Chains

variable {α : Type} {m m' : α → Option (Links α)} {p h q r : Option α} {a b : α} {l : List α}

/-- The nodes `l`, linked both ways: `p` stands before the first of them and `r` behind the last,
    `h` is where the chain is entered and `q` is its last node (`p` when there is none). Segments
    compose at their ends (`segment_append`), so a chain can be opened at any node. -/
def Segment (m : α → Option (Links α)) :
    Option α → Option α → List α → Option α → Option α → Prop
  | p, h, [], q, r => q = p ∧ h = r
  | p, h, a :: l, q, r => h = some a ∧ ∃ n, m a = some ⟨p, n⟩ ∧ Segment m (some a) n l q r

/-- An empty segment is left where it is entered, on both sides. -/
@[simp] theorem segment_nil : Segment m p h [] q r ↔ q = p ∧ h = r := Iff.rfl

/-- The first node of a segment is where it is entered, and the rest is a segment behind it. -/
@[simp] theorem segment_cons :
    Segment m p h (a :: l) q r ↔
      h = some a ∧ ∃ n, m a = some ⟨p, n⟩ ∧ Segment m (some a) n l q r := Iff.rfl

/-- The list with the head pointer `h`. Nothing says where it ends except that the last node
    has no next one. -/
def Linked (m : α → Option (Links α)) (h : Option α) (l : List α) : Prop :=
  ∃ q, Segment m none h l q none

/-- A segment is cut at any place into two that meet there; the two ends are what the pointers on
    both sides of the cut hold. -/
theorem segment_append {l₁ l₂ : List α} :
    Segment m p h (l₁ ++ l₂) q r ↔ ∃ q' h', Segment m p h l₁ q' h' ∧ Segment m q' h' l₂ q r := by
  induction l₁ generalizing p h with
  | nil => simp
  | cons a l₁ ih =>
    constructor
    · rintro ⟨rfl, n, hn, hrest⟩
      obtain ⟨q', h', h₁, h₂⟩ := ih.mp hrest
      exact ⟨q', h', ⟨rfl, n, hn, h₁⟩, h₂⟩
    · rintro ⟨q', h', ⟨rfl, n, hn, h₁⟩, h₂⟩
      exact ⟨rfl, n, hn, ih.mpr ⟨q', h', h₁, h₂⟩⟩

/-- A segment reads the links of its own nodes and no others, so a change elsewhere keeps it. -/
theorem Segment.congr (hs : Segment m p h l q r) (hm : ∀ b ∈ l, m' b = m b) :
    Segment m' p h l q r := by
  induction l generalizing p h with
  | nil => exact hs
  | cons a l ih =>
    obtain ⟨rfl, n, hn, hrest⟩ := hs
    refine ⟨rfl, n, ?_, ih hrest fun b hb => hm b (List.mem_cons_of_mem a hb)⟩
    rw [hm a List.mem_cons_self, hn]

/-- Where a segment is entered: at its first node, or behind it when it has none. -/
theorem Segment.head (hs : Segment m p h l q r) : h = (l.head?).or r := by
  cases l with
  | nil => simpa using hs.2
  | cons a l => simpa using hs.1

/-- The last node of a segment is one of its nodes, unless the segment is empty. -/
theorem Segment.last (hs : Segment m p h l q r) : l = [] ∧ q = p ∨ ∃ b ∈ l, q = some b := by
  induction l generalizing p h with
  | nil => exact Or.inl ⟨rfl, hs.1⟩
  | cons a l ih =>
    obtain ⟨-, n, -, hrest⟩ := hs
    rcases ih hrest with ⟨rfl, rfl⟩ | ⟨b, hb, rfl⟩
    · exact Or.inr ⟨a, List.mem_cons_self, rfl⟩
    · exact Or.inr ⟨b, List.mem_cons_of_mem a hb, rfl⟩

/-- From the pointer `h` the next pointers lead through `l` to the end. What the previous
    pointers say is left open: while a list is torn down they point to nodes that are gone. -/
def Forward (m : α → Option (Links α)) : Option α → List α → Prop
  | h, [] => h = none
  | h, a :: l => h = some a ∧ ∃ x, m a = some x ∧ Forward m x.next l

/-- A segment that ends in no node can be walked by its `next` links alone. -/
theorem Segment.forward (hs : Segment m p h l q none) : Forward m h l := by
  induction l generalizing p h with
  | nil => exact hs.2
  | cons a l ih =>
    obtain ⟨rfl, n, hn, hrest⟩ := hs
    exact ⟨rfl, _, hn, ih hrest⟩

/-- A walk along `next` reads the links of the nodes it passes and no others. -/
theorem Forward.congr (hs : Forward m h l) (hm : ∀ b ∈ l, m' b = m b) : Forward m' h l := by
  induction l generalizing h with
  | nil => exact hs
  | cons a l ih =>
    obtain ⟨rfl, x, hx, hrest⟩ := hs
    refine ⟨rfl, x, ?_, ih hrest fun b hb => hm b (List.mem_cons_of_mem a hb)⟩
    rw [hm a List.mem_cons_self, hx]

/-- The next pointers lead through one list. -/
theorem Forward.determined {l' : List α} (hs : Forward m h l) (hs' : Forward m h l') : l = l' := by
  induction l generalizing h l' with
  | nil =>
    obtain rfl : h = none := hs
    cases l' with
    | nil => rfl
    | cons a' l' => cases hs'.1
  | cons a l ih =>
    obtain ⟨rfl, x, hx, hrest⟩ := hs
    cases l' with
    | nil => cases (show some a = none from hs')
    | cons a' l' =>
      obtain ⟨ha, x', hx', hrest'⟩ := hs'
      cases ha
      obtain rfl := Option.some.inj (hx.symm.trans hx')
      rw [ih hrest hrest']

/-- The nodes from a pointer to the end are determined by the links. -/
theorem Segment.determined {p' q' : Option α} {l' : List α} (hs : Segment m p h l q none)
    (hs' : Segment m p' h l' q' none) : l = l' := hs.forward.determined hs'.forward

/-- A list that ends goes through no node twice. -/
theorem Segment.nodup (hs : Segment m p h l q none) : l.Nodup := by
  induction l generalizing p h with
  | nil => exact List.nodup_nil
  | cons a l ih =>
    have hwhole := hs
    obtain ⟨rfl, n, hn, hrest⟩ := hs
    refine List.nodup_cons.mpr ⟨fun ha => ?_, ih hrest⟩
    -- the list from `a` would be one of its own proper suffixes
    obtain ⟨l₁, l₂, rfl⟩ := List.append_of_mem ha
    obtain ⟨q', h', -, hsuffix⟩ := segment_append.mp hrest
    obtain rfl := hsuffix.1
    have hlen := congrArg List.length (hwhole.determined hsuffix)
    simp only [List.length_cons, List.length_append] at hlen
    omega

/-- The node after the last one changes. -/
theorem Segment.redirect [DecidableEq α] (hs : Segment m p h l q r) (hl : l.Nodup)
    {r' : Option α}
    (hm : ∀ b ∈ l, m' b = (m b).map fun y => ⟨y.prev, if q = some b then r' else y.next⟩) :
    Segment m' p (if l = [] then r' else h) l q r' := by
  induction l generalizing p h with
  | nil => simpa using hs.1
  | cons a l ih =>
    obtain ⟨rfl, n, hn, hrest⟩ := hs
    obtain ⟨ha, hl⟩ := List.nodup_cons.mp hl
    have ih := ih hrest hl fun b hb => hm b (List.mem_cons_of_mem a hb)
    refine ⟨if_neg (List.cons_ne_nil a l), _, ?_, ih⟩
    rw [hm a List.mem_cons_self, hn, Option.map_some]
    rcases hrest.last with ⟨rfl, rfl⟩ | ⟨b, hb, rfl⟩
    · rw [if_pos rfl, if_pos rfl]
    · have hne : ¬ some b = some a := by
        rintro ⟨⟩
        exact ha hb
      rw [if_neg hne, if_neg (List.ne_nil_of_mem hb)]

/-- The node in front of the first one changes. -/
theorem Segment.reroot [DecidableEq α] (hs : Segment m p h l q r) (hl : l.Nodup)
    {p' : Option α}
    (hm : ∀ b ∈ l, m' b = (m b).map fun y => ⟨if h = some b then p' else y.prev, y.next⟩) :
    ∃ q', Segment m' p' h l q' r := by
  cases l with
  | nil => exact ⟨p', rfl, hs.2⟩
  | cons a l =>
    obtain ⟨rfl, n, hn, hrest⟩ := hs
    obtain ⟨ha, hl⟩ := List.nodup_cons.mp hl
    refine ⟨q, rfl, n, ?_, hrest.congr fun b hb => ?_⟩
    · rw [hm a List.mem_cons_self, hn, Option.map_some, if_pos rfl]
    · have hne : ¬ some a = some b := by
        rintro ⟨⟩
        exact ha hb
      simp [hm b (List.mem_cons_of_mem a hb), hne]

/-! ## Lists

  A list is a segment with nothing in front of it and nothing behind.  So the facts about one
  are those about segments, read at `none`; what is added is how the links of a node and its
  place in the list tell of each other. -/

/-- The empty list: no head, no nodes. -/
theorem Linked.nil : Linked m none [] := ⟨none, rfl, rfl⟩

/-- A list keeps its shape when only links outside it change. Every frame fact about the heads and
    the other slots comes from this. -/
theorem Linked.congr (hs : Linked m h l) (hm : ∀ b ∈ l, m' b = m b) : Linked m' h l :=
  hs.imp fun _ hs => hs.congr hm

/-- No node stands twice in a list, since each node has one `next`. -/
theorem Linked.nodup (hs : Linked m h l) : l.Nodup := hs.elim fun _ hs => hs.nodup

/-- The head pointer is the first node. -/
theorem Linked.head (hs : Linked m h l) : h = l.head? := by
  obtain ⟨q, hs⟩ := hs
  simpa using hs.head

/-- Forgetting the `prev` links, a list is what the loop over `next` walks. -/
theorem Linked.forward (hs : Linked m h l) : Forward m h l := hs.elim fun _ hs => hs.forward

/-- The next pointer of a node leads to the node behind it. -/
theorem Linked.next {l₁ l₂ : List α} {x : Links α} (hs : Linked m h (l₁ ++ a :: l₂))
    (hx : m a = some x) : x.next = l₂.head? := by
  obtain ⟨q, hs⟩ := hs
  obtain ⟨q', h', -, -, n, hn, hrest⟩ := segment_append.mp hs
  rw [hx] at hn
  cases hn
  simpa using hrest.head

/-- The head, and no other node, has no node in front of it. -/
theorem Linked.prev_eq_none {x : Links α} (hs : Linked m h l) (ha : a ∈ l) (hx : m a = some x) :
    x.prev = none ↔ h = some a := by
  obtain ⟨q, hs⟩ := hs
  obtain ⟨l₁, l₂, rfl⟩ := List.append_of_mem ha
  have hnodup := hs.nodup
  obtain ⟨q', h', hfront, rfl, n, hn, -⟩ := segment_append.mp hs
  rw [hx] at hn
  cases hn
  rcases hfront.last with ⟨rfl, rfl⟩ | ⟨b, hb, rfl⟩
  · simpa using hfront.2
  · have hhead := hs.head
    cases l₁ with
    | nil => exact absurd hb List.not_mem_nil
    | cons c l₁ =>
      have hne : c ≠ a := by
        rintro rfl
        exact (List.nodup_cons.mp hnodup).1 (by simp)
      simp [hhead, hne]

/-- The neighbours of a node are other nodes of its list. -/
theorem Linked.neighbour {x : Links α} (hs : Linked m h l) (ha : a ∈ l) (hx : m a = some x)
    (hb : x.prev = some b ∨ x.next = some b) : b ∈ l ∧ b ≠ a := by
  obtain ⟨q, hs⟩ := hs
  obtain ⟨l₁, l₂, rfl⟩ := List.append_of_mem ha
  have hnodup := hs.nodup
  obtain ⟨q', h', hfront, rfl, n, hn, hrest⟩ := segment_append.mp hs
  rw [hx] at hn
  cases hn
  have hne : ∀ c ∈ l₁ ++ l₂, c ≠ a := by
    rintro c hc rfl
    exact (List.nodup_cons.mp (List.nodup_middle.mp hnodup)).1 hc
  have hmem : b ∈ l₁ ++ l₂ := by
    rcases hb with hb | hb
    · rcases hfront.last with ⟨-, rfl⟩ | ⟨c, hc, rfl⟩
      · cases hb
      · cases hb
        exact List.mem_append_left _ hc
    · have hhead := hrest.head
      rw [show n = some b from hb, Option.or_none] at hhead
      exact List.mem_append_right _ (List.mem_of_mem_head? hhead.symm)
  refine ⟨?_, hne b hmem⟩
  simp only [List.mem_append, List.mem_cons] at hmem ⊢
  tauto

/-- The node behind a node points back to it. -/
theorem Linked.prev_of_next {x : Links α} (hs : Linked m h l) (ha : a ∈ l) (hx : m a = some x)
    (hb : x.next = some b) : ∃ y, m b = some y ∧ y.prev = some a := by
  obtain ⟨q, hs⟩ := hs
  obtain ⟨l₁, l₂, rfl⟩ := List.append_of_mem ha
  obtain ⟨q', h', -, rfl, n, hn, hrest⟩ := segment_append.mp hs
  rw [hx] at hn
  cases hn
  cases l₂ with
  | nil => cases hb.symm.trans hrest.2
  | cons c l₂ =>
    obtain ⟨hc, n', hn', -⟩ := hrest
    cases hb.symm.trans hc
    exact ⟨_, hn', rfl⟩

/-- The node in front of a node points to it. -/
theorem Linked.next_of_prev {y : Links α} (hs : Linked m h l) (hb : b ∈ l) (hy : m b = some y)
    (ha : y.prev = some a) : ∃ x, m a = some x ∧ x.next = some b := by
  obtain ⟨q, hs⟩ := hs
  obtain ⟨l₁, l₂, rfl⟩ := List.append_of_mem hb
  obtain ⟨q', h', hfront, rfl, n, hn, -⟩ := segment_append.mp hs
  rw [hy] at hn
  cases hn
  rcases List.eq_nil_or_concat l₁ with rfl | ⟨l₀, c, rfl⟩
  · cases ha.symm.trans hfront.1
  · rw [List.concat_eq_append] at hfront
    obtain ⟨q₀, h₀, -, -, n', hn', hlast, hnext⟩ := segment_append.mp hfront
    cases ha.symm.trans hlast
    exact ⟨_, hn', hnext⟩

/-! ## The operations

  Both operations are functions on the memory.  That they leave a list linked is proved by
  cutting the list at the node in question into two segments (`segment_append`), each of which
  is untouched inside. -/

variable [DecidableEq α]

/-- `a` becomes the head of the list with the head pointer `h`. The old head, if there is one,
    gets it as the node in front; all others keep their links. -/
def pushFront (m : α → Option (Links α)) (h : Option α) (a b : α) : Option (Links α) :=
  if b = a then some ⟨none, h⟩
  else (m b).map fun y => ⟨if h = some b then some a else y.prev, y.next⟩

/-- **Putting in front.** A node that is not in the list becomes its first one; the old head gets
    a `prev`. -/
theorem Linked.pushFront (hs : Linked m h l) (ha : a ∉ l) :
    Linked (pushFront m h a) (some a) (a :: l) := by
  have hnodup := hs.nodup
  obtain ⟨q, hs⟩ := hs
  have hm : ∀ b ∈ l, Foundation.pushFront m h a b =
      (m b).map fun y => ⟨if h = some b then some a else y.prev, y.next⟩ := by
    intro b hb
    exact if_neg (ne_of_mem_of_not_mem hb ha)
  obtain ⟨q', hs'⟩ := hs.reroot hnodup hm
  exact ⟨q', rfl, h, if_pos rfl, hs'⟩

/-- Putting a node in front touches that node and the old head only. -/
theorem pushFront_of_not_mem (hs : Linked m h l) (hb : b ∉ l) (hne : b ≠ a) :
    pushFront m h a b = m b := by
  have hhead : ¬ h = some b := by
    intro hh
    rw [hs.head] at hh
    exact hb (List.mem_of_mem_head? hh)
  rw [pushFront, if_neg hne]
  simp [hhead]

/-- The node `a`, whose links are `x`, is taken out: its neighbours become neighbours of each
    other. When `a` was the head, the head pointer is the caller's to move. -/
def unlink (m : α → Option (Links α)) (a : α) (x : Links α) (b : α) : Option (Links α) :=
  if b = a then none
  else (m b).map fun y =>
    ⟨if x.next = some b then x.prev else y.prev, if x.prev = some b then x.next else y.next⟩

/-- **Taking out.** Any node of the list can be unlinked; the head moves on when it was that
    node. -/
theorem Linked.unlink {x : Links α} (hs : Linked m h l) (ha : a ∈ l) (hx : m a = some x) :
    Linked (unlink m a x) (if h = some a then x.next else h) (l.erase a) := by
  have hnodup := hs.nodup
  obtain ⟨q, hs⟩ := hs
  obtain ⟨l₁, l₂, rfl⟩ := List.append_of_mem ha
  have hhead := hs.head
  obtain ⟨q', h', hfront, rfl, n, hn, hback⟩ := segment_append.mp hs
  rw [hx] at hn
  cases hn
  obtain ⟨hne, hnodup'⟩ := List.nodup_cons.mp (List.nodup_middle.mp hnodup)
  obtain ⟨hnd₁, hnd₂, hdisj⟩ := List.nodup_append'.mp hnodup'
  have ha₁ : a ∉ l₁ := fun h => hne (List.mem_append_left _ h)
  have ha₂ : a ∉ l₂ := fun h => hne (List.mem_append_right _ h)
  -- in front of `a` only the link of the last node to the next one changes
  have hm₁ : ∀ b ∈ l₁, Foundation.unlink m a ⟨q', n⟩ b =
      (m b).map fun y => ⟨y.prev, if q' = some b then n else y.next⟩ := by
    intro b hb
    have hnb : ¬ n = some b := by
      intro hnb
      have hh := hback.head
      rw [hnb, Option.or_none] at hh
      exact hdisj hb (List.mem_of_mem_head? hh.symm)
    rw [Foundation.unlink, if_neg (ne_of_mem_of_not_mem hb ha₁)]
    simp only [if_neg hnb]
  -- and behind it only the link of the first node to the one in front
  have hm₂ : ∀ b ∈ l₂, Foundation.unlink m a ⟨q', n⟩ b =
      (m b).map fun y => ⟨if n = some b then q' else y.prev, y.next⟩ := by
    intro b hb
    have hqb : ¬ q' = some b := by
      rintro rfl
      rcases hfront.last with ⟨-, hq⟩ | ⟨c, hc, hq⟩
      · cases hq
      · cases hq
        exact hdisj hc hb
    rw [Foundation.unlink, if_neg (ne_of_mem_of_not_mem hb ha₂)]
    simp only [if_neg hqb]
  have hs₁ := hfront.redirect hnd₁ hm₁
  obtain ⟨q₂, hs₂⟩ := hback.reroot hnd₂ hm₂
  have herase : (l₁ ++ a :: l₂).erase a = l₁ ++ l₂ := by
    rw [List.erase_append_right _ ha₁, List.erase_cons_head]
  have hh : (if h = some a then n else h) = if l₁ = [] then n else h := by
    cases l₁ with
    | nil => rw [hhead]; simp
    | cons c l₁ =>
      have hca : c ≠ a := by
        rintro rfl
        exact ha₁ List.mem_cons_self
      rw [hhead]
      simp [hca]
  rw [herase]
  refine ⟨q₂, ?_⟩
  show Segment _ _ (if h = some a then n else h) _ _ _
  rw [hh]
  exact segment_append.mpr ⟨q', n, hs₁, hs₂⟩

/-- Unlinking touches the neighbours of the node only, which are nodes of the same list. -/
theorem unlink_of_not_mem {x : Links α} (hs : Linked m h l) (ha : a ∈ l) (hx : m a = some x)
    (hb : b ∉ l) : unlink m a x b = m b := by
  have hnext : ¬ x.next = some b := fun hn => hb (hs.neighbour ha hx (Or.inr hn)).1
  have hprev : ¬ x.prev = some b := fun hp => hb (hs.neighbour ha hx (Or.inl hp)).1
  rw [unlink, if_neg (ne_of_mem_of_not_mem ha hb).symm]
  simp [hnext, hprev]

end Chains

end Foundation
