/-
  The slots of the wheel as lists.

  `Represents w lists` says that each `slots_[i]` is the head of a doubly linked list whose nodes
  are `lists i`, that the events in it are those with the slot number `i`, and that every event in
  memory is in one.  The pointer operations are then operations on lists: `addTimerUnlock` puts a
  new event in front (`added`), and `cencelUnlock` and `tickUnlock` take one out (`removed`), each
  with the test for the head that it makes itself.

  Each function is done in two steps.  First what it makes of the memory and of `slots_` is
  written down as a function on the wheel, and the lists that the pointers then say are found
  (`Represents.removed`, `Represents.added`, `Represents.rotated`).  Then the code is shown to
  equal that function when there are lists at all, so that it follows no null pointer and
  touches no deleted event.  What is needed of doubly linked lists comes from `Linked`.
-/
import IOEvent.Foundation.Chains
import IOEvent.TimerWheel

open Foundation

namespace IOEvent

/-- The slot number that `timerSlot_` holds as an `int`. -/
def TimerEvent.slot (e : TimerEvent) : Nat := e.timerSlot_.toUInt32.toNat

namespace TimerWheel

/-- Two's complement: the upper half of the words are the negative numbers. -/
theorem toInt_eq (x : Int32) : x.toInt =
    if x.toUInt32.toNat < 2 ^ 31 then (x.toUInt32.toNat : Int) else x.toUInt32.toNat - 2 ^ 32 := by
  have h : x.toInt = x.toBitVec.toInt := rfl
  rw [h, BitVec.toInt_eq_toNat_cond, Int32.toNat_toBitVec]
  split <;> split <;> omega

/-- An `int` that is not negative is its own index. -/
theorem index_of_lt {x : Int32} (h : x.toUInt32.toNat < 2 ^ 31) : index x = x.toUInt32.toNat := by
  rw [index, toUnsigned, toInt_eq, if_pos h]
  omega

/-- An `int` that is not negative is the number it holds. -/
theorem toNat_lt_of_toInt {x : Int32} (h0 : 0 ≤ x.toInt) {n : Nat} (hlt : x.toInt < n) :
    x.toUInt32.toNat < 2 ^ 31 ∧ x.toUInt32.toNat < n := by
  have hbits := x.toUInt32.toNat_lt
  rw [toInt_eq] at h0 hlt
  split at h0 <;> omega

/-- The index of a negative `int` is larger than any `slots_`. -/
theorem index_of_le {x : Int32} (h : 2 ^ 31 ≤ x.toUInt32.toNat) : 2 ^ 32 ≤ index x := by
  have hlt := x.toUInt32.toNat_lt
  rw [index, toUnsigned, toInt_eq, if_neg (by omega)]
  omega

/-- The links of the events in memory. -/
def links (heap : EventAddr → Option TimerEvent) (a : EventAddr) : Option (Links EventAddr) :=
  (heap a).map fun e => ⟨e.pPrev_, e.pNext_⟩

/-- An event as it is apart from its links. -/
def timerAt (w : TimerWheel) (a : EventAddr) : Option TimerEvent :=
  (w.heap a).map fun e => { e with pPrev_ := none, pNext_ := none }

/-- The wheel as lists. The lists are not stored: they are what the pointers of the events say,
    and `home` and `listed` say together that every event in memory is in the list of its own slot
    and nowhere else. -/
structure Represents (w : TimerWheel) (lists : Nat → List EventAddr) : Prop where
  size : w.slots_.length = w.slotsNum_.toNat
  linked : ∀ {i h}, w.slots_[i]? = some h → Linked (links w.heap) h (lists i)
  home : ∀ {i a}, i < w.slotsNum_.toNat → a ∈ lists i → ∃ e, w.heap a = some e ∧ e.slot = i
  listed : ∀ {a e}, w.heap a = some e → e.slot < w.slotsNum_.toNat ∧ a ∈ lists e.slot

variable {w : TimerWheel} {lists : Nat → List EventAddr} {a b : EventAddr} {e : TimerEvent}

/-- The links of an event that is there. -/
theorem links_of_heap (ha : w.heap a = some e) :
    links w.heap a = some ⟨e.pPrev_, e.pNext_⟩ := by
  rw [links, ha]
  rfl

/-- What an event is apart from its links. -/
theorem timerAt_of_heap (ha : w.heap a = some e) :
    w.timerAt a = some { e with pPrev_ := none, pNext_ := none } := by
  rw [timerAt, ha, Option.map_some]

/-- The lists of slots that the wheel does not have say nothing. -/
theorem Represents.congr (h : Represents w lists) {lists' : Nat → List EventAddr}
    (hl : ∀ i, i < w.slotsNum_.toNat → lists' i = lists i) : Represents w lists' where
  size := h.size
  linked := by
    intro i p hp
    have hlt : i < w.slots_.length := (List.getElem?_eq_some_iff.mp hp).1
    rw [h.size] at hlt
    rw [hl i hlt]
    exact h.linked hp
  home := by
    intro i a hi ha
    rw [hl i hi] at ha
    exact h.home hi ha
  listed := by
    intro a e ha
    rw [hl e.slot (h.listed ha).1]
    exact h.listed ha

/-- The wheel of the constructor: every list is empty. -/
theorem Represents.allNull (slotsNum : UInt32) (isThreadSave : Bool) (currentSlotPos : Int32) :
    Represents (allNull slotsNum isThreadSave currentSlotPos) fun _ => [] where
  size := List.length_replicate
  linked := by
    intro i h hi
    have hh : h = none := List.eq_of_mem_replicate (List.mem_of_getElem? hi)
    rw [hh]
    exact .nil
  home := by
    intro i a _ ha
    exact absurd ha List.not_mem_nil
  listed := by
    intro a e ha
    cases ha

/-! ## What the lists say

  The facts about neighbours and heads that the pointers are used for. -/

/-- The slot of an event is one of the slots there are. -/
theorem Represents.slot_lt (h : Represents w lists) (ha : w.heap a = some e) :
    e.slot < w.slots_.length := by
  rw [h.size]
  exact (h.listed ha).1

/-- The pointer in a slot, and the list that starts there. -/
theorem Represents.slotAt (h : Represents w lists) {i : Nat} (hi : i < w.slotsNum_.toNat) :
    ∃ p, w.slots_[i]? = some p ∧ Linked (links w.heap) p (lists i) := by
  have hp : w.slots_[i]? = some _ := List.getElem?_eq_getElem (by rw [h.size]; exact hi)
  exact ⟨_, hp, h.linked hp⟩

/-- An event is linked into the list that its own slot number names. -/
theorem Represents.slotOf (h : Represents w lists) (ha : w.heap a = some e) :
    ∃ p, w.slots_[e.slot]? = some p ∧ Linked (links w.heap) p (lists e.slot) :=
  h.slotAt (h.listed ha).1

/-- The list that the next pointers lead through is the list of the slot. -/
theorem Represents.list_eq (h : Represents w lists) {i : Nat} {p : Option EventAddr}
    {l : List EventAddr} (hp : w.slots_[i]? = some p) (hl : Forward (links w.heap) p l) :
    lists i = l :=
  (h.linked hp).forward.determined hl

/-- No event is twice in a list. -/
theorem Represents.nodup (h : Represents w lists) {i : Nat} (hi : i < w.slotsNum_.toNat) :
    (lists i).Nodup := by
  obtain ⟨p, -, hlist⟩ := h.slotAt hi
  exact hlist.nodup

/-- An event is in the list of its slot only. -/
theorem Represents.not_mem (h : Represents w lists) (ha : w.heap a = some e) {i : Nat}
    (hi : i < w.slotsNum_.toNat) (hne : i ≠ e.slot) : a ∉ lists i := by
  intro hmem
  obtain ⟨x, hx, hslot⟩ := h.home hi hmem
  rw [ha] at hx
  cases hx
  exact hne hslot.symm

/-- The head of a slot, and no other event of it, has a null `pPrev_`. -/
theorem Represents.pPrev_eq_none (h : Represents w lists) (ha : w.heap a = some e) :
    e.pPrev_ = none ↔ w.slots_[e.slot]? = some (some a) := by
  obtain ⟨p, hp, hlist⟩ := h.slotOf ha
  rw [hp, Option.some_inj]
  exact hlist.prev_eq_none (h.listed ha).2 (links_of_heap ha)

/-- The neighbours of an event are other events that are there, so the pointer writes of an
    unlinking are defined. -/
theorem Represents.neighbour (h : Represents w lists) (ha : w.heap a = some e)
    (hb : e.pPrev_ = some b ∨ e.pNext_ = some b) : b ≠ a ∧ ∃ x, w.heap b = some x := by
  obtain ⟨p, hp, hlist⟩ := h.slotOf ha
  obtain ⟨hmem, hne⟩ := hlist.neighbour (h.listed ha).2 (links_of_heap ha) hb
  obtain ⟨x, hx, -⟩ := h.home (h.listed ha).1 hmem
  exact ⟨hne, x, hx⟩

/-- An event at the head of some slot is in that slot. -/
theorem Represents.slot_of_head (h : Represents w lists) {i : Nat}
    (hi : w.slots_[i]? = some (some a)) : ∃ e, w.heap a = some e ∧ e.slot = i := by
  have hlt : i < w.slots_.length := (List.getElem?_eq_some_iff.mp hi).1
  have hmem : a ∈ lists i := List.mem_of_mem_head? (h.linked hi).head.symm
  rw [h.size] at hlt
  exact h.home hlt hmem

/-! ## Taking an event out

  The result of it as one function on the wheel, and that the lists are then those without the
  event. -/

/-- The memory with the neighbours of `e` linked to each other. -/
def rerouted (heap : EventAddr → Option TimerEvent) (e : TimerEvent) (b : EventAddr) :
    Option TimerEvent :=
  (heap b).map fun x => { x with
    pPrev_ := if e.pNext_ = some b then e.pPrev_ else x.pPrev_
    pNext_ := if e.pPrev_ = some b then e.pNext_ else x.pNext_ }

/-- The wheel without the event `e` that lives at `a`. -/
def removed (w : TimerWheel) (a : EventAddr) (e : TimerEvent) : TimerWheel :=
  { w with
    slots_ := if w.slots_[e.slot]? = some (some a) then w.slots_.set e.slot e.pNext_ else w.slots_
    heap := Function.update (rerouted w.heap e) a none
    deleted := w.deleted ++ [e.sequence_] }

/-- The memory behind a removal. -/
theorem heap_removed : (w.removed a e).heap = Function.update (rerouted w.heap e) a none := rfl

/-- Only the slot of the event can change, and only when the event was its head. -/
theorem slots_removed : (w.removed a e).slots_ =
    if w.slots_[e.slot]? = some (some a) then w.slots_.set e.slot e.pNext_ else w.slots_ := rfl

/-- In the links a removal is an unlinking. -/
theorem links_removed :
    links (w.removed a e).heap = unlink (links w.heap) a ⟨e.pPrev_, e.pNext_⟩ := by
  funext b
  by_cases hb : b = a
  · subst hb
    simp [links, removed, unlink]
  · rw [links, heap_removed, Function.update_of_ne hb, rerouted, unlink, if_neg hb, links,
      Option.map_map, Option.map_map]
    rfl

/-- What is left of another event: its links may change, and nothing else. -/
theorem heap_removed_of_ne (hb : b ≠ a) {x' : TimerEvent} :
    (w.removed a e).heap b = some x' ↔ ∃ x, w.heap b = some x ∧ x' = { x with
      pPrev_ := if e.pNext_ = some b then e.pPrev_ else x.pPrev_
      pNext_ := if e.pPrev_ = some b then e.pNext_ else x.pNext_ } := by
  rw [heap_removed, Function.update_of_ne hb, rerouted, Option.map_eq_some_iff]
  simp only [eq_comm]

/-- Apart from the links no other event changes. -/
theorem timerAt_removed :
    (w.removed a e).timerAt b = if b = a then none else w.timerAt b := by
  by_cases hb : b = a
  · subst hb
    rw [if_pos rfl, timerAt, heap_removed, Function.update_self, Option.map_none]
  · rw [if_neg hb, timerAt, timerAt, heap_removed, Function.update_of_ne hb, rerouted,
      Option.map_map]
    rfl

/-- **A removal** takes the event out of its list and out of memory, and keeps the other lists. -/
theorem Represents.removed (h : Represents w lists) (ha : w.heap a = some e) :
    Represents (w.removed a e) fun i => (lists i).erase a where
  size := by
    -- the number of slots
    rw [slots_removed]
    split
    · exact List.length_set.trans h.size
    · exact h.size
  linked := by
    intro i p hp
    -- `q` is the first event of the slot that `e` is in
    obtain ⟨q, hq, hlist⟩ := h.slotOf ha
    rw [links_removed]
    rw [slots_removed] at hp
    by_cases hi : i = e.slot
    · -- the list of the event
      subst hi
      have hp' : p = if q = some a then e.pNext_ else q := by
        by_cases hqa : q = some a
        · rw [if_pos (by rw [hq, hqa]), List.getElem?_set_self (h.slot_lt ha)] at hp
          rw [if_pos hqa]
          exact (Option.some.inj hp).symm
        · rw [if_neg (by rw [hq]; simpa using hqa), hq] at hp
          rw [if_neg hqa]
          exact (Option.some.inj hp).symm
      rw [hp']
      exact hlist.unlink (h.listed ha).2 (links_of_heap ha)
    · -- the lists of the other slots
      have hp' : w.slots_[i]? = some p := by
        split at hp
        · rwa [List.getElem?_set_ne (Ne.symm hi)] at hp
        · exact hp
      have hlt : i < w.slotsNum_.toNat := by
        rw [← h.size]
        exact (List.getElem?_eq_some_iff.mp hp').1
      rw [List.erase_of_not_mem (h.not_mem ha hlt hi)]
      refine (h.linked hp').congr fun b hb => ?_
      obtain ⟨x, hx, hslot⟩ := h.home hlt hb
      have hnot : b ∉ lists e.slot := h.not_mem hx (h.listed ha).1 (by omega)
      exact unlink_of_not_mem hlist (h.listed ha).2 (links_of_heap ha) hnot
  home := by
    intro i b hi hb
    obtain ⟨hne, hmem⟩ := (h.nodup hi).mem_erase_iff.mp hb
    obtain ⟨x, hx, hslot⟩ := h.home hi hmem
    exact ⟨_, (heap_removed_of_ne hne).mpr ⟨x, hx, rfl⟩, hslot⟩
  listed := by
    intro b x' hb
    have hne : b ≠ a := by
      rintro rfl
      rw [heap_removed, Function.update_self] at hb
      cases hb
    obtain ⟨x, hx, rfl⟩ := (heap_removed_of_ne hne).mp hb
    exact ⟨(h.listed hx).1, (List.mem_erase_of_ne hne).mpr (h.listed hx).2⟩

/-! ## Putting an event in

  It becomes the head of its list. -/

/-- The memory with `e` at `a` in front of the event at `p`. -/
def pushed (heap : EventAddr → Option TimerEvent) (p : Option EventAddr) (a : EventAddr)
    (e : TimerEvent) (b : EventAddr) : Option TimerEvent :=
  if b = a then some { e with pNext_ := p }
  else (heap b).map fun x => { x with pPrev_ := if p = some b then some a else x.pPrev_ }

/-- The wheel with the new event `e` at `a` in front of the list with the head `p`. -/
def added (w : TimerWheel) (a : EventAddr) (e : TimerEvent) (p : Option EventAddr) : TimerWheel :=
  { w with
    slots_ := w.slots_.set e.slot (some a)
    s_numCreated_ := w.s_numCreated_ + 1
    heap := pushed w.heap p a e }

/-- An addition makes the event the head of its slot. -/
theorem slots_added {p : Option EventAddr} :
    (w.added a e p).slots_ = w.slots_.set e.slot (some a) := rfl

/-- The memory behind an addition. -/
theorem heap_added {p : Option EventAddr} : (w.added a e p).heap = pushed w.heap p a e := rfl

/-- In the links an addition puts in front. -/
theorem links_added {p : Option EventAddr} (he : e.pPrev_ = none) :
    links (w.added a e p).heap = pushFront (links w.heap) p a := by
  funext b
  rw [links, heap_added, pushed, pushFront]
  by_cases hb : b = a
  · rw [if_pos hb, if_pos hb, Option.map_some, he]
  · rw [if_neg hb, if_neg hb, links, Option.map_map, Option.map_map]
    rfl

/-- The new event points at the old head. -/
theorem heap_added_self {p : Option EventAddr} :
    (w.added a e p).heap a = some { e with pNext_ := p } := if_pos rfl

/-- Of the other events only the old head is written: it gets a `prev`. -/
theorem heap_added_of_ne {p : Option EventAddr} (hb : b ≠ a) {x' : TimerEvent} :
    (w.added a e p).heap b = some x' ↔ ∃ x, w.heap b = some x ∧
      x' = { x with pPrev_ := if p = some b then some a else x.pPrev_ } := by
  rw [heap_added, pushed, if_neg hb, Option.map_eq_some_iff]
  simp only [eq_comm]

/-- Apart from the links no other event changes. -/
theorem timerAt_added {p : Option EventAddr} : (w.added a e p).timerAt b =
    if b = a then some { e with pPrev_ := none, pNext_ := none } else w.timerAt b := by
  by_cases hb : b = a
  · subst hb
    rw [if_pos rfl, timerAt, heap_added_self, Option.map_some]
  · rw [if_neg hb, timerAt, timerAt, heap_added, pushed, if_neg hb, Option.map_map]
    rfl

/-- **An addition** puts the event in front of the list of its slot. -/
theorem Represents.added (h : Represents w lists) (ha : w.heap a = none) (he : e.pPrev_ = none)
    {p : Option EventAddr} (hp : w.slots_[e.slot]? = some p) :
    Represents (w.added a e p) (Function.update lists e.slot (a :: lists e.slot)) where
  size := by
    rw [slots_added]
    exact List.length_set.trans h.size
  linked := by
    intro i q hq
    have hlt : e.slot < w.slots_.length := (List.getElem?_eq_some_iff.mp hp).1
    have hnew : ∀ {j}, j < w.slotsNum_.toNat → a ∉ lists j := by
      intro j hj hmem
      obtain ⟨x, hx, -⟩ := h.home hj hmem
      rw [ha] at hx
      cases hx
    rw [links_added he]
    rw [slots_added] at hq
    by_cases hi : i = e.slot
    · -- the new event is the head, and its slot points to it
      subst hi
      rw [List.getElem?_set_self hlt] at hq
      obtain rfl := Option.some.inj hq
      rw [Function.update_self]
      exact (h.linked hp).pushFront (hnew (by rw [← h.size]; exact hlt))
    · -- the old head, whose back pointer is written, is in no other list
      rw [List.getElem?_set_ne (Ne.symm hi)] at hq
      have hilt : i < w.slotsNum_.toNat := by
        rw [← h.size]
        exact (List.getElem?_eq_some_iff.mp hq).1
      rw [Function.update_of_ne hi]
      refine (h.linked hq).congr fun b hb => ?_
      obtain ⟨x, hx, hslot⟩ := h.home hilt hb
      have hnot : b ∉ lists e.slot :=
        h.not_mem hx (by rw [← h.size]; exact hlt) (by omega)
      exact pushFront_of_not_mem (h.linked hp) hnot (ne_of_mem_of_not_mem hb (hnew hilt))
  home := by
    intro i b hi hb
    by_cases hba : b = a
    · subst hba
      refine ⟨_, heap_added_self, ?_⟩
      -- an address that was free is in no old list
      by_contra hslot
      have hne : i ≠ e.slot := fun hi => hslot hi.symm
      rw [Function.update_of_ne hne] at hb
      obtain ⟨x, hx, -⟩ := h.home hi hb
      rw [ha] at hx
      cases hx
    · have hmem : b ∈ lists i := by
        by_cases hie : i = e.slot
        · subst hie
          rw [Function.update_self] at hb
          exact (List.mem_cons.mp hb).resolve_left hba
        · rwa [Function.update_of_ne hie] at hb
      obtain ⟨x, hx, hslot⟩ := h.home hi hmem
      exact ⟨_, (heap_added_of_ne hba).mpr ⟨x, hx, rfl⟩, hslot⟩
  listed := by
    intro b x' hb
    by_cases hba : b = a
    · subst hba
      rw [heap_added_self] at hb
      cases hb
      constructor
      · rw [show (w.added b e p).slotsNum_ = w.slotsNum_ from rfl, ← h.size]
        exact (List.getElem?_eq_some_iff.mp hp).1
      · show b ∈ Function.update lists e.slot (b :: lists e.slot) e.slot
        rw [Function.update_self]
        exact List.mem_cons_self
    · obtain ⟨x, hx, rfl⟩ := (heap_added_of_ne hba).mp hb
      refine ⟨(h.listed hx).1, ?_⟩
      show b ∈ Function.update lists e.slot (a :: lists e.slot) x.slot
      have hmem := (h.listed hx).2
      by_cases hxe : x.slot = e.slot
      · rw [hxe] at hmem ⊢
        rw [Function.update_self]
        exact List.mem_cons_of_mem a hmem
      · rwa [Function.update_of_ne hxe]

/-! ## Writing the rotation

  The links do not change, so neither do the lists. -/

/-- The wheel with another number of rounds at one event. -/
def rotated (w : TimerWheel) (a : EventAddr) (e : TimerEvent) (rotation : Int32) : TimerWheel :=
  { w with heap := Function.update w.heap a (some { e with rotation_ := rotation }) }

/-- The memory behind it. -/
theorem heap_rotated (rotation : Int32) : (w.rotated a e rotation).heap =
    Function.update w.heap a (some { e with rotation_ := rotation }) := rfl

/-- The event itself has the new number. -/
theorem heap_rotated_self (rotation : Int32) :
    (w.rotated a e rotation).heap a = some { e with rotation_ := rotation } :=
  Function.update_self ..

/-- No link changes. -/
theorem links_rotated (ha : w.heap a = some e) (rotation : Int32) :
    links (w.rotated a e rotation).heap = links w.heap := by
  funext b
  by_cases hb : b = a
  · subst hb
    rw [links, heap_rotated_self, links, ha]
    rfl
  · rw [links, heap_rotated, Function.update_of_ne hb, links]

/-- Nor does any other event. -/
theorem timerAt_rotated (rotation : Int32) : (w.rotated a e rotation).timerAt b =
    if b = a then some { e with rotation_ := rotation, pPrev_ := none, pNext_ := none }
    else w.timerAt b := by
  by_cases hb : b = a
  · subst hb
    rw [if_pos rfl, timerAt, heap_rotated_self, Option.map_some]
  · rw [if_neg hb, timerAt, timerAt, heap_rotated, Function.update_of_ne hb]

/-- So the lists stay what they are. -/
theorem Represents.rotated (h : Represents w lists) (ha : w.heap a = some e) (rotation : Int32) :
    Represents (w.rotated a e rotation) lists where
  size := h.size
  linked := by
    rw [links_rotated ha]
    exact h.linked
  home := by
    intro i b hi hb
    by_cases hba : b = a
    · subst hba
      obtain ⟨x, hx, hslot⟩ := h.home hi hb
      obtain rfl : e = x := Option.some.inj (ha.symm.trans hx)
      exact ⟨_, heap_rotated_self rotation, hslot⟩
    · rw [heap_rotated, Function.update_of_ne hba]
      exact h.home hi hb
  listed := by
    intro b x hb
    by_cases hba : b = a
    · subst hba
      have hlisted := h.listed ha
      rw [heap_rotated_self] at hb
      cases hb
      exact hlisted
    · rw [heap_rotated, Function.update_of_ne hba] at hb
      exact h.listed hb

/-! ## The code

  Each function of the source equals its result above, whenever the lists are there. -/

/-- The wheel with another memory. -/
def withHeap (w : TimerWheel) (heap : EventAddr → Option TimerEvent) : TimerWheel :=
  { w with heap := heap }

/-- The wheel with other slots. -/
def withSlots (w : TimerWheel) (slots : List (Option EventAddr)) : TimerWheel :=
  { w with slots_ := slots }

/-- Of which the memory is the given one. -/
@[simp] theorem heap_withHeap (heap : EventAddr → Option TimerEvent) :
    (w.withHeap heap).heap = heap := rfl

/-- Slots are not memory. -/
@[simp] theorem heap_withSlots (slots : List (Option EventAddr)) :
    (w.withSlots slots).heap = w.heap := rfl

/-- An event that is there can be read. -/
theorem deref_of_heap (ha : w.heap a = some e) : w.deref a = .ok e := by
  rw [deref, ha]

/-- An event that is there can be written. -/
theorem modify_of_heap (ha : w.heap a = some e) (f : TimerEvent → TimerEvent) :
    w.modify a f = .ok (w.withHeap (Function.update w.heap a (some (f e)))) := by
  rw [modify, deref_of_heap ha]
  rfl

/-- An event that is there can be deleted, once: its number is entered. -/
theorem delete_of_heap (ha : w.heap a = some e) :
    w.delete a = .ok { w with
      heap := Function.update w.heap a none
      deleted := w.deleted ++ [e.sequence_] } := by
  rw [delete, ha]

/-- A slot that is there can be read. -/
theorem slotAt_of_getElem {i : Nat} {p : Option EventAddr} (hi : w.slots_[i]? = some p) :
    w.slotAt i = .ok p := by
  rw [slotAt, hi]

/-- A slot that is there can be written. -/
theorem setSlot_of_lt {i : Nat} (hi : i < w.slots_.length) (p : Option EventAddr) :
    w.setSlot i p = .ok (w.withSlots (w.slots_.set i p)) := if_pos hi

/-- A write to the event at `p`, as a change of the whole memory. -/
theorem update_eq_map {heap : EventAddr → Option TimerEvent} {p : EventAddr} {x v : TimerEvent}
    (hx : heap p = some x) {g : EventAddr → TimerEvent → TimerEvent} (hp : g p x = v)
    (hne : ∀ b, b ≠ p → ∀ y, g b y = y) :
    Function.update heap p (some v) = fun b => (heap b).map (g b) := by
  funext b
  by_cases hb : b = p
  · subst hb
    rw [Function.update_self, hx, Option.map_some, hp]
  · rw [Function.update_of_ne hb]
    cases heap b with
    | none => rfl
    | some y => rw [Option.map_some, hne b hb]

/-- `if (next) next->pPrev_ = prev` changes one `prev` at most. -/
theorem setPrev_eq {next : Option EventAddr} (prev : Option EventAddr)
    (hnext : ∀ n, next = some n → ∃ x, w.heap n = some x) :
    w.setPrev next prev = .ok (w.withHeap fun b => (w.heap b).map fun x =>
      { x with pPrev_ := if next = some b then prev else x.pPrev_ }) := by
  cases next with
  | none =>
    refine congrArg (fun heap => Except.ok (w.withHeap heap)) (funext fun b => ?_)
    cases w.heap b <;> simp
  | some n =>
    obtain ⟨x, hx⟩ := hnext n rfl
    rw [setPrev, modify_of_heap hx,
      update_eq_map hx (g := fun b x =>
        { x with pPrev_ := if some n = some b then prev else x.pPrev_ }) (by simp)]
    intro b hb y
    simp [Ne.symm hb]

/-- **Passing by the head** goes through a null pointer: this is why the code tests for the head
    before it calls it. -/
theorem bypass_of_head (ha : w.heap a = some e) (hp : e.pPrev_ = none) :
    w.bypass a = .error (.nullPointer, w) := by
  rw [bypass, deref_of_heap ha, ok_bind, hp]
  rfl

/-- Passing by any other event is defined, and both neighbours are written. -/
theorem bypass_eq (h : Represents w lists) (ha : w.heap a = some e) (hp : e.pPrev_ ≠ none) :
    w.bypass a = .ok (w.withHeap (rerouted w.heap e)) := by
  obtain ⟨p, hp⟩ := Option.ne_none_iff_exists'.mp hp
  obtain ⟨hpa, x, hx⟩ := h.neighbour ha (Or.inl hp)
  have hwrite : Function.update w.heap p (some { x with pNext_ := e.pNext_ }) = fun b =>
      (w.heap b).map fun x => { x with pNext_ := if some p = some b then e.pNext_ else x.pNext_ } :=
    update_eq_map hx (by simp) fun b hb y => by simp [Ne.symm hb]
  have ha' : (w.withHeap (Function.update w.heap p (some { x with pNext_ := e.pNext_ }))).heap a =
      some e := by
    rw [heap_withHeap, Function.update_of_ne hpa.symm, ha]
  rw [bypass, deref_of_heap ha, ok_bind, hp, nonNull, ok_bind, modify_of_heap hx, ok_bind,
    deref_of_heap ha', ok_bind, hwrite, setPrev_eq, heap_withHeap]
  · refine congrArg (fun heap => Except.ok (w.withHeap heap)) (funext fun b => ?_)
    rw [rerouted, Option.map_map, hp]
    rfl
  · intro n hn
    obtain ⟨-, y, hy⟩ := h.neighbour ha (Or.inr hn)
    exact ⟨_, congrArg (Option.map _) hy⟩

/-- An event is not its own neighbour, so a rerouting leaves its own links alone. -/
theorem Represents.rerouted_self (h : Represents w lists) (ha : w.heap a = some e) :
    rerouted w.heap e a = some e := by
  have hprev : ¬ e.pPrev_ = some a := fun hp => (h.neighbour ha (Or.inl hp)).1 rfl
  have hnext : ¬ e.pNext_ = some a := fun hn => (h.neighbour ha (Or.inr hn)).1 rfl
  rw [rerouted, ha, Option.map_some, if_neg hprev, if_neg hnext]

/-- For the head of a slot only the link of the next event changes. -/
theorem rerouted_of_head {heap : EventAddr → Option TimerEvent} (hp : e.pPrev_ = none) :
    rerouted heap e = fun b => (heap b).map fun x =>
      { x with pPrev_ := if e.pNext_ = some b then none else x.pPrev_ } := by
  funext b
  rw [rerouted, hp]
  simp

/-- **`cencelUnlock` is a removal** when the address holds an event whose slot number is an
    index. -/
theorem cencelUnlock_eq (h : Represents w lists) (ha : w.heap a = some e)
    (hi : index e.timerSlot_ = e.slot) (n : Nat) :
    w.cencelUnlock ⟨n, some a⟩ = .ok (w.removed a e) := by
  obtain ⟨p, hp, -⟩ := h.slotOf ha
  have hnone := h.pPrev_eq_none ha
  have hself := h.rerouted_self ha
  rw [hp, Option.some_inj] at hnone
  rw [cencelUnlock]
  dsimp only
  rw [deref_of_heap ha, ok_bind, hi, slotAt_of_getElem hp, ok_bind, removed, hp]
  by_cases hhead : p = some a
  · rw [if_pos hhead, setSlot_of_lt (h.slot_lt ha), ok_bind, setPrev_eq, ok_bind, heap_withSlots,
      ← rerouted_of_head (hnone.mpr hhead), delete_of_heap (e := e) hself, if_pos (by rw [hhead])]
    · rfl
    · exact fun n hn => (h.neighbour ha (Or.inr hn)).2
  · rw [if_neg hhead, bypass_eq h ha fun hprev => hhead (hnone.mp hprev), ok_bind,
      delete_of_heap (e := e) hself, if_neg (by simpa using hhead)]
    rfl

/-- In a slot from `2 ^ 31` on the `int` of the event is negative. -/
theorem cencelUnlock_far (h : Represents w lists) (ha : w.heap a = some e) (hs : 2 ^ 31 ≤ e.slot)
    (n : Nat) : w.cencelUnlock ⟨n, some a⟩ = .error (.outOfRange, w) := by
  have hlt := w.slotsNum_.toNat_lt
  have hnone : w.slots_[index e.timerSlot_]? = none := by
    have hle := index_of_le hs
    have hsize := h.size
    exact List.getElem?_eq_none (by omega)
  rw [cencelUnlock]
  dsimp only
  rw [deref_of_heap ha, ok_bind, slotAt, hnone]
  rfl

/-- On an address whose event was deleted it reads freed memory. -/
theorem cencelUnlock_of_dead (ha : w.heap a = none) (n : Nat) :
    w.cencelUnlock ⟨n, some a⟩ = .error (.useAfterFree, w) := by
  rw [cencelUnlock]
  dsimp only
  rw [deref, ha]
  rfl

/-- **The removal in a tick** is one too. The head is found through the current slot here, not
    through the slot of the event. -/
theorem remove_eq (h : Represents w lists) (ha : w.heap a = some e) {p : Option EventAddr}
    (hp : w.slots_[index w.currentSlotPos_]? = some p) (hpa : p = some a ∨ e.pPrev_ ≠ none) :
    w.remove a = .ok (w.removed a e, e.pNext_) := by
  have hself := h.rerouted_self ha
  have hlt : index w.currentSlotPos_ < w.slots_.length := (List.getElem?_eq_some_iff.mp hp).1
  rw [remove, slotAt_of_getElem hp, ok_bind]
  by_cases hhead : p = some a
  · subst hhead
    obtain ⟨x, hx, hslot⟩ := h.slot_of_head hp
    obtain rfl : e = x := Option.some.inj (ha.symm.trans hx)
    have hnext : ∀ n, e.pNext_ = some n → ∃ x, Function.update w.heap a none n = some x := by
      intro n hn
      obtain ⟨hna, y, hy⟩ := h.neighbour ha (Or.inr hn)
      exact ⟨y, by rw [Function.update_of_ne hna, hy]⟩
    -- here the event is deleted before the next one is linked
    have hheap : (fun b => (Function.update w.heap a none b).map fun x : TimerEvent =>
        { x with pPrev_ := if e.pNext_ = some b then none else x.pPrev_ }) =
        Function.update (rerouted w.heap e) a none := by
      funext b
      rw [rerouted_of_head ((h.pPrev_eq_none ha).mpr (by rw [hslot, hp]))]
      by_cases hb : b = a
      · subst hb
        simp
      · simp [hb]
    have hset : (w.withSlots (w.slots_.set (index w.currentSlotPos_) e.pNext_)).heap a =
        some e := ha
    have hfirst : ∀ w' : TimerWheel, w'.currentSlotPos_ = w.currentSlotPos_ →
        w'.slots_ = w.slots_.set (index w.currentSlotPos_) e.pNext_ →
        w'.slotAt (index w'.currentSlotPos_) = .ok e.pNext_ := by
      intro w' hpos hslots
      rw [slotAt, hpos, hslots, List.getElem?_set_self hlt]
    rw [if_pos rfl, deref_of_heap ha, ok_bind, setSlot_of_lt hlt, ok_bind, delete_of_heap hset,
      ok_bind, hfirst, ok_bind, setPrev_eq, ok_bind, hfirst, ok_bind, removed, hslot, hp,
      if_pos rfl, ← hheap]
    · rfl
    · rfl
    · rfl
    · exact hnext
    · rfl
    · rfl
  · have hslots : w.slots_[e.slot]? ≠ some (some a) :=
      fun hs => hpa.resolve_left hhead ((h.pPrev_eq_none ha).mpr hs)
    rw [if_neg hhead, bypass_eq h ha (hpa.resolve_left hhead), ok_bind,
      deref_of_heap (e := e) hself, ok_bind]
    dsimp only
    rw [delete_of_heap (e := e) hself, ok_bind, removed, if_neg hslots]
    rfl

/-- The head of another slot than the current one has no node in front of it. -/
theorem remove_of_head (ha : w.heap a = some e) {p : Option EventAddr}
    (hp : w.slots_[index w.currentSlotPos_]? = some p) (hpa : p ≠ some a)
    (hprev : e.pPrev_ = none) :
    w.remove a = .error (.nullPointer, w) := by
  rw [remove, slotAt_of_getElem hp, ok_bind, if_neg hpa, bypass_of_head ha hprev]
  rfl

/-- An event that its own callback cancelled is read after it was freed. -/
theorem remove_of_dead (ha : w.heap a = none) {p : Option EventAddr}
    (hp : w.slots_[index w.currentSlotPos_]? = some p) :
    w.remove a = .error (.useAfterFree, w) := by
  rw [remove, slotAt_of_getElem hp, ok_bind, bypass, deref, ha]
  split <;> rfl

/-! ### The lock

  It is taken when it is free or there is none, and a thread that holds it already is stuck. -/

/-- The wheel with the lock taken, if it has one. -/
def locked (w : TimerWheel) : TimerWheel := { w with mutex_ := w.mutex_.map fun _ => true }

/-- A free lock can be taken; without a mutex there is nothing to take. -/
theorem lock_of_free (hm : w.mutex_ ≠ some true) : w.lock = .ok w.locked := by
  rw [lock, require_pos _ _ hm]
  rfl

/-- A lock that the same call already holds is never got: the mutex is not recursive. -/
theorem lock_of_held (hm : w.mutex_ = some true) : w.lock = .error (.deadlock, w) := by
  rw [lock, require_neg _ _ (not_not.mpr hm)]
  rfl

/-! ### A turn of the walk

  The event that the walk has come to is deleted, has rounds to go, or is due. -/

variable {run : TimerEvent → TimerWheel → M TimerWheel}

/-- A turn at a deleted event reads freed memory. -/
theorem turn_of_dead (ha : w.heap a = none) :
    turn run (some a, w) = .error (.useAfterFree, w) := by
  rw [turn, deref, ha]
  rfl

/-- A turn at an event with rounds left lowers them and goes on. -/
theorem turn_of_pos (ha : w.heap a = some e) (hr : 0 < e.rotation_) :
    turn run (some a, w) = .ok (.next (e.pNext_, w.rotated a e (e.rotation_ - 1))) := by
  rw [turn, deref_of_heap ha, ok_bind]
  dsimp only
  rw [if_pos hr, modify_of_heap ha, ok_bind]
  show ((w.rotated a e (e.rotation_ - 1)).deref a >>= _) = _
  rw [deref_of_heap (heap_rotated_self _)]
  rfl

/-- A turn at a due event runs it, and then removes it with the pointers it has by then. -/
theorem turn_of_due (ha : w.heap a = some e) (hr : ¬ 0 < e.rotation_) :
    turn run (some a, w) =
      run e w >>= fun w' => w'.remove a >>= fun r => .ok (.next (r.2, r.1)) := by
  rw [turn, deref_of_heap ha, ok_bind]
  dsimp only
  rw [if_neg hr]
  rfl

/-! ### The new event

  What `addTimerUnlock` computes, in exact numbers. -/

/-- The number of ticks that a timeout asks for. -/
def period (timeout : UInt32) : UInt32 := if timeout < 1 then 1 else timeout

/-- The slot for a timeout. -/
def slotFor (w : TimerWheel) (timeout : UInt32) : UInt32 :=
  (w.currentSlotPos_.toUInt32 + period timeout % w.slotsNum_) % w.slotsNum_

/-- The event for a timeout. -/
def eventFor (w : TimerWheel) (timeout : UInt32) (obj cb : Bool) : TimerEvent :=
  .new (period timeout / w.slotsNum_).toInt32 (w.slotFor timeout).toInt32 cb obj
    (w.s_numCreated_ + 1)

/-- The slot of a new event is what was computed for it. -/
@[simp] theorem slot_eventFor (timeout : UInt32) (obj cb : Bool) :
    (w.eventFor timeout obj cb).slot = (w.slotFor timeout).toNat := rfl

/-- The slot computed for a new event is one of the slots there are. -/
theorem slotFor_lt (hn : w.slotsNum_ ≠ 0) (timeout : UInt32) :
    (w.slotFor timeout).toNat < w.slotsNum_.toNat := by
  rw [slotFor, UInt32.toNat_mod]
  refine Nat.mod_lt _ (Nat.pos_of_ne_zero fun h0 => hn ?_)
  exact UInt32.toNat_inj.mp h0

/-- `new` writes the one address. -/
theorem heap_allocate (rotation timerSlot : Int32) (cb obj : Bool) :
    (w.allocate a rotation timerSlot cb obj).heap = Function.update w.heap a
      (some (.new rotation timerSlot cb obj (w.s_numCreated_ + 1))) := rfl

/-- Putting a fresh event into its slot is an addition. -/
theorem pushSlot_eq (h : Represents w lists) (ha : w.heap a = none) {rotation timerSlot : Int32}
    {cb obj : Bool} {e : TimerEvent}
    (he : e = .new rotation timerSlot cb obj (w.s_numCreated_ + 1)) {p : Option EventAddr}
    (hp : w.slots_[e.slot]? = some p) :
    (w.allocate a rotation timerSlot cb obj).pushSlot e.slot a = .ok (w.added a e p) := by
  have hlt : e.slot < w.slots_.length := (List.getElem?_eq_some_iff.mp hp).1
  have hself : (w.allocate a rotation timerSlot cb obj).heap a = some e := by
    rw [heap_allocate, ← he, Function.update_self]
  rw [pushSlot, slotAt_of_getElem (w := w.allocate a rotation timerSlot cb obj) hp, ok_bind]
  cases p with
  | none =>
    -- no event is linked to the new one
    dsimp only
    rw [setSlot_of_lt (w := w.allocate a rotation timerSlot cb obj) hlt]
    refine congrArg (fun heap => Except.ok ((w.added a e none).withHeap heap)) (funext fun b => ?_)
    by_cases hb : b = a
    · subst hb
      rw [hself, pushed, if_pos rfl, he]
      rfl
    · rw [heap_allocate, Function.update_of_ne hb, pushed, if_neg hb]
      cases w.heap b <;> simp
  | some c =>
    obtain ⟨x, hx, -⟩ := h.slot_of_head hp
    -- the old head is alive, so it is not at the address that `new` gave out
    have hca : c ≠ a := by
      rintro rfl
      rw [ha] at hx
      cases hx
    dsimp only
    rw [modify_of_heap hself, ok_bind, modify_of_heap (e := x), ok_bind, setSlot_of_lt]
    · refine congrArg (fun heap => Except.ok ((w.added a e (some c)).withHeap heap))
        (funext fun b => ?_)
      by_cases hb : b = a
      · subst hb
        simp [pushed, Ne.symm hca]
      · by_cases hbc : b = c
        · subst hbc
          simp [pushed, hb, hx]
        · simp [pushed, hb, hbc, Ne.symm hbc, allocate]
    · exact hlt
    · rw [heap_withHeap, Function.update_of_ne hca, heap_allocate, Function.update_of_ne hca, hx]

/-- With a step of one the period is the timeout, or one if that is zero. -/
theorem tickFor_eq (hts : w.ts_ = 1) (timeout : UInt32) :
    w.tickFor timeout = .ok (period timeout).toInt32 := by
  rw [tickFor, hts, period]
  split
  · rfl
  · rw [divide, if_neg (by decide), UInt32.div_one]
    rfl

/-- A wheel without slots divides by zero. -/
theorem addTimerUnlock_of_zero (hts : w.ts_ = 1) (hn : w.slotsNum_ = 0) (timeout : UInt32)
    (obj cb : Bool) : w.addTimerUnlock timeout obj cb a = .error (.divisionByZero, w) := by
  rw [addTimerUnlock, tickFor_eq hts, ok_bind, divide, if_pos hn]
  rfl

/-- **`addTimerUnlock` is an addition** on every other wheel, and returns the next number with the
    address. -/
theorem addTimerUnlock_eq (h : Represents w lists) (hts : w.ts_ = 1) (hn : w.slotsNum_ ≠ 0)
    (ha : w.heap a = none) (timeout : UInt32) (obj cb : Bool) :
    ∃ p, w.slots_[(w.slotFor timeout).toNat]? = some p ∧
      w.addTimerUnlock timeout obj cb a =
        .ok (w.added a (w.eventFor timeout obj cb) p, ⟨w.s_numCreated_ + 1, some a⟩) := by
  obtain ⟨p, hp, -⟩ := h.slotAt (slotFor_lt hn timeout)
  refine ⟨p, hp, ?_⟩
  rw [addTimerUnlock, tickFor_eq hts, ok_bind, divide, if_neg hn, ok_bind, remainder,
    if_neg hn, ok_bind, remainder, if_neg hn, ok_bind]
  dsimp only
  rw [UInt32.toUInt32_toInt32, ← slotFor, ← slot_eventFor timeout obj cb,
    pushSlot_eq h ha (e := w.eventFor timeout obj cb) rfl hp, ok_bind,
    deref_of_heap (heap_added_self), ok_bind]
  rfl

/-! ### Calls

  The functions with their lock. -/

/-- Taking the lock and giving it back leaves the mutex as it was. -/
theorem mutex_unlock (hm : w.mutex_ ≠ some true) :
    (w.mutex_.map fun _ => true).map (fun _ => false) = w.mutex_ := by
  cases h : w.mutex_ with
  | none => rfl
  | some b =>
    cases b with
    | false => rfl
    | true => exact absurd h hm

/-- The lock has no part in the lists. -/
theorem Represents.locked (h : Represents w lists) : Represents w.locked lists :=
  ⟨h.size, h.linked, h.home, h.listed⟩

/-- The wheel after a call of `addTimer`. -/
def withTimer (w : TimerWheel) (timeout : UInt32) (obj cb : Bool) (a : EventAddr)
    (p : Option EventAddr) : TimerWheel :=
  { w.added a (w.eventFor timeout obj cb) p with
    timerIds := w.timerIds ++ [⟨w.s_numCreated_ + 1, some a⟩] }

/-- The call `addTimer`, as a whole. -/
theorem call_addTimer (run : TimerEvent → TimerWheel → M TimerWheel) (turns : Nat)
    (h : Represents w lists) (hts : w.ts_ = 1) (hn : w.slotsNum_ ≠ 0) (hm : w.mutex_ ≠ some true)
    (ha : w.heap a = none) (timeout : UInt32) (obj cb : Bool) :
    ∃ p, w.slots_[(w.slotFor timeout).toNat]? = some p ∧
      call run turns w (.addTimer timeout obj cb a) = .ok (w.withTimer timeout obj cb a p) := by
  obtain ⟨p, hp, heq⟩ := addTimerUnlock_eq (a := a) h.locked hts hn ha timeout obj cb
  refine ⟨p, hp, ?_⟩
  rw [call, if_pos ha, addTimer, lock_of_free hm, ok_bind, heq]
  refine congrArg (fun mutex =>
    Except.ok { w.withTimer timeout obj cb a p with mutex_ := mutex }) ?_
  exact mutex_unlock hm

/-- The call `cencel` on an event that is there, as a whole. -/
theorem cencel_eq (h : Represents w lists) (hm : w.mutex_ ≠ some true) (ha : w.heap a = some e)
    (hs : e.slot < 2 ^ 31) (n : Nat) : w.cencel ⟨n, some a⟩ = .ok (w.removed a e) := by
  rw [cencel, lock_of_free hm, ok_bind, cencelUnlock_eq h.locked ha (index_of_lt hs), ok_bind]
  refine congrArg (fun mutex => Except.ok { w.removed a e with mutex_ := mutex }) ?_
  exact mutex_unlock hm

/-! ### The rules for a turn and for a call

  What has to be shown for a property to be kept by a turn, or by a call and all that happens
  in it. -/

section Rules

variable {I : TimerWheel → Prop} {Q : Fault × TimerWheel → Prop}

/-- What callbacks, decrements and removals keep, a turn of the walk keeps. -/
theorem turn_holds (hrun : ∀ e w, I w → Holds I Q (run e w))
    (hrotated : ∀ w a e rotation, I w → w.heap a = some e → I (w.rotated a e rotation))
    (hremove : ∀ w a, I w → Holds (fun r => I r.1) Q (w.remove a))
    (hdead : ∀ w, I w → Q (.useAfterFree, w)) (s : Option EventAddr × TimerWheel) (h : I s.2) :
    Holds (Turn.Holds (fun s => I s.2) I) Q (turn run s) := by
  obtain ⟨timer, w⟩ := s
  cases timer with
  | none => exact .ok h
  | some a =>
    cases ha : w.heap a with
    | none =>
      rw [turn_of_dead ha]
      exact .error (hdead w h)
    | some e =>
      by_cases hr : 0 < e.rotation_
      · rw [turn_of_pos ha hr]
        exact .ok (hrotated w a e _ h ha)
      · rw [turn_of_due ha hr]
        exact (hrun e w h).bind fun w' h' => (hremove w' a h').bind fun r hr => .ok hr

/-- What a call keeps when its callbacks do, is kept by every call. -/
theorem step_holds (script : Nat → Behaviour)
    (hcall : ∀ run, (∀ e w, I w → Holds I Q (run e w)) → ∀ turns w c, I w →
      Holds I Q (call run turns w c))
    (hran : ∀ e w, I w → I { w with ran := w.ran ++ [(TimerEvent.sequence_ e, w.ticks)] })
    (hunfinished : ∀ w, I w → Q (.unfinished, w)) (turns : Nat) :
    ∀ w c, I w → Holds I Q (step script turns w c) := by
  induction turns with
  | zero => exact fun w c h => hcall _ (fun _ _ h => .ok h) 0 w c h
  | succ turns ih =>
    intro w c h
    refine hcall _ (fun e w h => ?_) (turns + 1) w c h
    have h' := hran e w h
    rw [runEvent]
    split
    · refine (run_keeps ih _ _ h').bind fun w' h' => ?_
      by_cases hb : (script w.ran.length).returns = true
      · rw [require_pos _ _ hb]
        exact .ok h'
      · rw [require_neg _ _ hb]
        exact .error (hunfinished w' h')
    · exact .ok h'

end Rules

end TimerWheel

end IOEvent
