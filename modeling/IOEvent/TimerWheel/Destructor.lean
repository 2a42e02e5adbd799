/-
  What `~TimerWheel` does.

  The destructor goes over the slots and deletes in each the head of the list as long as there is
  one.  It writes no back pointer, so a list that is being deleted is one by its next pointers
  only (`Forward`).  `Freed` says what a part of it has done: the events of a list are gone, each
  number once, and the other events and slots are as they were.

  A slot is emptied by induction on its list.  What is deleted is in no other list, so the slots
  still to come are as they were.
-/
import IOEvent.TimerWheel.Stale

open Foundation

namespace IOEvent

namespace TimerWheel

variable {w w₁ w' : TimerWheel} {lists : Nat → List EventAddr} {a b : EventAddr} {e : TimerEvent}
  {l : List EventAddr} {i : Nat}

/-- `w'` is `w` after the events of `l` have been deleted and the slots of `is` emptied. -/
structure Freed (w w' : TimerWheel) (is : List Nat) (l : List EventAddr) : Prop where
  heap : ∀ b, w'.heap b = if b ∈ l then none else w.heap b
  ledger : Ledger (number w'.heap) w'.deleted w'.s_numCreated_
  size : w'.slots_.length = w.slots_.length
  slots : ∀ j, j ∉ is → w'.slots_[j]? = w.slots_[j]?
  rest : w' = { w with
    slots_ := w'.slots_
    heap := w'.heap
    deleted := w'.deleted }

/-- Before the first slot nothing is freed. -/
theorem Freed.nil (h : Ledger (number w.heap) w.deleted w.s_numCreated_) (is : List Nat) :
    Freed w w is [] where
  heap := fun _ => (if_neg List.not_mem_nil).symm
  ledger := h
  size := rfl
  slots := fun _ _ => rfl
  rest := rfl

/-- Slots are freed one after the other. -/
theorem Freed.append {is is' : List Nat} {l' : List EventAddr} (h : Freed w w₁ is l)
    (h' : Freed w₁ w' is' l') : Freed w w' (is ++ is') (l ++ l') where
  heap := by
    intro b
    rw [h'.heap, h.heap]
    by_cases hb : b ∈ l <;> by_cases hb' : b ∈ l' <;> simp [hb, hb']
  ledger := h'.ledger
  size := h'.size.trans h.size
  slots := by
    intro j hj
    rw [List.mem_append, not_or] at hj
    rw [h'.slots j hj.2, h.slots j hj.1]
  rest := by
    rw [h'.rest, h.rest]

/-! ## A slot

  Each turn deletes the head of the list and goes on with the rest. -/

/-- The head is deleted. -/
theorem Freed.head (h : Ledger (number w.heap) w.deleted w.s_numCreated_) (ha : w.heap a = some e)
    (i : Nat) : Freed w { w with
      slots_ := w.slots_.set i e.pNext_
      heap := Function.update w.heap a none
      deleted := w.deleted ++ [e.sequence_] } [i] [a] where
  heap := by
    intro b
    by_cases hb : b = a
    · subst hb
      rw [if_pos (List.mem_singleton_self b)]
      exact Function.update_self ..
    · rw [if_neg fun hmem => hb (List.mem_singleton.mp hmem)]
      exact Function.update_of_ne hb ..
  ledger := by
    have hnumber : number (Function.update w.heap a none) =
        Function.update (number w.heap) a none := by
      funext b
      by_cases hb : b = a
      · subst hb
        rw [number, Function.update_self, Function.update_self, Option.map_none]
      · rw [number, Function.update_of_ne hb, Function.update_of_ne hb, number]
    have hledger := h.delete (number_of_heap ha)
    rw [← hnumber] at hledger
    exact hledger
  size := List.length_set
  slots := by
    intro j hj
    exact List.getElem?_set_ne fun hji => hj (List.mem_singleton.mpr hji.symm)
  rest := rfl

/-- One turn of the inner loop: the next event is read before the current one is deleted. -/
theorem freeTurn_eq (ha : w.heap a = some e) (hi : i < w.slots_.length) :
    freeTurn i (some a, w) = .ok (.next (e.pNext_, { w with
      slots_ := w.slots_.set i e.pNext_
      heap := Function.update w.heap a none
      deleted := w.deleted ++ [e.sequence_] })) := by
  have hset : (w.withSlots (w.slots_.set i e.pNext_)).heap a = some e := ha
  have hslot : (w.slots_.set i e.pNext_)[i]? = some e.pNext_ := List.getElem?_set_self hi
  rw [freeTurn, deref_of_heap ha, ok_bind, setSlot_of_lt hi, ok_bind, delete_of_heap hset, ok_bind,
    slotAt_of_getElem hslot, ok_bind]
  rfl

/-- **The loop over a slot** deletes the events from `h` on. -/
theorem freeSlot_loop :
    ∀ (l : List EventAddr) (turns : Nat) (w : TimerWheel) (h : Option EventAddr),
      Ledger (number w.heap) w.deleted w.s_numCreated_ → Forward (links w.heap) h l → l.Nodup →
      i < w.slots_.length → l.length < turns →
      ∃ w', loop (freeTurn i) turns (h, w) = some (.ok w') ∧ Freed w w' [i] l := by
  intro l
  induction l with
  | nil =>
    intro turns w h hledger hforward _ _ hturns
    obtain ⟨turns, rfl⟩ : ∃ m, turns = m + 1 := ⟨turns - 1, by simp at hturns; omega⟩
    obtain rfl : h = none := hforward
    exact ⟨w, loop_done rfl turns, .nil hledger [i]⟩
  | cons a l ih =>
    intro turns w h hledger hforward hnodup hi hturns
    rw [List.length_cons] at hturns
    obtain ⟨turns, rfl⟩ : ∃ m, turns = m + 1 := ⟨turns - 1, by omega⟩
    obtain ⟨rfl, x, hx, hrest⟩ := hforward
    obtain ⟨e, ha, rfl⟩ := Option.map_eq_some_iff.mp hx
    obtain ⟨hal, hl⟩ := List.nodup_cons.mp hnodup
    have hhead := Freed.head hledger ha i
    -- the events behind the head are where they were
    have hforward' : Forward (links (Function.update w.heap a none)) e.pNext_ l :=
      hrest.congr fun b hb => by
        rw [links, Function.update_of_ne (ne_of_mem_of_not_mem hb hal), links]
    obtain ⟨w', hloop, hfreed⟩ := ih turns _ _ hhead.ledger hforward' hl (by rwa [hhead.size])
      (by omega)
    refine ⟨w', ?_, ?_⟩
    · rw [loop_next (freeTurn_eq ha hi), hloop]
    · have hboth := hhead.append hfreed
      refine ⟨hboth.heap, hboth.ledger, hboth.size, fun j hj => hboth.slots j ?_, hboth.rest⟩
      simpa using hj

/-! ## All slots

  The lists of different slots have no event in common, so each event is deleted once. -/

/-- The events of the first `k` slots. -/
def upTo (lists : Nat → List EventAddr) (k : Nat) : List EventAddr := (List.range k).flatMap lists

/-- The events of the first `k + 1` slots are those of the first `k` and one list more. -/
theorem upTo_succ (lists : Nat → List EventAddr) (k : Nat) :
    upTo lists (k + 1) = upTo lists k ++ lists k := by
  rw [upTo, List.range_succ, List.flatMap_append, List.flatMap_singleton, upTo]

/-- The events of a slot are in no earlier one. -/
theorem Represents.not_mem_upTo (h : Represents w lists) {k : Nat} (hk : k < w.slotsNum_.toNat)
    (ha : a ∈ lists k) : a ∉ upTo lists k := by
  intro hmem
  obtain ⟨j, hj, haj⟩ := List.mem_flatMap.mp hmem
  have hjk := List.mem_range.mp hj
  obtain ⟨e, he, hslot⟩ := h.home hk ha
  exact h.not_mem he (i := j) (by omega) (by omega) haj

/-- **The slots up to the `k`-th** are emptied. -/
theorem destroy_upTo (h : Represents w lists)
    (hledger : Ledger (number w.heap) w.deleted w.s_numCreated_) {turns : Nat}
    (hturns : ∀ i, i < w.slotsNum_.toNat → (lists i).length < turns) :
    ∀ k, k ≤ w.slotsNum_.toNat → ∃ w', (List.range k).foldlM (freeSlot turns) w = .ok w' ∧
      Freed w w' (List.range k) (upTo lists k) := by
  intro k
  induction k with
  | zero => exact fun _ => ⟨w, rfl, .nil hledger _⟩
  | succ k ih =>
    intro hk
    obtain ⟨w₁, hfold, hfreed⟩ := ih (by omega)
    obtain ⟨p, hp, hlist⟩ := h.slotAt hk
    have hp₁ : w₁.slots_[k]? = some p := by
      rw [hfreed.slots k (by simp), hp]
    have hforward : Forward (links w₁.heap) p (lists k) :=
      hlist.forward.congr fun b hb => by
        rw [links, hfreed.heap, if_neg (h.not_mem_upTo hk hb), links]
    have hlt : k < w₁.slots_.length := (List.getElem?_eq_some_iff.mp hp₁).1
    obtain ⟨w', hloop, hslot⟩ := freeSlot_loop (lists k) turns w₁ p hfreed.ledger hforward
      hlist.nodup hlt (hturns k hk)
    refine ⟨w', ?_, ?_⟩
    · rw [List.range_succ, List.foldlM_append, hfold, ok_bind, List.foldlM_cons, freeSlot,
        slotAt_of_getElem hp₁, ok_bind, hloop, Option.getD_some, ok_bind]
      rfl
    · rw [List.range_succ, upTo_succ]
      exact hfreed.append hslot

/-- **The destructor** deletes every event that is still in the wheel, each once. -/
theorem destroy_eq (h : Sound w) {turns : Nat} (hturns : w.s_numCreated_ < turns) :
    ∃ w', destroy turns w = .ok w' ∧ (∀ a, w'.heap a = none) ∧ w'.deleted.Nodup ∧
      ∀ n, n ∈ w'.deleted ↔ 0 < n ∧ n ≤ w.s_numCreated_ := by
  obtain ⟨lists, hrep⟩ := h.represented
  have hlen : ∀ i, i < w.slotsNum_.toNat → (lists i).length < turns := by
    intro i hi
    have hle := h.length_le hrep hi
    omega
  obtain ⟨w', hfold, hfreed⟩ := destroy_upTo hrep h.ledger hlen _ (Nat.le_refl _)
  have hcreated : w'.s_numCreated_ = w.s_numCreated_ := by rw [hfreed.rest]
  have hempty : ∀ a, w'.heap a = none := by
    intro a
    rw [hfreed.heap]
    split
    · rfl
    · rename_i hnot
      by_contra hne
      obtain ⟨e, ha⟩ := Option.ne_none_iff_exists'.mp hne
      obtain ⟨hlt, hmem⟩ := hrep.listed ha
      exact hnot (List.mem_flatMap.mpr ⟨e.slot, List.mem_range.mpr hlt, hmem⟩)
  refine ⟨w', hfold, hempty, hfreed.ledger.deleted_nodup, fun n => ⟨fun hn => ?_, fun hn => ?_⟩⟩
  · rw [← hcreated]
    exact hfreed.ledger.deleted_range hn
  · refine (hfreed.ledger.all hn.1 (by rw [hcreated]; exact hn.2)).resolve_right ?_
    rintro ⟨a, ha⟩
    rw [number, hempty] at ha
    cases ha

end TimerWheel

end IOEvent
