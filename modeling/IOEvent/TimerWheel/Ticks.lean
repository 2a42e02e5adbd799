/-
  What a tick does when no callback calls the wheel.

  The walk over the current slot takes the events one by one, and each event it meets either has
  its rotation decremented or is run and taken out (`Walked`), whatever the others are.  The list of
  the slot is split into the events already passed and those still to come; a removal takes an event
  from between the two, so the next pointer read after it is the head of the second part.

  `walk` is by induction on the second part.  The events are different, so what is done to one
  leaves the others as they were (`Walked.cons`).
-/
import IOEvent.TimerWheel.Stale

open Foundation

namespace IOEvent

/-- The event after a walk has met it; `none` when it was due. -/
def TimerEvent.aged (e : TimerEvent) : Option TimerEvent :=
  if 0 < e.rotation_ then some { e with rotation_ := e.rotation_ - 1 } else none

namespace TimerWheel

/-- The wheel when `e.run()` has called nothing of it. -/
def logged (w : TimerWheel) (e : TimerEvent) : TimerWheel :=
  { w with ran := w.ran ++ [(e.sequence_, w.ticks)] }

/-- Whether a walk leaves the event at `b` in its slot. -/
def stays (w : TimerWheel) (b : EventAddr) : Bool :=
  (w.timerAt b).any fun e => decide (0 < e.rotation_)

/-- The numbers of the events at these addresses that are due. -/
def dueIn (w : TimerWheel) (l : List EventAddr) : List Nat :=
  l.filterMap fun b => (w.timerAt b).bind fun e =>
    if 0 < e.rotation_ then none else some e.sequence_

/-- `w'` is `w` after a walk over the events of `l`. -/
structure Walked (w w' : TimerWheel) (l : List EventAddr) : Prop where
  timers : ∀ b, w'.timerAt b = if b ∈ l then (w.timerAt b).bind TimerEvent.aged else w.timerAt b
  ran : w'.ran = w.ran ++ (dueIn w l).map fun n => (n, w.ticks)
  deleted : w'.deleted = w.deleted ++ dueIn w l
  rest : w' = { w with
    slots_ := w'.slots_
    heap := w'.heap
    deleted := w'.deleted
    ran := w'.ran }

variable {w w₁ w' : TimerWheel} {lists : Nat → List EventAddr} {a b : EventAddr} {e : TimerEvent}
  {l : List EventAddr}

/-- Which events of a list are due is read off their data. -/
theorem dueIn_congr (h : ∀ b ∈ l, w'.timerAt b = w.timerAt b) : dueIn w' l = dueIn w l :=
  List.filterMap_congr fun b hb => by rw [h b hb]

/-- A walk over nothing changes nothing. -/
theorem Walked.nil : Walked w w [] where
  timers := by simp
  ran := by simp [dueIn]
  deleted := by simp [dueIn]
  rest := rfl

/-- A walk past one event leaves the others as they are. -/
theorem Walked.others (h : Walked w w' [a]) (ha : a ∉ l) :
    ∀ b ∈ l, w'.timerAt b = w.timerAt b := by
  intro b hb
  have hba : b ≠ a := ne_of_mem_of_not_mem hb ha
  rw [h.timers b, if_neg (by simpa using hba)]

/-- A walk is the walk past its first event and the walk over the rest. The events are different,
    so the second sees them as the first found them. -/
theorem Walked.cons (h : Walked w w₁ [a]) (h' : Walked w₁ w' l) (ha : a ∉ l) :
    Walked w w' (a :: l) := by
  have hsame := h.others ha
  have hticks : w₁.ticks = w.ticks := by rw [h.rest]
  have hdue : dueIn w (a :: l) = dueIn w [a] ++ dueIn w l := by
    rw [dueIn, ← List.singleton_append, List.filterMap_append]
    rfl
  constructor
  · intro b
    by_cases hb : b ∈ l
    · rw [h'.timers b, if_pos hb, hsame b hb, if_pos (List.mem_cons_of_mem a hb)]
    · rw [h'.timers b, if_neg hb, h.timers b]
      simp [hb]
  · rw [h'.ran, h.ran, hticks, dueIn_congr hsame, hdue, List.map_append, List.append_assoc]
  · rw [h'.deleted, h.deleted, dueIn_congr hsame, hdue, List.append_assoc]
  · rw [h'.rest, h.rest]

/-- Which events of a list stay is read off their data too. -/
theorem stays_congr (h : ∀ b ∈ l, w'.timerAt b = w.timerAt b) :
    l.filter w'.stays = l.filter w.stays :=
  List.filter_congr fun b hb => by rw [stays, stays, h b hb]

/-- An event that is not due. -/
theorem Walked.rotated (ha : w.heap a = some e) (hr : 0 < e.rotation_) :
    Walked w (w.rotated a e (e.rotation_ - 1)) [a] where
  timers := by
    intro b
    rw [timerAt_rotated]
    by_cases hb : b = a
    · subst hb
      simp [timerAt_of_heap ha, TimerEvent.aged, hr]
    · simp [hb]
  ran := by simp [dueIn, timerAt_of_heap ha, hr, TimerWheel.rotated]
  deleted := by simp [dueIn, timerAt_of_heap ha, hr, TimerWheel.rotated]
  rest := rfl

/-- An event that is due. -/
theorem Walked.removed (ha : w.heap a = some e) (hr : ¬ 0 < e.rotation_) :
    Walked w ((w.logged e).removed a e) [a] where
  timers := by
    intro b
    rw [timerAt_removed]
    by_cases hb : b = a
    · subst hb
      simp [timerAt_of_heap ha, TimerEvent.aged, hr]
    · simp [hb, timerAt, logged]
  ran := by simp [dueIn, timerAt_of_heap ha, hr, TimerWheel.removed, logged]
  deleted := by simp [dueIn, timerAt_of_heap ha, hr, TimerWheel.removed, logged]
  rest := rfl

/-! ## The walk

  By induction on the events still to come. -/

variable {run : TimerEvent → TimerWheel → M TimerWheel}

/-- A run is entered in the log only. -/
theorem Represents.logged (h : Represents w lists) (e : TimerEvent) :
    Represents (w.logged e) lists := ⟨h.size, h.linked, h.home, h.listed⟩

/-- **A due event is taken out** after its callback, whatever the callback has put in front of it or
    taken from around it; the walk goes on with the event that is behind it then. -/
theorem turn_of_callback {i : Nat} {front rest : List EventAddr} {e₁ : TimerEvent}
    (ha : w.heap a = some e) (hr : ¬ 0 < e.rotation_) (hrun : run e w = .ok w₁)
    (h : Represents w₁ lists) (hi : index w₁.currentSlotPos_ = i) (hlt : i < w₁.slotsNum_.toNat)
    (hl : lists i = front ++ a :: rest) (ha₁ : w₁.heap a = some e₁) :
    turn run (some a, w) = .ok (.next (rest.head?, w₁.removed a e₁)) := by
  have hslot : e₁.slot = i := by
    obtain ⟨x, hx, hx'⟩ := h.home hlt (a := a) (by rw [hl]; simp)
    rw [ha₁] at hx
    cases hx
    exact hx'
  obtain ⟨p, hp, hlist⟩ := h.slotAt hlt
  have hnext : e₁.pNext_ = rest.head? := by
    rw [hl] at hlist
    exact hlist.next (links_of_heap ha₁)
  have hhead : p = some a ∨ e₁.pPrev_ ≠ none := by
    by_cases hprev : e₁.pPrev_ = none
    · have hp' := (h.pPrev_eq_none ha₁).mp hprev
      rw [hslot, hp] at hp'
      exact Or.inl (Option.some.inj hp')
    · exact Or.inr hprev
  have hremove := remove_eq h ha₁ (p := p) (by rw [hi, hp]) hhead
  rw [turn_of_due ha hr, hrun, ok_bind, hremove, hnext]
  rfl

/-- **The walk** from the first event of `rest` on, which comes after the events of `front` in the
    current slot. -/
theorem walk (hrun : ∀ e w, run e w = .ok (w.logged e)) {i : Nat} :
    ∀ (rest front : List EventAddr) (turns : Nat) (w : TimerWheel) (lists : Nat → List EventAddr),
      Represents w lists → index w.currentSlotPos_ = i → i < w.slotsNum_.toNat →
      lists i = front ++ rest → rest.length < turns →
      ∃ w', loop (turn run) turns (rest.head?, w) = some (.ok w') ∧
        Represents w' (Function.update lists i (front ++ rest.filter w.stays)) ∧
        Walked w w' rest := by
  -- induction on what is left of the list; `front` are the events that stay
  intro rest
  induction rest with
  -- the walk has passed the last event
  | nil =>
    intro front turns w lists h hi hlt hl hturns
    obtain ⟨turns, rfl⟩ : ∃ m, turns = m + 1 := ⟨turns - 1, by simp at hturns; omega⟩
    refine ⟨w, loop_done rfl turns, h.congr fun j _ => ?_, .nil⟩
    by_cases hj : j = i
    · subst hj
      rw [Function.update_self, hl, List.filter_nil]
    · rw [Function.update_of_ne hj]
  -- the event at hand, and what its links say
  | cons a rest ih =>
    intro front turns w lists h hi hlt hl hturns
    rw [List.length_cons] at hturns
    obtain ⟨turns, rfl⟩ : ∃ m, turns = m + 1 := ⟨turns - 1, by omega⟩
    obtain ⟨e, ha, hslot⟩ := h.home hlt (a := a) (by rw [hl]; simp)
    obtain ⟨p, hp, hlist⟩ := h.slotOf ha
    rw [hslot] at hp hlist
    have hnodup := hlist.nodup
    have hnext : e.pNext_ = rest.head? := by
      rw [hl] at hlist
      exact hlist.next (links_of_heap ha)
    have harest : a ∉ rest := by
      rw [hl] at hnodup
      exact (List.nodup_cons.mp (List.nodup_append.mp hnodup).2.1).1
    have hafront : a ∉ front := by
      rw [hl] at hnodup
      exact fun hmem => (List.nodup_append.mp hnodup).2.2 a hmem a List.mem_cons_self rfl
    rw [List.head?_cons]
    by_cases hr : 0 < e.rotation_
    · -- the event stays, and is passed
      have hwalked := Walked.rotated ha hr
      obtain ⟨w', hloop, hrep, hw'⟩ := ih (front ++ [a]) turns _ lists
        (h.rotated ha (e.rotation_ - 1)) hi hlt (by rw [hl, List.append_assoc]; rfl) (by omega)
      refine ⟨w', ?_, ?_, hwalked.cons hw' harest⟩
      · rw [loop_next (turn_of_pos ha hr), hnext, hloop]
      · have hstay : w.stays a = true := by simp [stays, timerAt_of_heap ha, hr]
        rw [stays_congr (hwalked.others harest)] at hrep
        rw [List.filter_cons_of_pos hstay]
        rwa [List.append_assoc, List.singleton_append] at hrep
    · -- the event is taken out
      have hwalked := Walked.removed ha hr
      have hremoved := (h.logged e).removed ha
      have hlists : (lists i).erase a = front ++ rest := by
        rw [hl, List.erase_append_right _ hafront, List.erase_cons_head]
      obtain ⟨w', hloop, hrep, hw'⟩ := ih front turns _ _ hremoved hi hlt hlists (by omega)
      refine ⟨w', ?_, ?_, hwalked.cons hw' harest⟩
      · have hturn : turn run (some a, w) =
            .ok (.next (rest.head?, (w.logged e).removed a e)) :=
          turn_of_callback ha hr (hrun e w) (h.logged e) hi hlt hl ha
        rw [loop_next hturn, hloop]
      · have hstay : ¬ w.stays a = true := by simp [stays, timerAt_of_heap ha, hr]
        rw [List.filter_cons_of_neg hstay, ← stays_congr (hwalked.others harest)]
        refine hrep.congr fun j hj => ?_
        by_cases hji : j = i
        · subst hji
          rw [Function.update_self, Function.update_self]
        · have hj' : j < w.slotsNum_.toNat := by
            rw [hw'.rest] at hj
            exact hj
          rw [Function.update_of_ne hji, Function.update_of_ne hji,
            List.erase_of_not_mem (h.not_mem ha hj' (by omega))]

/-! ## The tick

  The lock, the walk, and the next position. -/

/-- The number of the current slot. -/
def pos (w : TimerWheel) : Nat := w.currentSlotPos_.toUInt32.toNat

/-- `w'` is `w` after a tick; `l` are the events that were in the current slot. -/
structure Ticked (w w' : TimerWheel) (l : List EventAddr) : Prop where
  timers : ∀ b, w'.timerAt b = if b ∈ l then (w.timerAt b).bind TimerEvent.aged else w.timerAt b
  ran : w'.ran = w.ran ++ (dueIn w l).map fun n => (n, w.ticks + 1)
  deleted : w'.deleted = w.deleted ++ dueIn w l
  pos : w'.pos = (w.pos + 1) % w.slotsNum_.toNat
  rest : w' = { w with
    currentSlotPos_ := w'.currentSlotPos_
    slots_ := w'.slots_
    heap := w'.heap
    deleted := w'.deleted
    ticks := w.ticks + 1
    ran := w'.ran }

/-- The position goes on by one slot and round at the end, where the `int` is not at its maximum. -/
theorem advance_of_ne (hmax : w.currentSlotPos_ ≠ Int32.maxValue) (hint : w.pos < 2 ^ 31)
    (hpos : w.pos < w.slotsNum_.toNat) :
    ∃ p : Int32, p.toUInt32.toNat = (w.pos + 1) % w.slotsNum_.toNat ∧
      w.advance = .ok { w with currentSlotPos_ := p } := by
  have hzero : w.slotsNum_ ≠ 0 := by
    intro h0
    rw [h0] at hpos
    exact absurd hpos (Nat.not_lt_zero _)
  have hnext : (w.currentSlotPos_ + 1).toUInt32.toNat = w.pos + 1 := by
    have hadd : (w.currentSlotPos_ + 1).toUInt32 = w.currentSlotPos_.toUInt32 + 1 := rfl
    have hone : (1 : UInt32).toNat = 1 := rfl
    rw [hadd, UInt32.toNat_add, hone, ← pos]
    omega
  refine ⟨((w.currentSlotPos_ + 1).toUInt32 % w.slotsNum_).toInt32, ?_, ?_⟩
  · rw [UInt32.toUInt32_toInt32, UInt32.toNat_mod, hnext]
  · rw [advance, require_pos _ _ hmax, ok_bind, remainder, if_neg hzero]
    rfl

/-- With fewer than `2 ^ 31` slots it never is. -/
theorem advance_eq (hn : w.slotsNum_.toNat < 2 ^ 31) (hpos : w.pos < w.slotsNum_.toNat) :
    ∃ p : Int32, p.toUInt32.toNat = (w.pos + 1) % w.slotsNum_.toNat ∧
      w.advance = .ok { w with currentSlotPos_ := p } := by
  refine advance_of_ne (fun hmax => ?_) (by omega) hpos
  rw [pos, hmax] at hpos
  have hval : Int32.maxValue.toUInt32.toNat = 2 ^ 31 - 1 := by decide
  omega

/-- The wheel when the walk of a tick begins. -/
def ticking (w : TimerWheel) : TimerWheel := { w.locked with ticks := w.ticks + 1 }

/-- The beginning of a tick leaves the lists as they are. -/
theorem Represents.ticking (h : Represents w lists) : Represents w.ticking lists :=
  ⟨h.size, h.linked, h.home, h.listed⟩

/-- The walk begins with the list of the current slot. -/
theorem Represents.first (h : Represents w lists) (hint : w.pos < 2 ^ 31)
    (hpos : w.pos < w.slotsNum_.toNat) :
    w.ticking.slotAt (index w.ticking.currentSlotPos_) = .ok (lists w.pos).head? := by
  obtain ⟨p, hp, hlist⟩ := h.slotAt hpos
  have hindex : index w.ticking.currentSlotPos_ = w.pos := index_of_lt (by rwa [← pos])
  rw [hindex, ← hlist.head]
  exact slotAt_of_getElem hp

/-- A wheel without a mutex has none during the tick. -/
theorem ticking_mutex (hm : w.mutex_ = none) : w.ticking.mutex_ = none := by
  show w.mutex_.map _ = none
  rw [hm, Option.map_none]

/-- A wheel without a mutex is never locked, so its callbacks can call it. -/
theorem unlocked_of_none (hm : w.mutex_ = none) : w.mutex_ ≠ some true := by
  rw [hm]
  exact (Option.some_ne_none true).symm

/-- The call `tick` is `tickUnlock` between taking the lock and giving it back. -/
theorem call_tick (hm : w.mutex_ ≠ some true) (turns : Nat) : call run turns w .tick =
    tickUnlock run turns w.ticking >>= fun w' => .ok w'.unlock := by
  rw [call, tick, lock_of_free hm, ok_bind]
  rfl

/-- **A tick whose callbacks do not call the wheel.** -/
theorem tick_eq (hrun : ∀ e w, run e w = .ok (w.logged e)) (h : Represents w lists)
    (hm : w.mutex_ ≠ some true) (hn : w.slotsNum_.toNat < 2 ^ 31)
    (hpos : w.pos < w.slotsNum_.toNat) (turns : Nat) (hturns : (lists w.pos).length < turns) :
    ∃ w', call run turns w .tick = .ok w' ∧ Ticked w w' (lists w.pos) ∧
      Represents w' (Function.update lists w.pos ((lists w.pos).filter w.stays)) := by
  -- the walk over the whole list, then the advance
  have hi : index w.currentSlotPos_ = w.pos := index_of_lt (by rw [← pos]; omega)
  obtain ⟨w', hloop, hrep', hwalk⟩ := walk hrun (lists w.pos) [] turns _ lists h.ticking hi hpos rfl
    hturns
  have hfields := hwalk.rest
  have hn' : w'.slotsNum_.toNat < 2 ^ 31 := by rw [hfields]; exact hn
  have hpos' : w'.pos < w'.slotsNum_.toNat := by rw [hfields]; exact hpos
  obtain ⟨q, hq, hadvance⟩ := advance_eq hn' hpos'
  refine ⟨({ w' with currentSlotPos_ := q } : TimerWheel).unlock, ?_, ?_,
    hrep'.size, hrep'.linked, hrep'.home, hrep'.listed⟩
  · -- all between the lock and the unlock
    have hunlock : tickUnlock run turns w.ticking = .ok { w' with currentSlotPos_ := q } := by
      rw [tickUnlock, h.first (by omega) hpos, ok_bind, hloop, Option.getD_some, ok_bind, hadvance]
    rw [call_tick hm, hunlock, ok_bind]
  · constructor
    · exact hwalk.timers
    · exact hwalk.ran
    · exact hwalk.deleted
    · show q.toUInt32.toNat = _
      rw [hq, hfields]
      rfl
    · rw [unlock, hfields]
      refine congrArg (fun mutex => { w with
        currentSlotPos_ := q
        slots_ := w'.slots_
        heap := w'.heap
        deleted := w'.deleted
        ticks := w.ticks + 1
        ran := w'.ran
        mutex_ := mutex }) ?_
      exact mutex_unlock hm

end TimerWheel

end IOEvent
