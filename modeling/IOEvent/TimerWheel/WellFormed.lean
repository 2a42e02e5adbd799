/-
  The slots of a wheel whose callbacks do not call it, over whole runs.

  `WellFormed` is what the links in memory say: each slot is the head of a doubly linked list
  that ends, its nodes are the events with the number of the slot, and every event is in one
  list, once.  `Changes` is what a call does to these lists.  Both come from `Represents` and
  from the lemmas about the three operations; `Indexed` is what a run keeps, and needs no second
  slot.

  What is taken out is deleted once: by the ledger of the wheel during the run, and by the
  destructor at its end (`DeletesOnce`).
-/
import IOEvent.TimerWheel.Destructor
import IOEvent.TimerWheel.OnTime

open Foundation

namespace IOEvent

namespace TimerWheel

variable {w w' : TimerWheel} {lists lists' : Nat → List EventAddr} {a b : EventAddr}
    {e : TimerEvent}
  {script : Nat → Behaviour} {turns : Nat}

/-! ## The property

  It is stated on the memory, link by link.  The lists are those of `Represents`. -/

/-- The slots are the heads of the lists `lists`. -/
structure WellFormed (w : TimerWheel) (lists : Nat → List EventAddr) : Prop where
  size : w.slots_.length = w.slotsNum_.toNat
  /-- From the slot the next pointers lead through the list to its end. -/
  linked : ∀ (i : Nat) p, w.slots_[i]? = some p → Linked (links w.heap) p (lists i)
  acyclic : ∀ i, i < w.slotsNum_.toNat → (lists i).Nodup
  head : ∀ (i : Nat) a, w.slots_[i]? = some (some a) → ∃ e, w.heap a = some e ∧ e.pPrev_ = none
  inverse : ∀ a b e x, w.heap a = some e → w.heap b = some x →
    (e.pNext_ = some b ↔ x.pPrev_ = some a)
  timerSlot : ∀ i a, i < w.slotsNum_.toNat → a ∈ lists i →
    ∃ e, w.heap a = some e ∧ e.timerSlot_.toInt = i
  once : ∀ a, w.heap a ≠ none → ∃! i, i < w.slotsNum_.toNat ∧ a ∈ lists i

/-- A new timer is in front of one list. -/
structure Added (w : TimerWheel) (lists : Nat → List EventAddr) (w' : TimerWheel)
    (lists' : Nat → List EventAddr) (a : EventAddr) : Prop where
  lists : ∃ i, i < w.slotsNum_.toNat ∧ lists' = Function.update lists i (a :: lists i)
  created : number w'.heap a = some w'.s_numCreated_ ∧ w'.s_numCreated_ = w.s_numCreated_ + 1
  others : ∀ b, b ≠ a → w'.timerAt b = w.timerAt b
  deleted : w'.deleted = w.deleted

/-- The timer of the `CancelId` is taken out of its list, and deleted. -/
structure Cancelled (w : TimerWheel) (lists : Nat → List EventAddr) (w' : TimerWheel)
    (lists' : Nat → List EventAddr) (id : CancelId) : Prop where
  lists : ∃ a, id.timer_ = some a ∧ number w.heap a = some id.sequence_ ∧
    lists' = fun i => (lists i).erase a
  others : ∀ b, w'.timerAt b = if number w.heap b = some id.sequence_ then none else w.timerAt b
  deleted : w'.deleted = w.deleted ++ [id.sequence_]

/-- What a call changes.  `stays` are the timers whose rotation is positive, and `Ticked` says that
    these are decremented and the others of the slot run and deleted. -/
def Changes (w : TimerWheel) (lists : Nat → List EventAddr) (w' : TimerWheel)
    (lists' : Nat → List EventAddr) : Call → Prop
  | .addTimer _ _ _ a =>
    if w.heap a = none then Added w lists w' lists' a else w' = w ∧ lists' = lists
  | .cencel i =>
    match w.timerIds[i]? with
    | some id => Cancelled w lists w' lists' id
    | none => w' = w ∧ lists' = lists
  | .tick =>
    Ticked w w' (lists w.pos) ∧ lists' = Function.update lists w.pos ((lists w.pos).filter w.stays)

/-- Every timer that is no longer in the wheel has been deleted once, and the destructor deletes the
    others, each once. -/
structure DeletesOnce (turns : Nat) (w : TimerWheel) : Prop where
  nodup : w.deleted.Nodup
  deleted : ∀ n, 0 < n → n ≤ w.s_numCreated_ →
    (n ∈ w.deleted ↔ ¬ ∃ a, number w.heap a = some n)
  destructor : ∃ w', destroy turns w = .ok w' ∧ (∀ a, w'.heap a = none) ∧ w'.deleted.Nodup ∧
    ∀ n, n ∈ w'.deleted ↔ 0 < n ∧ n ≤ w.s_numCreated_

/-! ## States

  What holds between two calls, and that it gives the property. -/

/-- What a run keeps. -/
structure Indexed (w : TimerWheel) : Prop where
  sound : Sound w
  slots_lt : w.slotsNum_.toNat < 2 ^ 31
  pos_lt : w.pos < w.slotsNum_.toNat
  unlocked : w.mutex_ ≠ some true

/-- The wheel of the constructor has an index in range. -/
theorem Indexed.allNull {slotsNum : UInt32} (hlt : slotsNum.toNat < 2 ^ 31) (isThreadSave : Bool)
    {position : Int32} (h0 : 0 ≤ position.toInt) (hpos : position.toInt < slotsNum.toNat) :
    Indexed (allNull slotsNum isThreadSave position) where
  sound := .allNull slotsNum isThreadSave position
  slots_lt := hlt
  pos_lt := (toNat_lt_of_toInt h0 hpos).2
  unlocked := by
    cases isThreadSave <;> simp [TimerWheel.allNull]

/-- There is a slot for the index to point at. -/
theorem Indexed.slots_ne (h : Indexed w) : w.slotsNum_ ≠ 0 := by
  intro h0
  have hlt := h.pos_lt
  rw [h0] at hlt
  exact absurd hlt (Nat.not_lt_zero _)

/-- **The property from the invariant.** Every part of it is read off the lists that the slots
    represent. -/
theorem Indexed.wellFormed (h : Indexed w) (hrep : Represents w lists) : WellFormed w lists where
  size := hrep.size
  linked := fun _ _ hp => hrep.linked hp
  acyclic := fun _ hi => hrep.nodup hi
  head := by
    intro i a hi
    obtain ⟨e, ha, hslot⟩ := hrep.slot_of_head hi
    exact ⟨e, ha, (hrep.pPrev_eq_none ha).mpr (by rw [hslot, hi])⟩
  -- either link of a pair is known from the other, by the list of the slot
  inverse := by
    intro a b e x ha hb
    constructor
    · intro hnext
      obtain ⟨p, -, hlist⟩ := hrep.slotOf ha
      obtain ⟨y, hy, hprev⟩ := hlist.prev_of_next (hrep.listed ha).2 (links_of_heap ha) hnext
      rw [links_of_heap hb] at hy
      cases hy
      exact hprev
    · intro hprev
      obtain ⟨p, -, hlist⟩ := hrep.slotOf hb
      obtain ⟨y, hy, hnext⟩ := hlist.next_of_prev (hrep.listed hb).2 (links_of_heap hb) hprev
      rw [links_of_heap ha] at hy
      cases hy
      exact hnext
  timerSlot := by
    intro i a hi ha
    obtain ⟨e, he, hslot⟩ := hrep.home hi ha
    have hlt := h.slots_lt
    refine ⟨e, he, ?_⟩
    have hbits : e.timerSlot_.toUInt32.toNat = i := hslot
    rw [toInt_eq, hbits, if_pos (by omega)]
  -- an event is in the list of its own slot, and in no other
  once := by
    intro a ha
    obtain ⟨e, he⟩ := Option.ne_none_iff_exists'.mp ha
    refine ⟨e.slot, hrep.listed he, fun i hi => ?_⟩
    by_contra hne
    exact hrep.not_mem he hi.1 hne hi.2

/-- The destructor deletes what the ledger still has, each event once. -/
theorem Indexed.deletesOnce (h : Indexed w) (hturns : w.s_numCreated_ < turns) :
    DeletesOnce turns w where
  nodup := h.sound.ledger.deleted_nodup
  deleted := by
    intro n h0 hn
    constructor
    · rintro hmem ⟨a, ha⟩
      exact h.sound.ledger.dead hmem ha
    · exact fun hdead => (h.sound.ledger.all h0 hn).resolve_right hdead
  destructor := destroy_eq h.sound hturns

/-! ## Calls

  What each call does to the lists, and the induction over the run. -/

/-- What a call leads to. -/
structure Leads (script : Nat → Behaviour) (turns : Nat) (w : TimerWheel)
    (lists : Nat → List EventAddr) (c : Call) (w' : TimerWheel) (lists' : Nat → List EventAddr) :
    Prop where
  steps : step script turns w c = .ok w'
  indexed : Indexed w'
  represents : Represents w' lists'
  changes : Changes w lists w' lists' c
  created : w'.s_numCreated_ ≤ w.s_numCreated_ + 1

/-- A call other than `tick`. -/
theorem Indexed.effect (h : Indexed w) (hrep : Represents w lists) {c : Call}
    (hstep : step script turns w c = .ok w') (heffect : Effect w c w') :
    ∃ lists', Leads script turns w lists c w' lists' := by
  -- one case for each thing a call can do
  cases heffect with
  | taken ha =>
    refine ⟨lists, hstep, h, hrep, ?_, Nat.le_succ _⟩
    rw [Changes, if_neg ha]
    exact ⟨rfl, rfl⟩
  | @added timeout obj cb a p ha hp =>
    have hadded := hrep.added (e := w.eventFor timeout obj cb) ha rfl hp
    refine ⟨_, hstep, ?_, ⟨hadded.size, hadded.linked, hadded.home, hadded.listed⟩, ?_,
      Nat.le_refl _⟩
    · exact ⟨h.sound.withTimer ha timeout obj cb hp, h.slots_lt, h.pos_lt, h.unlocked⟩
    · rw [Changes, if_pos ha]
      refine ⟨⟨_, slotFor_lt h.slots_ne timeout, rfl⟩, ⟨?_, rfl⟩, fun b hb => ?_, rfl⟩
      · exact number_of_heap (heap_added_self)
      · rw [timerAt_withTimer, if_neg hb]
  | unknown hi =>
    refine ⟨lists, hstep, h, hrep, ?_, Nat.le_succ _⟩
    rw [Changes, hi]
    exact ⟨rfl, rfl⟩
  | @removed i a e hi ha hseq =>
    have hremoves := removes_removed h.sound ha
    refine ⟨_, hstep, ⟨h.sound.removed ha, h.slots_lt, h.pos_lt, h.unlocked⟩, hrep.removed ha, ?_,
      Nat.le_succ _⟩
    rw [Changes, hi]
    refine ⟨⟨a, rfl, by rw [number_of_heap ha, hseq], rfl⟩, ?_, ?_⟩
    · rw [← hseq]
      exact hremoves.timers
    · rw [← hseq]
      exact congrArg TimerWheel.deleted hremoves.rest

/-- A tick leads to lists again: the current one without the events that were due. -/
theorem Indexed.tick (hscript : Quiet script) (h : Indexed w) (hrep : Represents w lists)
    (hturns : w.s_numCreated_ < turns) :
    ∃ w' lists', Leads script turns w lists .tick w' lists' := by
  obtain ⟨w', hstep, hsound, hticked, hrep'⟩ := hscript.tick h.sound hrep h.unlocked
    h.slots_lt h.pos_lt
    hturns
  have hslots : w'.slotsNum_ = w.slotsNum_ := by rw [hticked.rest]
  refine ⟨w', _, hstep, ⟨hsound, ?_, ?_, ?_⟩, hrep', ⟨hticked, rfl⟩, ?_⟩
  · rw [hslots]
    exact h.slots_lt
  · rw [hticked.pos, hslots]
    exact Nat.mod_lt _ (Nat.lt_of_le_of_lt (Nat.zero_le _) h.pos_lt)
  · rw [hticked.rest]
    exact h.unlocked
  · rw [hticked.rest]
    exact Nat.le_succ _

/-- **One call** of a timer wheel whose callbacks do not call it. -/
theorem Indexed.leads (hscript : Quiet script) (h : Indexed w) (hrep : Represents w lists)
    (hturns : w.s_numCreated_ < turns) {c : Call} (hc : Waiting w c) :
    ∃ w' lists', Leads script turns w lists c w' lists' := by
  by_cases htick : c = .tick
  · subst htick
    exact h.tick hscript hrep hturns
  · obtain ⟨w', heffect, hcall⟩ := h.sound.call_effect h.slots_ne h.slots_lt h.unlocked htick hc
    exact ⟨w', h.effect hrep (step_of_call script hcall turns) heffect⟩

/-- **A run** of such a wheel. -/
theorem Indexed.runs (hscript : Quiet script) : ∀ (calls : List Call) (w : TimerWheel)
    (lists : Nat → List EventAddr), Indexed w → Represents w lists →
    w.s_numCreated_ + calls.length < turns → Guarded (step script turns) Waiting w calls →
    ∃ w' lists', run (step script turns) w calls = .ok w' ∧ Indexed w' ∧ Represents w' lists' ∧
      w'.s_numCreated_ ≤ w.s_numCreated_ + calls.length := by
  intro calls
  induction calls with
  | nil => exact fun w lists h hrep _ _ => ⟨w, lists, rfl, h, hrep, Nat.le_refl _⟩
  | cons c calls ih =>
    intro w lists h hrep hturns hguard
    rw [List.length_cons] at hturns
    have hstart : w.s_numCreated_ < turns := by omega
    obtain ⟨w₁, lists₁, hleads⟩ := h.leads hscript hrep hstart hguard.1
    have hcreated := hleads.created
    obtain ⟨w', lists', hrun, h', hrep', hle⟩ := ih w₁ lists₁ hleads.indexed hleads.represents
      (by omega) (hguard.2 w₁ hleads.steps)
    refine ⟨w', lists', ?_, h', hrep', ?_⟩
    · rw [run_cons, hleads.steps, ok_bind, hrun]
    · rw [List.length_cons]
      omega

/-- **The slots stay lists.** After any calls, and a further one, on a wheel whose callbacks do
    not call it, when only timers in the wheel are cancelled: the slots are well formed, the
    further call changes the lists as it should, and everything taken out is deleted once. -/
theorem slots_stay_lists (slotsNum : UInt32) (hlt : slotsNum.toNat < 2 ^ 31) (isThreadSave : Bool)
    (position : Int32) (h0 : 0 ≤ position.toInt) (hpos : position.toInt < slotsNum.toNat)
    (script : Nat → Behaviour) (hscript : Quiet script) (turns : Nat) (calls : List Call)
    (hturns : calls.length < turns)
    (hguard : Guarded (step script turns) Waiting (allNull slotsNum isThreadSave position) calls) :
    ∃ w lists, run (step script turns) (allNull slotsNum isThreadSave position) calls = .ok w ∧
      WellFormed w lists ∧ DeletesOnce turns w ∧
      ∀ c, Waiting w c → ∃ w' lists', step script turns w c = .ok w' ∧ WellFormed w' lists' ∧
        Changes w lists w' lists' c := by
  have hcreated : (allNull slotsNum isThreadSave position).s_numCreated_ = 0 := rfl
  obtain ⟨w, lists, hrun, h, hrep, hle⟩ := Indexed.runs hscript calls _ _
    (Indexed.allNull hlt isThreadSave h0 hpos) (.allNull slotsNum isThreadSave position)
    (by omega) hguard
  refine ⟨w, lists, hrun, h.wellFormed hrep, h.deletesOnce (by omega), fun c hc => ?_⟩
  have hend : w.s_numCreated_ < turns := by omega
  obtain ⟨w', lists', hleads⟩ := h.leads hscript hrep hend hc
  exact ⟨w', lists', hleads.steps, hleads.indexed.wellFormed hleads.represents, hleads.changes⟩

section Examples

/-- Three timers in one slot, of which the middle one is cancelled, and a tick. -/
def middle : List Call :=
  [.addTimer 2 false true 0, .addTimer 4 false true 1, .addTimer 2 false true 2, .cencel 1, .tick]

/-- Timers in the middle, at the head and at the end of one list, cancelled and ticked: all of it
    is met there. -/
theorem slots_stay_lists_middle :
    Guarded (step silent 20) Waiting (allNull 2 true 0) middle ∧
    ∃ w lists, run (step silent 20) (allNull 2 true 0) middle = .ok w ∧ WellFormed w lists ∧
      DeletesOnce 20 w ∧ ∃ w' lists', step silent 20 w .tick = .ok w' ∧ WellFormed w' lists' ∧
        Changes w lists w' lists' .tick := by
  have hguard : Guarded (step silent 20) Waiting (allNull 2 true 0) middle := by decide +kernel
  obtain ⟨w, lists, hrun, hw, hdeletes, hnext⟩ := slots_stay_lists 2 (by decide) true 0 (by decide)
    (by decide) silent quiet_silent 20 middle (by decide) hguard
  exact ⟨hguard, w, lists, hrun, hw, hdeletes, hnext .tick trivial⟩

end Examples

end TimerWheel

end IOEvent
