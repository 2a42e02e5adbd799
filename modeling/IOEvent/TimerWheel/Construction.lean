/-
  What the constructor of the wheel establishes.

  Every index that the wheel computes is a remainder by `slotsNum_` or starts from
  `currentSlotPos_`, so all accesses are in range when the first position is and `slots_` has its
  elements.  A wheel for which this holds keeps it, whatever the calls and the callbacks are
  (`index_kept`).

  The constructor does not establish it.  `slots_` is created without an element, so that the
  loop over the slots is out of range at its first turn; and a wheel with no slot, which has no
  turn, has no position either.
-/
import IOEvent.TimerWheel.WellFormed

open Foundation

namespace IOEvent

namespace TimerWheel

variable {w w' : TimerWheel} {a : EventAddr} {e : TimerEvent}

/-- The position is one of a slot, and every slot is an element of `slots_`. -/
structure InRange (w : TimerWheel) : Prop where
  pos_nonneg : 0 ≤ w.currentSlotPos_.toInt
  pos_lt : w.currentSlotPos_.toInt < w.slotsNum_.toNat
  size : w.slots_.length = w.slotsNum_.toNat

/-- An access to `slots_` and a division that the program may evaluate. -/
def InBounds (f : Fault × TimerWheel) : Prop := f.1 ≠ .outOfRange ∧ f.1 ≠ .divisionByZero

/-- The constructor makes a wheel in range, and the calls keep it and access no other element. -/
def Established (slotsNum : UInt32) (isThreadSave : Bool) (position : Int32)
    (script : Nat → Behaviour) (turns : Nat) (calls : List Call) : Prop :=
  Holds InRange InBounds
    (construct slotsNum isThreadSave position >>= fun w => run (step script turns) w calls)

/-! ## The calls

  `Placed` is kept by every call on a wheel whose slots are there; `index_kept` is the end of
  it. -/

/-- A wheel that is in range and whose positions are `int`s. -/
structure Placed (w : TimerWheel) : Prop where
  sound : Sound w
  slots_lt : w.slotsNum_.toNat < 2 ^ 31
  pos_lt : w.pos < w.slotsNum_.toNat

/-- A fault that is neither of the two is within bounds. -/
theorem inBounds {f : Fault} (hf : f ≠ .outOfRange ∧ f ≠ .divisionByZero) : InBounds (f, w) := hf

/-- In a placed wheel no index leaves `slots_`. -/
theorem Placed.inRange (h : Placed w) : InRange w := by
  obtain ⟨lists, hrep⟩ := h.sound.represented
  have hslots := h.slots_lt
  have hlt := h.pos_lt
  have hpos : w.currentSlotPos_.toInt = w.pos := by
    rw [toInt_eq, if_pos (by rw [← pos]; omega), pos]
  exact ⟨by omega, by omega, hrep.size⟩

/-- The members that a position does not depend on. -/
theorem Placed.frame (h : Placed w) (mutex : Option Bool) (ticks : Nat) (ran : List (Nat × Nat)) :
    Placed { w with
      mutex_ := mutex
      ticks := ticks
      ran := ran } :=
  ⟨h.sound.frame w.currentSlotPos_ mutex ticks ran, h.slots_lt, h.pos_lt⟩

/-- Taking out an event changes neither the number of the slots nor the position. -/
theorem Placed.removed (h : Placed w) (ha : w.heap a = some e) : Placed (w.removed a e) :=
  ⟨h.sound.removed ha, h.slots_lt, h.pos_lt⟩

/-- The position is read as the index it is, since it is no negative `int`. -/
theorem Placed.index_eq (h : Placed w) : index w.currentSlotPos_ = w.pos :=
  index_of_lt (by
    have hslots := h.slots_lt
    have hlt := h.pos_lt
    rw [← pos]
    omega)

/-- Taking the lock keeps it. -/
theorem Placed.lock (h : Placed w) : Holds Placed InBounds w.lock := by
  by_cases hm : w.mutex_ = some true
  · rw [lock_of_held hm]
    exact .error (inBounds (by decide))
  · rw [lock_of_free hm]
    exact .ok (h.frame _ w.ticks w.ran)

/-- `cencel` keeps it, also where it stops on a dead address. -/
theorem Placed.cencel (h : Placed w) (id : CancelId) : Holds Placed InBounds (w.cencel id) := by
  refine h.lock.bind fun w' h' => Holds.bind (P := Placed) ?_ fun w'' h'' =>
    .ok (h''.frame _ w''.ticks w''.ran)
  obtain ⟨lists, hrep⟩ := h'.sound.represented
  obtain ⟨n, timer⟩ := id
  cases timer with
  | none => exact .ok h'
  | some a =>
    cases ha : w'.heap a with
    | none =>
      rw [cencelUnlock_of_dead ha]
      exact .error (inBounds (by decide))
    | some e =>
      -- the slot of an event in the wheel is an `int`
      have hlisted := (hrep.listed ha).1
      have hslots := h'.slots_lt
      rw [cencelUnlock_eq hrep ha (index_of_lt (show e.slot < 2 ^ 31 by omega))]
      exact .ok (h'.removed ha)

/-- The removal of a due event keeps it. -/
theorem Placed.remove (h : Placed w) (a : EventAddr) :
    Holds (fun r => Placed r.1) InBounds (w.remove a) := by
  obtain ⟨lists, hrep⟩ := h.sound.represented
  obtain ⟨p, hp, -⟩ := hrep.slotAt h.pos_lt
  rw [← h.index_eq] at hp
  cases ha : w.heap a with
  | none =>
    rw [remove_of_dead ha hp]
    exact .error (inBounds (by decide))
  | some e =>
    by_cases hpa : p = some a ∨ e.pPrev_ ≠ none
    · rw [remove_eq hrep ha hp hpa]
      exact .ok (h.removed ha)
    · push Not at hpa
      rw [remove_of_head ha hp hpa.1 hpa.2]
      exact .error (inBounds (by decide))

section Calls

variable {run : TimerEvent → TimerWheel → M TimerWheel}
  (hrun : ∀ e w, Placed w → Holds Placed InBounds (run e w))

include hrun

/-- One turn of the walk keeps it, callbacks and all. -/
theorem placed_turn (s : Option EventAddr × TimerWheel) (h : Placed s.2) :
    Holds (Turn.Holds (fun s => Placed s.2) Placed) InBounds (turn run s) := by
  apply turn_holds hrun _ _ _ s h
  · exact fun w a e rotation h ha => ⟨h.sound.rotated ha rotation, h.slots_lt, h.pos_lt⟩
  · exact fun w a h => h.remove a
  · exact fun w _ => inBounds (by decide)

/-- The whole tick keeps it: the position stays below the number of slots. -/
theorem placed_tickUnlock (h : Placed w) (turns : Nat) :
    Holds Placed InBounds (tickUnlock run turns w) := by
  obtain ⟨lists, hrep⟩ := h.sound.represented
  obtain ⟨p, hp, -⟩ := hrep.slotAt h.pos_lt
  rw [← h.index_eq] at hp
  rw [tickUnlock, slotAt_of_getElem hp, ok_bind]
  have hloop : Holds Placed InBounds
      ((loop (turn run) turns (p, w)).getD (.error (.unfinished, w))) := by
    cases hr : loop (turn run) turns (p, w) with
    | none => exact .error (inBounds (by decide))
    | some r => exact loop_holds (placed_turn hrun) turns (p, w) h r hr
  refine hloop.bind fun w' h' => ?_
  obtain ⟨q, hq, hadvance⟩ := advance_eq h'.slots_lt h'.pos_lt
  rw [hadvance]
  refine .ok ⟨h'.sound.frame q w'.mutex_ w'.ticks w'.ran, h'.slots_lt, ?_⟩
  show q.toUInt32.toNat < w'.slotsNum_.toNat
  rw [hq]
  exact Nat.mod_lt _ (Nat.lt_of_le_of_lt (Nat.zero_le _) h'.pos_lt)

/-- **Every call keeps it**, so an access outside `slots_` needs a wheel that never was placed. -/
theorem placed_call (turns : Nat) (w : TimerWheel) (c : Call) (h : Placed w) :
    Holds Placed InBounds (call run turns w c) := by
  cases c with
  | addTimer timeout obj cb a =>
    rw [call]
    split
    · rename_i ha
      -- `addTimer` inside a callback of a thread safe wheel: the lock is held
      by_cases hm : w.mutex_ = some true
      · rw [addTimer, lock_of_held hm]
        exact .error (inBounds (by decide))
      · have hn : w.slotsNum_ ≠ 0 := by
          intro h0
          have hlt := h.pos_lt
          rw [h0] at hlt
          exact absurd hlt (Nat.not_lt_zero _)
        -- otherwise the new event goes to a slot of the wheel
        obtain ⟨lists, hrep⟩ := h.sound.represented
        obtain ⟨p, hp, heq⟩ := call_addTimer run turns hrep h.sound.ts_eq hn hm ha timeout obj cb
        rw [call, if_pos ha] at heq
        rw [heq]
        exact .ok ⟨h.sound.withTimer ha timeout obj cb hp, h.slots_lt, h.pos_lt⟩
    · exact .ok h
  | cencel i =>
    rw [call]
    split
    · exact .ok h
    · exact h.cencel _
  | tick =>
    -- the walk keeps the slots, and the lock is given back after it
    refine h.lock.bind fun w' h' => ?_
    exact (placed_tickUnlock hrun (h'.frame w'.mutex_ _ w'.ran) turns).bind fun w'' h'' =>
      .ok (h''.frame _ w''.ticks w''.ran)

end Calls

/-- Every call, with the calls that callbacks make while it runs. -/
theorem placed_step (script : Nat → Behaviour) (turns : Nat) :
    ∀ w c, Placed w → Holds Placed InBounds (step script turns w c) := by
  apply step_holds script
  · exact fun run hrun => placed_call hrun
  · exact fun e w h => h.frame w.mutex_ w.ticks (w.ran ++ [(e.sequence_, w.ticks)])
  · exact fun w _ => inBounds (by decide)

/-- **A wheel in range stays in range**, over any calls and whatever the callbacks call. -/
theorem index_kept (script : Nat → Behaviour) (turns : Nat) (h : Placed w) (calls : List Call) :
    Holds InRange InBounds (run (step script turns) w calls) :=
  (run_keeps (placed_step script turns) calls w h).mono (fun _ h => h.inRange) fun _ hf => hf

/-! ## The constructor

  The loop assigns to elements that `slots_` does not have, so it fails in its first turn.
  With no slots at all it does not, and then no position is in range. -/

/-- The first turn of the loop writes to `slots_[0]`, of a buffer that is empty. -/
theorem construct_of_pos {slotsNum : UInt32} (h : slotsNum.toNat ≠ 0) (isThreadSave : Bool)
    (position : Int32) : construct slotsNum isThreadSave position =
      .error (.outOfRange, initialized slotsNum isThreadSave position) := by
  obtain ⟨n, hn⟩ := Nat.exists_eq_succ_of_ne_zero h
  have hempty : ¬ 0 < (initialized slotsNum isThreadSave position).slots_.length :=
    Nat.not_lt_zero 0
  rw [construct, hn, List.range_succ_eq_map, List.foldlM_cons, setSlot, if_neg hempty, error_bind]

/-- With no slots the constructor has nothing to do, and the wheel is there. -/
theorem construct_of_zero {slotsNum : UInt32} (h : slotsNum.toNat = 0) (isThreadSave : Bool)
    (position : Int32) : construct slotsNum isThreadSave position =
      .ok (initialized slotsNum isThreadSave position) := by
  rw [construct, h]
  rfl

/-- A wheel without a slot, and so without a timer. -/
structure Slotless (w : TimerWheel) : Prop where
  slotsNum : w.slotsNum_ = 0
  slots : w.slots_ = []
  timerIds : w.timerIds = []
  ts_eq : w.ts_ = 1
  unlocked : w.mutex_ ≠ some true

/-- An addition divides by zero, and a tick reads `slots_`; there is nothing to cancel. -/
theorem Slotless.call (h : Slotless w) (run : TimerEvent → TimerWheel → M TimerWheel) (turns : Nat)
    (c : Call) : Holds Slotless (fun f => ¬ InBounds f) (call run turns w c) := by
  cases c with
  | addTimer timeout obj cb a =>
    rw [TimerWheel.call]
    split
    · rw [addTimer, lock_of_free h.unlocked, ok_bind,
        addTimerUnlock_of_zero (w := w.locked) h.ts_eq h.slotsNum]
      exact .error fun hf => hf.2 rfl
    · exact .ok h
  | cencel i =>
    rw [TimerWheel.call, h.timerIds, List.getElem?_nil]
    exact .ok h
  | tick =>
    rw [TimerWheel.call, tick, lock_of_free h.unlocked, ok_bind, tickUnlock, slotAt]
    have hnone : w.slots_[index w.currentSlotPos_]? = none := by
      rw [h.slots, List.getElem?_nil]
    split
    · rename_i p hp
      cases hnone.symm.trans hp
    · exact .error fun hf => hf.1 rfl

/-- A wheel without slots stays one, and what stops a call of it is an index or a division. -/
theorem Slotless.run (h : Slotless w) (script : Nat → Behaviour) (turns : Nat) (calls : List Call) :
    Holds Slotless (fun f => ¬ InBounds f) (run (step script turns) w calls) := by
  refine run_keeps (fun w c h => ?_) calls w h
  cases turns with
  | zero => exact h.call _ _ c
  | succ turns => exact h.call _ _ c

/-- No position is in range of no slots. -/
theorem Slotless.not_inRange (h : Slotless w) : ¬ InRange w := by
  intro hr
  have hnonneg := hr.pos_nonneg
  have hlt := hr.pos_lt
  rw [h.slotsNum] at hlt
  exact absurd (Int.lt_of_le_of_lt hnonneg hlt) (by decide)

/-- **The constructor establishes its index invariant** for no number of slots. -/
theorem never_established (slotsNum : UInt32) (isThreadSave : Bool) (position : Int32)
    (script : Nat → Behaviour) (turns : Nat) (calls : List Call) :
    ¬ Established slotsNum isThreadSave position script turns calls := by
  rw [Established]
  by_cases h : slotsNum.toNat = 0
  · have hslotless : Slotless (initialized slotsNum isThreadSave position) := by
      refine ⟨UInt32.toNat_inj.mp h, rfl, rfl, rfl, ?_⟩
      cases isThreadSave <;> simp [initialized]
    rw [construct_of_zero h, ok_bind]
    have hrun := hslotless.run script turns calls
    generalize Foundation.run (step script turns) _ calls = r at hrun
    intro hall
    cases hrun with
    | ok hw => exact hw.not_inRange (holds_ok.mp hall)
    | error hf => exact hf (holds_error.mp hall)
  · rw [construct_of_pos h, error_bind]
    exact fun hall => (holds_error.mp hall).1 rfl

section Examples

/-- **The default wheel** is not even constructed. -/
theorem default_not_established : ¬ Established 512 true 0 silent 1 [] := by
  rw [Established, construct_of_pos (by decide), error_bind]
  exact fun hall => (holds_error.mp hall).1 rfl

end Examples

end TimerWheel

end IOEvent
