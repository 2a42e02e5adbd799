/-
  Cancelling a timer that is no longer in the wheel.

  `Sound` holds in every state that calls can reach, whatever the callbacks do and however stale
  the `CancelId`s are: the slots are lists, every event ever created is in the wheel or deleted
  once, and each `CancelId` is a handle to the event it was returned for.

  `cencelUnlock` does not look at `sequence_`.  It dereferences `timer_`, and when that address
  has been used again it takes out the event that lives there now.  So a cancellation is
  `Harmless` when, and only when, the timer of the `CancelId` is still in the wheel.

  An operation takes an event out, adds one, or leaves the events, and each of these keeps
  `Sound`.  By the rules for a turn and for a call (`turn_holds`, `step_holds`) so does whatever
  callbacks do, up to whatever point a run is followed.
-/
import IOEvent.Foundation.Ledger
import IOEvent.TimerWheel.Slots

open Foundation

namespace IOEvent

namespace TimerWheel

/-- The sequence numbers of the events in memory. -/
def number (heap : EventAddr → Option TimerEvent) (a : EventAddr) : Option Nat :=
  (heap a).map TimerEvent.sequence_

/-- What holds of a wheel in every state of every run, also in the middle of a callback: the slots
    are lists, the numbers of the events are those handed out and not deleted (`ledger`), and the
    `i`-th `CancelId` carries the number `i + 1` and the address that this event had (`handle`). A
    `CancelId` whose event is gone stays a handle; its address may hold a younger event by then. -/
structure Sound (w : TimerWheel) : Prop where
  represented : ∃ lists, Represents w lists
  ledger : Ledger (number w.heap) w.deleted w.s_numCreated_
  returned : w.timerIds.length = w.s_numCreated_
  handle : ∀ i id, w.timerIds[i]? = some id →
    ∃ a, id = ⟨i + 1, some a⟩ ∧ Handle (number w.heap) w.s_numCreated_ a (i + 1)
  ts_eq : w.ts_ = 1

/-- A run that is followed only up to here has reached a sound state. -/
def Stopped (f : Fault × TimerWheel) : Prop := f.1 = .unfinished → Sound f.2

variable {w w' : TimerWheel} {lists : Nat → List EventAddr} {a b : EventAddr} {e : TimerEvent}

/-- The wheel of the constructor is sound: no event, no number, no `CancelId`. -/
theorem Sound.allNull (slotsNum : UInt32) (isThreadSave : Bool) (currentSlotPos : Int32) :
    Sound (allNull slotsNum isThreadSave currentSlotPos) where
  represented := ⟨_, .allNull slotsNum isThreadSave currentSlotPos⟩
  ledger := .start
  returned := rfl
  handle := by
    intro i id hi
    cases hi
  ts_eq := rfl

/-- The members that `Sound` does not speak of. -/
theorem Sound.frame (h : Sound w) (pos : Int32) (mutex : Option Bool) (ticks : Nat)
    (ran : List (Nat × Nat)) : Sound { w with
      currentSlotPos_ := pos
      mutex_ := mutex
      ticks := ticks
      ran := ran } where
  represented := by
    obtain ⟨lists, hrep⟩ := h.represented
    exact ⟨lists, hrep.size, hrep.linked, hrep.home, hrep.listed⟩
  ledger := h.ledger
  returned := h.returned
  handle := h.handle
  ts_eq := h.ts_eq

/-! ## The numbers

  An event keeps its number through all that is done to its links and rounds. -/

/-- The number of an event that is there. -/
theorem number_of_heap (ha : w.heap a = some e) : number w.heap a = some e.sequence_ := by
  rw [number, ha, Option.map_some]

/-- Pointers have no part in the numbers. -/
theorem number_rerouted (heap : EventAddr → Option TimerEvent) :
    number (rerouted heap e) = number heap := by
  funext b
  rw [number, number, rerouted, Option.map_map]
  rfl

/-- A removal takes one number away. -/
theorem number_removed : number (w.removed a e).heap = Function.update (number w.heap) a none := by
  funext b
  by_cases hb : b = a
  · subst hb
    rw [number, heap_removed, Function.update_self, Function.update_self, Option.map_none]
  · rw [number, heap_removed, Function.update_of_ne hb, Function.update_of_ne hb]
    exact congrFun (number_rerouted w.heap) b

/-- An addition brings one number in. -/
theorem number_added {p : Option EventAddr} : number (w.added a e p).heap =
    Function.update (number w.heap) a (some e.sequence_) := by
  funext b
  by_cases hb : b = a
  · subst hb
    rw [number, heap_added_self, Function.update_self, Option.map_some]
  · rw [Function.update_of_ne hb, number, number, heap_added, pushed, if_neg hb, Option.map_map]
    rfl

/-- A slot holds no more events than were ever created. -/
theorem Sound.length_le (h : Sound w) (hrep : Represents w lists) {i : Nat}
    (hi : i < w.slotsNum_.toNat) : (lists i).length ≤ w.s_numCreated_ := by
  refine h.ledger.length_le (hrep.nodup hi) fun a ha => ?_
  obtain ⟨e, he, -⟩ := hrep.home hi ha
  exact ⟨_, number_of_heap he⟩

/-! ## What the operations keep

  One lemma for each, and then the induction over the calls inside calls. -/

/-- **A removal keeps it**: the number goes from the live ones to the deleted ones. -/
theorem Sound.removed (h : Sound w) (ha : w.heap a = some e) : Sound (w.removed a e) where
  represented := by
    obtain ⟨lists, hrep⟩ := h.represented
    exact ⟨_, hrep.removed ha⟩
  ledger := by
    rw [number_removed]
    exact h.ledger.delete (number_of_heap ha)
  returned := h.returned
  handle := by
    intro i id hi
    obtain ⟨c, hid, hc⟩ := h.handle i id hi
    refine ⟨c, hid, hc.of_alive ?_⟩
    intro b m hb
    rw [number_removed] at hb
    rcases update_eq_some hb with ⟨-, hm⟩ | ⟨-, hm⟩
    · cases hm
    · exact hm
  ts_eq := h.ts_eq

/-- Rounds have no part in the numbers. -/
theorem number_rotated (ha : w.heap a = some e) (rotation : Int32) :
    number (w.rotated a e rotation).heap = number w.heap := by
  funext b
  by_cases hb : b = a
  · subst hb
    rw [number, heap_rotated_self, number, ha]
    rfl
  · rw [number, heap_rotated, Function.update_of_ne hb, number]

/-- So lowering them keeps it. -/
theorem Sound.rotated (h : Sound w) (ha : w.heap a = some e) (rotation : Int32) :
    Sound (w.rotated a e rotation) where
  represented := by
    obtain ⟨lists, hrep⟩ := h.represented
    exact ⟨lists, hrep.rotated ha rotation⟩
  ledger := by
    rw [number_rotated ha]
    exact h.ledger
  returned := h.returned
  handle := by
    rw [number_rotated ha]
    exact h.handle
  ts_eq := h.ts_eq

/-- **An addition keeps it**: the new number is one higher than all there were, and the new
    `CancelId` is its handle. -/
theorem Sound.withTimer (h : Sound w) (ha : w.heap a = none) (timeout : UInt32) (obj cb : Bool)
    {p : Option EventAddr} (hp : w.slots_[(w.slotFor timeout).toNat]? = some p) :
    Sound (w.withTimer timeout obj cb a p) := by
  have hfree : number w.heap a = none := by rw [number, ha, Option.map_none]
  have hnumber : number (w.withTimer timeout obj cb a p).heap =
      Function.update (number w.heap) a (some (w.s_numCreated_ + 1)) := number_added
  obtain ⟨lists, hrep⟩ := h.represented
  have hrep' := hrep.added (e := w.eventFor timeout obj cb) ha rfl hp
  constructor
  · exact ⟨_, hrep'.size, hrep'.linked, hrep'.home, hrep'.listed⟩
  · -- the numbers on the heap are those of before and the new one
    rw [hnumber]
    exact h.ledger.allocate hfree
  · show (w.timerIds ++ [_]).length = w.s_numCreated_ + 1
    rw [List.length_append, h.returned, List.length_singleton]
  · intro i id hi
    rw [hnumber]
    replace hi : (w.timerIds ++ [⟨w.s_numCreated_ + 1, some a⟩])[i]? = some id := hi
    -- the handles returned before still fit
    rcases Nat.lt_or_ge i w.timerIds.length with hlt | hge
    · rw [List.getElem?_append_left hlt] at hi
      obtain ⟨c, hid, hc⟩ := h.handle i id hi
      exact ⟨c, hid, hc.allocate⟩
    · -- the `CancelId` just returned
      rw [List.getElem?_append_right hge, List.getElem?_singleton] at hi
      have hi0 : i - w.timerIds.length = 0 := by
        by_contra hne
        rw [if_neg hne] at hi
        cases hi
      rw [if_pos hi0] at hi
      obtain rfl : i = w.s_numCreated_ := by
        have := h.returned
        omega
      exact ⟨a, (Option.some.inj hi).symm, .of_allocate h.ledger⟩
  · exact h.ts_eq

/-- A result that is a failure of the program. -/
theorem stopped_error {f : Fault} (hf : f ≠ .unfinished) : Stopped (f, w) := fun h => absurd h hf

/-- The lock has no part in it. -/
theorem Sound.locked (h : Sound w) : Sound w.locked := h.frame _ _ _ _

/-- `lock` keeps it, whether or not the lock can be taken. -/
theorem Sound.lock (h : Sound w) : Holds Sound Stopped w.lock := by
  by_cases hm : w.mutex_ = some true
  · rw [lock_of_held hm]
    exact .error (stopped_error (by decide))
  · rw [lock_of_free hm]
    exact .ok h.locked

/-- Giving the lock back has no part in it either. -/
theorem Sound.unlock (h : Sound w) : Sound w.unlock := h.frame _ _ _ _

/-- `cencelUnlock` keeps it whatever the `CancelId` is: it removes an event, or stops. -/
theorem Sound.cencelUnlock (h : Sound w) (id : CancelId) :
    Holds Sound Stopped (w.cencelUnlock id) := by
  obtain ⟨lists, hrep⟩ := h.represented
  obtain ⟨n, timer⟩ := id
  cases timer with
  | none => exact .ok h
  | some a =>
    cases ha : w.heap a with
    | none =>
      rw [cencelUnlock_of_dead ha]
      exact .error (stopped_error (by decide))
    | some e =>
      rcases Nat.lt_or_ge e.slot (2 ^ 31) with hlt | hge
      · rw [cencelUnlock_eq hrep ha (index_of_lt hlt)]
        exact .ok (h.removed ha)
      · rw [cencelUnlock_far hrep ha hge]
        exact .error (stopped_error (by decide))

/-- `cencel` keeps it too. -/
theorem Sound.cencel (h : Sound w) (id : CancelId) : Holds Sound Stopped (w.cencel id) :=
  h.lock.bind fun _ h => (h.cencelUnlock id).bind fun _ h => .ok h.unlock

/-- Whatever the callback has done, the event that lives at the address now is taken out. -/
theorem Sound.remove (h : Sound w) (a : EventAddr) :
    Holds (fun r => Sound r.1) Stopped (w.remove a) := by
  obtain ⟨lists, hrep⟩ := h.represented
  cases hp : w.slots_[index w.currentSlotPos_]? with
  | none =>
    rw [TimerWheel.remove, slotAt, hp]
    exact .error (stopped_error (by decide))
  | some p =>
    cases ha : w.heap a with
    | none =>
      rw [remove_of_dead ha hp]
      exact .error (stopped_error (by decide))
    | some e =>
      by_cases hpa : p = some a ∨ e.pPrev_ ≠ none
      · rw [remove_eq hrep ha hp hpa]
        exact .ok (h.removed ha)
      · push Not at hpa
        rw [remove_of_head ha hp hpa.1 hpa.2]
        exact .error (stopped_error (by decide))

section Calls

variable {run : TimerEvent → TimerWheel → M TimerWheel}
  (hrun : ∀ e w, Sound w → Holds Sound Stopped (run e w))

include hrun

/-- A turn of the walk keeps it if the callbacks do. -/
theorem sound_turn (s : Option EventAddr × TimerWheel) (h : Sound s.2) :
    Holds (Turn.Holds (fun s => Sound s.2) Sound) Stopped (turn run s) := by
  apply turn_holds hrun _ _ _ s h
  · exact fun w a e rotation h ha => h.rotated ha rotation
  · exact fun w a h => h.remove a
  · exact fun w _ => stopped_error (by decide)

/-- A tick then keeps it, by the turns of its walk. -/
theorem sound_tickUnlock (h : Sound w) (turns : Nat) :
    Holds Sound Stopped (tickUnlock run turns w) := by
  rw [tickUnlock, slotAt]
  cases hp : w.slots_[index w.currentSlotPos_]? with
  | none => exact .error (stopped_error (by decide))
  | some timerEvent =>
    rw [ok_bind]
    have hloop : Holds Sound Stopped
        ((loop (turn run) turns (timerEvent, w)).getD (.error (.unfinished, w))) := by
      cases hr : loop (turn run) turns (timerEvent, w) with
      | none => exact .error fun _ => h
      | some r => exact loop_holds (sound_turn hrun) turns (timerEvent, w) h r hr
    refine hloop.bind fun w' h' => ?_
    rw [advance]
    by_cases hmax : w'.currentSlotPos_ ≠ Int32.maxValue
    · rw [require_pos _ _ hmax, ok_bind, remainder]
      split
      · exact .error (stopped_error (by decide))
      · exact .ok (h'.frame _ _ _ _)
    · rw [require_neg _ _ hmax]
      exact .error (stopped_error (by decide))

/-- So does every call, by induction on how deep the callbacks call. -/
theorem sound_call (turns : Nat) (w : TimerWheel) (c : Call) (h : Sound w) :
    Holds Sound Stopped (call run turns w c) := by
  cases c with
  | addTimer timeout obj cb a =>
    rw [call]
    split
    · rename_i ha
      by_cases hm : w.mutex_ = some true
      · rw [addTimer, lock_of_held hm]
        exact .error (stopped_error (by decide))
      by_cases hn : w.slotsNum_ = 0
      · rw [addTimer, lock_of_free hm, ok_bind, addTimerUnlock_of_zero (w := w.locked) h.ts_eq hn]
        exact .error (stopped_error (by decide))
      · obtain ⟨lists, hrep⟩ := h.represented
        obtain ⟨p, hp, heq⟩ := call_addTimer run turns hrep h.ts_eq hn hm ha timeout obj cb
        rw [call, if_pos ha] at heq
        rw [heq]
        exact .ok (h.withTimer ha timeout obj cb hp)
    · exact .ok h
  | cencel i =>
    rw [call]
    split
    · exact .ok h
    · exact h.cencel _
  | tick =>
    refine h.lock.bind fun w' h' => ?_
    exact (sound_tickUnlock hrun (h'.frame _ _ _ _) turns).bind fun w' h' => .ok h'.unlock

end Calls

/-- **Every call** keeps the wheel sound, with the calls that callbacks make while it runs. -/
theorem sound_step (script : Nat → Behaviour) (turns : Nat) :
    ∀ w c, Sound w → Holds Sound Stopped (step script turns w c) := by
  apply step_holds script
  · exact fun run hrun => sound_call hrun
  · exact fun e w h => h.frame w.currentSlotPos_ w.mutex_ w.ticks
      (w.ran ++ [(e.sequence_, w.ticks)])
  · exact fun w h _ => h

/-- And every run, stopped ones included. -/
theorem sound_run (script : Nat → Behaviour) (turns : Nat) (h : Sound w) (calls : List Call) :
    Holds Sound Stopped (run (step script turns) w calls) :=
  run_keeps (sound_step script turns) calls w h

/-- **Every state that a run reaches is sound.** -/
theorem sound_of_run {script : Nat → Behaviour} {turns : Nat} (h : Sound w) {calls : List Call}
    (hr : run (step script turns) w calls = .ok w') : Sound w' := by
  have hrun := sound_run script turns h calls
  rw [hr] at hrun
  exact holds_ok.mp hrun

/-! ## Harmless cancellations

  The address of a `CancelId` may hold its timer, another one, or none, and the code takes all
  three for the first. -/

/-- `w` is reached by the calls: after the last one, or inside a callback of it. -/
def Reaches (script : Nat → Behaviour) (turns : Nat) (w₀ : TimerWheel) (calls : List Call)
    (w : TimerWheel) : Prop :=
  run (step script turns) w₀ calls = .ok w ∨
    run (step script turns) w₀ calls = .error (.unfinished, w)

/-- `w'` is `w` without the timer number `n`. -/
structure Removes (w w' : TimerWheel) (n : Nat) : Prop where
  timers : ∀ b, w'.timerAt b = if number w.heap b = some n then none else w.timerAt b
  slots : ∀ lists a, Represents w lists → number w.heap a = some n →
    Represents w' fun i => (lists i).erase a
  rest : w' = { w with
    slots_ := w'.slots_
    heap := w'.heap
    deleted := w.deleted ++ [n] }

/-- `cencel(id)` takes out the timer of the `CancelId` if it is in the wheel, and else does
    nothing. -/
def Harmless (w : TimerWheel) (id : CancelId) : Prop :=
  ∃ w', w.cencel id = .ok w' ∧
    ((∃ a, number w.heap a = some id.sequence_) → Removes w w' id.sequence_) ∧
    ((¬ ∃ a, number w.heap a = some id.sequence_) → w' = w)

/-- The timer is in the wheel, in a slot whose number is an `int`, and the call does not come from
    a callback of a wheel that is locked. -/
def Cancellable (w : TimerWheel) (id : CancelId) : Prop :=
  w.mutex_ ≠ some true ∧ ∃ a e, w.heap a = some e ∧ e.sequence_ = id.sequence_ ∧ e.slot < 2 ^ 31

/-- Taking out an event removes the timer with its number, and no other. -/
theorem removes_removed (h : Sound w) (ha : w.heap a = some e) :
    Removes w (w.removed a e) e.sequence_ where
  timers := by
    intro b
    by_cases hb : b = a
    · subst hb
      rw [if_pos (number_of_heap ha), timerAt_removed, if_pos rfl]
    · have hne : number w.heap b ≠ some e.sequence_ :=
        fun hn => hb (h.ledger.unique hn (number_of_heap ha))
      rw [if_neg hne, timerAt_removed, if_neg hb]
  slots := by
    intro lists c hrep hc
    obtain rfl : c = a := h.ledger.unique hc (number_of_heap ha)
    exact hrep.removed ha
  rest := rfl

/-- A `CancelId` that was handed out is harmless exactly when it can be cancelled: on a timer that
    is gone the code reads freed memory, or takes out the younger event at that address. -/
theorem Sound.harmless_iff (h : Sound w) {id : CancelId} (hid : id ∈ w.timerIds) :
    Harmless w id ↔ Cancellable w id := by
  obtain ⟨i, hi⟩ := List.mem_iff_getElem?.mp hid
  obtain ⟨a, rfl, hhandle⟩ := h.handle i id hi
  obtain ⟨lists, hrep⟩ := h.represented
  constructor
  · rintro ⟨w', heq, -, hsame⟩
    have hm : w.mutex_ ≠ some true := by
      intro hm
      rw [TimerWheel.cencel, lock_of_held hm] at heq
      cases heq
    refine ⟨hm, ?_⟩
    cases ha : w.heap a with
    | none =>
      rw [TimerWheel.cencel, lock_of_free hm, ok_bind,
        cencelUnlock_of_dead (w := w.locked) ha] at heq
      cases heq
    | some e =>
      rcases Nat.lt_or_ge e.slot (2 ^ 31) with hlt | hge
      · rw [cencel_eq hrep hm ha hlt] at heq
        cases heq
        -- the event at the address is the timer of the `CancelId`, or else a change is a fault
        by_contra hnot
        have hdead : ¬ ∃ b, number w.heap b = some (i + 1) := by
          rintro ⟨b, hb⟩
          obtain rfl := hhandle.at_home hb
          rw [number_of_heap ha] at hb
          exact hnot ⟨b, e, ha, Option.some.inj hb, hlt⟩
        have hheap := congrArg (fun w => w.heap a) (hsame hdead)
        rw [heap_removed, Function.update_self, ha] at hheap
        cases hheap
      · rw [TimerWheel.cencel, lock_of_free hm, ok_bind,
          cencelUnlock_far hrep.locked (a := a) ha hge] at heq
        cases heq
  · rintro ⟨hm, b, e, hb, hseq, hlt⟩
    have hn : number w.heap b = some (i + 1) := by rw [number_of_heap hb, hseq]
    obtain rfl := hhandle.at_home hn
    refine ⟨_, cencel_eq hrep hm hb hlt (i + 1), fun _ => ?_, fun hnot => absurd ⟨b, hn⟩ hnot⟩
    rw [← hseq]
    exact removes_removed h hb

/-- **Cancelling is harmless exactly while the timer is in the wheel**, in every state that calls
    can reach, between two calls and inside a callback. -/
theorem cencel_harmless_iff (slotsNum : UInt32) (isThreadSave : Bool) (currentSlotPos : Int32)
    (script : Nat → Behaviour) (turns : Nat) (calls : List Call)
    (hw : Reaches script turns (allNull slotsNum isThreadSave currentSlotPos) calls w)
    {id : CancelId} (hid : id ∈ w.timerIds) : Harmless w id ↔ Cancellable w id := by
  have hrun := sound_run script turns (.allNull slotsNum isThreadSave currentSlotPos) calls
  have hsound : Sound w := by
    rcases hw with hw | hw
    · rw [hw] at hrun
      exact holds_ok.mp hrun
    · rw [hw] at hrun
      exact holds_error.mp hrun rfl
  exact hsound.harmless_iff hid

section Examples

/-- Every callback returns without a call. -/
def silent : Nat → Behaviour := fun _ => ⟨true, [], true⟩

/-- A run that shows a value has gone through. -/
theorem ok_of_observed {α : Type} {r : M TimerWheel} {f : TimerWheel → α} {x : α}
    (h : r.toOption.map f = some x) : ∃ w, r = .ok w ∧ f w = x := by
  cases r with
  | error e => cases h
  | ok w => exact ⟨w, rfl, Option.some.inj h⟩

/-- The condition can be met: a timer that waits is cancelled. -/
theorem cencel_harmless_iff_waiting :
    ∃ w, Reaches silent 2 (allNull 2 true 0) [.addTimer 5 false true 0] w ∧
      Harmless w ⟨1, some 0⟩ := by
  obtain ⟨w, hr, hx⟩ := ok_of_observed (x := ([⟨1, some 0⟩],
      some ⟨2, 1, true, false, 1, none, none⟩, some false))
    (f := fun w => (w.timerIds, w.heap 0, w.mutex_))
    (r := run (step silent 2) (allNull 2 true 0) [.addTimer 5 false true 0]) (by decide +kernel)
  simp only [Prod.mk.injEq] at hx
  obtain ⟨hids, hheap, hmutex⟩ := hx
  have hid : ⟨1, some 0⟩ ∈ w.timerIds := by rw [hids]; exact List.mem_singleton_self _
  refine ⟨w, Or.inl hr, ?_⟩
  refine (cencel_harmless_iff 2 true 0 silent 2 [.addTimer 5 false true 0] (Or.inl hr) hid).mpr ?_
  exact ⟨by rw [hmutex]; decide, 0, _, hheap, rfl, by decide⟩

/-- The timer has fired, and its address is used again. -/
def reused : List Call := [.addTimer 1 false true 0, .tick, .tick, .addTimer 5 false true 0]

/-- **A stale cancellation** takes out the timer that lives at the address now, or reads a deleted
    event when none does. -/
theorem stale_cencel :
    (∃ w w', Reaches silent 2 (allNull 2 true 0) reused w ∧ ⟨1, some 0⟩ ∈ w.timerIds ∧
      w.cencel ⟨1, some 0⟩ = .ok w' ∧ number w.heap 0 = some 2 ∧ number w'.heap 0 = none ∧
      ¬ Harmless w ⟨1, some 0⟩) ∧
    ∃ w f, Reaches silent 2 (allNull 2 true 0) (reused.take 3) w ∧ ⟨1, some 0⟩ ∈ w.timerIds ∧
      w.cencel ⟨1, some 0⟩ = .error (.useAfterFree, f) ∧ ¬ Harmless w ⟨1, some 0⟩ := by
  constructor
  · -- `reused` gives the address of the first timer to the second
    obtain ⟨w, hr, hx⟩ := ok_of_observed (x := ([⟨1, some 0⟩, ⟨2, some 0⟩], some 2, some none))
      (f := fun w => (w.timerIds, number w.heap 0,
        (w.cencel ⟨1, some 0⟩).toOption.map fun w' => number w'.heap 0))
      (r := run (step silent 2) (allNull 2 true 0) reused) (by decide +kernel)
    simp only [Prod.mk.injEq] at hx
    obtain ⟨hids, hnumber, hcencel⟩ := hx
    obtain ⟨w', hw', hnumber'⟩ := ok_of_observed hcencel
    refine ⟨w, w', Or.inl hr, by rw [hids]; decide, hw', hnumber, hnumber', ?_⟩
    rintro ⟨w'', heq, hremoves, hsame⟩
    obtain rfl : w' = w'' := Except.ok.inj (hw'.symm.trans heq)
    -- whether or not timer 1 is still there, `cencel` should leave timer 2 alone
    by_cases hpending : ∃ a, number w.heap a = some 1
    · have htimer := (hremoves hpending).timers 0
      rw [if_neg (by rw [hnumber]; decide)] at htimer
      have hsequence := congrArg (Option.map TimerEvent.sequence_) htimer
      simp only [timerAt, Option.map_map] at hsequence
      exact absurd (hnumber'.symm.trans (hsequence.trans hnumber)) (by decide)
    · rw [hsame hpending, hnumber] at hnumber'
      cases hnumber'
  · -- after the first three calls nothing is at the address
    obtain ⟨w, hr, hx⟩ := ok_of_observed (x := ([⟨1, some 0⟩], none, some false))
      (f := fun w => (w.timerIds, w.heap 0, w.mutex_))
      (r := run (step silent 2) (allNull 2 true 0) (reused.take 3)) (by decide +kernel)
    simp only [Prod.mk.injEq] at hx
    obtain ⟨hids, hheap, hmutex⟩ := hx
    have hcencel : w.cencel ⟨1, some 0⟩ = .error (.useAfterFree, w.locked) := by
      rw [cencel, lock_of_free (by rw [hmutex]; decide), ok_bind,
        cencelUnlock_of_dead (w := w.locked) hheap]
      rfl
    refine ⟨w, w.locked, Or.inl hr, by rw [hids]; decide, hcencel, ?_⟩
    rintro ⟨w', heq, -⟩
    rw [hcencel] at heq
    cases heq

end Examples

end TimerWheel

end IOEvent
