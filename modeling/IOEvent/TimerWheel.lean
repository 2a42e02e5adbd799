/-
  `TimerEvent` and `TimerWheel` (TimerWheel.h, TimerWheel.cpp).

  The `TimerEvent`s live in memory at addresses and are linked through `pPrev_` and `pNext_` into
  the lists whose heads are in `slots_`.  The memory is part of the state: a use of a deleted event
  and a null pointer are faults, and so are an index outside `slots_`, a division by zero, the
  overflow of an `int`, and a thread that locks the mutex it holds.  `new` returns an address where
  no event lives, which may be one that was used before.

  `ticks`, `ran`, `deleted` and `timerIds` are the history of the wheel; no function reads them.
  Nor does any read a sequence number, and the numbers here do not wrap at 2^32, so that each names
  one event.

  `tickUnlock` runs callbacks while it walks a slot.  What they do is the `script`: the
  `Behaviour` of each `run()`, in the order of these calls.  A callback may call the wheel, and it
  need not return; a run of the program may be looked at up to a point inside a callback, and then
  the state reached is the one that comes with `unfinished`.
-/
import IOEvent.Foundation.Loops
import IOEvent.Foundation.Words
import Mathlib.Logic.Function.Basic

open Foundation

namespace IOEvent

/-! ## Events

  An event is known by its address, and by its number, which only the statements look at. -/

/-- The address of a `TimerEvent`; a `TimerEvent *` is `none` when it is null. -/
abbrev EventAddr := Nat

/-- `callback_` is whether the function is not empty, `tied_` whether `tie_` was set. -/
structure TimerEvent where
  rotation_ : Int32
  timerSlot_ : Int32
  callback_ : Bool
  tied_ : Bool
  sequence_ : Nat
  pPrev_ : Option EventAddr
  pNext_ : Option EventAddr
  deriving DecidableEq, Repr

namespace TimerEvent

/-- The constructor; `sequence` is `++s_numCreated_`. -/
def new (rotation timerSlot : Int32) (callback obj : Bool) (sequence : Nat) : TimerEvent where
  rotation_ := rotation
  timerSlot_ := timerSlot
  callback_ := callback
  tied_ := obj
  sequence_ := sequence
  pPrev_ := none
  pNext_ := none

/-- Whether `run()` calls the callback; `guard` is whether `tie_.lock()` gives an object. -/
def run (e : TimerEvent) (guard : Bool) : Bool :=
  if e.callback_ then
    if e.tied_ then guard else true
  else
    false

end TimerEvent

/-- What `addTimer` returns: the number of the timer and the address of its event. The address may
    since hold another event, or none; the code never compares the number. -/
structure CancelId where
  sequence_ : Nat
  timer_ : Option EventAddr
  deriving DecidableEq, Repr

/-! ## The wheel

  The members in the order of the source, then the memory and the history. -/

/-- `mutex_` is `none` for a wheel without a mutex, and else whether the mutex is locked. -/
structure TimerWheel where
  slotsNum_ : UInt32
  ts_ : UInt32
  currentSlotPos_ : Int32
  mutex_ : Option Bool
  slots_ : List (Option EventAddr)
  s_numCreated_ : Nat
  heap : EventAddr → Option TimerEvent
  deleted : List Nat
  timerIds : List CancelId
  /-- How many calls of `tick` have begun. -/
  ticks : Nat
  /-- The sequence numbers of the events run, with the value of `ticks` at that time. -/
  ran : List (Nat × Nat)

namespace TimerWheel

/-- How a call can go wrong in a way that the language leaves undefined, or never come back. -/
inductive Fault
  | nullPointer
  /-- A read or write of a `TimerEvent` that has been deleted. -/
  | useAfterFree
  /-- A `delete` of a `TimerEvent` that has been deleted. -/
  | doubleFree
  /-- An index that is not below `slots_.size()`. -/
  | outOfRange
  | divisionByZero
  | overflow
  | deadlock
  /-- Not a failure: the run has been followed up to here only. -/
  | unfinished
  deriving DecidableEq, Repr

/-- A call returns with the wheel it leaves behind, or stops with the fault and the wheel at that
    point. -/
abbrev M (α : Type) := Outcome Fault TimerWheel α

/-- A wheel whose slots are all null. -/
def allNull (slotsNum : UInt32) (isThreadSave : Bool) (currentSlotPos : Int32) : TimerWheel where
  slotsNum_ := slotsNum
  ts_ := 1
  currentSlotPos_ := currentSlotPos
  mutex_ := if isThreadSave then some false else none
  slots_ := List.replicate slotsNum.toNat none
  s_numCreated_ := 0
  heap := fun _ => none
  deleted := []
  timerIds := []
  ticks := 0
  ran := []

/-! ### Memory

  A pointer that is null and an event that was deleted are told apart, as two faults. -/

/-- `new TimerEvent(rotation, timerSlot, cb, obj)` at the address `a`. -/
def allocate (w : TimerWheel) (a : EventAddr) (rotation timerSlot : Int32) (cb obj : Bool) :
    TimerWheel :=
  { w with
    s_numCreated_ := w.s_numCreated_ + 1
    heap := Function.update w.heap a
      (some (.new rotation timerSlot cb obj (w.s_numCreated_ + 1))) }

/-- The `TimerEvent` at an address. -/
def deref (w : TimerWheel) (a : EventAddr) : M TimerEvent :=
  match w.heap a with
  | some e => .ok e
  | none => .error (.useAfterFree, w)

/-- The address a pointer holds when it is dereferenced. -/
def nonNull (w : TimerWheel) (p : Option EventAddr) : M EventAddr :=
  match p with
  | some a => .ok a
  | none => .error (.nullPointer, w)

/-- A write to a member of the `TimerEvent` at `a`. -/
def modify (w : TimerWheel) (a : EventAddr) (f : TimerEvent → TimerEvent) : M TimerWheel := do
  let e ← w.deref a
  return { w with heap := Function.update w.heap a (some (f e)) }

/-- `if (next) next->pPrev_ = prev`. -/
def setPrev (w : TimerWheel) (next prev : Option EventAddr) : M TimerWheel :=
  match next with
  | none => return w
  | some next => w.modify next fun n => { n with pPrev_ := prev }

/-- `delete timer`. -/
def delete (w : TimerWheel) (a : EventAddr) : M TimerWheel :=
  match w.heap a with
  | some e =>
    .ok { w with heap := Function.update w.heap a none, deleted := w.deleted ++ [e.sequence_] }
  | none => .error (.doubleFree, w)

/-! ### `slots_` and arithmetic

  An index, a quotient and a remainder are asked for their conditions where the source
  computes them. -/

/-- The `size_t` an `int` becomes as an index. -/
def index (pos : Int32) : Nat := toUnsigned 64 pos.toInt

/-- `slots_[i]`. -/
def slotAt (w : TimerWheel) (i : Nat) : M (Option EventAddr) :=
  match w.slots_[i]? with
  | some p => .ok p
  | none => .error (.outOfRange, w)

/-- `slots_[i] = p`. -/
def setSlot (w : TimerWheel) (i : Nat) (p : Option EventAddr) : M TimerWheel :=
  if i < w.slots_.length then .ok { w with slots_ := w.slots_.set i p }
  else .error (.outOfRange, w)

/-- `a / b`, where a zero divisor is undefined. -/
def divide (w : TimerWheel) (a b : UInt32) : M UInt32 :=
  if b = 0 then .error (.divisionByZero, w) else .ok (a / b)

/-- `a % b`, likewise. -/
def remainder (w : TimerWheel) (a b : UInt32) : M UInt32 :=
  if b = 0 then .error (.divisionByZero, w) else .ok (a % b)

/-! ### The lock

  The mutex is not recursive, and a callback runs while `tick` holds it. -/

/-- `std::unique_lock<std::mutex> lock(*mutex_)`, when there is a mutex. -/
def lock (w : TimerWheel) : M TimerWheel := do
  require (w.mutex_ ≠ some true) .deadlock w
  return { w with mutex_ := w.mutex_.map fun _ => true }

/-- The end of the scope of `lock`. -/
def unlock (w : TimerWheel) : TimerWheel := { w with mutex_ := w.mutex_.map fun _ => false }

/-! ### `addTimer`

  The slot and the rounds are computed in `uint32_t`, and kept as `int`s. -/

/-- The `tick` of `addTimerUnlock`. -/
def tickFor (w : TimerWheel) (timeout : UInt32) : M Int32 :=
  if timeout < w.ts_ then return 1
  else do
    let tick ← w.divide timeout w.ts_
    return tick.toInt32

/-- `timerEvent`, which lives at `a`, becomes the head of `slots_[pos]`. -/
def pushSlot (w : TimerWheel) (pos : Nat) (a : EventAddr) : M TimerWheel := do
  let head ← w.slotAt pos
  match head with
  | none => w.setSlot pos (some a)
  | some curSlot =>
    let w ← w.modify a fun e => { e with pNext_ := some curSlot }
    let w ← w.modify curSlot fun e => { e with pPrev_ := some a }
    w.setSlot pos (some a)

/-- `addTimerUnlock`: the deadline is counted from the current slot, in turns of the wheel and a
    slot. The new event at `a` goes in front of the list of that slot, even while the walk over
    that very slot is under way. -/
def addTimerUnlock (w : TimerWheel) (timeout : UInt32) (obj cb : Bool) (a : EventAddr) :
    M (TimerWheel × CancelId) := do
  let tick ← w.tickFor timeout
  -- an `int` and a `uint32_t` are divided, and added, as `uint32_t`s
  let rotation ← w.divide tick.toUInt32 w.slotsNum_
  let offset ← w.remainder tick.toUInt32 w.slotsNum_
  let pos ← w.remainder (w.currentSlotPos_.toUInt32 + offset) w.slotsNum_
  let w := w.allocate a rotation.toInt32 pos.toInt32 cb obj
  let w ← w.pushSlot pos.toNat a
  let e ← w.deref a
  return (w, ⟨e.sequence_, some a⟩)

/-- `addTimer`: the same under the lock of the wheel. -/
def addTimer (w : TimerWheel) (timeout : UInt32) (obj cb : Bool) (a : EventAddr) :
    M (TimerWheel × CancelId) := do
  let w ← w.lock
  let (w, id) ← w.addTimerUnlock timeout obj cb a
  return (w.unlock, id)

/-! ### `cencel`

  It trusts the pointer in the `CancelId`. -/

/-- The neighbours of `timer`, which is not the head of its list, are linked to each other: the
    lines that `cencelUnlock` and `tickUnlock` have in common. -/
def bypass (w : TimerWheel) (timer : EventAddr) : M TimerWheel := do
  let e ← w.deref timer
  let prev ← w.nonNull e.pPrev_
  let w ← w.modify prev fun p => { p with pNext_ := e.pNext_ }
  let e ← w.deref timer
  w.setPrev e.pNext_ e.pPrev_

/-- `cencelUnlock`: the event that the `CancelId` points to is taken out of its slot and deleted.
    Its address is dereferenced without a check that the event is still the one that was meant. -/
def cencelUnlock (w : TimerWheel) (timeId : CancelId) : M TimerWheel :=
  match timeId.timer_ with
  | none => return w
  | some timer => do
    let e ← w.deref timer
    let pos := index e.timerSlot_
    let head ← w.slotAt pos
    if head = some timer then
      let w ← w.setSlot pos e.pNext_
      let w ← w.setPrev e.pNext_ none
      w.delete timer
    else
      let w ← w.bypass timer
      w.delete timer

/-- `cencel`: the same under the lock of the wheel. -/
def cencel (w : TimerWheel) (timeId : CancelId) : M TimerWheel := do
  let w ← w.lock
  let w ← w.cencelUnlock timeId
  return w.unlock

/-! ### `tick`

  The next event of the walk is read after the callback of the present one, so a callback can
  change which it is. -/

/-- The removal of `timerEvent` after its callback; the second component is the next event of the
    walk. -/
def remove (w : TimerWheel) (timerEvent : EventAddr) : M (TimerWheel × Option EventAddr) := do
  let head ← w.slotAt (index w.currentSlotPos_)
  if head = some timerEvent then
    let e ← w.deref timerEvent
    let w ← w.setSlot (index w.currentSlotPos_) e.pNext_
    let w ← w.delete timerEvent
    let head ← w.slotAt (index w.currentSlotPos_)
    let w ← w.setPrev head none
    let head ← w.slotAt (index w.currentSlotPos_)
    return (w, head)
  else
    let w ← w.bypass timerEvent
    let e ← w.deref timerEvent
    let tmp := e.pNext_
    let w ← w.delete timerEvent
    return (w, tmp)

/-- One turn of the `while` of `tickUnlock`; `run` is what `timerEvent->run()` does. -/
def turn (run : TimerEvent → TimerWheel → M TimerWheel) :
    Option EventAddr × TimerWheel → M (Turn (Option EventAddr × TimerWheel) TimerWheel)
  | (none, w) => return .done w
  | (some timerEvent, w) => do
    let e ← w.deref timerEvent
    let rotation := e.rotation_
    if 0 < rotation then
      let w ← w.modify timerEvent fun e => { e with rotation_ := rotation - 1 }
      let e ← w.deref timerEvent
      return .next (e.pNext_, w)
    else
      let w ← run e w
      let (w, timerEvent) ← w.remove timerEvent
      return .next (timerEvent, w)

/-- `currentSlotPos_ = ++currentSlotPos_ % slotsNum_`. -/
def advance (w : TimerWheel) : M TimerWheel := do
  require (w.currentSlotPos_ ≠ Int32.maxValue) .overflow w
  let pos ← w.remainder (w.currentSlotPos_ + 1).toUInt32 w.slotsNum_
  return { w with currentSlotPos_ := pos.toInt32 }

/-- `tickUnlock()`, followed for at most `turns` turns of its loop. -/
def tickUnlock (run : TimerEvent → TimerWheel → M TimerWheel) (turns : Nat) (w : TimerWheel) :
    M TimerWheel := do
  let timerEvent ← w.slotAt (index w.currentSlotPos_)
  let w ← (loop (turn run) turns (timerEvent, w)).getD (.error (.unfinished, w))
  w.advance

/-- `tick`: one `tickUnlock` under the lock, which is held while the callbacks run. -/
def tick (run : TimerEvent → TimerWheel → M TimerWheel) (turns : Nat) (w : TimerWheel) :
    M TimerWheel := do
  let w ← w.lock
  let w ← tickUnlock run turns { w with ticks := w.ticks + 1 }
  return w.unlock

/-! ### The constructor and the destructor

  Both are loops over all slots. -/

/-- The members as the initializers of the constructor leave them.  `currentSlotPos_` has none
    and is whatever was in the memory; `slots_(slotsNum_)` is a buffer with a capacity and no
    element. -/
def initialized (slotsNum : UInt32) (isThreadSave : Bool) (currentSlotPos : Int32) :
    TimerWheel where
  slotsNum_ := slotsNum
  ts_ := 1
  currentSlotPos_ := currentSlotPos
  mutex_ := if isThreadSave then some false else none
  slots_ := []
  s_numCreated_ := 0
  heap := fun _ => none
  deleted := []
  timerIds := []
  ticks := 0
  ran := []

/-- `TimerWheel(slotsNum, isThreadSave)` -/
def construct (slotsNum : UInt32) (isThreadSave : Bool) (currentSlotPos : Int32) : M TimerWheel :=
  (List.range slotsNum.toNat).foldlM (fun w i => w.setSlot i none)
    (initialized slotsNum isThreadSave currentSlotPos)

/-- One turn of the `while` of `~TimerWheel` over `slots_[i]`. -/
def freeTurn (i : Nat) : Option EventAddr × TimerWheel →
    M (Turn (Option EventAddr × TimerWheel) TimerWheel)
  | (none, w) => return .done w
  | (some tmp, w) => do
    let e ← w.deref tmp
    let w ← w.setSlot i e.pNext_
    let w ← w.delete tmp
    let tmp ← w.slotAt i
    return .next (tmp, w)

/-- One slot of `~TimerWheel`: the events of its list are deleted one after the other. -/
def freeSlot (turns : Nat) (w : TimerWheel) (i : Nat) : M TimerWheel := do
  let tmp ← w.slotAt i
  (loop (freeTurn i) turns (tmp, w)).getD (.error (.unfinished, w))

/-- `~TimerWheel()`, followed for at most `turns` turns of its loop over a slot. -/
def destroy (turns : Nat) (w : TimerWheel) : M TimerWheel :=
  (List.range w.slotsNum_.toNat).foldlM (freeSlot turns) w

/-! ## Runs

  A call of the user, with all the calls that are made inside it. -/

/-- A call of the wheel by the user, who may cancel the `i`-th `CancelId` ever returned. -/
inductive Call
  | addTimer (timeout : UInt32) (obj cb : Bool) (a : EventAddr)
  | cencel (i : Nat)
  | tick
  deriving DecidableEq, Repr

/-- What happens in a `run()`: whether the tied object is still there, the calls of the wheel that
    the callback makes, and whether it returns. -/
structure Behaviour where
  guard : Bool
  calls : List Call
  returns : Bool
  deriving DecidableEq, Repr

/-- A call; what cannot happen leaves the wheel as it is. -/
def call (run : TimerEvent → TimerWheel → M TimerWheel) (turns : Nat) (w : TimerWheel) :
    Call → M TimerWheel
  | .addTimer timeout obj cb a =>
    if w.heap a = none then do
      let (w, id) ← w.addTimer timeout obj cb a
      return { w with timerIds := w.timerIds ++ [id] }
    else
      return w
  | .cencel i =>
    match w.timerIds[i]? with
    | none => return w
    | some id => w.cencel id
  | .tick => tick run turns w

/-- `e.run()`, with the calls that the callback makes. -/
def runEvent (script : Nat → Behaviour) (step : TimerWheel → Call → M TimerWheel)
    (e : TimerEvent) (w : TimerWheel) : M TimerWheel :=
  let b := script w.ran.length
  let w := { w with ran := w.ran ++ [(e.sequence_, w.ticks)] }
  if e.run b.guard then do
    let w ← Foundation.run step w b.calls
    require b.returns .unfinished w
    return w
  else
    return w

/-- A call with the calls made by callbacks, followed for at most `turns` turns of a loop and calls
    of `tick` inside each other. -/
def step (script : Nat → Behaviour) : Nat → TimerWheel → Call → M TimerWheel
  | 0 => call (fun _ => .ok) 0
  | turns + 1 => call (runEvent script (step script turns)) (turns + 1)

end TimerWheel

end IOEvent
