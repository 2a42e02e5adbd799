/-
  Cancelling from the callbacks of a tick.

  A tick goes through the list of the current slot.  An event that an earlier callback has
  cancelled is no longer there, one whose rotation is positive is passed, and the others are
  visited: run, with what the callback cancels, and then taken out (`visits`).  `tickUnlock`
  reads the next event after the callback, so it makes no difference whether a callback cancels
  the events around the running one.  When it cancels the running one, what is read is a deleted
  event.

  `Midway` is a state of the walk, seen from the beginning of the tick: `passed` are the events
  the walk is done with, `gone` the numbers of those taken out.  Every part of a turn keeps it,
  and `walk_cancelling` goes through the list with it.

  The proof goes along the visits, which are known before the tick: the walk makes these and no
  others (`walk_cancelling`), by induction on the events that it has still to meet, with
  `Midway` for what has been done.
-/
import IOEvent.TimerWheel.WellFormed

open Foundation

namespace IOEvent

/-- The event with its rotation decremented. -/
def TimerEvent.lowered (e : TimerEvent) : TimerEvent := { e with rotation_ := e.rotation_ - 1 }

namespace TimerWheel

/-! ## What a tick is to do

  It is computed from the lists before the tick and from the script, without the pointers. -/

/-- A run of a timer, and the timers that its callback cancels. -/
structure Visit where
  number : Nat
  cancels : List Nat
  deriving DecidableEq, Repr

/-- The timers that go with the visit, in this order. -/
def Visit.takes (v : Visit) : List Nat := v.cancels ++ [v.number]

/-- The number of the timer that a call cancels. -/
def Call.cancelled : Call → Option Nat
  | .cencel i => some (i + 1)
  | _ => none

/-- The calls made in the `k`-th run, which is one of `e`. -/
def callsOf (script : Nat → Behaviour) (k : Nat) (e : TimerEvent) : List Call :=
  if e.run (script k).guard then (script k).calls else []

/-- The visits of a walk over `l`, when `gone` are the timers already taken out and the next run is
    the `k`-th. -/
def visits (script : Nat → Behaviour) (timer : EventAddr → Option TimerEvent) :
    Nat → List Nat → List EventAddr → List Visit
  | _, _, [] => []
  | k, gone, a :: l =>
    match timer a with
    | none => visits script timer k gone l
    | some e =>
      if e.sequence_ ∈ gone ∨ 0 < e.rotation_ then
        visits script timer k gone l
      else
        ⟨e.sequence_, (callsOf script k e).filterMap Call.cancelled⟩ ::
          visits script timer (k + 1)
            (gone ++ ((callsOf script k e).filterMap Call.cancelled ++ [e.sequence_])) l

/-- The visits of the next tick. -/
def tickVisits (script : Nat → Behaviour) (w : TimerWheel) (l : List EventAddr) : List Visit :=
  visits script w.timerAt w.ran.length [] l

/-- The callbacks only cancel, and return. -/
def Cancelling (script : Nat → Behaviour) : Prop :=
  ∀ k, (∀ c ∈ (script k).calls, ∃ i, c = .cencel i) ∧ (script k).returns = true

/-- Each visit cancels timers that are still in the wheel, up to one that cancels the running
    timer. -/
def CancelsLinked (heap : EventAddr → Option TimerEvent) : List Nat → List Visit → Prop
  | _, [] => True
  | gone, v :: vs => v.cancels.Nodup ∧
    (∀ n ∈ v.cancels, (∃ a, number heap a = some n) ∧ n ∉ gone) ∧
    (v.number ∉ v.cancels → CancelsLinked heap (gone ++ v.takes) vs)

/-- The slot of the timer number `n` is an `int`. -/
def Near (heap : EventAddr → Option TimerEvent) (n : Nat) : Prop :=
  ∀ a e, heap a = some e → e.sequence_ = n → e.slot < 2 ^ 31

/-- No visit cancels the running timer, or a timer whose slot is not an `int`. -/
def Spared (heap : EventAddr → Option TimerEvent) (vs : List Visit) : Prop :=
  ∀ v ∈ vs, v.number ∉ v.cancels ∧ ∀ n ∈ v.cancels, Near heap n

/-- Whether the event at `b` is not one of the timers in `gone`. -/
def kept (heap : EventAddr → Option TimerEvent) (gone : List Nat) (b : EventAddr) : Bool :=
  (number heap b).all fun n => decide (n ∉ gone)

/-- `w'` is `w` after a tick with the visits `vs`; `lists` were the lists of the slots. -/
structure Survives (w w' : TimerWheel) (lists : Nat → List EventAddr) (vs : List Visit) : Prop where
  sound : Sound w'
  /-- The slots are lists of the timers that are neither cancelled nor run, in their order. -/
  represents : Represents w' fun i => (lists i).filter (kept w.heap (vs.flatMap Visit.takes))
  /-- Those of the current slot are decremented, once. -/
  timers : ∀ b, w'.timerAt b = if kept w.heap (vs.flatMap Visit.takes) b then
      if b ∈ lists w.pos then (w.timerAt b).map TimerEvent.lowered else w.timerAt b
    else none
  runs : w'.ran = w.ran ++ vs.map fun v => (v.number, w.ticks + 1)
  once : (vs.map Visit.number).Nodup
  deletes : w'.deleted = w.deleted ++ vs.flatMap Visit.takes

/-- The tick is safe and does what it is to do. -/
def SafeTick (script : Nat → Behaviour) (turns : Nat) (w : TimerWheel)
    (lists : Nat → List EventAddr) : Prop :=
  ∃ w', step script turns w .tick = .ok w' ∧
    Survives w w' lists (tickVisits script w (lists w.pos))

/-! ## States of the walk

  `Midway` relates the wheel in the middle of the walk to the one before it: what has been
  taken out, and what is still as it was. -/

variable {w₀ w w' : TimerWheel} {lists : Nat → List EventAddr} {a b : EventAddr} {e : TimerEvent}
  {passed rest : List EventAddr} {vs : List Visit} {gone : List Nat} {n i : Nat}
  {script : Nat → Behaviour}

/-- `w` is reached by a tick that begins in `w₀`: the walk is done with the events of `passed`, the
    runs are `vs`, and `gone` are the timers taken out. -/
structure Midway (w₀ w : TimerWheel) (lists : Nat → List EventAddr) (passed : List EventAddr)
    (vs : List Visit) (gone : List Nat) : Prop where
  sound : Sound w
  represents : Represents w fun i => (lists i).filter (kept w₀.heap gone)
  timers : ∀ b, w.timerAt b = if kept w₀.heap gone b then
      if b ∈ passed then (w₀.timerAt b).map TimerEvent.lowered else w₀.timerAt b
    else none
  runs : w.ran = w₀.ran ++ vs.map fun v => (v.number, w₀.ticks)
  deletes : w.deleted = w₀.deleted ++ gone
  rest : w = { w₀ with
    slots_ := w.slots_
    heap := w.heap
    deleted := w.deleted
    ran := w.ran }

/-- With nothing taken out every event is kept. -/
theorem kept_nil (heap : EventAddr → Option TimerEvent) (b : EventAddr) :
    kept heap [] b = true := by
  rw [kept]
  cases number heap b <;> simp

/-- An event is kept exactly when its number is not among those taken out. -/
theorem kept_iff {heap : EventAddr → Option TimerEvent} (hb : number heap b = some n) :
    kept heap gone b = true ↔ n ∉ gone := by
  simp [kept, hb]

/-- Being taken out can happen in two steps. -/
theorem kept_append {heap : EventAddr → Option TimerEvent} {gone' : List Nat} :
    kept heap (gone ++ gone') b = true ↔ kept heap gone b = true ∧ kept heap gone' b = true := by
  rw [kept, kept, kept]
  cases number heap b with
  | none => simp
  | some n => simp [not_or]

/-- **At the start of the walk** nothing is passed, nothing has run and nothing is taken out. -/
theorem Midway.start (h : Sound w) (hrep : Represents w lists) : Midway w w lists [] [] [] where
  sound := h
  represents := hrep.congr fun i _ => List.filter_eq_self.mpr fun a _ => kept_nil w.heap a
  timers := fun b => by rw [if_pos (kept_nil w.heap b), if_neg List.not_mem_nil]
  runs := (List.append_nil _).symm
  deletes := (List.append_nil _).symm
  rest := rfl

/-- An event that is in the wheel now was in it at the beginning, and has its number. -/
theorem Midway.number_eq (h : Midway w₀ w lists passed vs gone) (ha : w.heap a = some e) :
    number w₀.heap a = some e.sequence_ ∧ e.sequence_ ∉ gone := by
  have htimer := h.timers a
  rw [timerAt_of_heap ha] at htimer
  split at htimer
  · rename_i hkept
    have hnumber : number w₀.heap a = some e.sequence_ := by
      have hmap := congrArg (Option.map TimerEvent.sequence_) htimer
      rw [Option.map_some] at hmap
      rw [number, hmap]
      split
      · rw [Option.map_map, timerAt, Option.map_map]
        rfl
      · rw [timerAt, Option.map_map]
        rfl
    exact ⟨hnumber, (kept_iff hnumber).mp hkept⟩
  · cases htimer

/-- An event of the beginning that is not gone is still in the wheel, and in its slot. -/
theorem Midway.heap_of_heap (h : Midway w₀ w lists passed vs gone) {x : TimerEvent}
    (ha : w₀.heap a = some x) (hn : x.sequence_ ∉ gone) :
    ∃ e, w.heap a = some e ∧ e.sequence_ = x.sequence_ ∧ e.slot = x.slot := by
  have htimer := h.timers a
  rw [if_pos ((kept_iff (number_of_heap ha)).mpr hn), timerAt_of_heap ha] at htimer
  split at htimer
  · obtain ⟨e, he, hseq, hslot⟩ := heap_of_timerAt htimer
    exact ⟨e, he, hseq, hslot⟩
  · obtain ⟨e, he, hseq, hslot⟩ := heap_of_timerAt htimer
    exact ⟨e, he, hseq, hslot⟩

/-- An event that the walk has not passed is as it was. -/
theorem Midway.timerAt_eq (h : Midway w₀ w lists passed vs gone) (ha : w.heap a = some e)
    (hpassed : a ∉ passed) : w₀.timerAt a = some { e with pPrev_ := none, pNext_ := none } := by
  obtain ⟨hnumber, hn⟩ := h.number_eq ha
  have htimer := h.timers a
  rwa [if_pos ((kept_iff hnumber).mpr hn), if_neg hpassed, timerAt_of_heap ha, eq_comm] at htimer

/-! ## What the parts of a turn do

  Dropping an event, passing one, and what a turn notes in the history. -/

/-- With the number of an event no other event goes. -/
theorem kept_drop (h₀ : Sound w₀) (ha : number w₀.heap a = some n) :
    kept w₀.heap (gone ++ [n]) b = true ↔ kept w₀.heap gone b = true ∧ b ≠ a := by
  rw [kept_append]
  refine and_congr_right fun _ => ?_
  cases hb : number w₀.heap b with
  | none =>
    have hba : b ≠ a := by
      rintro rfl
      rw [ha] at hb
      cases hb
    simp [kept, hb, hba]
  | some m =>
    rw [kept_iff hb, List.mem_singleton]
    refine not_congr ⟨fun hm => ?_, fun hba => ?_⟩
    · exact h₀.ledger.unique (hm ▸ hb) ha
    · subst hba
      exact Option.some.inj (hb.symm.trans ha)

/-- A timer is taken out. -/
theorem Midway.drop (h₀ : Sound w₀) (hrep₀ : Represents w₀ lists)
    (h : Midway w₀ w lists passed vs gone) (ha : w.heap a = some e) :
    Midway w₀ (w.removed a e) lists passed vs (gone ++ [e.sequence_]) := by
  obtain ⟨hnumber, hn⟩ := h.number_eq ha
  have hkept : ∀ b, kept w₀.heap (gone ++ [e.sequence_]) b = true ↔
      kept w₀.heap gone b = true ∧ b ≠ a := fun b => kept_drop h₀ hnumber
  constructor
  · exact h.sound.removed ha
  · refine (h.represents.removed ha).congr fun i hi => ?_
    have hi₀ : i < w₀.slotsNum_.toNat := by
      rw [h.rest] at hi
      exact hi
    rw [((hrep₀.nodup hi₀).filter _).erase_eq_filter, List.filter_filter]
    refine List.filter_congr fun b _ => ?_
    rw [Bool.eq_iff_iff, hkept, Bool.and_eq_true, bne_iff_ne]
    exact and_comm
  · intro b
    rw [timerAt_removed, h.timers]
    by_cases hba : b = a
    · rw [if_pos hba, if_neg fun hk => ((hkept b).mp hk).2 hba]
    · rw [if_neg hba]
      exact if_congr (by rw [hkept, and_iff_left hba]) rfl rfl
  · exact h.runs
  · show w.deleted ++ [e.sequence_] = _
    rw [h.deletes, List.append_assoc]
  · rw [removed, h.rest]

/-- An event that is gone is passed by. -/
theorem Midway.skip (h : Midway w₀ w lists passed vs gone) (ha : ¬ kept w₀.heap gone a = true) :
    Midway w₀ w lists (passed ++ [a]) vs gone := by
  refine ⟨h.sound, h.represents, fun b => ?_, h.runs, h.deletes, h.rest⟩
  rw [h.timers]
  by_cases hb : kept w₀.heap gone b = true
  · have hba : b ≠ a := by
      rintro rfl
      exact ha hb
    simp [hba]
  · rw [if_neg hb, if_neg hb]

/-- An event that is not due is decremented. -/
theorem Midway.rotated (h : Midway w₀ w lists passed vs gone) (ha : w.heap a = some e)
    (hpassed : a ∉ passed) :
    Midway w₀ (w.rotated a e (e.rotation_ - 1)) lists (passed ++ [a]) vs gone := by
  obtain ⟨hnumber, hn⟩ := h.number_eq ha
  refine ⟨h.sound.rotated ha _, h.represents.rotated ha _, fun b => ?_, h.runs, h.deletes, ?_⟩
  · rw [timerAt_rotated]
    by_cases hba : b = a
    · subst hba
      rw [if_pos rfl, if_pos ((kept_iff hnumber).mpr hn), if_pos (by simp), h.timerAt_eq ha hpassed]
      rfl
    · rw [if_neg hba, h.timers]
      simp [hba]
  · rw [TimerWheel.rotated, h.rest]

/-- An event is run. -/
theorem Midway.logged (h : Midway w₀ w lists passed vs gone) {v : Visit}
    (hv : v.number = e.sequence_) : Midway w₀ (w.logged e) lists passed (vs ++ [v]) gone where
  sound := h.sound.frame _ _ _ _
  represents := h.represents.logged e
  timers := h.timers
  runs := by
    have hticks : w.ticks = w₀.ticks := by rw [h.rest]
    rw [TimerWheel.logged, h.runs, hticks, List.map_append, ← hv, List.append_assoc]
    rfl
  deletes := h.deletes
  rest := by
    rw [TimerWheel.logged, h.rest]

/-- The walk is done with an event that has been taken out. -/
theorem Midway.pass (h : Midway w₀ w lists passed vs gone) (ha : w.heap a = none)
    (halive : w₀.heap a ≠ none) : Midway w₀ w lists (passed ++ [a]) vs gone := by
  refine h.skip fun hkept => ?_
  obtain ⟨x, hx⟩ := Option.ne_none_iff_exists'.mp halive
  obtain ⟨y, hy, -⟩ := h.heap_of_heap hx ((kept_iff (number_of_heap hx)).mp hkept)
  rw [ha] at hy
  cases hy

/-! ## A callback

  It cancels timers that are in the wheel, other than its own, one after the other. -/

/-- No mutex appears during a tick. -/
theorem Midway.unlocked (h : Midway w₀ w lists passed vs gone) (hm : w₀.mutex_ = none) :
    w.mutex_ ≠ some true := by
  rw [h.rest]
  exact fun hlocked => by cases hm.symm.trans hlocked

/-- **One cancellation** of a timer that is still in the wheel. -/
theorem Midway.cencel (h₀ : Sound w₀) (hrep₀ : Represents w₀ lists) (hm : w₀.mutex_ = none)
    (h : Midway w₀ w lists passed vs gone) (halive : ∃ a, number w₀.heap a = some (i + 1))
    (hn : i + 1 ∉ gone) (script : Nat → Behaviour) (turns : Nat) :
    (Near w₀.heap (i + 1) → ∃ w', step script turns w (.cencel i) = .ok w' ∧
      Midway w₀ w' lists passed vs (gone ++ [i + 1])) ∧
    (¬ Near w₀.heap (i + 1) → ∃ f, step script turns w (.cencel i) = .error f) := by
  obtain ⟨b, hb⟩ := halive
  -- the event is still on the heap, and its slot is as before the tick
  obtain ⟨x, hx, hxseq⟩ := Option.map_eq_some_iff.mp hb
  obtain ⟨e, he, heseq, hslot⟩ := h.heap_of_heap hx (by rwa [hxseq])
  have hseq : e.sequence_ = i + 1 := heseq.trans hxseq
  have hnumber : number w.heap b = some (i + 1) := by rw [number_of_heap he, hseq]
  have hrange := h.sound.ledger.range hnumber
  -- so the handle that `addTimer` returned points to it
  obtain ⟨id, hid⟩ : ∃ id, w.timerIds[i]? = some id :=
    ⟨_, List.getElem?_eq_getElem (by rw [h.sound.returned]; omega)⟩
  obtain ⟨c, rfl, hhandle⟩ := h.sound.handle i id hid
  obtain rfl := hhandle.at_home hnumber
  have hstep : step script turns w (.cencel i) = w.cencel ⟨i + 1, some b⟩ :=
    step_of_call script (fun run turns => by rw [call, hid]) turns
  rw [hstep]
  constructor
  · -- its slot is an index of type `int`: `cencel` goes through
    intro hnear
    have hint : e.slot < 2 ^ 31 := by
      rw [hslot]
      exact hnear b x hx hxseq
    refine ⟨_, cencel_eq h.represents (h.unlocked hm) he hint (i + 1), ?_⟩
    rw [← hseq]
    exact h.drop h₀ hrep₀ he
  · -- its slot is not: the index of `slots_` is out of range
    intro hfar
    have hge : 2 ^ 31 ≤ e.slot := by
      by_contra hlt
      refine hfar fun c y hc hyseq => ?_
      obtain rfl : c = b := h₀.ledger.unique (by rw [number_of_heap hc, hyseq]) hb
      rw [hx] at hc
      cases hc
      omega
    refine ⟨(.outOfRange, w.locked), ?_⟩
    rw [TimerWheel.cencel, lock_of_free (h.unlocked hm), ok_bind,
      cencelUnlock_far h.represents.locked (w := w.locked) he hge]
    rfl

/-- **The calls of a callback.** -/
theorem Midway.cancels (h₀ : Sound w₀) (hrep₀ : Represents w₀ lists) (hm : w₀.mutex_ = none)
    (script : Nat → Behaviour) (turns : Nat) :
    ∀ (calls : List Call) (w : TimerWheel) (gone : List Nat),
    Midway w₀ w lists passed vs gone → (∀ c ∈ calls, ∃ i, c = .cencel i) →
    (calls.filterMap Call.cancelled).Nodup →
    (∀ n ∈ calls.filterMap Call.cancelled, (∃ a, number w₀.heap a = some n) ∧ n ∉ gone) →
    ((∀ n ∈ calls.filterMap Call.cancelled, Near w₀.heap n) →
      ∃ w', run (step script turns) w calls = .ok w' ∧
        Midway w₀ w' lists passed vs (gone ++ calls.filterMap Call.cancelled)) ∧
    ((¬ ∀ n ∈ calls.filterMap Call.cancelled, Near w₀.heap n) →
      ∃ f, run (step script turns) w calls = .error f) := by
  intro calls
  -- induction on the calls of the callback; `gone` grows by the one before
  induction calls with
  | nil =>
    intro w gone h _ _ _
    refine ⟨fun _ => ⟨w, rfl, ?_⟩, fun hnot => absurd (fun n hn => ?_) hnot⟩
    · rwa [List.filterMap_nil, List.append_nil]
    · exact absurd hn List.not_mem_nil
  | cons c calls ih =>
    intro w gone h hcalls hnodup hlinked
    obtain ⟨i, rfl⟩ := hcalls c List.mem_cons_self
    have hcons : (Call.cencel i :: calls).filterMap Call.cancelled =
        (i + 1) :: calls.filterMap Call.cancelled := rfl
    rw [hcons] at hnodup hlinked ⊢
    obtain ⟨hnot, hnodup'⟩ := List.nodup_cons.mp hnodup
    obtain ⟨halive, hgone⟩ := hlinked (i + 1) List.mem_cons_self
    obtain ⟨hok, hfail⟩ := h.cencel h₀ hrep₀ hm halive hgone script turns
    -- the first call decides whether the others are made
    by_cases hnear : Near w₀.heap (i + 1)
    · obtain ⟨w₁, hstep, h₁⟩ := hok hnear
      obtain ⟨hok', hfail'⟩ := ih w₁ _ h₁ (fun c hc => hcalls c (List.mem_cons_of_mem _ hc)) hnodup'
        fun n hn => by
          obtain ⟨hn₁, hn₂⟩ := hlinked n (List.mem_cons_of_mem _ hn)
          refine ⟨hn₁, fun hmem => ?_⟩
          rcases List.mem_append.mp hmem with hmem | hmem
          · exact hn₂ hmem
          · exact hnot (List.mem_singleton.mp hmem ▸ hn)
      rw [run_cons, hstep, ok_bind]
      constructor
      · intro hall
        obtain ⟨w', hrun, h'⟩ := hok' fun n hn => hall n (List.mem_cons_of_mem _ hn)
        refine ⟨w', hrun, ?_⟩
        rwa [List.append_assoc, List.singleton_append] at h'
      · intro hnotall
        refine hfail' fun hall => hnotall fun n hn => ?_
        rcases List.mem_cons.mp hn with rfl | hn
        · exact hnear
        · exact hall n hn
    · -- the first call fails, and the callback with it
      obtain ⟨f, hstep⟩ := hfail hnear
      rw [run_cons, hstep, error_bind]
      exact ⟨fun hall => absurd (hall (i + 1) List.mem_cons_self) hnear, fun _ => ⟨f, rfl⟩⟩

/-- A callback of the script does its calls and nothing else. -/
theorem runEvent_cancelling (hscript : Cancelling script) (step : TimerWheel → Call → M TimerWheel)
    (e : TimerEvent) (w : TimerWheel) : runEvent script step e w =
      run step (w.logged e) (callsOf script w.ran.length e) := by
  obtain ⟨-, hreturns⟩ := hscript w.ran.length
  rw [TimerWheel.runEvent, callsOf]
  split
  · show (run step (w.logged e) _ >>= _) = _
    cases run step (w.logged e) (script w.ran.length).calls with
    | error f => rfl
    | ok w' => rw [ok_bind, require_pos _ _ hreturns, ok_bind]; rfl
  · rfl

/-! ## The walk

  By induction on the visits that are still to come. -/

/-- An event that was cancelled, or has rounds left, is passed without a run. -/
theorem visits_cons_passed {timer : EventAddr → Option TimerEvent} {k : Nat} {l : List EventAddr}
    (ha : timer a = some e) (h : e.sequence_ ∈ gone ∨ 0 < e.rotation_) :
    visits script timer k gone (a :: l) = visits script timer k gone l := by
  rw [visits, ha]
  exact if_pos h

/-- The visit of an event that is due. -/
def visitOf (script : Nat → Behaviour) (k : Nat) (e : TimerEvent) : Visit :=
  ⟨e.sequence_, (callsOf script k e).filterMap Call.cancelled⟩

/-- An event that is due is visited: its callback runs and what it cancels is added to what is
    taken out. -/
theorem visits_cons_due {timer : EventAddr → Option TimerEvent} {k : Nat} {l : List EventAddr}
    (ha : timer a = some { e with pPrev_ := none, pNext_ := none })
    (h : ¬ (e.sequence_ ∈ gone ∨ 0 < e.rotation_)) : visits script timer k gone (a :: l) =
      visitOf script k e :: visits script timer (k + 1) (gone ++ (visitOf script k e).takes) l := by
  rw [visits, ha]
  exact if_neg h

/-- Being spared is asked of each visit by itself. -/
theorem spared_cons {heap : EventAddr → Option TimerEvent} {v : Visit} :
    Spared heap (v :: vs) ↔
      (v.number ∉ v.cancels ∧ ∀ n ∈ v.cancels, Near heap n) ∧ Spared heap vs := by
  simp [Spared]

/-- What comes of a walk with the visits `vs'`. -/
def WalkEnds (w₀ : TimerWheel) (lists : Nat → List EventAddr) (passed : List EventAddr)
    (vs : List Visit) (gone : List Nat) (vs' : List Visit) (r : Option (M TimerWheel)) : Prop :=
  (Spared w₀.heap vs' ∧ ∃ w', r = some (.ok w') ∧
    Midway w₀ w' lists passed (vs ++ vs') (gone ++ vs'.flatMap Visit.takes)) ∨
  (¬ Spared w₀.heap vs' ∧ ∃ f, r = some (.error f))

/-- How the rest of a walk ends decides how the whole ends, provided that the first visit cancels
    neither itself nor an event with too large a slot. -/
theorem WalkEnds.cons {v : Visit} {vs' : List Visit} {r : Option (M TimerWheel)}
    (hv : v.number ∉ v.cancels ∧ ∀ n ∈ v.cancels, Near w₀.heap n)
    (h : WalkEnds w₀ lists passed (vs ++ [v]) (gone ++ v.takes) vs' r) :
    WalkEnds w₀ lists passed vs gone (v :: vs') r := by
  rcases h with ⟨hspared, w', hr, h'⟩ | ⟨hnot, hr⟩
  · refine Or.inl ⟨spared_cons.mpr ⟨hv, hspared⟩, w', hr, ?_⟩
    rwa [List.append_assoc, List.append_assoc, List.singleton_append] at h'
  · exact Or.inr ⟨fun hspared => hnot (spared_cons.mp hspared).2, hr⟩

/-! ### A visit -/

section Walk

variable (hscript : Cancelling script) (h₀ : Sound w₀) (hrep₀ : Represents w₀ lists)
  (hm : w₀.mutex_ = none) (hi : index w₀.currentSlotPos_ = i) (hlt : i < w₀.slotsNum_.toNat)

include hi hlt in
/-- During the walk the code reads the slot in which it began. -/
theorem Midway.current (h : Midway w₀ w lists passed vs gone) :
    index w.currentSlotPos_ = i ∧ i < w.slotsNum_.toNat := by
  rw [h.rest]
  exact ⟨hi, hlt⟩

/-- The list of the current slot around an event that is still in the wheel. -/
theorem filter_kept_middle (hl : lists i = passed ++ a :: rest) (ha : number w₀.heap a = some n)
    (hn : n ∉ gone) : (lists i).filter (kept w₀.heap gone) =
      passed.filter (kept w₀.heap gone) ++ a :: rest.filter (kept w₀.heap gone) := by
  rw [hl, List.filter_append, List.filter_cons_of_pos ((kept_iff ha).mpr hn)]

include hscript h₀ hrep₀ hm hi hlt

/-- **A visit**: the callback, and the removal after it. -/
theorem Midway.visit (turns : Nat) (h : Midway w₀ w lists passed vs gone)
    (hl : lists i = passed ++ a :: rest) (ha : w.heap a = some e)
    (hr : ¬ 0 < e.rotation_) {v : Visit} (hv : v = visitOf script w.ran.length e)
    (hnodup : v.cancels.Nodup)
    (hlinked : ∀ n ∈ v.cancels, (∃ a, number w₀.heap a = some n) ∧ n ∉ gone) :
    ((v.number ∉ v.cancels ∧ ∀ n ∈ v.cancels, Near w₀.heap n) →
      ∃ w', turn (runEvent script (step script turns)) (some a, w) =
          .ok (.next ((rest.filter (kept w₀.heap (gone ++ v.takes))).head?, w')) ∧
        w'.ran.length = w.ran.length + 1 ∧
        Midway w₀ w' lists (passed ++ [a]) (vs ++ [v]) (gone ++ v.takes)) ∧
    (¬ (v.number ∉ v.cancels ∧ ∀ n ∈ v.cancels, Near w₀.heap n) →
      ∃ f, turn (runEvent script (step script turns)) (some a, w) = .error f) := by
  obtain ⟨hnumber, hgone⟩ := h.number_eq ha
  obtain ⟨x, hx, hxseq⟩ := Option.map_eq_some_iff.mp hnumber
  have hvnumber : v.number = e.sequence_ := by rw [hv]; rfl
  have hvcancels : v.cancels = (callsOf script w.ran.length e).filterMap Call.cancelled := by
    rw [hv]
    rfl
  have hlog := h.logged hvnumber
  have hcalls : ∀ c ∈ callsOf script w.ran.length e, ∃ i, c = .cencel i := by
    intro c hc
    rw [callsOf] at hc
    split at hc
    · exact (hscript _).1 c hc
    · exact absurd hc List.not_mem_nil
  have hrun := runEvent_cancelling hscript (step script turns) e w
  obtain ⟨hok, hfail⟩ := hlog.cancels h₀ hrep₀ hm script turns _ _ _ hcalls
    (hvcancels ▸ hnodup) (hvcancels ▸ hlinked)
  rw [← hvcancels] at hok hfail
  by_cases hnear : ∀ n ∈ v.cancels, Near w₀.heap n
  · obtain ⟨w₁, hw₁, h₁⟩ := hok hnear
    obtain ⟨hi₁, hlt₁⟩ := h₁.current hi hlt
    rw [hw₁] at hrun
    by_cases hself : v.number ∈ v.cancels
    · -- the callback has cancelled the running timer
      have hdead : w₁.heap a = none := by
        cases hw : w₁.heap a with
        | none => rfl
        | some y =>
          obtain ⟨hnumber', hnot⟩ := h₁.number_eq hw
          rw [hnumber] at hnumber'
          rw [← Option.some.inj hnumber', ← hvnumber] at hnot
          exact absurd (List.mem_append_right gone hself) hnot
      obtain ⟨p, hp, -⟩ := h₁.represents.slotAt hlt₁
      refine ⟨fun hspared => absurd hself hspared.1, fun _ => ⟨(.useAfterFree, w₁), ?_⟩⟩
      rw [turn_of_due ha hr, hrun, ok_bind, remove_of_dead hdead (by rw [hi₁, hp]), error_bind]
    · have hstill : e.sequence_ ∉ gone ++ v.cancels := by
        rw [← hvnumber] at hgone ⊢
        exact fun hmem => (List.mem_append.mp hmem).elim hgone hself
      obtain ⟨y, hy, hyseq, -⟩ := h₁.heap_of_heap hx (by rwa [hxseq])
      have hturn := turn_of_callback ha hr hrun h₁.represents hi₁ hlt₁
        (filter_kept_middle hl hnumber hstill) hy
      have hdrop := h₁.drop h₀ hrep₀ hy
      rw [hyseq, hxseq, ← hvnumber, List.append_assoc] at hdrop
      -- the events behind it are those that are left when it is gone as well
      have hnext : rest.filter (kept w₀.heap (gone ++ v.cancels)) =
          rest.filter (kept w₀.heap (gone ++ v.takes)) := by
        refine List.filter_congr fun b hb => ?_
        have hba : b ≠ a := by
          rintro rfl
          have hwhole : (passed ++ b :: rest).Nodup := hl ▸ hrep₀.nodup hlt
          exact (List.nodup_cons.mp (List.nodup_append.mp hwhole).2.1).1 hb
        rw [Visit.takes, hvnumber, ← List.append_assoc, Bool.eq_iff_iff, kept_drop h₀ hnumber,
          and_iff_left hba]
      refine ⟨fun _ => ⟨w₁.removed a y, ?_, ?_, ?_⟩, fun hnot => absurd ⟨hself, hnear⟩ hnot⟩
      · rw [hturn, hnext]
      · have hlogged : w₁.ran = (w.logged e).ran := by rw [h₁.runs, hlog.runs]
        show w₁.ran.length = _
        rw [hlogged, TimerWheel.logged, List.length_append, List.length_singleton]
      · exact hdrop.pass (by rw [heap_removed, Function.update_self])
          (by rw [hx]; exact Option.some_ne_none x)
  · -- a cancellation fails
    obtain ⟨f, hf⟩ := hfail hnear
    refine ⟨fun hspared => absurd hspared.2 hnear, fun _ => ⟨f, ?_⟩⟩
    rw [turn_of_due ha hr, hrun, hf, error_bind]

/-- **The walk** from the event of `rest` on that is next. -/
theorem walk_cancelling (turns : Nat) : ∀ (rest passed : List EventAddr) (m : Nat) (w : TimerWheel)
    (vs : List Visit) (gone : List Nat), Midway w₀ w lists passed vs gone →
    lists i = passed ++ rest → rest.length < m →
    CancelsLinked w₀.heap gone (visits script w₀.timerAt w.ran.length gone rest) →
    WalkEnds w₀ lists (passed ++ rest) vs gone (visits script w₀.timerAt w.ran.length gone rest)
      (loop (turn (runEvent script (step script turns))) m
        ((rest.filter (kept w₀.heap gone)).head?, w)) := by
  intro rest
  induction rest with
  -- the end of the list
  | nil =>
    intro passed m w vs gone h _ hlen _
    obtain ⟨m, rfl⟩ : ∃ k, m = k + 1 := ⟨m - 1, by simp at hlen; omega⟩
    refine Or.inl ⟨fun v hv => absurd hv List.not_mem_nil, w, loop_done rfl m, ?_⟩
    rwa [visits, List.append_nil, List.append_nil, List.flatMap_nil, List.append_nil]
  -- `passed` grows by the head of the list
  | cons a rest ih =>
    intro passed m w vs gone h hl hlen hlinked
    rw [List.length_cons] at hlen
    obtain ⟨m, rfl⟩ : ∃ k, m = k + 1 := ⟨m - 1, by omega⟩
    have hl' : lists i = (passed ++ [a]) ++ rest := by rw [hl, List.append_assoc]; rfl
    have hpassed : a ∉ passed := by
      have hwhole : (passed ++ a :: rest).Nodup := hl ▸ hrep₀.nodup hlt
      exact fun hmem => (List.nodup_append.mp hwhole).2.2 a hmem a List.mem_cons_self rfl
    have hpassed' : passed ++ a :: rest = (passed ++ [a]) ++ rest := by rw [List.append_assoc]; rfl
    obtain ⟨x, hx, -⟩ := hrep₀.home hlt (a := a) (by rw [hl]; simp)
    have hnumber := number_of_heap hx
    rw [hpassed']
    -- cancelled, not yet due, or due: the cases of `visits`
    by_cases hgone : x.sequence_ ∈ gone
    · -- an earlier callback has cancelled it
      have hnot : ¬ kept w₀.heap gone a = true := fun hk => (kept_iff hnumber).mp hk hgone
      rw [visits_cons_passed (timerAt_of_heap hx) (Or.inl hgone)] at hlinked ⊢
      rw [List.filter_cons_of_neg hnot]
      exact ih _ _ w vs gone (h.skip hnot) hl' (by omega) hlinked
    obtain ⟨e, ha, heseq, -⟩ := h.heap_of_heap hx hgone
    have htimer := h.timerAt_eq ha hpassed
    rw [List.filter_cons_of_pos ((kept_iff hnumber).mpr hgone), List.head?_cons]
    by_cases hr : 0 < e.rotation_
    · -- it stays, and is passed
      have hnext : e.pNext_ = (rest.filter (kept w₀.heap gone)).head? := by
        obtain ⟨p, -, hlist⟩ := h.represents.slotAt (h.current hi hlt).2
        rw [filter_kept_middle hl hnumber hgone] at hlist
        exact hlist.next (links_of_heap ha)
      rw [visits_cons_passed htimer (Or.inr hr)] at hlinked ⊢
      rw [loop_next (turn_of_pos ha hr), hnext]
      exact ih _ _ _ vs gone (h.rotated ha hpassed) hl' (by omega) hlinked
    · -- it is visited
      have hdue : ¬ (e.sequence_ ∈ gone ∨ 0 < e.rotation_) := by
        rw [heseq]
        exact not_or.mpr ⟨hgone, hr⟩
      have hvisits : visits script w₀.timerAt w.ran.length gone (a :: rest) =
          visitOf script w.ran.length e :: visits script w₀.timerAt (w.ran.length + 1)
            (gone ++ (visitOf script w.ran.length e).takes) rest := visits_cons_due htimer hdue
      rw [hvisits] at hlinked ⊢
      obtain ⟨hvnodup, hvlinked, hrest⟩ := hlinked
      obtain ⟨hok, hfail⟩ := h.visit hscript h₀ hrep₀ hm hi hlt turns hl ha hr rfl hvnodup hvlinked
      -- the callback either spares its own timer and the far slots, or it fails
      by_cases hspared : (visitOf script w.ran.length e).number ∉
          (visitOf script w.ran.length e).cancels ∧
          ∀ n ∈ (visitOf script w.ran.length e).cancels, Near w₀.heap n
      · obtain ⟨w', hturn, hlength, h'⟩ := hok hspared
        rw [loop_next hturn, ← hlength]
        exact .cons hspared
          (ih _ _ w' _ _ h' hl' (by omega) (by rw [hlength]; exact hrest hspared.1))
      · obtain ⟨f, hturn⟩ := hfail hspared
        exact Or.inr ⟨fun hall => hspared (spared_cons.mp hall).1, f, loop_error hturn m⟩

end Walk

/-! ## The tick

  Both directions.  What breaks a tick is a callback that cancels its own timer, which the rest
  of the turn reads, or one whose slot is not an `int`. -/

/-- The number of an event is one of the data that no pointer operation changes. -/
theorem number_eq_timerAt (w : TimerWheel) (a : EventAddr) :
    number w.heap a = (w.timerAt a).map TimerEvent.sequence_ := by
  rw [number, timerAt, Option.map_map]
  rfl

/-- The visits are of events of the list, in its order. -/
theorem visits_sublist (w : TimerWheel) : ∀ (l : List EventAddr) (k : Nat) (gone : List Nat),
    List.Sublist ((visits script w.timerAt k gone l).map Visit.number)
      (l.filterMap (number w.heap)) := by
  intro l
  induction l with
  | nil => exact fun _ _ => .slnil
  | cons a l ih =>
    intro k gone
    rw [visits, List.filterMap_cons, number_eq_timerAt]
    cases w.timerAt a with
    | none => exact ih k gone
    | some e =>
      rw [Option.map_some]
      dsimp only
      split
      · exact (ih k gone).cons _
      · exact (ih _ _).cons_cons _

/-- No timer is visited twice. -/
theorem nodup_visits (h : Sound w) (hrep : Represents w lists)
    (hi : i < w.slotsNum_.toNat) (k : Nat) (gone : List Nat) :
    ((visits script w.timerAt k gone (lists i)).map Visit.number).Nodup := by
  refine (visits_sublist w (lists i) k gone).nodup ((hrep.nodup hi).filterMap fun a b n ha hb => ?_)
  exact h.ledger.unique ha hb

/-- A tick begins in a sound state. -/
theorem ticking_sound (h : Sound w) : Sound w.ticking := h.locked.frame _ _ _ _

/-- The wheel after the walk `w'`, with its next position. -/
theorem Midway.survives (hw : Sound w) (hrep : Represents w lists)
    (hpos : w.pos < w.slotsNum_.toNat)
    (h : Midway w.ticking w' lists (lists w.pos) (tickVisits script w (lists w.pos))
      ((tickVisits script w (lists w.pos)).flatMap Visit.takes)) (q : Int32) :
    Survives w ({ w' with currentSlotPos_ := q } : TimerWheel).unlock lists
      (tickVisits script w (lists w.pos)) where
  sound := h.sound.frame _ _ _ _
  represents := ⟨h.represents.size, h.represents.linked, h.represents.home, h.represents.listed⟩
  timers := h.timers
  runs := h.runs
  once := nodup_visits hw hrep hpos _ _
  deletes := h.deletes

/-- **Cancelling from the callbacks of a tick**, on a wheel without a mutex, of timers that are
    still in the wheel, is safe if and only if no callback cancels its own timer (and the slots
    of the cancelled timers are `int`s, and the position can be incremented). -/
theorem cancelling_is_safe_iff (hscript : Cancelling script) (hw : Sound w)
    (hrep : Represents w lists) (hm : w.mutex_ = none) (h0 : 0 ≤ w.currentSlotPos_.toInt)
    (hlt : w.currentSlotPos_.toInt < w.slotsNum_.toNat)
    {turns : Nat} (hturns : w.s_numCreated_ < turns)
    (hlinked : CancelsLinked w.heap [] (tickVisits script w (lists w.pos))) :
    SafeTick script turns w lists ↔
      w.currentSlotPos_ ≠ Int32.maxValue ∧ Spared w.heap (tickVisits script w (lists w.pos)) := by
  obtain ⟨turns, rfl⟩ : ∃ m, turns = m + 1 := ⟨turns - 1, by omega⟩
  obtain ⟨hint, hpos⟩ : w.pos < 2 ^ 31 ∧ w.pos < w.slotsNum_.toNat := toNat_lt_of_toInt h0 hlt
  have hi : index w.ticking.currentSlotPos_ = w.pos := index_of_lt (by rwa [← pos])
  -- the walk over the whole list of the slot, with nothing passed and nothing gone
  have hlen := hw.length_le hrep hpos
  have hends := walk_cancelling hscript (ticking_sound hw) hrep.ticking (ticking_mutex hm) hi hpos
    turns (lists w.pos) [] (turns + 1) w.ticking [] [] (.start (ticking_sound hw) hrep.ticking) rfl
    (by omega) hlinked
  have hall : (lists w.pos).filter (kept w.ticking.heap []) = lists w.pos :=
    List.filter_eq_self.mpr fun a _ => kept_nil _ a
  rw [hall] at hends
  have hstep : step script (turns + 1) w .tick =
      tickUnlock (runEvent script (step script turns)) (turns + 1) w.ticking >>= fun w =>
        .ok w.unlock := call_tick (unlocked_of_none hm) (turns + 1)
  -- `tick` is the walk, and the advance after it
  rw [SafeTick, hstep, tickUnlock, hrep.first hint hpos, ok_bind]
  rcases hends with ⟨hspared, w', hloop, h'⟩ | ⟨hnot, f, hloop⟩
  · rw [hloop, Option.getD_some, ok_bind]
    have hfields : w'.currentSlotPos_ = w.currentSlotPos_ ∧ w'.slotsNum_ = w.slotsNum_ := by
      rw [h'.rest]
      exact ⟨rfl, rfl⟩
    by_cases hmax : w.currentSlotPos_ = Int32.maxValue
    · -- the position overflows
      rw [advance, require_neg _ _ (by rw [hfields.1, hmax]; exact not_not.mpr rfl)]
      constructor
      · rintro ⟨w'', heq, -⟩
        cases heq
      · exact fun hcond => absurd hmax hcond.1
    · have hpos' : w'.pos = w.pos := by rw [pos, hfields.1, pos]
      obtain ⟨q, -, hadvance⟩ := advance_of_ne (w := w') (by rwa [hfields.1]) (by omega)
        (by rw [hpos', hfields.2]; exact hpos)
      rw [hadvance, ok_bind]
      exact iff_of_true ⟨_, rfl, h'.survives hw hrep hpos q⟩ ⟨hmax, hspared⟩
  · -- the walk has failed
    rw [hloop, Option.getD_some, error_bind]
    constructor
    · rintro ⟨w', heq, -⟩
      cases heq
    · exact fun hcond => absurd hcond.2 hnot

section Examples

/-- The slot has a timer that is not due, one that is, and another one that is; the second of them
    cancels both its neighbours. -/
def neighbours : Nat → Behaviour := fun _ => ⟨true, [.cencel 2, .cencel 0], true⟩

/-- Two timers that share a slot, and a third one a round later, ticked once. -/
def threeTimers : List Call :=
  [.addTimer 1 false true 0, .addTimer 1 false true 1, .addTimer 3 false true 2, .tick]

/-- The condition can be met: the second and the third event of one list cancelled by the callback
    of the first. -/
theorem cancelling_is_safe_neighbours :
    ∃ w lists, run (step silent 9) (allNull 2 false 0) threeTimers = .ok w ∧ Represents w lists ∧
      lists w.pos = [2, 1, 0] ∧ tickVisits neighbours w (lists w.pos) = [⟨2, [3, 1]⟩] ∧
      SafeTick neighbours 9 w lists := by
  -- the wheel after the two calls, by evaluation
  obtain ⟨w, hr, hx⟩ := ok_of_observed (f := fun w => (w.slots_[1]?, w.heap 2, w.heap 1, w.heap 0))
    (x := (some (some 2), some ⟨1, 1, true, false, 3, none, some 1⟩,
      some ⟨0, 1, true, false, 2, some 2, some 0⟩, some ⟨0, 1, true, false, 1, some 1, none⟩))
    (r := run (step silent 9) (allNull 2 false 0) threeTimers) (by decide +kernel)
  obtain ⟨w', hr', hx'⟩ := ok_of_observed
    (f := fun w => (w.currentSlotPos_, w.slotsNum_, w.mutex_, w.s_numCreated_,
      tickVisits neighbours w [2, 1, 0]))
    (x := (1, 2, none, 3, [⟨2, [3, 1]⟩]))
    (r := run (step silent 9) (allNull 2 false 0) threeTimers) (by decide +kernel)
  obtain rfl : w = w' := Except.ok.inj (hr.symm.trans hr')
  simp only [Prod.mk.injEq] at hx hx'
  obtain ⟨hslot, h2, h1, h0⟩ := hx
  obtain ⟨hposition, hslots, hmutex, hcreated, hvisits⟩ := hx'
  -- the list of the slot, read from the links
  have hpos : w.pos = 1 := by
    rw [pos, hposition]
    rfl
  have hsound : Sound w := sound_of_run (.allNull 2 false 0) hr
  obtain ⟨lists, hrep⟩ := hsound.represented
  have hlist : lists w.pos = [2, 1, 0] := by
    rw [hpos]
    exact hrep.list_eq hslot ⟨rfl, _, links_of_heap h2, rfl, _, links_of_heap h1, rfl, _,
      links_of_heap h0, rfl⟩
  have hvisits' : tickVisits neighbours w (lists w.pos) = [⟨2, [3, 1]⟩] := by rw [hlist, hvisits]
  -- the two timers the callback cancels are linked
  have hnumber : ∀ n ∈ [3, 1], ∃ a, number w.heap a = some n := by
    intro n hn
    rcases List.mem_pair.mp hn with rfl | rfl
    · exact ⟨2, number_of_heap h2⟩
    · exact ⟨0, number_of_heap h0⟩
  have hlinked : CancelsLinked w.heap [] (tickVisits neighbours w (lists w.pos)) := by
    rw [hvisits']
    exact ⟨by decide, fun n hn => ⟨hnumber n hn, List.not_mem_nil⟩, fun _ => trivial⟩
  refine ⟨w, lists, hr, hrep, hlist, hvisits', ?_⟩
  -- the hypotheses one by one
  refine (cancelling_is_safe_iff ?_ hsound hrep hmutex ?_ ?_ ?_ hlinked).mpr ⟨?_, ?_⟩
  · intro k
    refine ⟨fun c hc => ?_, rfl⟩
    rcases List.mem_pair.mp hc with rfl | rfl
    · exact ⟨2, rfl⟩
    · exact ⟨0, rfl⟩
  · rw [hposition]
    decide
  · rw [hposition, hslots]
    decide
  · rw [hcreated]
    decide
  · rw [hposition]
    decide
  · rw [hvisits']
    intro v hv
    obtain rfl := List.mem_singleton.mp hv
    refine ⟨by decide, fun n _ a e ha _ => ?_⟩
    have hlt := (hrep.listed ha).1
    have htwo : w.slotsNum_.toNat = 2 := by rw [hslots]; rfl
    omega

/-- The callback of the only timer cancels it. -/
def selfish : Nat → Behaviour := fun _ => ⟨true, [.cencel 0], true⟩

/-- **A callback that cancels its own timer**: the tick goes on with a deleted event. -/
theorem selfish_tick :
    ∃ w lists, run (step silent 9) (allNull 2 false 0) [.addTimer 1 false true 0, .tick] = .ok w ∧
      Represents w lists ∧ Cancelling selfish ∧ w.mutex_ = none ∧ 0 ≤ w.currentSlotPos_.toInt ∧
      w.currentSlotPos_.toInt < w.slotsNum_.toNat ∧
      CancelsLinked w.heap [] (tickVisits selfish w (lists w.pos)) ∧
        ¬ SafeTick selfish 9 w lists := by
  obtain ⟨w, hr, hx⟩ := ok_of_observed (f := fun w => (w.slots_[1]?, w.heap 0, w.pos))
    (x := (some (some 0), some ⟨0, 1, true, false, 1, none, none⟩, 1))
    (r := run (step silent 9) (allNull 2 false 0) [.addTimer 1 false true 0, .tick])
    (by decide +kernel)
  obtain ⟨w', hr', hx'⟩ := ok_of_observed
    (f := fun w => (w.currentSlotPos_, w.slotsNum_, w.mutex_, tickVisits selfish w [0],
      (step selfish 9 w .tick).toOption.isNone))
    (x := (1, 2, none, [⟨1, [1]⟩], true))
    (r := run (step silent 9) (allNull 2 false 0) [.addTimer 1 false true 0, .tick])
    (by decide +kernel)
  obtain rfl : w = w' := Except.ok.inj (hr.symm.trans hr')
  simp only [Prod.mk.injEq] at hx hx'
  obtain ⟨hslot, h0, hpos⟩ := hx
  obtain ⟨hposition, hslots, hmutex, hvisits, htick⟩ := hx'
  have hsound : Sound w := sound_of_run (.allNull 2 false 0) hr
  obtain ⟨lists, hrep⟩ := hsound.represented
  -- the list holds the one timer, whose callback cancels it
  have hlist : lists w.pos = [0] := by
    rw [hpos]
    exact hrep.list_eq hslot ⟨rfl, _, links_of_heap h0, rfl⟩
  refine ⟨w, lists, hr, hrep, fun k => ⟨fun c hc => ⟨0, List.mem_singleton.mp hc⟩, rfl⟩,
    hmutex, ?_, ?_, ?_, ?_⟩
  · rw [hposition]
    decide
  · rw [hposition, hslots]
    decide
  · rw [hlist, hvisits]
    refine ⟨by decide, fun n hn => ?_, fun hnot => absurd (List.mem_singleton_self 1) hnot⟩
    rw [List.mem_singleton.mp hn]
    exact ⟨⟨0, number_of_heap h0⟩, List.not_mem_nil⟩
  · -- the tick fails
    rintro ⟨w', hstep, -⟩
    rw [hstep] at htick
    cases htick

end Examples

end TimerWheel

end IOEvent
