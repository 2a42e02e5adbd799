/-
  Adding timers from the callbacks of a tick.

  `addTimerUnlock` counts from `currentSlotPos_`, which during a tick is still the slot of the walk.
  A timeout that does not go round the wheel a whole number of times leads to another slot, and the
  timer comes due that many tick calls later.  One that does leads to the slot of the walk: the new
  event is put in front of it, is not met in this tick, and loses its first revolution only when the
  slot is current again.  It comes due a revolution too late (`delay`), after timers with a longer
  timeout that the same callback has added.

  The new timer is followed from the call that adds it: from then on it comes due during the
  tick call that `delay` says (`ComesDue.new`), and the rest of the callback, of the walk and of
  the run keeps that.
-/
import IOEvent.TimerWheel.Callbacks

open Foundation

namespace IOEvent

namespace TimerWheel

/-- How many tick calls after the one of the callback that adds it a timer comes due. -/
def delay (w : TimerWheel) (timeout : UInt32) : Nat :=
  max 1 timeout.toNat +
    if max 1 timeout.toNat % w.slotsNum_.toNat = 0 then w.slotsNum_.toNat else 0

variable {script : Nat → Behaviour} {w w' x x₀ : TimerWheel} {a b : EventAddr} {e : TimerEvent}
  {rest : List EventAddr} {calls pre post after : List Call} {timeout : UInt32} {obj cb : Bool}
  {i n : Nat}

/-- The new timer, which the walk does not come to. -/
theorem ComesDue.new (hx : Regular x) (hrest : b ∉ rest) (p : Option EventAddr) :
    ComesDue (x.withTimer timeout obj cb b p) ((x.withTimer timeout obj cb b p).dueAt rest)
      (x.s_numCreated_ + 1) (x.ticks + x.delay timeout) := by
  refine .waiting (b := b) (timerAt_withTimer.trans (if_pos rfl)) rfl ?_ ?_
  · -- the number is a new one
    show (x.ran.filter _).map _ = _
    rw [List.filter_eq_nil_iff.mpr, List.map_nil]
    intro y hy hnumber
    have hle := hx.ran_le y hy
    rw [decide_eq_true_iff] at hnumber
    omega
  · have hmod : max 1 timeout.toNat % x.slotsNum_.toNat < x.slotsNum_.toNat :=
      Nat.mod_lt _ (by have := hx.two_le; omega)
    have hslot : (x.eventFor timeout obj cb).slot = x.pos ∧ b ∉ rest ↔
        max 1 timeout.toNat % x.slotsNum_.toNat = 0 := by
      have hadd := distance_add hx.pos_lt hmod
      rw [and_iff_left hrest, slot_eventFor, hx.slotFor_toNat, period_toNat]
      constructor
      · intro hcur
        rw [hcur, ((distance_next hx.pos_lt hx.pos_lt hx.two_le).1 rfl).1] at hadd
        exact hadd.symm
      · intro hzero
        rw [hzero, Nat.add_zero, Nat.mod_eq_of_lt hx.pos_lt]
    show x.ticks + x.remaining (x.eventFor timeout obj cb) +
      ite ((x.eventFor timeout obj cb).slot = x.pos ∧ b ∉ rest) x.slotsNum_.toNat 0 = _
    rw [hx.remaining_eventFor, if_congr hslot rfl rfl, delay, Nat.add_assoc]

/-- A state that a tick passes through. -/
theorem Passes.walking (hscript : Tame script) (hkeeps : Keeps script i w .tick) (hw : Regular w)
    (hm : w.mutex_ = none) {s : Option EventAddr × TimerWheel} (h : Passes script w s) :
    ∃ rest : List EventAddr, s.1 = rest.head? ∧ Walking s.2 rest ∧ s.2.ticks = w.ticks + 1 ∧
      s.2.slotsNum_ = w.slotsNum_ := by
  obtain ⟨p, hp, hpath⟩ := h
  induction hpath with
  | refl =>
    obtain ⟨l, hl, hwalk, -⟩ := hw.start hm
    exact ⟨l, Except.ok.inj (hp.symm.trans hl), hwalk, rfl, rfl⟩
  | @tail s s' hpath hgoes ih =>
    obtain ⟨rest, hfirst, hwalk, hticks, hslots⟩ := ih
    obtain ⟨p', s⟩ := s
    cases rest with
    | nil =>
      cases hfirst
      cases hgoes
    | cons a rest =>
      cases hfirst
      have hpass : Passes script w (some a, s) := ⟨p, hp, hpath⟩
      obtain ⟨s₁, rest₁, hgoes₁, hwalk₁, hticks₁, hslots₁, -⟩ :=
        hwalk.turn hscript fun e ha hr hrun => hpass.guarded hkeeps ha hr hrun
      obtain rfl := (Turn.next.inj (Except.ok.inj (hgoes.symm.trans hgoes₁)))
      exact ⟨rest₁, rfl, hwalk₁, hticks₁.trans hticks, hslots₁.trans hslots⟩

/-- The callback that makes the addition, with its calls before and after. -/
theorem Aside.adding (h : Walking x₀ (a :: rest))
    (htick : .tick ∉ pre ++ .addTimer timeout obj cb b :: post)
    (hguard : Guarded (step script 0) (Permitted a) x₀ (pre ++ .addTimer timeout obj cb b :: post))
    (hnot : .cencel x.s_numCreated_ ∉ pre ++ .addTimer timeout obj cb b :: post)
    (hpre : run (step script 0) x₀ pre = .ok x) (hb : x.heap b = none) :
    Regular x ∧ x.ticks = x₀.ticks ∧ x.slotsNum_ = x₀.slotsNum_ ∧
      number x₀.heap a ≠ some (x.s_numCreated_ + 1) ∧ ∃ x₁ rest₁,
      Aside script a x₀ rest (pre ++ .addTimer timeout obj cb b :: post) x₁ rest₁ ∧
      ComesDue x₁ (x₁.dueAt (a :: rest₁)) (x.s_numCreated_ + 1) (x.ticks + x.delay timeout) := by
  obtain ⟨x', rest₀, hbefore⟩ :=
    aside pre x₀ rest h (fun hmem => htick (List.mem_append_left _ hmem))
    hguard.of_append
  obtain rfl : x = x' := Except.ok.inj (hpre.symm.trans hbefore.reaches)
  have hx := hbefore.walking.regular
  obtain ⟨p, hp, hcall⟩ := hx.sound.call_addTimer hx.slots_ne_zero hx.unlocked hb timeout obj cb
  have hstep : step script 0 x (.addTimer timeout obj cb b) =
      .ok (x.withTimer timeout obj cb b p) :=
    step_of_call script hcall 0
  have hadded := Aside.added hbefore.walking hb hp hstep
  obtain ⟨x₁, rest₁, hafter⟩ := aside post _ _ hadded.walking
    (fun hmem => htick (List.mem_append_right _ (List.mem_cons_of_mem _ hmem)))
    ((hguard.of_run hpre).2 _ hstep)
  refine ⟨hx, hbefore.ticks, hbefore.slots, fun hnumber => ?_, x₁, rest₁,
    hbefore.append (hadded.append hafter), ?_⟩
  · -- the running timer is there before the number is given out
    rw [← hbefore.running] at hnumber
    have hrange := hx.sound.ledger.range hnumber
    omega
  · exact hafter.keeps x.s_numCreated_ _
      (fun hmem => hnot (List.mem_append_right _ (List.mem_cons_of_mem _ hmem)))
      (.new hx (hbefore.walking.not_mem hb) p)

/-- **The tick with the addition**: the new timer has its tick call from then on. -/
theorem tick_of_adding (hscript : Tame script) (hw : Regular w) (hm : w.mutex_ = none)
    (hback : CallsBack script w a x₀ (pre ++ .addTimer timeout obj cb b :: post))
    (hpre : run (step script 0) x₀ pre = .ok x) (hb : x.heap b = none)
    (hkeeps : Keeps script x.s_numCreated_ w .tick) :
    x.ticks = w.ticks + 1 ∧ ∃ w', Arrives script x.s_numCreated_ w [.tick] w' ∧
      ComesDue w' w'.dueNext (x.s_numCreated_ + 1) (x.ticks + w.delay timeout) := by
  obtain ⟨hguard, hnot⟩ := hkeeps a x₀ _ hback
  obtain ⟨s, e, hpass, ha, hr, hrun, rfl, hcalls⟩ := hback
  obtain ⟨rest, hfirst, hwalk, hticks, hslots⟩ := hpass.walking hscript hkeeps hw hm
  obtain ⟨rest, rfl⟩ : ∃ l, rest = a :: l := by
    cases rest with
    | nil => cases hfirst
    | cons c l =>
      cases hfirst
      exact ⟨l, rfl⟩
  have hwalk : Walking s (a :: rest) := hwalk
  have htick := (hscript s.ran.length).1
  rw [← hcalls] at htick
  obtain ⟨-, hxticks, hxslots, hother, x₁, rest₁, haside, hdue⟩ :=
    Aside.adding (hwalk.logged ha) htick hguard hnot hpre hb
  have hne : e.sequence_ ≠ x.s_numCreated_ + 1 := by
    intro hk
    refine hother ?_
    rw [← hk]
    exact number_of_heap ha
  have hdelay : x.delay timeout = w.delay timeout := by
    rw [delay, delay, show x.slotsNum_ = w.slotsNum_ from hxslots.trans hslots]
  rw [hdelay] at hdue
  -- the running event is taken out, and the walk goes on
  rw [hcalls] at haside
  obtain ⟨e₁, ha₁, hseq, hgoes, hwalk₁⟩ := haside.walking.take ha hr
    (runEvent_of_run hscript hrun haside.reaches) (haside.running.trans (number_of_heap ha))
  have hdue₁ : ComesDue (x₁.removed a e₁) ((x₁.removed a e₁).dueAt rest₁) (x.s_numCreated_ + 1)
      (x.ticks + w.delay timeout) :=
    hdue.removed ha₁ (by rwa [hseq]) fun c y hca =>
      dueAt_congr (w := x₁) (List.mem_cons.trans (or_iff_right hca)).symm y
  obtain ⟨w', ⟨n, hn⟩, -, -, -, hend⟩ := tick_of_passes hscript hkeeps hm (hpass.next hgoes) hwalk₁
  obtain ⟨w'', h⟩ := Arrives.tick hscript hkeeps hw hm
  obtain rfl : w' = w'' := by
    obtain ⟨n', hn'⟩ := h.reaches
    have hrun' := hn' (max n n') (Nat.le_max_right n n')
    rw [run_cons, hn (max n n') (Nat.le_max_left n n'), ok_bind, run_nil] at hrun'
    exact Except.ok.inj hrun'
  exact ⟨hxticks.trans hticks, w', h, hend _ hdue₁⟩

/-- A timer is on time for an earlier tick call only before that call. -/
theorem OnTime.earlier {k T T' : Nat} (h : OnTime w k T) (hlt : T' < T) :
    OnTime w k T' ↔ w.ticks < T' := by
  rw [OnTime] at h ⊢
  constructor
  · intro hsoon
    by_contra hge
    rw [if_neg hge] at hsoon
    split at h
    · exact hsoon.1 h.1
    · have hsame : [T] = [T'] := h.2.symm.trans hsoon.2
      have hT := (List.cons.inj hsame).1
      omega
  · intro hbefore
    rw [if_pos (hbefore.trans hlt)] at h
    rw [if_pos hbefore]
    exact h

/-- Of two timers that a callback adds, the one with the larger timeout comes due first if and
    only if the smaller timeout goes round the wheel a whole number of times, and the larger one
    does not and is less than a revolution longer. -/
theorem delay_lt_iff {timeout' : UInt32} (hle : timeout.toNat ≤ timeout'.toNat) :
    w.delay timeout' < w.delay timeout ↔ max 1 timeout.toNat % w.slotsNum_.toNat = 0 ∧
      max 1 timeout'.toNat % w.slotsNum_.toNat ≠ 0 ∧
      max 1 timeout'.toNat < max 1 timeout.toNat + w.slotsNum_.toNat := by
  have hmax : max 1 timeout.toNat ≤ max 1 timeout'.toNat := by omega
  rw [delay, delay]
  by_cases hwhole : max 1 timeout.toNat % w.slotsNum_.toNat = 0
  · by_cases hwhole' : max 1 timeout'.toNat % w.slotsNum_.toNat = 0
    · rw [if_pos hwhole, if_pos hwhole']
      refine iff_of_false (by omega) fun h => h.2.1 hwhole'
    · rw [if_pos hwhole, if_neg hwhole', Nat.add_zero, and_iff_right hwhole, and_iff_right hwhole']
  · rw [if_neg hwhole]
    exact iff_of_false (by omega) fun h => hwhole h.1

/-- **A timer that a callback adds** comes due `delay` tick calls later, whatever the calls and
    the callbacks after it are.  These are the `max(1, timeout)` calls of the timeout if and only
    if that is no multiple of the number of slots (or the run does not come so far).  Of two
    timers that one callback adds, each with its own `delay`, the one with the larger timeout may
    so come due first; `delay_lt_iff` says when. -/
theorem added_on_time_iff (hscript : Tame script) (hw : Regular w) (hm : w.mutex_ = none)
    (hback : CallsBack script w a x₀ (pre ++ .addTimer timeout obj cb b :: post))
    (hpre : run (step script 0) x₀ pre = .ok x) (hb : x.heap b = none)
    (hguard : ∀ turns, n ≤ turns →
      Guarded (step script turns) (Keeps script x.s_numCreated_) w (.tick :: after)) :
    x.ticks = w.ticks + 1 ∧ ∃ w', (∃ m, ∀ turns, m ≤ turns →
        run (step script turns) w (.tick :: after) = .ok w') ∧
      w'.ticks = x.ticks + after.count .tick ∧
      OnTime w' (x.s_numCreated_ + 1) (x.ticks + w.delay timeout) ∧
      (OnTime w' (x.s_numCreated_ + 1) (x.ticks + max 1 timeout.toNat) ↔
        max 1 timeout.toNat % w.slotsNum_.toNat ≠ 0 ∨ after.count .tick < max 1 timeout.toNat) := by
  obtain ⟨hticks, w₁, hfirst, hdue⟩ := tick_of_adding hscript hw hm hback hpre hb
    (hguard n (Nat.le_refl n)).1
  -- the tick, and what comes after it
  obtain ⟨m₁, hm₁⟩ := hfirst.reaches
  obtain ⟨w', hrest⟩ := arrives hscript after w₁ (max n m₁) hfirst.regular hfirst.free
    fun turns hle => by
      have hg := hguard turns ((Nat.le_max_left n m₁).trans hle)
      rw [← List.singleton_append] at hg
      exact hg.of_run (hm₁ turns ((Nat.le_max_right n m₁).trans hle))
  have hwhole := hfirst.append hrest
  have hlate := (hrest.keeps _ hdue).onTime
  -- one tick of its own, one for each of `after`
  have hticks' : w'.ticks = x.ticks + after.count .tick := by
    rw [hrest.ticks, hfirst.ticks, hticks]
    rfl
  refine ⟨hticks, w', hwhole.reaches, hticks', hlate, ?_⟩
  -- the two due times differ only where the timeout is a whole number of revolutions
  by_cases hmod : max 1 timeout.toNat % w.slotsNum_.toNat = 0
  · -- a revolution too late
    have htwo := hw.two_le
    rw [delay, if_pos hmod] at hlate
    rw [or_iff_right (not_not.mpr hmod), hlate.earlier (by omega), hticks']
    exact Nat.add_lt_add_iff_left
  · rw [delay, if_neg hmod, Nat.add_zero] at hlate
    exact iff_of_true hlate (Or.inl hmod)

section Examples

/-- Callbacks that only add timers keep every other timer. -/
theorem keeps_of_adding (hscript : ∀ k, ∀ c ∈ (script k).calls, ∃ timeout obj cb a,
    c = .addTimer timeout obj cb a) (w : TimerWheel) : Keeps script i w .tick := by
  rintro a x calls ⟨s, e, -, -, -, -, -, rfl⟩
  constructor
  · refine .of_mem x fun c hc s => ?_
    obtain ⟨timeout, obj, cb, a, rfl⟩ := hscript _ c hc
    trivial
  · intro hmem
    obtain ⟨timeout, obj, cb, a, heq⟩ := hscript _ _ hmem
    cases heq

/-- The first callback adds two timers. -/
def adding : Nat → Behaviour
  | 0 => ⟨true, [.addTimer 3 false true 1, .addTimer 2 false true 2], true⟩
  | _ => ⟨true, [], true⟩

/-- The script makes no call but `addTimer`. -/
theorem adding_calls (k : Nat) (c : Call) (hc : c ∈ (adding k).calls) :
    ∃ timeout obj cb a, c = .addTimer timeout obj cb a := by
  cases k with
  | zero =>
    rcases List.mem_pair.mp hc with rfl | rfl
    · exact ⟨_, _, _, _, rfl⟩
    · exact ⟨_, _, _, _, rfl⟩
  | succ k => exact absurd hc List.not_mem_nil

/-- Adding timers from a callback is tame: nothing is cancelled and no `tick` is nested. -/
theorem tame_adding : Tame adding := by
  intro k
  refine ⟨fun hmem => ?_, by cases k <;> rfl⟩
  obtain ⟨timeout, obj, cb, a, heq⟩ := adding_calls k _ hmem
  cases heq

/-- So every tick of the script keeps any timer, whatever its `CancelId`. -/
theorem guarded_adding (w : TimerWheel) (m turns : Nat) :
    Guarded (step adding turns) (Keeps adding i) w (List.replicate m .tick) := by
  refine .of_mem w fun c hc s => ?_
  rw [List.eq_of_mem_replicate hc]
  exact keeps_of_adding adding_calls s

/-- The timer whose callback it is. -/
def adder : TimerEvent := ⟨0, 1, true, false, 1, none, none⟩

/-- A wheel of two slots before the tick with the two additions. -/
theorem before_adding : ∃ w : TimerWheel,
    run (step silent 9) (allNull 2 false 0) [.addTimer 1 false true 0, .tick] = .ok w ∧
      Regular w ∧ w.mutex_ = none ∧ w.ticks = 1 ∧ w.s_numCreated_ = 1 ∧ w.slotsNum_ = 2 ∧
      w.heap 1 = none ∧ CallsBack adding w 0 (w.ticking.logged adder)
        [.addTimer 3 false true 1, .addTimer 2 false true 2] := by
  have hguard : Guarded (step silent 9) Waiting (allNull 2 false 0)
      [.addTimer 1 false true 0, .tick] := ⟨trivial, fun _ _ => ⟨trivial, fun _ _ => trivial⟩⟩
  -- the run goes through, and keeps the wheel regular
  obtain ⟨w, ops, hsim⟩ := simulate quiet_silent _ _ _
    (.allNull (by decide) (by decide) false (by decide) (by decide))
    (.allNull 2 false 0) (by decide)
    hguard
  -- what the wheel it ends in looks like, by evaluation
  obtain ⟨w₁, hr₁, hx₁⟩ := ok_of_observed
    (f := fun w => (w.mutex_, w.ticks, w.s_numCreated_, w.slotsNum_, w.heap 1))
    (x := (none, 1, 1, 2, none))
    (r := run (step silent 9) (allNull 2 false 0) [.addTimer 1 false true 0, .tick])
    (by decide +kernel)
  obtain ⟨w₂, hr₂, hx₂⟩ := ok_of_observed
    (f := fun w => (w.slots_[1]?, w.heap 0, w.currentSlotPos_, w.ran))
    (x := (some (some 0), some adder, 1, []))
    (r := run (step silent 9) (allNull 2 false 0) [.addTimer 1 false true 0, .tick])
    (by decide +kernel)
  obtain rfl : w = w₁ := Except.ok.inj (hsim.reaches.symm.trans hr₁)
  obtain rfl : w = w₂ := Except.ok.inj (hsim.reaches.symm.trans hr₂)
  simp only [Prod.mk.injEq] at hx₁ hx₂
  obtain ⟨hmutex, hticks, hcreated, hslots, hfree⟩ := hx₁
  obtain ⟨hslot, hadder, hposition, hran⟩ := hx₂
  -- the first callback of the next tick is the one that adds
  refine ⟨w, hsim.reaches, hsim.regular, hmutex, hticks, hcreated, hslots, hfree, w.ticking, adder,
    ⟨some 0, ?_, .refl⟩, hadder, by decide, ?_, rfl, ?_⟩
  · have hindex : index w.ticking.currentSlotPos_ = 1 := by
      show index w.currentSlotPos_ = 1
      rw [hposition]
      rfl
    rw [hindex]
    exact slotAt_of_getElem hslot
  · rfl
  · show _ = (adding w.ran.length).calls
    rw [hran]
    rfl

/-- The condition can be met: with a delay of one period more than the current round the timer
    that the callback adds comes due when it should. -/
theorem added_on_time_iff_longer : ∃ w w',
    run (step silent 9) (allNull 2 false 0) [.addTimer 1 false true 0, .tick] = .ok w ∧
      (∃ m, ∀ turns, m ≤ turns → run (step adding turns) w (List.replicate 5 .tick) = .ok w') ∧
      OnTime w' 2 5 := by
  obtain ⟨w, hr, hw, hm, hticks, hcreated, hslots, hfree, hback⟩ := before_adding
  have hpre : run (step adding 0) (w.ticking.logged adder) [] = .ok (w.ticking.logged adder) := rfl
  have hguard : ∀ turns, 0 ≤ turns → Guarded (step adding turns)
      (Keeps adding (w.ticking.logged adder).s_numCreated_) w (.tick :: List.replicate 4 .tick) :=
    fun turns _ => guarded_adding w 5 turns
  obtain ⟨hx, w', hreaches, -, -, hiff⟩ := added_on_time_iff tame_adding hw hm hback hpre
    hfree hguard
  refine ⟨w, w', hr, hreaches, ?_⟩
  have hnumber : (w.ticking.logged adder).s_numCreated_ = 1 := hcreated
  have hmod : max 1 (3 : UInt32).toNat % w.slotsNum_.toNat ≠ 0 := by
    rw [hslots]
    decide
  have hdue := hiff.mpr (Or.inl hmod)
  rw [hnumber, hx, hticks] at hdue
  exact hdue

/-- **Two timers that one callback adds**: the one with the timeout 2, a whole revolution of this
    wheel, comes due after the one with the timeout 3. -/
theorem adding_overtaken : ∃ w x w' : TimerWheel,
    run (step silent 9) (allNull 2 false 0) [.addTimer 1 false true 0, .tick] = .ok w ∧
      Regular w ∧ w.mutex_ = none ∧ Tame adding ∧
      CallsBack adding w 0 x [.addTimer 3 false true 1, .addTimer 2 false true 2] ∧
      x.ticks = 2 ∧ x.s_numCreated_ = 1 ∧
      (∀ i turns, Guarded (step adding turns) (Keeps adding i) w (List.replicate 5 .tick)) ∧
      run (step adding 9) w (List.replicate 5 .tick) = .ok w' ∧
      w'.dueTicks 2 = [5] ∧ w'.dueTicks 3 = [6] ∧ ¬ OnTime w' 3 (x.ticks + 2) := by
  obtain ⟨w, hr, hw, hm, hticks, hcreated, hslots, hfree, hback⟩ := before_adding
  obtain ⟨w', hr', hx⟩ := ok_of_observed (f := fun w => (w.ticks, w.ran))
    (x := (6, [(1, 2), (2, 5), (3, 6)]))
    (r := run (step silent 9) (allNull 2 false 0) [.addTimer 1 false true 0, .tick] >>= fun w =>
      run (step adding 9) w (List.replicate 5 .tick)) (by decide +kernel)
  rw [hr, ok_bind] at hr'
  simp only [Prod.mk.injEq] at hx
  obtain ⟨hend, hran⟩ := hx
  have hdue : w'.dueTicks 3 = [6] := by
    rw [dueTicks, hran]
    decide
  have hxticks : (w.ticking.logged adder).ticks = 2 := congrArg (· + 1) hticks
  refine ⟨w, _, w', hr, hw, hm, tame_adding, hback, hxticks, hcreated,
    fun i turns => guarded_adding w 5 turns, hr', ?_, hdue, fun hontime => ?_⟩
  · rw [dueTicks, hran]
    decide
  · rw [OnTime, hxticks, hend, if_neg (by decide), hdue] at hontime
    exact absurd hontime.2 (by decide)

end Examples

end TimerWheel

end IOEvent
