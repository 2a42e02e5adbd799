/-
  A wheel whose callbacks do not call it is on time.

  What a call other than `tick` does is its `Effect`, from wherever it is made.  A run of such a
  wheel is a run of a schedule (`simulate`): each call is an operation of the schedule or none, an
  addition adds the number that the new event gets, and a cancellation of a timer that is still in
  the wheel drops it.  What a schedule does with its timers is then what the wheel does with its
  events.

  `simulate` is the induction over the calls.  The theorem follows from what `Schedule` says of
  a number that is added and not dropped, and `Follows` carries it back to the wheel.
-/
import IOEvent.TimerWheel.Timing

open Foundation

namespace IOEvent

namespace TimerWheel

variable {w w' : TimerWheel} {s : Schedule Nat} {lists : Nat → List EventAddr}

/-! ## Runs

  A call with quiet callbacks does what the schedule does, and by induction a whole run does. -/

/-- No callback calls the wheel. -/
def Quiet (script : Nat → Behaviour) : Prop :=
  ∀ k, (script k).calls = [] ∧ (script k).returns = true

/-- A quiet callback is entered in the log and changes nothing else. -/
theorem Quiet.runEvent {script : Nat → Behaviour} (h : Quiet script)
    (step : TimerWheel → Call → M TimerWheel) (e : TimerEvent) (w : TimerWheel) :
    runEvent script step e w = .ok (w.logged e) := by
  obtain ⟨hcalls, hreturns⟩ := h w.ran.length
  rw [TimerWheel.runEvent]
  split
  · rw [hcalls, run_nil, ok_bind, require_pos _ _ hreturns]
    rfl
  · rfl

/-- A call cancels only a timer that is in the wheel. -/
def Waiting (w : TimerWheel) : Call → Prop
  | .cencel i => ∀ id ∈ w.timerIds[i]?, ∀ a ∈ id.timer_, number w.heap a = some id.sequence_
  | _ => True

/-- Waiting can be tested, since a `CancelId` names its event. -/
instance (w : TimerWheel) : (c : Call) → Decidable (Waiting w c)
  | .addTimer .. => .isTrue trivial
  | .cencel i =>
    inferInstanceAs (Decidable (∀ id ∈ w.timerIds[i]?, ∀ a ∈ id.timer_, _ = some id.sequence_))
  | .tick => .isTrue trivial

/-- What a call other than `tick` does. -/
inductive Effect (w : TimerWheel) : Call → TimerWheel → Prop
  | taken {timeout : UInt32} {obj cb : Bool} {a : EventAddr} (ha : w.heap a ≠ none) :
    Effect w (.addTimer timeout obj cb a) w
  | added {timeout : UInt32} {obj cb : Bool} {a : EventAddr} {p : Option EventAddr}
    (ha : w.heap a = none) (hp : w.slots_[(w.slotFor timeout).toNat]? = some p) :
    Effect w (.addTimer timeout obj cb a) (w.withTimer timeout obj cb a p)
  | unknown {i : Nat} (hi : w.timerIds[i]? = none) : Effect w (.cencel i) w
  | removed {i : Nat} {a : EventAddr} {e : TimerEvent} (hi : w.timerIds[i]? = some ⟨i + 1, some a⟩)
    (ha : w.heap a = some e) (hseq : e.sequence_ = i + 1) : Effect w (.cencel i) (w.removed a e)

/-- A regular wheel has slots. -/
theorem Regular.slots_ne_zero (hw : Regular w) : w.slotsNum_ ≠ 0 := by
  intro h0
  have htwo := hw.two_le
  rw [h0] at htwo
  exact absurd htwo (by decide)

/-- An addition is made, wherever the call comes from. -/
theorem Sound.call_addTimer (h : Sound w) (hn : w.slotsNum_ ≠ 0) (hm : w.mutex_ ≠ some true)
    {a : EventAddr} (ha : w.heap a = none) (timeout : UInt32) (obj cb : Bool) :
    ∃ p, w.slots_[(w.slotFor timeout).toNat]? = some p ∧ ∀ run turns,
      call run turns w (.addTimer timeout obj cb a) = .ok (w.withTimer timeout obj cb a p) := by
  obtain ⟨lists, hrep⟩ := h.represented
  obtain ⟨p, hp, -⟩ := hrep.slotAt (slotFor_lt hn timeout)
  refine ⟨p, hp, fun run turns => ?_⟩
  obtain ⟨q, hq, heq⟩ := TimerWheel.call_addTimer run turns hrep h.ts_eq hn hm ha timeout obj cb
  obtain rfl : p = q := Option.some.inj (hp.symm.trans hq)
  exact heq

/-- A call that is no `tick` has its effect wherever it comes from. -/
theorem Sound.call_effect (h : Sound w) (hn : w.slotsNum_ ≠ 0) (hlt : w.slotsNum_.toNat < 2 ^ 31)
    (hm : w.mutex_ ≠ some true) {c : Call} (htick : c ≠ .tick) (hc : Waiting w c) :
    ∃ w', Effect w c w' ∧ ∀ run turns, call run turns w c = .ok w' := by
  cases c with
  | addTimer timeout obj cb a =>
    by_cases ha : w.heap a = none
    · obtain ⟨p, hp, hcall⟩ := h.call_addTimer hn hm ha timeout obj cb
      exact ⟨_, .added ha hp, hcall⟩
    · refine ⟨w, .taken ha, fun run turns => ?_⟩
      rw [call, if_neg ha]
      rfl
  | cencel i =>
    cases hi : w.timerIds[i]? with
    | none =>
      refine ⟨w, .unknown hi, fun run turns => ?_⟩
      rw [call, hi]
      rfl
    | some id =>
      obtain ⟨lists, hrep⟩ := h.represented
      obtain ⟨a, rfl, -⟩ := h.handle i id hi
      obtain ⟨e, ha, hseq⟩ := Option.map_eq_some_iff.mp (hc _ hi a rfl)
      refine ⟨_, .removed hi ha hseq, fun run turns => ?_⟩
      rw [call, hi]
      exact cencel_eq hrep hm ha ((hrep.listed ha).1.trans hlt) (i + 1)
  | tick => exact absurd rfl htick

/-- A call between the ticks has one of three effects, and does not ask for turns. -/
theorem Regular.call_effect (hw : Regular w) {c : Call} (htick : c ≠ .tick) (hc : Waiting w c) :
    ∃ w', Effect w c w' ∧ ∀ run turns, call run turns w c = .ok w' :=
  hw.sound.call_effect hw.slots_ne_zero hw.slots_lt hw.unlocked htick hc

/-- A call that does not ask for turns or for the script is the same in every step function. -/
theorem step_of_call (script : Nat → Behaviour) {c : Call} {r : M TimerWheel}
    (h : ∀ run turns, call run turns w c = r) : ∀ turns, step script turns w c = r
  | 0 => h _ 0
  | turns + 1 => h _ (turns + 1)

/-- The calls take the wheel from `w` to `w'`, and the operations `ops` do to its schedule `s` what
    the calls do to the wheel. -/
structure Simulated (script : Nat → Behaviour) (turns : Nat) (w : TimerWheel) (s : Schedule Nat)
    (calls : List Call) (w' : TimerWheel) (ops : List (ScheduleOp Nat)) : Prop where
  reaches : run (step script turns) w calls = .ok w'
  regular : Regular w'
  follows : Follows w' (ops.foldl Schedule.apply s)
  valid : Schedule.Valid s ops
  created : w.s_numCreated_ ≤ w'.s_numCreated_ ∧
    w'.s_numCreated_ ≤ w.s_numCreated_ + calls.length
  ticks : w'.ticks = w.ticks + calls.count .tick
  drops : ∀ k, k < w.s_numCreated_ → (.drop (k + 1) ∈ ops ↔ .cencel k ∈ calls)
  adds : ∀ k d, .add k d ∈ ops → w.s_numCreated_ < k

/-- Simulations compose along the run. -/
theorem Simulated.append {script : Nat → Behaviour} {turns : Nat} {w₁ : TimerWheel}
    {calls calls' : List Call} {ops ops' : List (ScheduleOp Nat)}
    (h : Simulated script turns w s calls w₁ ops)
    (h' : Simulated script turns w₁ (ops.foldl Schedule.apply s) calls' w' ops') :
    Simulated script turns w s (calls ++ calls') w' (ops ++ ops') where
  reaches := by rw [run_append, h.reaches, ok_bind, h'.reaches]
  regular := h'.regular
  follows := by
    rw [List.foldl_append]
    exact h'.follows
  valid := Schedule.valid_append h.valid h'.valid
  created := by
    have := h.created
    have := h'.created
    rw [List.length_append]
    omega
  ticks := by rw [h'.ticks, h.ticks, List.count_append, Nat.add_assoc]
  drops := by
    intro k hk
    have := h.created
    rw [List.mem_append, List.mem_append, h.drops k hk, h'.drops k (by omega)]
  adds := by
    intro k d hmem
    have := h.created
    rcases List.mem_append.mp hmem with hmem | hmem
    · exact h.adds k d hmem
    · have := h'.adds k d hmem
      omega

/-- No calls are simulated by no operations. -/
theorem Simulated.nil {script : Nat → Behaviour} {turns : Nat} (hw : Regular w) (hs : Follows w s) :
    Simulated script turns w s [] w [] where
  reaches := rfl
  regular := hw
  follows := hs
  valid := trivial
  created := by simp
  ticks := rfl
  drops := by simp
  adds := by simp

section Calls

variable {script : Nat → Behaviour} {turns : Nat}

/-- An addition. -/
theorem Simulated.added {timeout : UInt32} {obj cb : Bool} {a : EventAddr} {p : Option EventAddr}
    (hw : Regular w) (hs : Follows w s) (ha : w.heap a = none)
    (hp : w.slots_[(w.slotFor timeout).toNat]? = some p)
    (hstep : step script turns w (.addTimer timeout obj cb a) =
      .ok (w.withTimer timeout obj cb a p)) :
    Simulated script turns w s [.addTimer timeout obj cb a] (w.withTimer timeout obj cb a p)
      [.add (w.s_numCreated_ + 1) (max 1 timeout.toNat)] where
  reaches := by rw [run_cons, hstep, ok_bind, run_nil]
  regular := hw.withTimer ha timeout obj cb hp
  follows := hs.withTimer hw ha timeout obj cb p
  valid := ⟨by simp, trivial⟩
  created := ⟨Nat.le_succ _, Nat.le_refl _⟩
  ticks := rfl
  drops := by simp
  adds := by simp

/-- A cancellation. -/
theorem Simulated.removed {i : Nat} {a : EventAddr} {e : TimerEvent} (hw : Regular w)
    (hs : Follows w s) (ha : w.heap a = some e) (hseq : e.sequence_ = i + 1)
    (hstep : step script turns w (.cencel i) = .ok (w.removed a e)) :
    Simulated script turns w s [.cencel i] (w.removed a e) [.drop e.sequence_] where
  reaches := by rw [run_cons, hstep, ok_bind, run_nil]
  regular := hw.removed ha
  follows := hs.removed hw ha
  valid := by
    refine ⟨?_, trivial⟩
    rintro k ⟨⟩ hnone
    rw [(hs.left e.sequence_ _).mpr ⟨a, _, timerAt_of_heap ha, rfl, rfl⟩] at hnone
    cases hnone
  created := ⟨Nat.le_refl _, Nat.le_succ _⟩
  ticks := rfl
  drops := by
    intro k _
    simp [hseq]
  adds := by simp

/-- A call that changes nothing. -/
theorem Simulated.skip {c : Call} (hw : Regular w) (hs : Follows w s)
    (hstep : step script turns w c = .ok w) (htick : c ≠ .tick)
    (hcencel : ∀ k, k < w.s_numCreated_ → c ≠ .cencel k) :
    Simulated script turns w s [c] w [] where
  reaches := by rw [run_cons, hstep, ok_bind, run_nil]
  regular := hw
  follows := hs
  valid := trivial
  created := by simp
  ticks := by simp [htick]
  drops := by
    intro k hk
    simp [Ne.symm (hcencel k hk)]
  adds := by simp

/-- **A call other than `tick`** is one operation of the schedule, or none. -/
theorem simulate_effect {c : Call} (hw : Regular w) (hs : Follows w s)
    (hstep : step script turns w c = .ok w') (h : Effect w c w') :
    ∃ ops, Simulated script turns w s [c] w' ops := by
  cases h with
  | taken ha => exact ⟨[], .skip hw hs hstep (by simp) (by simp)⟩
  | unknown hi =>
    refine ⟨[], .skip hw hs hstep (by simp) ?_⟩
    have hlen := List.getElem?_eq_none_iff.mp hi
    have hreturned := hw.sound.returned
    rintro k hk ⟨⟩
    omega
  | added ha hp => exact ⟨_, .added hw hs ha hp hstep⟩
  | removed _ ha hseq => exact ⟨_, .removed hw hs ha hseq hstep⟩

variable (hscript : Quiet script)

include hscript

/-- **A tick** whose callbacks do not call the wheel. -/
theorem Quiet.tick (h : Sound w) (hrep : Represents w lists) (hm : w.mutex_ ≠ some true)
    (hlt : w.slotsNum_.toNat < 2 ^ 31) (hpos : w.pos < w.slotsNum_.toNat)
    (hturns : w.s_numCreated_ < turns) :
    ∃ w', step script turns w .tick = .ok w' ∧ Sound w' ∧ Ticked w w' (lists w.pos) ∧
      Represents w' (Function.update lists w.pos ((lists w.pos).filter w.stays)) := by
  have hsound := sound_step script turns w .tick h
  obtain ⟨turns, rfl⟩ : ∃ m, turns = m + 1 := ⟨turns - 1, by omega⟩
  have hlen := h.length_le hrep hpos
  obtain ⟨w', heq, hticked, hrep'⟩ := tick_eq (hscript.runEvent (step script turns))
    hrep hm hlt hpos
    (turns + 1) (by omega)
  have hstep : step script (turns + 1) w .tick = .ok w' := heq
  rw [hstep] at hsound
  exact ⟨w', hstep, holds_ok.mp hsound, hticked, hrep'⟩

/-- **A tick** is the tick of the schedule. The callbacks are quiet, so the turns needed are
    bounded by the events there are. -/
theorem simulate_tick (hw : Regular w) (hs : Follows w s) (hturns : w.s_numCreated_ < turns) :
    ∃ w' ops, Simulated script turns w s [.tick] w' ops := by
  obtain ⟨lists, hrep⟩ := hw.sound.represented
  obtain ⟨w', hstep, hsound, hticked, -⟩ := hscript.tick hw.sound hrep hw.unlocked hw.slots_lt
    hw.pos_lt hturns
  refine ⟨w', [.tick], ?_⟩
  constructor
  · rw [run_cons, hstep, ok_bind, run_nil]
  · exact hw.ticked hrep hticked hsound
  · exact hs.ticked hw hrep hticked
  · exact ⟨by simp, trivial⟩
  · rw [hticked.rest]
    exact ⟨Nat.le_refl _, Nat.le_succ _⟩
  · rw [hticked.rest]
    rfl
  · simp
  · simp

/-- **The wheel does what a schedule does**, whatever the calls are. -/
theorem simulate : ∀ (calls : List Call) (w : TimerWheel) (s : Schedule Nat), Regular w →
    Follows w s → w.s_numCreated_ + calls.length < turns →
    Guarded (step script turns) Waiting w calls →
    ∃ w' ops, Simulated script turns w s calls w' ops := by
  intro calls
  induction calls with
  | nil => exact fun w s hw hs _ _ => ⟨w, [], .nil hw hs⟩
  | cons c calls ih =>
    intro w s hw hs hturns hguard
    rw [List.length_cons] at hturns
    have hcreated : w.s_numCreated_ < turns := by omega
    obtain ⟨w₁, ops, h₁⟩ : ∃ w₁ ops, Simulated script turns w s [c] w₁ ops := by
      by_cases htick : c = .tick
      · rw [htick]
        exact simulate_tick hscript hw hs hcreated
      · obtain ⟨w₁, heffect, hcall⟩ := hw.call_effect htick hguard.1
        exact ⟨w₁, simulate_effect hw hs (step_of_call script hcall turns) heffect⟩
    have hstep : step script turns w c = .ok w₁ := by
      have hreaches := h₁.reaches
      rw [run_cons] at hreaches
      obtain ⟨w₂, hw₂, hnil⟩ := bind_ok hreaches
      rw [hw₂, ← hnil, run_nil]
    have hle := h₁.created.2
    rw [List.length_singleton] at hle
    obtain ⟨w', ops', h'⟩ := ih w₁ _ h₁.regular h₁.follows (by omega) (hguard.2 w₁ hstep)
    exact ⟨w', ops ++ ops', h₁.append h'⟩

end Calls

/-! ## On time

  A fact about schedules, carried over to the wheel: when a timer is due is decided when it is
  added. -/

/-- The tick calls during which the timer number `n` was run. -/
def dueTicks (w : TimerWheel) (n : Nat) : List Nat := (w.ran.filter fun x => x.1 = n).map Prod.snd

/-- The timer number `n` comes due during the `T`-th tick call: until then it is in the wheel, and
    after it it has been run once. -/
def OnTime (w : TimerWheel) (n T : Nat) : Prop :=
  if w.ticks < T then (∃ a, number w.heap a = some n) ∧ w.dueTicks n = []
  else (¬ ∃ a, number w.heap a = some n) ∧ w.dueTicks n = [T]

/-- The timer number `n` is not in the wheel and was never run. -/
def Gone (w : TimerWheel) (n : Nat) : Prop :=
  (¬ ∃ a, number w.heap a = some n) ∧ w.dueTicks n = []

/-- A timer is in the wheel exactly when it waits in the schedule. -/
theorem Follows.in_wheel (h : Follows w s) (n : Nat) :
    (∃ a, number w.heap a = some n) ↔ s.left n ≠ none := by
  rw [Option.ne_none_iff_exists']
  constructor
  · rintro ⟨a, ha⟩
    obtain ⟨e, he, hseq⟩ := timerAt_of_number ha
    exact ⟨_, (h.left n _).mpr ⟨a, e, he, hseq, rfl⟩⟩
  · rintro ⟨d, hd⟩
    obtain ⟨a, e, he, hseq, -⟩ := (h.left n d).mp hd
    exact ⟨a, by rw [number_of_timerAt he, hseq]⟩

/-- What the schedule says of a deadline holds in the wheel. -/
theorem Follows.onTime (h : Follows w s) {n T : Nat} (hs : s.OnTime n T) : OnTime w n T := by
  rw [Schedule.OnTime, h.now] at hs
  rw [OnTime, h.in_wheel]
  split
  · rename_i hlt
    rw [if_pos hlt] at hs
    exact ⟨by rw [hs.1]; simp, (h.fired n).symm.trans hs.2⟩
  · rename_i hlt
    rw [if_neg hlt] at hs
    exact ⟨not_not.mpr hs.1, (h.fired n).symm.trans hs.2⟩

/-- So does what it says of a timer that is gone. -/
theorem Follows.gone (h : Follows w s) {n : Nat} (hs : s.Gone n) : Gone w n := by
  rw [Gone, h.in_wheel]
  exact ⟨not_not.mpr hs.1, (h.fired n).symm.trans hs.2⟩

/-- The wheel of the constructor is regular, from two slots on and with a position within them. -/
theorem Regular.allNull {slotsNum : UInt32} (htwo : 2 ≤ slotsNum.toNat)
    (hlt : slotsNum.toNat < 2 ^ 31) (isThreadSave : Bool) {position : Int32}
    (h0 : 0 ≤ position.toInt) (hpos : position.toInt < slotsNum.toNat) :
    Regular (allNull slotsNum isThreadSave position) where
  sound := .allNull slotsNum isThreadSave position
  two_le := htwo
  slots_lt := hlt
  pos_lt := (toNat_lt_of_toInt h0 hpos).2
  revolutions_lt := by
    intro a e ha
    cases ha
  unlocked := by
    cases isThreadSave <;> simp [TimerWheel.allNull]
  ran_le := by
    intro x hx
    cases hx

/-- It follows the empty schedule. -/
theorem Follows.allNull (slotsNum : UInt32) (isThreadSave : Bool) (position : Int32) :
    Follows (allNull slotsNum isThreadSave position) ⟨fun _ => none, 0, fun _ => []⟩ where
  left := by
    intro k d
    constructor
    · rintro ⟨⟩
    · rintro ⟨a, e, ha, -⟩
      cases ha
  now := rfl
  fired := fun _ => rfl

/-- What becomes of a timer that is added in a regular state. -/
theorem on_time_after_add {script : Nat → Behaviour} (hscript : Quiet script) {turns : Nat}
    (hw : Regular w) (hs : Follows w s) {a : EventAddr} (ha : w.heap a = none) (timeout : UInt32)
    (obj cb : Bool) {after : List Call} (hturns : w.s_numCreated_ + after.length + 1 < turns)
    (hguard : Guarded (step script turns) Waiting w (.addTimer timeout obj cb a :: after)) :
    ∃ w', run (step script turns) w (.addTimer timeout obj cb a :: after) = .ok w' ∧
      Regular w' ∧ w.s_numCreated_ < w'.s_numCreated_ ∧
      w'.ticks = w.ticks + after.count .tick ∧
      (.cencel w.s_numCreated_ ∉ after →
        OnTime w' (w.s_numCreated_ + 1) (w.ticks + (max 1 timeout.toNat + 1))) ∧
      (.cencel w.s_numCreated_ ∈ after → Gone w' (w.s_numCreated_ + 1)) := by
  obtain ⟨p, hp, hcall⟩ := hw.sound.call_addTimer hw.slots_ne_zero hw.unlocked ha timeout obj cb
  have hadd := Simulated.added hw hs ha hp (step_of_call script hcall turns)
  have hrest : Guarded (step script turns) Waiting (w.withTimer timeout obj cb a p) after := by
    rw [← List.singleton_append] at hguard
    exact hguard.of_run hadd.reaches
  obtain ⟨w', ops, hsim⟩ := simulate hscript after _ _ hadd.regular hadd.follows
    (by show w.s_numCreated_ + 1 + after.length < turns; omega) hrest
  have hsim_add := hadd.append hsim
  have hcreated : w.s_numCreated_ + 1 ≤ w'.s_numCreated_ := hsim.created.1
  -- the number is a new one, so nothing of it is in the log
  have hfired : s.fired (w.s_numCreated_ + 1) = [] := by
    rw [hs.fired, List.filter_eq_nil_iff.mpr, List.map_nil]
    intro x hx hx1
    have hle := hw.ran_le x hx
    rw [decide_eq_true_iff] at hx1
    omega
  have honTime := Schedule.onTime_add hfired (max 1 timeout.toNat)
  rw [hs.now, Nat.add_assoc] at honTime
  have hnew : ∀ d, .add (w.s_numCreated_ + 1) d ∉ ops :=
    fun d hmem => Nat.lt_irrefl _ (hsim.adds _ d hmem)
  obtain ⟨hkeep, hgone⟩ := Schedule.run_onTime honTime hsim.valid hnew
  have hdrops := hsim.drops w.s_numCreated_ (Nat.lt_succ_self _)
  refine ⟨w', hsim_add.reaches, hsim.regular, hcreated, ?_, ?_, ?_⟩
  · rw [hsim.ticks]
    rfl
  · exact fun hnot => hsim.follows.onTime (hkeep fun hmem => hnot (hdrops.mp hmem))
  · exact fun hmem => hsim.follows.gone (hgone (hdrops.mpr hmem))

/-- **Timers come due on time.**  A timer that is added with a timeout and not cancelled is run
    during the tick call that comes `max(1, timeout) + 1` calls later, and during no other; one that
    is cancelled is not run. -/
theorem comes_due_on_time (slotsNum : UInt32) (htwo : 2 ≤ slotsNum.toNat)
    (hlt : slotsNum.toNat < 2 ^ 31) (isThreadSave : Bool) (position : Int32)
    (h0 : 0 ≤ position.toInt) (hpos : position.toInt < slotsNum.toNat) (script : Nat → Behaviour)
    (hscript : Quiet script) (turns : Nat) (before after : List Call) (timeout : UInt32)
    (obj cb : Bool) (a : EventAddr)
    (hturns : (before ++ .addTimer timeout obj cb a :: after).length < turns)
    (hguard : Guarded (step script turns) Waiting (allNull slotsNum isThreadSave position)
      (before ++ .addTimer timeout obj cb a :: after)) :
    ∃ w₀ w, run (step script turns) (allNull slotsNum isThreadSave position) before = .ok w₀ ∧
      run (step script turns) (allNull slotsNum isThreadSave position)
        (before ++ .addTimer timeout obj cb a :: after) = .ok w ∧
      w₀.ticks = before.count .tick ∧ w.ticks = before.count .tick + after.count .tick ∧
      (w₀.heap a = none →
        (w.timerIds[w₀.timerIds.length]?).map CancelId.sequence_ = some (w₀.timerIds.length + 1) ∧
        (.cencel w₀.timerIds.length ∉ after →
          OnTime w (w₀.timerIds.length + 1) (w₀.ticks + (max 1 timeout.toNat + 1))) ∧
        (.cencel w₀.timerIds.length ∈ after → Gone w (w₀.timerIds.length + 1))) := by
  -- an all null wheel follows the empty schedule
  have hw := Regular.allNull htwo hlt isThreadSave h0 hpos
  have hs := Follows.allNull slotsNum isThreadSave position
  rw [List.length_append, List.length_cons] at hturns
  have hcreated : (allNull slotsNum isThreadSave position).s_numCreated_ = 0 := rfl
  obtain ⟨w₀, ops₀, hsim₀⟩ := simulate hscript before _ _ hw hs (by omega) hguard.of_append
  have hguard' := hguard.of_run hsim₀.reaches
  have hle := hsim₀.created.2
  have hticks₀ : w₀.ticks = before.count .tick := by
    rw [hsim₀.ticks]
    exact Nat.zero_add _
  -- where the address is taken, `addTimer` does not come about
  by_cases ha : w₀.heap a = none
  · obtain ⟨w, hr, hregular, hlt', hticks, hkeep, hgone⟩ := on_time_after_add hscript hsim₀.regular
      hsim₀.follows ha timeout obj cb (by omega) hguard'
    refine ⟨w₀, w, hsim₀.reaches, ?_, hticks₀, by rw [hticks, hticks₀], fun _ => ?_⟩
    · rw [run_append, hsim₀.reaches, ok_bind, hr]
    · have hreturned := hregular.sound.returned
      rw [hsim₀.regular.sound.returned]
      refine ⟨?_, hkeep, hgone⟩
      obtain ⟨id, hid⟩ : ∃ id, w.timerIds[w₀.s_numCreated_]? = some id :=
        ⟨_, List.getElem?_eq_getElem (by omega)⟩
      obtain ⟨c, rfl, -⟩ := hregular.sound.handle _ id hid
      rw [hid]
      rfl
  · -- the run goes through all the same
    obtain ⟨w, ops, hsim⟩ := simulate hscript _ w₀ _ hsim₀.regular hsim₀.follows
      (by rw [List.length_cons]; omega) hguard'
    refine ⟨w₀, w, hsim₀.reaches, ?_, hticks₀, ?_, fun hfree => absurd hfree ha⟩
    · rw [run_append, hsim₀.reaches, ok_bind, hsim.reaches]
    · rw [hsim.ticks, hticks₀, List.count_cons_of_ne (by simp)]

section Examples

/-- Two timers share a slot with a third one, and one of them is cancelled. -/
def shared : List Call :=
  [.addTimer 3 false true 2, .tick, .cencel 2, .tick, .tick, .tick, .tick]

/-- Callbacks that call nothing are quiet. -/
theorem quiet_silent : Quiet silent := fun _ => ⟨rfl, rfl⟩

/-- Several timers in one slot, of different rounds, among them one that is cancelled: the second
    one added is on time. -/
theorem comes_due_on_time_shared :
    ∃ w, run (step silent 20) (allNull 2 true 1)
        ([.addTimer 0 false true 0, .tick] ++ .addTimer 3 false true 1 :: shared) = .ok w ∧
      OnTime w 2 5 := by
  obtain ⟨w₀, w, hr₀, hr, hticks₀, -, h⟩ := comes_due_on_time 2 (by decide) (by decide) true 1
    (by decide) (by decide) silent quiet_silent 20 [.addTimer 0 false true 0, .tick] shared 3 false
    true 1 (by decide) (by decide +kernel)
  obtain ⟨w₁, hr₁, hx⟩ := ok_of_observed (f := fun w => (w.heap 1, w.timerIds.length))
    (x := (none, 1))
    (r := run (step silent 20) (allNull 2 true 1) [.addTimer 0 false true 0, .tick])
    (by decide +kernel)
  obtain rfl : w₀ = w₁ := Except.ok.inj (hr₀.symm.trans hr₁)
  simp only [Prod.mk.injEq] at hx
  obtain ⟨hfree, hlength⟩ := hx
  have hdue := (h hfree).2.1 (by rw [hlength]; decide)
  rw [hlength, hticks₀] at hdue
  exact ⟨w, hr, hdue⟩

end Examples

end TimerWheel

end IOEvent
