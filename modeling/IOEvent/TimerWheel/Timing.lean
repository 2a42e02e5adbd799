/-
  When a timer comes due.

  The slot and the rotation of an event say how many ticks have to pass before the one at which it
  comes due (`remaining`): the distance from the current slot, and a revolution for each rotation.
  An addition makes this `max(1, timeout)`, whatever the `int`s and `uint32_t`s it is computed with,
  and a tick takes one from every event but those that have none left, which it runs and takes out.
  So the wheel does what a `Schedule` does: `Follows` is kept by each operation.

  The arithmetic is that of natural numbers: positions below the number of slots, and distances
  round the wheel.  In a `Regular` wheel the conversions between these and `int` and `uint32_t`
  are exact, and every operation leaves the wheel regular.
-/
import IOEvent.Foundation.Schedule
import IOEvent.TimerWheel.Ticks

open Foundation

namespace IOEvent

/-- The revolutions that `rotation_` asks for. -/
def TimerEvent.revolutions (e : TimerEvent) : Nat := e.rotation_.toUInt32.toNat

namespace TimerWheel

/-- How many ticks pass before the one at which the event comes due. -/
def remaining (w : TimerWheel) (e : TimerEvent) : Nat :=
  (e.slot + w.slotsNum_.toNat - w.pos) % w.slotsNum_.toNat +
    e.revolutions * w.slotsNum_.toNat

/-- A sound wheel in which the arithmetic of the deadlines is exact: at least two slots, fewer
    than `2 ^ 31` of them, the position within them and the rounds of every event within an `int`.
    It is between two calls, or in a callback of a wheel without a mutex. -/
structure Regular (w : TimerWheel) : Prop where
  sound : Sound w
  two_le : 2 ≤ w.slotsNum_.toNat
  slots_lt : w.slotsNum_.toNat < 2 ^ 31
  pos_lt : w.pos < w.slotsNum_.toNat
  revolutions_lt : ∀ {a e}, w.timerAt a = some e → e.revolutions < 2 ^ 31
  unlocked : w.mutex_ ≠ some true
  ran_le : ∀ x ∈ w.ran, x.1 ≤ w.s_numCreated_

/-- The timers of the wheel are those of the schedule. -/
structure Follows (w : TimerWheel) (s : Schedule Nat) : Prop where
  left : ∀ k d, s.left k = some d ↔
    ∃ a e, w.timerAt a = some e ∧ e.sequence_ = k ∧ w.remaining e = d
  now : s.now = w.ticks
  fired : ∀ k, s.fired k = (w.ran.filter fun x => x.1 = k).map Prod.snd

variable {w w' : TimerWheel} {s : Schedule Nat} {lists : Nat → List EventAddr} {a b : EventAddr}
  {e : TimerEvent}

/-! ## Events and their numbers

  A number names one address, so what is said of a timer by its number can be looked up. -/

/-- What is known of an event apart from its links is known of the event in memory. -/
theorem heap_of_timerAt (ha : w.timerAt a = some e) :
    ∃ x, w.heap a = some x ∧ x.sequence_ = e.sequence_ ∧ x.slot = e.slot := by
  obtain ⟨x, hx, rfl⟩ := Option.map_eq_some_iff.mp ha
  exact ⟨x, hx, rfl, rfl⟩

/-- Its number among it. -/
theorem number_of_timerAt (ha : w.timerAt a = some e) : number w.heap a = some e.sequence_ := by
  obtain ⟨x, hx, hseq, -⟩ := heap_of_timerAt ha
  rw [number_of_heap hx, hseq]

/-- And the other way: a number belongs to an event with data. -/
theorem timerAt_of_number {k : Nat} (ha : number w.heap a = some k) :
    ∃ e, w.timerAt a = some e ∧ e.sequence_ = k := by
  obtain ⟨x, hx, rfl⟩ := Option.map_eq_some_iff.mp ha
  exact ⟨_, timerAt_of_heap hx, rfl⟩

/-- The slot of an event is one of the slots there are. -/
theorem Represents.slot_lt_of_timerAt (h : Represents w lists) (ha : w.timerAt a = some e) :
    e.slot < w.slotsNum_.toNat := by
  obtain ⟨x, hx, -, hslot⟩ := heap_of_timerAt ha
  rw [← hslot]
  exact (h.listed hx).1

/-- An event is in the list of its slot and in no other. -/
theorem Represents.mem_iff (h : Represents w lists) (ha : w.timerAt a = some e) {i : Nat}
    (hi : i < w.slotsNum_.toNat) : a ∈ lists i ↔ e.slot = i := by
  obtain ⟨x, hx, -, hslot⟩ := heap_of_timerAt ha
  rw [← hslot]
  constructor
  · intro hmem
    by_contra hne
    exact h.not_mem hx hi (Ne.symm hne) hmem
  · rintro rfl
    exact (h.listed hx).2

/-! ## Arithmetic

  Distances around the wheel, as natural numbers. -/

/-- A timeout of zero counts as one period. -/
theorem period_toNat (timeout : UInt32) : (period timeout).toNat = max 1 timeout.toNat := by
  rw [period]
  split
  · rename_i h
    rw [UInt32.lt_iff_toNat_lt] at h
    have hone : (1 : UInt32).toNat = 1 := rfl
    omega
  · rename_i h
    rw [UInt32.lt_iff_toNat_lt] at h
    have hone : (1 : UInt32).toNat = 1 := rfl
    omega

/-- The test `rotation_ > 0` of the code asks for rounds to go, as long as the rounds are an
    `int`. -/
theorem rotation_pos_iff (he : e.revolutions < 2 ^ 31) : 0 < e.rotation_ ↔ 0 < e.revolutions := by
  have hzero : (0 : Int32).toInt = 0 := rfl
  rw [Int32.lt_iff_toInt_lt, toInt_eq e.rotation_, ← TimerEvent.revolutions, if_pos he, hzero]
  omega

/-- The distance from one slot to another, going round. -/
theorem distance_add {c r n : Nat} (hc : c < n) (hr : r < n) : ((c + r) % n + n - c) % n = r := by
  rcases Nat.lt_or_ge (c + r) n with hlt | hge
  · rw [Nat.mod_eq_of_lt hlt, show c + r + n - c = r + n by omega, Nat.add_mod_right,
      Nat.mod_eq_of_lt hr]
  · rw [Nat.mod_eq_sub_mod hge, Nat.mod_eq_of_lt (show c + r - n < n by omega),
      show c + r - n + n - c = r by omega, Nat.mod_eq_of_lt hr]

/-- How many slots there are from one position to another, forwards and round the end. -/
theorem distance_eq {c t n : Nat} (hc : c < n) (ht : t < n) :
    (t + n - c) % n = if c ≤ t then t - c else t + n - c := by
  split
  · rw [show t + n - c = t - c + n by omega, Nat.add_mod_right, Nat.mod_eq_of_lt (by omega)]
  · exact Nat.mod_eq_of_lt (by omega)

/-- One step of the current slot brings the other slots one nearer, and takes it from the nearest
    to the farthest. -/
theorem distance_next {c t n : Nat} (hc : c < n) (ht : t < n) (hn : 2 ≤ n) :
    (t = c → (t + n - c) % n = 0 ∧ (t + n - (c + 1) % n) % n = n - 1) ∧
      (t ≠ c → (t + n - c) % n = (t + n - (c + 1) % n) % n + 1) := by
  rcases Nat.lt_or_ge (c + 1) n with hlt | hge
  · rw [Nat.mod_eq_of_lt hlt, distance_eq hc ht, distance_eq hlt ht]
    constructor <;> intro h <;> split <;> split <;> omega
  · -- the last slot is followed by the first
    obtain rfl : n = c + 1 := by omega
    rw [Nat.mod_self, distance_eq hc ht, distance_eq (Nat.succ_pos c) ht]
    constructor <;> intro h <;> split <;> split <;> omega

/-! ## Additions

  The rounds and the slot of a new event make up its timeout. -/

/-- **Where a new event goes**: as many slots ahead of the position as are left of its period when
    the whole rounds are taken off. -/
theorem Regular.slotFor_toNat (h : Regular w) (timeout : UInt32) :
    (w.slotFor timeout).toNat =
      (w.pos + (period timeout).toNat % w.slotsNum_.toNat) % w.slotsNum_.toNat := by
  have hmod : (period timeout).toNat % w.slotsNum_.toNat < w.slotsNum_.toNat :=
    Nat.mod_lt _ (by have := h.two_le; omega)
  have hsum : w.pos + (period timeout).toNat % w.slotsNum_.toNat < 2 ^ 32 := by
    have := h.pos_lt
    have := h.slots_lt
    omega
  rw [slotFor, UInt32.toNat_mod, UInt32.toNat_add, UInt32.toNat_mod, ← pos, Nat.mod_eq_of_lt hsum]

/-- The whole rounds of its period are its `rotation_`. -/
theorem revolutions_eventFor (timeout : UInt32) (obj cb : Bool) :
    (w.eventFor timeout obj cb).revolutions = (period timeout).toNat / w.slotsNum_.toNat := by
  rw [TimerEvent.revolutions, ← UInt32.toNat_div]
  rfl

/-- **A new event** has as many ticks left as the timeout says, and one at least. -/
theorem Regular.remaining_eventFor (h : Regular w) (timeout : UInt32) (obj cb : Bool) :
    w.remaining (w.eventFor timeout obj cb) = max 1 timeout.toNat := by
  have hmod : (period timeout).toNat % w.slotsNum_.toNat < w.slotsNum_.toNat :=
    Nat.mod_lt _ (by have := h.two_le; omega)
  rw [remaining, slot_eventFor, h.slotFor_toNat, distance_add h.pos_lt hmod, revolutions_eventFor,
    Nat.mod_add_div', period_toNat]

/-- Two slots or more make the rounds an `int`, for any 32-bit timeout. -/
theorem Regular.revolutions_lt_eventFor (h : Regular w) (timeout : UInt32) (obj cb : Bool) :
    (w.eventFor timeout obj cb).revolutions < 2 ^ 31 := by
  have hlt := (period timeout).toNat_lt
  have htwo := h.two_le
  rw [revolutions_eventFor]
  have hle : (period timeout).toNat / w.slotsNum_.toNat ≤ (period timeout).toNat / 2 :=
    Nat.div_le_div_left htwo (by decide)
  omega

/-- A new timer changes the data of no other. -/
theorem timerAt_withTimer {timeout : UInt32} {obj cb : Bool} {p : Option EventAddr} :
    (w.withTimer timeout obj cb a p).timerAt b =
      if b = a then some (w.eventFor timeout obj cb) else w.timerAt b := timerAt_added

/-- An addition keeps the wheel regular. -/
theorem Regular.withTimer (h : Regular w) (ha : w.heap a = none) (timeout : UInt32) (obj cb : Bool)
    {p : Option EventAddr} (hp : w.slots_[(w.slotFor timeout).toNat]? = some p) :
    Regular (w.withTimer timeout obj cb a p) where
  sound := h.sound.withTimer ha timeout obj cb hp
  two_le := h.two_le
  slots_lt := h.slots_lt
  pos_lt := h.pos_lt
  revolutions_lt := by
    intro b e hb
    rw [timerAt_withTimer] at hb
    split at hb
    · cases hb
      exact h.revolutions_lt_eventFor timeout obj cb
    · exact h.revolutions_lt hb
  unlocked := h.unlocked
  ran_le := fun x hx => Nat.le_succ_of_le (h.ran_le x hx)

/-- **An addition is the schedule's `add`**: the slots ahead and the rounds together are the
    period. -/
theorem Follows.withTimer (hw : Regular w) (h : Follows w s) (ha : w.heap a = none)
    (timeout : UInt32) (obj cb : Bool) (p : Option EventAddr) :
    Follows (w.withTimer timeout obj cb a p)
      (s.apply (.add (w.s_numCreated_ + 1) (max 1 timeout.toNat))) where
  left := by
    intro k d
    have hnew := hw.remaining_eventFor timeout obj cb
    -- no event that was there before has the new number
    have hold : ∀ b e, w.timerAt b = some e → b ≠ a ∧ e.sequence_ ≠ w.s_numCreated_ + 1 := by
      intro b e hb
      constructor
      · rintro rfl
        rw [timerAt, ha] at hb
        cases hb
      · have hrange := hw.sound.ledger.range (number_of_timerAt hb)
        omega
    rw [Schedule.left_add]
    constructor
    · intro hk
      split at hk
      · rename_i hkn
        cases hk
        exact ⟨a, _, by rw [timerAt_withTimer, if_pos rfl], hkn.symm, hnew⟩
      · obtain ⟨b, e, hb, hseq, hd⟩ := (h.left k d).mp hk
        exact ⟨b, e, by rw [timerAt_withTimer, if_neg (hold b e hb).1, hb], hseq, hd⟩
    · rintro ⟨b, e, hb, hseq, hd⟩
      rw [timerAt_withTimer] at hb
      split at hb
      · cases hb
        have hk : k = w.s_numCreated_ + 1 := hseq.symm
        rw [if_pos hk, ← hd]
        exact congrArg some hnew.symm
      · rw [if_neg (hseq ▸ (hold b e hb).2)]
        exact (h.left k d).mpr ⟨b, e, hb, hseq, hd⟩
  now := h.now
  fired := h.fired

/-! ## Cancellations

  The schedule forgets the timer, and so does the wheel. -/

/-- A removal keeps the wheel regular. -/
theorem Regular.removed (h : Regular w) (ha : w.heap a = some e) : Regular (w.removed a e) where
  sound := h.sound.removed ha
  two_le := h.two_le
  slots_lt := h.slots_lt
  pos_lt := h.pos_lt
  revolutions_lt := by
    intro b x hb
    rw [timerAt_removed] at hb
    split at hb
    · cases hb
    · exact h.revolutions_lt hb
  unlocked := h.unlocked
  ran_le := h.ran_le

/-- A removal is the schedule's `drop`. -/
theorem Follows.removed (hw : Regular w) (h : Follows w s) (ha : w.heap a = some e) :
    Follows (w.removed a e) (s.apply (.drop e.sequence_)) where
  left := by
    intro k d
    -- numbers are unique, so only `a` has the number that is dropped
    have honly : ∀ b x, w.timerAt b = some x → x.sequence_ = e.sequence_ → b = a := by
      intro b x hb hseq
      have hn := number_of_timerAt hb
      rw [hseq] at hn
      exact hw.sound.ledger.unique hn (number_of_heap ha)
    rw [Schedule.left_drop]
    constructor
    · intro hk
      split at hk
      · cases hk
      · rename_i hne
        obtain ⟨b, x, hb, hseq, hd⟩ := (h.left k d).mp hk
        have hba : b ≠ a := by
          rintro rfl
          rw [timerAt_of_heap ha] at hb
          cases hb
          exact hne hseq.symm
        exact ⟨b, x, by rw [timerAt_removed, if_neg hba, hb], hseq, hd⟩
    · rintro ⟨b, x, hb, hseq, hd⟩
      rw [timerAt_removed] at hb
      split at hb
      · cases hb
      · rename_i hba
        have hne : k ≠ e.sequence_ := fun hk => hba (honly b x hb (hseq.trans hk))
        rw [if_neg hne]
        exact (h.left k d).mpr ⟨b, x, hb, hseq, hd⟩
  now := h.now
  fired := h.fired

/-! ## Ticks

  Every other timer is one tick nearer. -/

/-- An event that a walk leaves behind had rounds to go, and has one less. -/
theorem rotation_of_aged {e' : TimerEvent} (h : e.aged = some e') :
    0 < e.rotation_ ∧ e' = { e with rotation_ := e.rotation_ - 1 } := by
  rw [TimerEvent.aged] at h
  split at h
  · rename_i hr
    exact ⟨hr, (Option.some.inj h).symm⟩
  · cases h

/-- In the number of rounds this is a subtraction. -/
theorem revolutions_aged (h : 0 < e.revolutions) :
    TimerEvent.revolutions { e with rotation_ := e.rotation_ - 1 } = e.revolutions - 1 := by
  have hsub : (e.rotation_ - 1).toUInt32 = e.rotation_.toUInt32 - 1 := rfl
  have hone : (1 : UInt32).toNat = 1 := rfl
  rw [TimerEvent.revolutions, hsub, UInt32.toNat_sub_of_le, hone, TimerEvent.revolutions]
  rw [UInt32.le_iff_toNat_le, hone]
  exact h

/-- **What a tick leaves of an event**: nothing when it had no tick left, and else one less. -/
theorem Ticked.remaining (h : Ticked w w' (lists w.pos)) (hw : Regular w)
    (hrep : Represents w lists) (ha : w.timerAt a = some e) :
    (w.remaining e = 0 → w'.timerAt a = none) ∧
      ∀ d, w.remaining e = d + 1 →
        ∃ e', w'.timerAt a = some e' ∧ e'.sequence_ = e.sequence_ ∧ w'.remaining e' = d := by
  have hslots : w'.slotsNum_ = w.slotsNum_ := by rw [h.rest]
  have hslot := hrep.slot_lt_of_timerAt ha
  have hrot := rotation_pos_iff (hw.revolutions_lt ha)
  have htimer := h.timers a
  rw [ha, Option.bind_some] at htimer
  -- the distance of a slot from the position, before the tick and after it
  obtain ⟨hsame, hother⟩ := distance_next hw.pos_lt hslot hw.two_le
  -- the slots keep their number, so only the position differs
  have hremaining : ∀ x : TimerEvent, w'.remaining x =
      (x.slot + w.slotsNum_.toNat - (w.pos + 1) % w.slotsNum_.toNat) % w.slotsNum_.toNat +
        x.revolutions * w.slotsNum_.toNat := by
    intro x
    rw [TimerWheel.remaining, hslots, h.pos]
  rw [TimerWheel.remaining]
  by_cases hcur : e.slot = w.pos
  · -- in the current slot a revolution is taken off
    obtain ⟨hnear, hfar⟩ := hsame hcur
    rw [if_pos ((hrep.mem_iff ha hw.pos_lt).mpr hcur), TimerEvent.aged] at htimer
    rw [hnear, Nat.zero_add]
    rcases Nat.eq_zero_or_pos e.revolutions with h0 | hpos
    · rw [if_neg fun hrun => absurd (hrot.mp hrun) (by omega)] at htimer
      refine ⟨fun _ => htimer, fun d hd => ?_⟩
      rw [h0, Nat.zero_mul] at hd
      cases hd
    · obtain ⟨r, hr⟩ : ∃ r, e.revolutions = r + 1 := ⟨e.revolutions - 1, by omega⟩
      have htwo := hw.two_le
      rw [if_pos (hrot.mpr hpos)] at htimer
      rw [hr, Nat.succ_mul]
      refine ⟨fun hzero => absurd hzero (by omega), fun d hd => ⟨_, htimer, rfl, ?_⟩⟩
      have hfar' : (TimerEvent.slot { e with rotation_ := e.rotation_ - 1 } + w.slotsNum_.toNat -
          (w.pos + 1) % w.slotsNum_.toNat) % w.slotsNum_.toNat = w.slotsNum_.toNat - 1 := hfar
      rw [hremaining, revolutions_aged hpos, hr, Nat.add_sub_cancel, hfar']
      omega
  · -- in another slot the current one comes nearer
    rw [if_neg fun hmem => hcur ((hrep.mem_iff ha hw.pos_lt).mp hmem)] at htimer
    rw [hother hcur]
    refine ⟨fun hzero => absurd hzero (by omega), fun d hd => ⟨e, htimer, rfl, ?_⟩⟩
    rw [hremaining]
    omega

/-- A tick brings no event into being. -/
theorem Ticked.timerAt_none (h : Ticked w w' (lists w.pos)) (ha : w.timerAt a = none) :
    w'.timerAt a = none := by
  rw [h.timers a, ha]
  split <;> rfl

/-- An event without a tick left is in the current slot, with no revolution to go. -/
theorem Regular.remaining_eq_zero (hw : Regular w) (hrep : Represents w lists)
    (ha : w.timerAt a = some e) : w.remaining e = 0 ↔ e.slot = w.pos ∧ ¬ 0 < e.rotation_ := by
  have hrot := rotation_pos_iff (hw.revolutions_lt ha)
  have htwo := hw.two_le
  have hslot := hrep.slot_lt_of_timerAt ha
  obtain ⟨hsame, hother⟩ := distance_next hw.pos_lt hslot htwo
  rw [remaining]
  constructor
  · intro hzero
    have hcur : e.slot = w.pos := by
      by_contra hne
      have := hother hne
      omega
    refine ⟨hcur, fun hrun => ?_⟩
    have hmul : w.slotsNum_.toNat ≤ e.revolutions * w.slotsNum_.toNat :=
      Nat.le_mul_of_pos_left _ (hrot.mp hrun)
    omega
  · rintro ⟨hcur, hrun⟩
    have hzero : e.revolutions = 0 := by
      by_contra hne
      exact hrun (hrot.mpr (Nat.pos_of_ne_zero hne))
    rw [(hsame hcur).1, hzero, Nat.zero_mul]

/-- **The events that a tick runs** are those with nothing remaining: in the current slot, and
    with no rounds to go. -/
theorem mem_dueIn (hw : Regular w) (hrep : Represents w lists) {k : Nat} :
    k ∈ dueIn w (lists w.pos) ↔
      ∃ a e, w.timerAt a = some e ∧ e.sequence_ = k ∧ w.remaining e = 0 := by
  rw [dueIn, List.mem_filterMap]
  constructor
  · rintro ⟨a, hmem, hk⟩
    obtain ⟨e, ha, hk⟩ := Option.bind_eq_some_iff.mp hk
    split at hk
    · cases hk
    · rename_i hrun
      have hcur := (hrep.mem_iff ha hw.pos_lt).mp hmem
      exact ⟨a, e, ha, Option.some.inj hk, (hw.remaining_eq_zero hrep ha).mpr ⟨hcur, hrun⟩⟩
  · rintro ⟨a, e, ha, rfl, hzero⟩
    obtain ⟨hcur, hrun⟩ := (hw.remaining_eq_zero hrep ha).mp hzero
    refine ⟨a, (hrep.mem_iff ha hw.pos_lt).mpr hcur, ?_⟩
    rw [ha, Option.bind_some, if_neg hrun]

/-- Each of them is run once. -/
theorem nodup_dueIn (hw : Regular w) (hrep : Represents w lists) :
    (dueIn w (lists w.pos)).Nodup := by
  refine (hrep.nodup hw.pos_lt).filterMap fun a b k ha hb => ?_
  have hnumber : ∀ c, k ∈ ((w.timerAt c).bind fun e =>
      if 0 < e.rotation_ then none else some e.sequence_) → number w.heap c = some k := by
    intro c hc
    obtain ⟨e, he, hk⟩ := Option.bind_eq_some_iff.mp hc
    split at hk
    · cases hk
    · rw [number_of_timerAt he, hk]
  exact hw.sound.ledger.unique (hnumber a ha) (hnumber b hb)

/-- **A tick is the schedule's `tick`.** In the current slot a round is taken off, everywhere else
    the position comes one slot nearer; both take one from what remains. -/
theorem Follows.ticked (hw : Regular w) (hrep : Represents w lists)
    (h : Ticked w w' (lists w.pos)) (hs : Follows w s) : Follows w' (s.apply .tick) where
  left := by
    intro k d
    rw [Schedule.left_tick]
    -- a timer of the schedule had one tick more to go
    constructor
    · intro hk
      obtain ⟨d', hd', hpred⟩ := Option.bind_eq_some_iff.mp hk
      rw [Nat.ppred_eq_some] at hpred
      obtain ⟨a, e, ha, hseq, hrem⟩ := (hs.left k d').mp hd'
      obtain ⟨e', ha', hseq', hrem'⟩ := (h.remaining hw hrep ha).2 d (by omega)
      exact ⟨a, e', ha', hseq'.trans hseq, hrem'⟩
    · -- a timer of the wheel had one too, in whichever slot it is
      rintro ⟨a, e', ha', hseq', hrem'⟩
      cases ha : w.timerAt a with
      | none =>
        rw [h.timerAt_none ha] at ha'
        cases ha'
      | some e =>
        obtain ⟨hzero, hnext⟩ := h.remaining hw hrep ha
        cases hd : w.remaining e with
        | zero =>
          rw [hzero hd] at ha'
          cases ha'
        | succ d' =>
          obtain ⟨e'', ha'', hseq'', hrem''⟩ := hnext d' hd
          obtain rfl : e'' = e' := Option.some.inj (ha''.symm.trans ha')
          have hk := (hs.left k (d' + 1)).mpr ⟨a, e, ha, by omega, hd⟩
          rw [hk, Option.bind_some, Nat.ppred_succ, ← hrem'', hrem']
  now := by
    rw [Schedule.now_tick, hs.now, h.rest]
  fired := by
    intro k
    -- those at 0 fire, and these are the callbacks of the tick
    have hdue : s.left k = some 0 ↔ k ∈ dueIn w (lists w.pos) := by
      rw [hs.left, mem_dueIn hw hrep]
    have hlog : (((dueIn w (lists w.pos)).map fun n => (n, w.ticks + 1)).filter
        fun x => x.1 = k).map Prod.snd =
        List.replicate ((dueIn w (lists w.pos)).count k) (w.ticks + 1) := by
      have hcomp : ((fun x : Nat × Nat => decide (x.1 = k)) ∘ fun n => (n, w.ticks + 1)) =
          fun n => decide (n = k) := rfl
      rw [List.filter_map, List.map_map, hcomp, List.filter_eq, List.map_replicate]
      rfl
    rw [Schedule.fired_tick, h.ran, List.filter_append, List.map_append, hlog, hs.fired, hs.now]
    by_cases hk : k ∈ dueIn w (lists w.pos)
    · rw [if_pos (hdue.mpr hk), List.count_eq_one_of_mem (nodup_dueIn hw hrep) hk]
      rfl
    · rw [if_neg fun h0 => hk (hdue.mp h0), List.count_eq_zero_of_not_mem hk, List.replicate_zero,
        List.append_nil]

/-- A tick keeps the wheel regular. -/
theorem Regular.ticked (hw : Regular w) (hrep : Represents w lists)
    (h : Ticked w w' (lists w.pos)) (hsound : Sound w') : Regular w' := by
  have hslots : w'.slotsNum_ = w.slotsNum_ := by rw [h.rest]
  -- the slots keep their number, and the position its range
  constructor
  · exact hsound
  · rw [hslots]
    exact hw.two_le
  · rw [hslots]
    exact hw.slots_lt
  · rw [h.pos, hslots]
    exact Nat.mod_lt _ (by have := hw.two_le; omega)
  · -- the timers that stay have no more revolutions to go than before
    intro a e' ha'
    rw [h.timers] at ha'
    split at ha'
    · obtain ⟨e, ha, haged⟩ := Option.bind_eq_some_iff.mp ha'
      obtain ⟨hrun, rfl⟩ := rotation_of_aged haged
      have hlt := hw.revolutions_lt ha
      rw [revolutions_aged ((rotation_pos_iff hlt).mp hrun)]
      omega
    · exact hw.revolutions_lt ha'
  · rw [h.rest]
    exact hw.unlocked
  · -- the callbacks of the tick belong to timers that were added
    intro x hx
    rw [h.ran] at hx
    have hcreated : w'.s_numCreated_ = w.s_numCreated_ := by rw [h.rest]
    rw [hcreated]
    rcases List.mem_append.mp hx with hx | hx
    · exact hw.ran_le x hx
    · obtain ⟨n, hn, rfl⟩ := List.mem_map.mp hx
      obtain ⟨a, e, ha, hseq, -⟩ := (mem_dueIn hw hrep).mp hn
      rw [← hseq]
      exact (hw.sound.ledger.range (number_of_timerAt ha)).2

end TimerWheel

end IOEvent
