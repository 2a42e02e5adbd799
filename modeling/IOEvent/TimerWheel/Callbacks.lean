/-
  Ticks whose callbacks call the wheel.

  A callback adds timers and cancels others while `tickUnlock` walks the list of the current
  slot.  What it adds to this list comes in front of the running event, where the walk does not
  come any more; what it cancels may be in front of it or behind it.  So the walk still has an
  end part of the list to go (`Walking`), with no event in it that was not there before.

  `ComesDue` follows one timer: the tick call during which it is due does not change, whether the
  timer waits in another slot, in front of the walk or behind it (`dueAt`), until it is run in
  this very call.  Each part of a turn keeps it, and a whole tick does.

  The proof follows the shape of the code: the operations, a callback as several of them
  (`Aside`), a turn, the walk by induction on what it has to go, and the tick.  `Passes` ties a
  state inside the walk to the tick, so that what callbacks may do can be asked of the tick from
  outside (`Keeps`).
-/
import IOEvent.TimerWheel.OnTime

open Foundation

namespace IOEvent

namespace TimerWheel

/-! ## Scripts

  What the callbacks of a tick do is given in advance, so a condition on a callback is one on
  the script and on the state in which it is called. -/

/-- The callbacks return, and do not call `tick`. -/
def Tame (script : Nat → Behaviour) : Prop :=
  ∀ k, .tick ∉ (script k).calls ∧ (script k).returns = true

/-- One turn of the walk, with the calls of a tame script. -/
abbrev tameTurn (script : Nat → Behaviour) :
    Option EventAddr × TimerWheel → M (Turn (Option EventAddr × TimerWheel) TimerWheel) :=
  turn (runEvent script (step script 0))

/-- The next tick of `w` passes through the state `s` of its walk. -/
def Passes (script : Nat → Behaviour) (w : TimerWheel) (s : Option EventAddr × TimerWheel) : Prop :=
  ∃ p, w.ticking.slotAt (index w.ticking.currentSlotPos_) = .ok p ∧
    Relation.ReflTransGen (Goes (tameTurn script)) (p, w.ticking) s

/-- In the next tick of `w` the callback of the event at `a` is called in the state `x`, and makes
    the calls `calls`. -/
def CallsBack (script : Nat → Behaviour) (w : TimerWheel) (a : EventAddr) (x : TimerWheel)
    (calls : List Call) : Prop :=
  ∃ s e, Passes script w (some a, s) ∧ s.heap a = some e ∧ ¬ 0 < e.rotation_ ∧
    e.run (script s.ran.length).guard = true ∧ x = s.logged e ∧
    calls = (script s.ran.length).calls

/-- A call of the callback of the event at `a`: it cancels a timer that is in the wheel, and another
    one than its own. -/
def Permitted (a : EventAddr) (w : TimerWheel) : Call → Prop
  | .cencel i => Waiting w (.cencel i) ∧ number w.heap a ≠ some (i + 1)
  | _ => True

/-- A call, with those of the callbacks, that cancels only timers that are in the wheel and not
    running, and not the one with the `i`-th `CancelId`. -/
def Keeps (script : Nat → Behaviour) (i : Nat) (w : TimerWheel) : Call → Prop
  | .cencel j => Waiting w (.cencel j) ∧ j ≠ i
  | .tick => ∀ a x calls, CallsBack script w a x calls →
    Guarded (step script 0) (Permitted a) x calls ∧ .cencel i ∉ calls
  | _ => True

variable {script : Nat → Behaviour} {w w' : TimerWheel} {lists : Nat → List EventAddr}
  {a b : EventAddr} {e : TimerEvent} {rest : List EventAddr} {i k T : Nat}

/-- The number of turns matters to `tick` alone. -/
theorem step_of_ne_tick {c : Call} (hc : c ≠ .tick) (turns : Nat) (w : TimerWheel) :
    step script turns w c = step script 0 w c := by
  cases turns with
  | zero => rfl
  | succ turns =>
    cases c with
    | tick => exact absurd rfl hc
    | _ => rfl

/-- A tame callback does the same however many turns a loop may have. -/
theorem Tame.runEvent (hscript : Tame script) (turns : Nat) :
    runEvent script (step script turns) = runEvent script (step script 0) := by
  funext e w
  rw [TimerWheel.runEvent, TimerWheel.runEvent]
  have hsame : ∀ c ∈ (script w.ran.length).calls, ∀ w, step script turns w c = step script 0 w c :=
    fun c hc => step_of_ne_tick (ne_of_mem_of_not_mem hc (hscript w.ran.length).1) turns
  rw [run_congr _ hsame]

/-! ## States

  Where the walk is, and during which tick one timer is due, seen from inside the walk. -/

/-- Lowering the rounds of an event keeps the wheel regular, since a positive `rotation_` stays an
    `int`. -/
theorem Regular.rotated (h : Regular w) (ha : w.heap a = some e) (hr : 0 < e.rotation_) :
    Regular (w.rotated a e (e.rotation_ - 1)) where
  sound := h.sound.rotated ha _
  two_le := h.two_le
  slots_lt := h.slots_lt
  pos_lt := h.pos_lt
  revolutions_lt := by
    intro b x hb
    rw [timerAt_rotated] at hb
    split at hb
    · cases hb
      have hlt := h.revolutions_lt (timerAt_of_heap ha)
      have hpos : 0 < e.revolutions := (rotation_pos_iff hlt).mp hr
      have hless := revolutions_aged hpos
      have hsame : e.revolutions < 2 ^ 31 := hlt
      show TimerEvent.revolutions { e with rotation_ := e.rotation_ - 1 } < 2 ^ 31
      omega
    · exact h.revolutions_lt hb
  unlocked := h.unlocked
  ran_le := h.ran_le

/-- So does the call of a callback, whose number is that of an event. -/
theorem Regular.logged (h : Regular w) (ha : w.heap a = some e) : Regular (w.logged e) where
  sound := h.sound.frame _ _ _ _
  two_le := h.two_le
  slots_lt := h.slots_lt
  pos_lt := h.pos_lt
  revolutions_lt := h.revolutions_lt
  unlocked := h.unlocked
  ran_le := by
    intro x hx
    rcases List.mem_append.mp hx with hx | hx
    · exact h.ran_le x hx
    · rw [List.mem_singleton.mp hx]
      exact (h.sound.ledger.range (number_of_heap ha)).2

/-- So does the beginning of a tick. -/
theorem Regular.ticking (h : Regular w) (hm : w.mutex_ = none) : Regular w.ticking where
  sound := h.sound.frame _ _ _ _
  two_le := h.two_le
  slots_lt := h.slots_lt
  pos_lt := h.pos_lt
  revolutions_lt := h.revolutions_lt
  unlocked := unlocked_of_none (ticking_mutex hm)
  ran_le := h.ran_le

/-- The walk over the current slot has the events of `rest` to go. -/
structure Walking (w : TimerWheel) (rest : List EventAddr) : Prop where
  regular : Regular w
  free : w.mutex_ = none
  split : ∃ lists front, Represents w lists ∧ lists w.pos = front ++ rest

/-- An event in the current slot has whole rounds to go: nothing of the way round is left. -/
theorem remaining_of_current (hw : Regular w) (hslot : e.slot = w.pos) :
    w.remaining e = e.revolutions * w.slotsNum_.toNat := by
  rw [remaining, hslot, ((distance_next hw.pos_lt hw.pos_lt hw.two_le).1 rfl).1, Nat.zero_add]

/-- The tick call during which the event `e` at `b` is due, when the walk has the events of `rest`
    to go.  An event of the current slot that it does not come to is met a revolution later. -/
def dueAt (w : TimerWheel) (rest : List EventAddr) (b : EventAddr) (e : TimerEvent) : Nat :=
  w.ticks + w.remaining e + if e.slot = w.pos ∧ b ∉ rest then w.slotsNum_.toNat else 0

/-- Which tick an event is due at depends on the walk only through whether it has it before it. -/
theorem dueAt_congr {l l' : List EventAddr} (h : b ∈ l ↔ b ∈ l') (e : TimerEvent) :
    w.dueAt l b e = w.dueAt l' b e := by
  rw [dueAt, dueAt, if_congr (and_congr_right fun _ => not_congr h) rfl rfl]

/-- The same between two calls. -/
def dueNext (w : TimerWheel) (_ : EventAddr) (e : TimerEvent) : Nat := w.ticks + 1 + w.remaining e

/-- The timer number `k` comes due during the `T`-th tick call: it waits and was never run, or it
    was run then and is gone. -/
inductive ComesDue (w : TimerWheel) (due : EventAddr → TimerEvent → Nat) (k T : Nat) : Prop
  | waiting {b : EventAddr} {e : TimerEvent} (hb : w.timerAt b = some e) (hk : e.sequence_ = k)
    (hran : w.dueTicks k = []) (hT : due b e = T)
  | fired (hgone : ∀ b, number w.heap b ≠ some k) (hk : k ≤ w.s_numCreated_)
    (hran : w.dueTicks k = [T]) (hT : T ≤ w.ticks)

/-- What leaves the timer with the same tick call to wait for. -/
theorem ComesDue.congr {due due' : EventAddr → TimerEvent → Nat} (h : ComesDue w due k T)
    (hlive : ∀ b e, w.timerAt b = some e → e.sequence_ = k →
      ∃ e', w'.timerAt b = some e' ∧ e'.sequence_ = k ∧ due' b e' = due b e)
    (hgone : k ≤ w.s_numCreated_ → (∀ b, number w.heap b ≠ some k) → ∀ b, number w'.heap b ≠ some k)
    (hran : w'.dueTicks k = w.dueTicks k) (hcreated : w.s_numCreated_ ≤ w'.s_numCreated_)
    (hticks : w.ticks ≤ w'.ticks) : ComesDue w' due' k T := by
  cases h with
  | waiting hb hk hnot hT =>
    obtain ⟨e', hb', hk', hdue⟩ := hlive _ _ hb hk
    exact .waiting hb' hk' (hran.trans hnot) (hdue.trans hT)
  | fired hnone hk hrun hT =>
    exact .fired (hgone hk hnone) (hk.trans hcreated) (hran.trans hrun) (hT.trans hticks)

/-- Between the ticks, a timer that comes due at `T` is on time for `T`. -/
theorem ComesDue.onTime (h : ComesDue w w.dueNext k T) : OnTime w k T := by
  rw [OnTime]
  cases h with
  | waiting hb hk hran hT =>
    rw [dueNext] at hT
    rw [if_pos (by omega)]
    exact ⟨⟨_, by rw [number_of_timerAt hb, hk]⟩, hran⟩
  | fired hgone hk hran hT =>
    rw [if_neg (by omega)]
    exact ⟨not_exists.mpr hgone, hran⟩

/-! ## What the operations keep

  An addition, a cancellation of another event, and the steps of the walk itself. -/

/-- During a walk the index that the code reads is the current slot. -/
theorem Walking.index_eq (h : Walking w rest) : index w.currentSlotPos_ = w.pos := by
  refine index_of_lt ?_
  have := h.regular.pos_lt
  have := h.regular.slots_lt
  rw [← pos]
  omega

/-- The next event of the walk. -/
theorem Walking.next (h : Walking w (a :: rest)) :
    ∃ e, w.heap a = some e ∧ e.slot = w.pos ∧ e.pNext_ = rest.head? ∧ a ∉ rest := by
  obtain ⟨lists, front, hrep, hl⟩ := h.split
  obtain ⟨e, ha, hslot⟩ := hrep.home h.regular.pos_lt (a := a) (by rw [hl]; simp)
  obtain ⟨p, -, hlist⟩ := hrep.slotAt h.regular.pos_lt
  rw [hl] at hlist
  exact ⟨e, ha, hslot, hlist.next (links_of_heap ha),
    (List.nodup_cons.mp (List.nodup_append.mp hlist.nodup).2.1).1⟩

/-- An address where no event lives is not on the way of the walk. -/
theorem Walking.not_mem (h : Walking w rest) (ha : w.heap a = none) : a ∉ rest := by
  obtain ⟨lists, front, hrep, hl⟩ := h.split
  intro hmem
  obtain ⟨e, he, -⟩ := hrep.home h.regular.pos_lt (a := a) (by
    rw [hl]
    exact List.mem_append_right front hmem)
  rw [ha] at he
  cases he

/-- **A callback may add a timer.** It goes in front of the walked part of a list, so what the
    walk still has before it is the same. -/
theorem Walking.withTimer (h : Walking w rest) (ha : w.heap a = none) (timeout : UInt32)
    (obj cb : Bool) {p : Option EventAddr} (hp : w.slots_[(w.slotFor timeout).toNat]? = some p) :
    Walking (w.withTimer timeout obj cb a p) rest := by
  obtain ⟨lists, front, hrep, hl⟩ := h.split
  have hadded := hrep.added (e := w.eventFor timeout obj cb) ha rfl hp
  have hrep' : Represents (w.withTimer timeout obj cb a p) _ :=
    ⟨hadded.size, hadded.linked, hadded.home, hadded.listed⟩
  refine ⟨h.regular.withTimer ha timeout obj cb hp, h.free, ?_⟩
  by_cases hslot : w.pos = (w.eventFor timeout obj cb).slot
  · -- the new event is the first of the slot
    refine ⟨_, a :: front, hrep', ?_⟩
    show Function.update lists _ _ w.pos = _
    rw [hslot, Function.update_self, ← hslot, hl, List.cons_append]
  · refine ⟨_, front, hrep', ?_⟩
    show Function.update lists _ _ w.pos = _
    rw [Function.update_of_ne hslot, hl]

/-- A callback may cancel a timer; if the walk had it before it then it has it no more. -/
theorem Walking.removed (h : Walking w rest) (ha : w.heap a = some e) :
    Walking (w.removed a e) (rest.erase a) := by
  obtain ⟨lists, front, hrep, hl⟩ := h.split
  have hnodup : (front ++ rest).Nodup := hl ▸ hrep.nodup h.regular.pos_lt
  refine ⟨h.regular.removed ha, h.free, ?_⟩
  by_cases hfront : a ∈ front
  · refine ⟨_, front.erase a, hrep.removed ha, ?_⟩
    have hrest : a ∉ rest := fun hmem => (List.nodup_append.mp hnodup).2.2 a hfront a hmem rfl
    show (lists w.pos).erase a = _
    rw [hl, List.erase_append_left _ hfront, List.erase_of_not_mem hrest]
  · refine ⟨_, front, hrep.removed ha, ?_⟩
    show (lists w.pos).erase a = _
    rw [hl, List.erase_append_right _ hfront]

/-- The walk goes past an event with rounds left, and leaves it one less. -/
theorem Walking.rotated (h : Walking w (a :: rest)) (ha : w.heap a = some e)
    (hr : 0 < e.rotation_) :
    Walking (w.rotated a e (e.rotation_ - 1)) rest := by
  obtain ⟨lists, front, hrep, hl⟩ := h.split
  refine ⟨h.regular.rotated ha hr, h.free, lists, front ++ [a], hrep.rotated ha _, ?_⟩
  show lists w.pos = _
  rw [hl, List.append_assoc, List.singleton_append]

/-- Entering a run in the log does not disturb the walk. -/
theorem Walking.logged (h : Walking w rest) (ha : w.heap a = some e) :
    Walking (w.logged e) rest := by
  obtain ⟨lists, front, hrep, hl⟩ := h.split
  exact ⟨h.regular.logged ha, h.free, lists, front, hrep.logged e, hl⟩

variable {due due' : EventAddr → TimerEvent → Nat}

/-- Adding another timer moves no deadline. -/
theorem ComesDue.withTimer (h : ComesDue w due k T) (ha : w.heap a = none) {timeout : UInt32}
    {obj cb : Bool} {p : Option EventAddr} (hdue : ∀ b e, due' b e = due b e) :
    ComesDue (w.withTimer timeout obj cb a p) due' k T := by
  have hnumber : number (w.withTimer timeout obj cb a p).heap =
      Function.update (number w.heap) a (some (w.s_numCreated_ + 1)) := number_added
  refine h.congr (fun b e hb hk => ⟨e, ?_, hk, hdue b e⟩)
    (fun hk hgone b hb => ?_) rfl (Nat.le_succ _)
    (Nat.le_refl _)
  · have hba : b ≠ a := by
      rintro rfl
      rw [timerAt, ha] at hb
      cases hb
    rw [timerAt_withTimer, if_neg hba, hb]
  · rw [hnumber] at hb
    rcases update_eq_some hb with ⟨-, hnew⟩ | ⟨-, hold⟩
    · cases hnew
      omega
    · exact hgone b hold

/-- Another timer is taken out. -/
theorem ComesDue.removed (h : ComesDue w due k T) (ha : w.heap a = some e) (hne : e.sequence_ ≠ k)
    (hdue : ∀ b e, b ≠ a → due' b e = due b e) : ComesDue (w.removed a e) due' k T := by
  refine h.congr (fun b x hb hk => ?_) (fun _ hgone b hb => ?_) rfl (Nat.le_refl _) (Nat.le_refl _)
  · have hba : b ≠ a := by
      rintro rfl
      rw [timerAt_of_heap ha] at hb
      cases hb
      exact hne hk
    exact ⟨x, by rw [timerAt_removed, if_neg hba, hb], hk, hdue b x hba⟩
  · rw [number_removed] at hb
    rcases update_eq_some hb with ⟨-, hnone⟩ | ⟨-, hold⟩
    · cases hnone
    · exact hgone b hold

/-- Another timer is run. -/
theorem ComesDue.logged (h : ComesDue w due k T) (hne : e.sequence_ ≠ k) :
    ComesDue (w.logged e) due k T := by
  refine h.congr (fun b x hb hk => ⟨x, hb, hk, rfl⟩) (fun _ hgone => hgone) ?_ (Nat.le_refl _)
    (Nat.le_refl _)
  rw [dueTicks, TimerWheel.logged, List.filter_append, dueTicks]
  simp [hne]

/-- A revolution is taken from an event, which the walk has passed then. -/
theorem ComesDue.rotated (hw : Regular w) (h : ComesDue w (w.dueAt (a :: rest)) k T)
    (ha : w.heap a = some e) (hslot : e.slot = w.pos) (harest : a ∉ rest) (hr : 0 < e.rotation_) :
    ComesDue (w.rotated a e (e.rotation_ - 1))
      ((w.rotated a e (e.rotation_ - 1)).dueAt rest) k T := by
  refine h.congr (fun b x hb hk => ?_) (fun _ hgone b => ?_) rfl (Nat.le_refl _) (Nat.le_refl _)
  · -- `a` has one revolution less to go, and is behind the position now
    by_cases hba : b = a
    · subst hba
      rw [timerAt_of_heap ha] at hb
      cases hb
      refine ⟨{ e with rotation_ := e.rotation_ - 1, pPrev_ := none, pNext_ := none },
        (timerAt_rotated _).trans (if_pos rfl), hk, ?_⟩
      -- `hold` and `hnew` differ by the revolution that is counted off
      have hpos : 0 < e.revolutions :=
        (rotation_pos_iff (hw.revolutions_lt (timerAt_of_heap ha))).mp hr
      have hold : w.remaining { e with pPrev_ := none, pNext_ := none } =
          e.revolutions * w.slotsNum_.toNat := remaining_of_current hw hslot
      have hnew : w.remaining
          { e with rotation_ := e.rotation_ - 1, pPrev_ := none, pNext_ := none } =
          (e.revolutions - 1) * w.slotsNum_.toNat := by
        rw [← revolutions_aged hpos]
        exact remaining_of_current hw hslot
      obtain ⟨r, hrev⟩ : ∃ r, e.revolutions = r + 1 := ⟨e.revolutions - 1, by omega⟩
      rw [hrev, Nat.succ_mul] at hold
      rw [hrev, Nat.add_sub_cancel] at hnew
      rw [dueAt, dueAt, if_pos ⟨hslot, harest⟩, if_neg fun hcur => hcur.2 List.mem_cons_self, hold]
      show w.ticks + w.remaining _ + w.slotsNum_.toNat = _
      rw [hnew]
      omega
    · refine ⟨x, by rw [timerAt_rotated, if_neg hba, hb], hk, ?_⟩
      exact dueAt_congr (w := w) (List.mem_cons.trans (or_iff_right hba)).symm x
  · -- the numbers on the heap are as they were
    rw [number_rotated ha]
    exact hgone b

/-! ## A callback

  Its calls one after the other.  None of them puts an event behind the walk or takes the
  running one away. -/

/-- The calls of the callback of the event at `a` take the wheel from `w` to `w'`, and leave `rest'`
    of the walk after the event. -/
structure Aside (script : Nat → Behaviour) (a : EventAddr) (w : TimerWheel) (rest : List EventAddr)
    (calls : List Call) (w' : TimerWheel) (rest' : List EventAddr) : Prop where
  reaches : run (step script 0) w calls = .ok w'
  walking : Walking w' (a :: rest')
  running : number w'.heap a = number w.heap a
  ran : w'.ran = w.ran
  ticks : w'.ticks = w.ticks
  slots : w'.slotsNum_ = w.slotsNum_
  length : rest'.length ≤ rest.length
  keeps : ∀ i T, .cencel i ∉ calls → ComesDue w (w.dueAt (a :: rest)) (i + 1) T →
    ComesDue w' (w'.dueAt (a :: rest')) (i + 1) T

variable {calls calls' : List Call} {w₁ : TimerWheel} {rest' rest₁ : List EventAddr}

/-- What a callback does can be followed call by call. -/
theorem Aside.append (h : Aside script a w rest calls w₁ rest₁)
    (h' : Aside script a w₁ rest₁ calls' w' rest') :
    Aside script a w rest (calls ++ calls') w' rest' where
  reaches := by rw [run_append, h.reaches, ok_bind, h'.reaches]
  walking := h'.walking
  running := h'.running.trans h.running
  ran := h'.ran.trans h.ran
  ticks := h'.ticks.trans h.ticks
  slots := h'.slots.trans h.slots
  length := h'.length.trans h.length
  keeps := fun i T hnot hdue => h'.keeps i T (fun hmem => hnot (List.mem_append_right _ hmem))
    (h.keeps i T (fun hmem => hnot (List.mem_append_left _ hmem)) hdue)

/-- A callback that does nothing leaves everything as it is. -/
theorem Aside.nil (h : Walking w (a :: rest)) : Aside script a w rest [] w rest :=
  ⟨rfl, h, rfl, rfl, rfl, rfl, Nat.le_refl _, fun _ _ _ hdue => hdue⟩

/-- A timer is added by the callback. -/
theorem Aside.added (h : Walking w (a :: rest)) {timeout : UInt32} {obj cb : Bool} {b : EventAddr}
    {p : Option EventAddr} (hb : w.heap b = none)
    (hp : w.slots_[(w.slotFor timeout).toNat]? = some p)
    (hstep : step script 0 w (.addTimer timeout obj cb b) = .ok (w.withTimer timeout obj cb b p)) :
    Aside script a w rest [.addTimer timeout obj cb b] (w.withTimer timeout obj cb b p) rest where
  reaches := by rw [run_cons, hstep, ok_bind, run_nil]
  walking := h.withTimer hb timeout obj cb hp
  running := by
    have hab : a ≠ b := fun hab => h.not_mem hb (hab ▸ List.mem_cons_self)
    have hnumber : number (w.withTimer timeout obj cb b p).heap =
      Function.update (number w.heap) b (some (w.s_numCreated_ + 1)) := number_added
    rw [hnumber, Function.update_of_ne hab]
  ran := rfl
  ticks := rfl
  slots := rfl
  length := Nat.le_refl _
  keeps := fun i T _ hdue => hdue.withTimer hb fun _ _ => rfl

/-- A timer is cancelled by the callback of another one. -/
theorem Aside.removed (h : Walking w (a :: rest)) {j : Nat} (hb : w.heap b = some e)
    (hseq : e.sequence_ = j + 1) (hother : number w.heap a ≠ some (j + 1))
    (hstep : step script 0 w (.cencel j) = .ok (w.removed b e)) :
    Aside script a w rest [.cencel j] (w.removed b e) (rest.erase b) := by
  have hab : a ≠ b := by
    rintro rfl
    exact hother (by rw [number_of_heap hb, hseq])
  have herase : (a :: rest).erase b = a :: rest.erase b := by
    rw [List.erase_cons_tail]
    simpa using hab
  constructor
  · rw [run_cons, hstep, ok_bind, run_nil]
  · rw [← herase]
    exact h.removed hb
  · rw [number_removed, Function.update_of_ne hab]
  · rfl
  · rfl
  · rfl
  · exact List.length_erase_le
  · intro i T hnot hdue
    refine hdue.removed hb (fun hk => hnot ?_) fun c x hcb => ?_
    · rw [hseq] at hk
      rw [Nat.succ.inj hk]
      exact List.mem_singleton_self _
    · rw [← herase]
      exact dueAt_congr (w := w) (List.mem_erase_of_ne hcb) x

/-- One call of a callback. The three kinds of effect are those of a call between the ticks; the
    difference is that the walk goes on behind it. -/
theorem Aside.of_effect (h : Walking w (a :: rest)) {c : Call} (hc : Permitted a w c)
    (hstep : step script 0 w c = .ok w') (heffect : Effect w c w') :
    ∃ rest', Aside script a w rest [c] w' rest' := by
  have hreaches : run (step script 0) w [c] = .ok w' := by rw [run_cons, hstep, ok_bind, run_nil]
  cases heffect with
  | taken _ => exact ⟨rest, hreaches, h, rfl, rfl, rfl, rfl, Nat.le_refl _, fun _ _ _ hdue => hdue⟩
  | unknown _ => exact ⟨rest, hreaches, h, rfl, rfl, rfl, rfl,
    Nat.le_refl _, fun _ _ _ hdue => hdue⟩
  | added hb hp => exact ⟨rest, .added h hb hp hstep⟩
  | removed _ hb hseq => exact ⟨_, .removed h hb hseq hc.2 hstep⟩

/-- **The calls of a callback.** -/
theorem aside : ∀ (calls : List Call) (w : TimerWheel) (rest : List EventAddr),
    Walking w (a :: rest) → .tick ∉ calls → Guarded (step script 0) (Permitted a) w calls →
    ∃ w' rest', Aside script a w rest calls w' rest' := by
  intro calls
  induction calls with
  | nil => exact fun w rest h _ _ => ⟨w, rest, .nil h⟩
  | cons c calls ih =>
    intro w rest h htick hguard
    have hc : c ≠ .tick := fun hc => htick (hc ▸ List.mem_cons_self)
    have hwaiting : Waiting w c := by
      cases c with
      | cencel j => exact hguard.1.1
      | _ => trivial
    obtain ⟨w₁, heffect, hcall⟩ := h.regular.call_effect hc hwaiting
    have hstep : step script 0 w c = .ok w₁ := step_of_call script hcall 0
    obtain ⟨rest₁, h₁⟩ := Aside.of_effect h hguard.1 hstep heffect
    obtain ⟨w', rest', h'⟩ := ih w₁ rest₁ h₁.walking
      (fun hmem => htick (List.mem_cons_of_mem _ hmem)) (hguard.2 w₁ hstep)
    exact ⟨w', rest', h₁.append h'⟩

/-! ## A turn

  The event is passed, or it is run with its callback and taken out. -/

/-- After its callback the event at `a` is taken out, and the walk goes on with what is left. -/
theorem Walking.take (h : Walking w₁ (a :: rest)) (ha : w.heap a = some e) (hr : ¬ 0 < e.rotation_)
    (hrun : runEvent script (step script 0) e w = .ok w₁)
    (hnumber : number w₁.heap a = some e.sequence_) :
    ∃ e₁, w₁.heap a = some e₁ ∧ e₁.sequence_ = e.sequence_ ∧
      Goes (tameTurn script) (some a, w) (rest.head?, w₁.removed a e₁) ∧
      Walking (w₁.removed a e₁) rest := by
  obtain ⟨e₁, ha₁, hseq⟩ := Option.map_eq_some_iff.mp hnumber
  obtain ⟨lists, front, hrep, hl⟩ := h.split
  have hremoved := h.removed ha₁
  rw [List.erase_cons_head] at hremoved
  exact ⟨e₁, ha₁, hseq, turn_of_callback ha hr hrun hrep h.index_eq h.regular.pos_lt hl ha₁,
    hremoved⟩

/-- A callback that is run does its calls in the state in which its own run is entered. -/
theorem runEvent_of_run (hscript : Tame script) (hrun : e.run (script w.ran.length).guard = true)
    (hreaches : run (step script 0) (w.logged e) (script w.ran.length).calls = .ok w₁) :
    runEvent script (step script 0) e w = .ok w₁ := by
  rw [TimerWheel.runEvent, if_pos hrun]
  show (run (step script 0) (w.logged e) _ >>= _) = _
  rw [hreaches, ok_bind, require_pos _ _ (hscript w.ran.length).2]
  rfl

/-- The callback of the event at `a`, if it has one and its object is there. -/
theorem Walking.runEvent (hscript : Tame script) (h : Walking w (a :: rest))
    (ha : w.heap a = some e) (hcalls : e.run (script w.ran.length).guard = true →
      Guarded (step script 0) (Permitted a) (w.logged e) (script w.ran.length).calls ∧
      .cencel i ∉ (script w.ran.length).calls) :
    ∃ w₁ rest₁ calls, Aside script a (w.logged e) rest calls w₁ rest₁ ∧ .cencel i ∉ calls ∧
      runEvent script (step script 0) e w = .ok w₁ := by
  have hlogged := h.logged ha
  by_cases hrun : e.run (script w.ran.length).guard = true
  · obtain ⟨hguard, hnot⟩ := hcalls hrun
    obtain ⟨w₁, rest₁, haside⟩ := aside _ _ _ hlogged (hscript w.ran.length).1 hguard
    exact ⟨w₁, rest₁, _, haside, hnot, runEvent_of_run hscript hrun haside.reaches⟩
  · refine ⟨_, _, [], .nil hlogged, List.not_mem_nil, ?_⟩
    rw [TimerWheel.runEvent, if_neg hrun]
    rfl

/-- The timer itself is run and taken out: this is the tick call during which it was due. -/
theorem ComesDue.own (hw : Regular w) (h : ComesDue w (w.dueAt (a :: rest)) k T)
    (ha : w.heap a = some e) (hk : e.sequence_ = k) (hslot : e.slot = w.pos)
    (hr : ¬ 0 < e.rotation_) (hw₁ : Regular w₁) {e₁ : TimerEvent} (ha₁ : w₁.heap a = some e₁)
    (hk₁ : e₁.sequence_ = k)
    (hran : w₁.ran = (w.logged e).ran) (hticks : w₁.ticks = w.ticks) :
    ComesDue (w₁.removed a e₁) due k T := by
  have hnumber : number w.heap a = some k := by rw [number_of_heap ha, hk]
  have hnumber₁ : number w₁.heap a = some k := by rw [number_of_heap ha₁, hk₁]
  cases h with
  | fired hgone _ _ _ => exact absurd hnumber (hgone a)
  | @waiting b x hb hbk hnot hT =>
    obtain rfl : b = a := hw.sound.ledger.unique (by rw [number_of_timerAt hb, hbk]) hnumber
    obtain rfl : { e with pPrev_ := none, pNext_ := none } = x :=
      Option.some.inj ((timerAt_of_heap ha).symm.trans hb)
    obtain ⟨lists, hrep⟩ := hw.sound.represented
    have hnow : T = w.ticks := by
      rw [← hT, dueAt, if_neg fun hcur => hcur.2 List.mem_cons_self,
        (hw.remaining_eq_zero hrep hb).mpr ⟨hslot, hr⟩, Nat.add_zero]
    refine .fired (fun c hc => ?_) (hw₁.sound.ledger.range hnumber₁).2 ?_ ?_
    · rw [number_removed] at hc
      rcases update_eq_some hc with ⟨-, hnone⟩ | ⟨hne, hold⟩
      · cases hnone
      · exact hne (hw₁.sound.ledger.unique hold hnumber₁)
    · show (w₁.ran.filter _).map _ = _
      rw [hran, TimerWheel.logged, List.filter_append, List.map_append, hnow]
      rw [dueTicks] at hnot
      rw [hnot, List.filter_cons_of_pos (by simpa using hk)]
      rfl
    · show T ≤ w₁.ticks
      rw [hnow, hticks]

/-- **A turn of the walk.** -/
theorem Walking.turn (hscript : Tame script) (h : Walking w (a :: rest))
    (hcalls : ∀ e, w.heap a = some e → ¬ 0 < e.rotation_ →
      e.run (script w.ran.length).guard = true →
      Guarded (step script 0) (Permitted a) (w.logged e) (script w.ran.length).calls ∧
      .cencel i ∉ (script w.ran.length).calls) :
    ∃ w' rest', Goes (tameTurn script) (some a, w) (rest'.head?, w') ∧ Walking w' rest' ∧
      w'.ticks = w.ticks ∧ w'.slotsNum_ = w.slotsNum_ ∧ rest'.length ≤ rest.length ∧
      ∀ T, ComesDue w (w.dueAt (a :: rest)) (i + 1) T → ComesDue w' (w'.dueAt rest') (i + 1) T := by
  obtain ⟨e, ha, hslot, hnext, harest⟩ := h.next
  by_cases hr : 0 < e.rotation_
  · -- the event stays, and is passed
    refine ⟨_, rest, ?_, h.rotated ha hr, rfl, rfl, Nat.le_refl _,
      fun T hdue => hdue.rotated h.regular ha hslot harest hr⟩
    rw [Goes, ← hnext]
    exact turn_of_pos ha hr
  · obtain ⟨w₁, rest₁, calls, haside, hnot, hrun⟩ := h.runEvent hscript ha (hcalls e ha hr)
    have hnumber : number w₁.heap a = some e.sequence_ := haside.running.trans (number_of_heap ha)
    obtain ⟨e₁, ha₁, hseq, hgoes, hwalking⟩ := haside.walking.take ha hr hrun hnumber
    refine ⟨_, rest₁, hgoes, hwalking, haside.ticks, haside.slots, haside.length, fun T hdue => ?_⟩
    by_cases hk : e.sequence_ = i + 1
    · exact hdue.own h.regular ha hk hslot hr haside.walking.regular ha₁ (hseq.trans hk) haside.ran
        haside.ticks
    · refine (haside.keeps i T hnot (hdue.logged hk)).removed ha₁ (by rwa [hseq]) fun b x hba => ?_
      exact dueAt_congr (w := w₁) (List.mem_cons.trans (or_iff_right hba)).symm x

/-! ## The walk

  By induction on the events that it has to go. -/

/-- The walk passes through each state that one of its turns leads to. -/
theorem Passes.next {s s' : Option EventAddr × TimerWheel} (h : Passes script w s)
    (hgoes : Goes (tameTurn script) s s') : Passes script w s' := by
  obtain ⟨p, hp, hpath⟩ := h
  exact ⟨p, hp, hpath.tail hgoes⟩

section Tick

variable (hscript : Tame script) (hkeeps : Keeps script i w .tick)

include hkeeps in
/-- The calls that a callback of the tick makes. -/
theorem Passes.guarded {s : TimerWheel} (h : Passes script w (some a, s)) (ha : s.heap a = some e)
    (hr : ¬ 0 < e.rotation_) (hrun : e.run (script s.ran.length).guard = true) :
    Guarded (step script 0) (Permitted a) (s.logged e) (script s.ran.length).calls ∧
      .cencel i ∉ (script s.ran.length).calls :=
  hkeeps a _ _ ⟨s, e, h, ha, hr, hrun, rfl, rfl⟩

include hscript hkeeps

/-- **The walk** from a state that the tick passes through: it comes to its end. -/
theorem walk_keeps : ∀ (n : Nat) (rest : List EventAddr) (s : TimerWheel), rest.length < n →
    Passes script w (rest.head?, s) → Walking s rest →
    ∃ s', loop (tameTurn script) n (rest.head?, s) = some (.ok s') ∧ Walking s' [] ∧
      s'.ticks = s.ticks ∧
      ∀ T, ComesDue s (s.dueAt rest) (i + 1) T → ComesDue s' (s'.dueAt []) (i + 1) T := by
  intro n
  induction n with
  | zero => exact fun rest s hlen => absurd hlen (Nat.not_lt_zero _)
  | succ n ih =>
    intro rest s hlen hpass hwalk
    cases rest with
    | nil => exact ⟨s, loop_done rfl n, hwalk, rfl, fun T hdue => hdue⟩
    | cons a rest =>
      obtain ⟨s₁, rest₁, hgoes, hwalk₁, hticks₁, -, hlen₁, hdue₁⟩ :=
        hwalk.turn hscript fun e ha hr hrun => hpass.guarded hkeeps ha hr hrun
      rw [List.length_cons] at hlen
      obtain ⟨s', hloop, hwalk', hticks', hdue'⟩ := ih rest₁ s₁ (by omega) (hpass.next hgoes) hwalk₁
      refine ⟨s', ?_, hwalk', hticks'.trans hticks₁, fun T hdue => hdue' T (hdue₁ T hdue)⟩
      rw [List.head?_cons, loop_next hgoes, hloop]

end Tick

/-- The position moves on after the walk. -/
theorem Walking.advance (h : Walking w []) :
    ∃ w', w.advance >>= (fun w => .ok w.unlock) = .ok w' ∧ Regular w' ∧ w'.mutex_ = none ∧
      w'.ticks = w.ticks ∧ ∀ k T, ComesDue w (w.dueAt []) k T → ComesDue w' w'.dueNext k T := by
  obtain ⟨q, hq, hadvance⟩ := advance_eq h.regular.slots_lt h.regular.pos_lt
  obtain ⟨lists, -, hrep, -⟩ := h.split
  have hmutex : w.mutex_.map (fun _ => false) = none := by rw [h.free, Option.map_none]
  rw [hadvance, ok_bind]
  refine ⟨_, rfl, ?_, hmutex, rfl, fun k T hdue => ?_⟩
  · constructor
    · exact h.regular.sound.frame _ _ _ _
    · exact h.regular.two_le
    · exact h.regular.slots_lt
    · show q.toUInt32.toNat < w.slotsNum_.toNat
      rw [hq]
      exact Nat.mod_lt _ (by have := h.regular.two_le; omega)
    · exact h.regular.revolutions_lt
    · exact unlocked_of_none hmutex
    · exact h.regular.ran_le
  · refine hdue.congr (fun b e hb hk => ⟨e, hb, hk, ?_⟩) (fun _ hgone => hgone) rfl (Nat.le_refl _)
      (Nat.le_refl _)
    -- the other slots have come one nearer, and the current one is the farthest now
    have hslot := hrep.slot_lt_of_timerAt hb
    obtain ⟨hsame, hother⟩ := distance_next h.regular.pos_lt hslot h.regular.two_le
    have htwo := h.regular.two_le
    rw [dueNext, dueAt, remaining, remaining]
    show w.ticks + 1 + ((e.slot + w.slotsNum_.toNat - q.toUInt32.toNat) % w.slotsNum_.toNat + _) = _
    rw [hq]
    by_cases hcur : e.slot = w.pos
    · obtain ⟨hnear, hfar⟩ := hsame hcur
      rw [if_pos ⟨hcur, List.not_mem_nil⟩, hnear, hfar]
      show w.ticks + 1 + (w.slotsNum_.toNat - 1 + e.revolutions * w.slotsNum_.toNat) = _
      omega
    · rw [if_neg fun hand => hcur hand.1, hother hcur]
      show w.ticks + 1 + (_ + e.revolutions * w.slotsNum_.toNat) = _
      omega

/-! ## The tick

  The walk, and then the next slot. -/

/-- The walk begins with the list of the current slot. -/
theorem Regular.start (hw : Regular w) (hm : w.mutex_ = none) :
    ∃ l : List EventAddr, w.ticking.slotAt (index w.ticking.currentSlotPos_) = .ok l.head? ∧
      Walking w.ticking l ∧
      ∀ k T, ComesDue w w.dueNext k T → ComesDue w.ticking (w.ticking.dueAt l) k T := by
  obtain ⟨lists, hrep⟩ := hw.sound.represented
  have hint : w.pos < 2 ^ 31 := hw.pos_lt.trans hw.slots_lt
  refine ⟨lists w.pos, hrep.first hint hw.pos_lt,
    ⟨hw.ticking hm, ticking_mutex hm, lists, [], hrep.ticking, rfl⟩, fun k T hdue => ?_⟩
  refine hdue.congr (fun b e hb hk => ⟨e, hb, hk, ?_⟩) (fun _ hgone => hgone) rfl (Nat.le_refl _)
    (Nat.le_succ _)
  rw [dueAt, if_neg fun hcur => hcur.2 ((hrep.mem_iff hb hw.pos_lt).mpr hcur.1)]
  rfl

/-- The calls take the wheel from `w` to `w'`, if there are turns enough, and the timer with the
    `i`-th `CancelId` keeps its tick call. -/
structure Arrives (script : Nat → Behaviour) (i : Nat) (w : TimerWheel) (calls : List Call)
    (w' : TimerWheel) : Prop where
  reaches : ∃ n, ∀ turns, n ≤ turns → run (step script turns) w calls = .ok w'
  regular : Regular w'
  free : w'.mutex_ = none
  ticks : w'.ticks = w.ticks + calls.count .tick
  keeps : ∀ T, ComesDue w w.dueNext (i + 1) T → ComesDue w' w'.dueNext (i + 1) T

/-- No calls, no change. -/
theorem Arrives.nil (hw : Regular w) (hm : w.mutex_ = none) : Arrives script i w [] w :=
  ⟨⟨0, fun _ _ => rfl⟩, hw, hm, rfl, fun _ hdue => hdue⟩

/-- Two stretches of a run make one, with the larger number of turns. -/
theorem Arrives.append (h : Arrives script i w calls w₁) (h' : Arrives script i w₁ calls' w') :
    Arrives script i w (calls ++ calls') w' where
  reaches := by
    obtain ⟨n, hn⟩ := h.reaches
    obtain ⟨n', hn'⟩ := h'.reaches
    refine ⟨max n n', fun turns hle => ?_⟩
    rw [run_append, hn turns ((Nat.le_max_left n n').trans hle), ok_bind,
      hn' turns ((Nat.le_max_right n n').trans hle)]
  regular := h'.regular
  free := h'.free
  ticks := by rw [h'.ticks, h.ticks, List.count_append, Nat.add_assoc]
  keeps := fun T hdue => h'.keeps T (h.keeps T hdue)

/-- **The end of a tick**, from a state that it passes through. -/
theorem tick_of_passes (hscript : Tame script) (hkeeps : Keeps script i w .tick)
    (hm : w.mutex_ = none) {s : TimerWheel} (hpass : Passes script w (rest.head?, s))
    (hwalk : Walking s rest) :
    ∃ w', (∃ n, ∀ turns, n ≤ turns → step script turns w .tick = .ok w') ∧ Regular w' ∧
      w'.mutex_ = none ∧ w'.ticks = s.ticks ∧
      ∀ T, ComesDue s (s.dueAt rest) (i + 1) T → ComesDue w' w'.dueNext (i + 1) T := by
  obtain ⟨s', hloop, hwalk', hticks, hdue⟩ := walk_keeps hscript hkeeps _ rest s
    (Nat.lt_succ_self _) hpass hwalk
  obtain ⟨w', hend, hregular, hfree, hticks', hdue'⟩ := hwalk'.advance
  obtain ⟨p, hp, hpath⟩ := hpass
  obtain ⟨m, hmore⟩ := loop_of_goes hpath
  refine ⟨w', ⟨rest.length + 1 + m, fun turns hle => ?_⟩, hregular, hfree, hticks'.trans hticks,
    fun T h => hdue' (i + 1) T (hdue T h)⟩
  obtain ⟨turns, rfl⟩ : ∃ t, turns = t + 1 := ⟨turns - 1, by omega⟩
  have hwhole : loop (tameTurn script) (turns + 1) (p, w.ticking) = some (.ok s') :=
    loop_mono ((hmore _).trans hloop) hle
  have hstep : step script (turns + 1) w .tick =
      tickUnlock (runEvent script (step script turns)) (turns + 1) w.ticking >>= fun w' =>
        .ok w'.unlock := call_tick (unlocked_of_none hm) (turns + 1)
  rw [hstep, hscript.runEvent, tickUnlock, hp, ok_bind, hwhole, Option.getD_some, ok_bind]
  exact hend

/-- **A tick with tame callbacks** arrives and keeps the deadline. The turns that it needs are
    counted by the events in the slot, which the callbacks cannot make more of. -/
theorem Arrives.tick (hscript : Tame script) (hkeeps : Keeps script i w .tick) (hw : Regular w)
    (hm : w.mutex_ = none) : ∃ w', Arrives script i w [.tick] w' := by
  obtain ⟨l, hl, hwalk, hstart⟩ := hw.start hm
  obtain ⟨w', ⟨n, hn⟩, hregular, hfree, hticks, hdue⟩ :=
    tick_of_passes hscript hkeeps hm ⟨_, hl, .refl⟩ hwalk
  refine ⟨w', ⟨n, fun turns hle => ?_⟩, hregular, hfree, hticks, fun T h => hdue T (hstart _ T h)⟩
  rw [run_cons, hn turns hle, ok_bind, run_nil]

/-- A call other than `tick` arrives, and moves no deadline of a timer that it does not cancel. -/
theorem Arrives.of_effect (hw : Regular w) (hm : w.mutex_ = none) {c : Call} (htick : c ≠ .tick)
    (hkeeps : Keeps script i w c) (hcall : ∀ run turns, call run turns w c = .ok w')
    (heffect : Effect w c w') : Arrives script i w [c] w' where
  reaches := by
    refine ⟨0, fun turns _ => ?_⟩
    rw [run_cons, step_of_call script hcall turns, ok_bind, run_nil]
  regular := by
    cases heffect with
    | taken _ => exact hw
    | unknown _ => exact hw
    | added ha hp => exact hw.withTimer ha _ _ _ hp
    | removed _ ha _ => exact hw.removed ha
  free := by cases heffect <;> exact hm
  ticks := by
    rw [List.count_singleton, if_neg (by simpa using htick)]
    cases heffect <;> rfl
  keeps := by
    intro T hdue
    cases heffect with
    | taken _ => exact hdue
    | unknown _ => exact hdue
    | added ha hp => exact hdue.withTimer ha fun _ _ => rfl
    | removed _ ha hseq =>
      refine hdue.removed ha (fun hk => hkeeps.2 ?_) fun _ _ _ => rfl
      omega

/-- **A run** whose calls keep the timer. -/
theorem arrives (hscript : Tame script) :
    ∀ (calls : List Call) (w : TimerWheel) (n : Nat), Regular w →
    w.mutex_ = none →
    (∀ turns, n ≤ turns → Guarded (step script turns) (Keeps script i) w calls) →
    ∃ w', Arrives script i w calls w' := by
  intro calls
  induction calls with
  | nil => exact fun w n hw hm _ => ⟨w, .nil hw hm⟩
  | cons c calls ih =>
    intro w n hw hm hguard
    have hkeeps : Keeps script i w c := (hguard n (Nat.le_refl n)).1
    have hfirst : ∃ w₁, Arrives script i w [c] w₁ := by
      by_cases htick : c = .tick
      · subst htick
        exact Arrives.tick hscript hkeeps hw hm
      · have hwaiting : Waiting w c := by
          cases c with
          | cencel j => exact hkeeps.1
          | _ => trivial
        obtain ⟨w₁, heffect, hcall⟩ := hw.call_effect htick hwaiting
        exact ⟨w₁, .of_effect hw hm htick hkeeps hcall heffect⟩
    obtain ⟨w₁, h₁⟩ := hfirst
    obtain ⟨m, hm₁⟩ := h₁.reaches
    obtain ⟨w', h'⟩ := ih w₁ (max n m) h₁.regular h₁.free fun turns hle => by
      refine (hguard turns ((Nat.le_max_left n m).trans hle)).2 w₁ ?_
      have hrun := hm₁ turns ((Nat.le_max_right n m).trans hle)
      rw [run_cons] at hrun
      obtain ⟨w₂, hstep, hnil⟩ := bind_ok hrun
      rw [hstep, ← hnil, run_nil]
    exact ⟨w', h₁.append h'⟩

end TimerWheel

end IOEvent
