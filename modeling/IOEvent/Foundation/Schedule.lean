/-
  Timers that come due after a number of ticks.

  A schedule says for each timer that waits how many ticks have to pass before the one at which it
  comes due.  A tick fires the timers that have none left and takes one from the others.  Timers can
  be dropped while they wait, and are never added twice.

  `OnTime s k T` is what holds of a timer that is to come due at the `T`-th tick: it waits until
  then, and is fired at that tick and at no other.  It holds from the addition on (`onTime_add`) and
  is kept by what happens to other timers (`OnTime.apply`), so a run either drops the timer, and it
  never fires, or leaves it on time (`run_onTime`).
-/
import Mathlib.Data.Nat.PSub
import Mathlib.Logic.Function.Basic

namespace Foundation

/-- What a set of timers with deadlines in ticks is meant to be: for each timer the ticks that
    have to pass before the one at which it fires (`none` while it does not wait), the number of
    ticks done, and at which of them each timer was fired. -/
structure Schedule (κ : Type) where
  left : κ → Option Nat
  now : Nat
  fired : κ → List Nat

/-- What can happen to a schedule: a timer starts to wait, it is dropped, time goes on. -/
inductive ScheduleOp (κ : Type)
  | add (k : κ) (d : Nat)
  | drop (k : κ)
  | tick
  deriving DecidableEq

namespace Schedule

variable {κ : Type} [DecidableEq κ] {s : Schedule κ} {k j : κ} {d T : Nat} {op : ScheduleOp κ}

/-- One operation. At a tick the timers with nothing left fire, and each other one has one tick
    less; `Nat.ppred` is `none` at zero, so a fired timer waits no more. -/
def apply (s : Schedule κ) : ScheduleOp κ → Schedule κ
  | .add k d => { s with left := Function.update s.left k (some d) }
  | .drop k => { s with left := Function.update s.left k none }
  | .tick =>
    { left := fun k => (s.left k).bind Nat.ppred
      now := s.now + 1
      fired := fun k => if s.left k = some 0 then s.fired k ++ [s.now + 1] else s.fired k }

/-- A tick takes one from every timer that waits, and the ones at zero out. -/
@[simp] theorem left_tick : (s.apply .tick).left k = (s.left k).bind Nat.ppred := rfl

/-- The ticks are counted. -/
@[simp] theorem now_tick : (s.apply .tick).now = s.now + 1 := rfl

/-- A tick fires exactly the timers that had nothing left, and enters its own number for them. -/
@[simp] theorem fired_tick : (s.apply .tick).fired k =
    if s.left k = some 0 then s.fired k ++ [s.now + 1] else s.fired k := rfl

/-- An added timer waits for what it was given, the others for what they had. -/
@[simp] theorem left_add : (s.apply (.add j d)).left k = if k = j then some d else s.left k :=
  Function.update_apply s.left j (some d) k

/-- A dropped timer waits no more, the others go on. -/
@[simp] theorem left_drop : (s.apply (.drop j)).left k = if k = j then none else s.left k :=
  Function.update_apply s.left j none k

/-- Adding takes no time. -/
@[simp] theorem now_add : (s.apply (.add j d)).now = s.now := rfl

/-- Dropping takes no time. -/
@[simp] theorem now_drop : (s.apply (.drop j)).now = s.now := rfl

/-- Nothing fires by an addition, not even a timer with zero ticks left. -/
@[simp] theorem fired_add : (s.apply (.add j d)).fired = s.fired := rfl

/-- Nothing fires because it is dropped. -/
@[simp] theorem fired_drop : (s.apply (.drop j)).fired = s.fired := rfl

/-- The timer `k` comes due at the `T`-th tick: until then it waits with the ticks that are
    left, and from then on it has been fired once, at `T`. -/
def OnTime (s : Schedule κ) (k : κ) (T : Nat) : Prop :=
  if s.now < T then s.left k = some (T - s.now - 1) ∧ s.fired k = []
  else s.left k = none ∧ s.fired k = [T]

/-- The timer `k` does not wait and has not been fired. Of a timer that was dropped this holds
    for ever, as no timer is added twice. -/
def Gone (s : Schedule κ) (k : κ) : Prop := s.left k = none ∧ s.fired k = []

/-- **A new timer is on time**: added with `d` ticks left it is due at the tick `now + d + 1`,
    since the tick that finds zero left is the one that fires. -/
theorem onTime_add (h : s.fired k = []) (d : Nat) :
    OnTime (s.apply (.add k d)) k (s.now + d + 1) := by
  rw [OnTime, if_pos (by rw [now_add]; omega), left_add, if_pos rfl, now_add, fired_add]
  refine ⟨?_, h⟩
  congr 1
  omega

/-- A tick keeps it: before the due tick it takes one from what is left and `now` gains one, at
    the due tick it fires, and after that it does neither. -/
theorem OnTime.tick (h : OnTime s k T) : OnTime (s.apply .tick) k T := by
  rw [OnTime] at h
  rw [OnTime, now_tick, left_tick, fired_tick]
  by_cases hlt : s.now < T
  · rw [if_pos hlt] at h
    obtain ⟨hleft, hfired⟩ := h
    by_cases hlast : s.now + 1 < T
    · obtain ⟨d, hd⟩ : ∃ d, T - s.now - 1 = d + 1 := ⟨T - s.now - 2, by omega⟩
      rw [hd] at hleft
      rw [if_pos hlast, hleft, if_neg (by simp)]
      refine ⟨?_, hfired⟩
      rw [Option.bind_some, Nat.ppred_succ]
      congr 1
      omega
    · -- this is the tick it waits for
      obtain rfl : T = s.now + 1 := by omega
      have hzero : s.now + 1 - s.now - 1 = 0 := by omega
      rw [hzero] at hleft
      rw [if_neg hlast, hleft, if_pos rfl, hfired]
      exact ⟨rfl, rfl⟩
  · rw [if_neg hlt] at h
    rw [if_neg (by omega), h.1, if_neg (by simp)]
    exact ⟨rfl, h.2⟩

/-- What happens to other timers keeps a timer on time. -/
theorem OnTime.apply (h : OnTime s k T) (hadd : ∀ d, op ≠ .add k d) (hdrop : op ≠ .drop k) :
    OnTime (s.apply op) k T := by
  cases op with
  | add j d =>
    have hne : k ≠ j := by
      rintro rfl
      exact hadd d rfl
    rw [OnTime] at h ⊢
    rwa [left_add, if_neg hne, now_add, fired_add]
  | drop j =>
    have hne : k ≠ j := by
      rintro rfl
      exact hdrop rfl
    rw [OnTime] at h ⊢
    rwa [left_drop, if_neg hne, now_drop, fired_drop]
  | tick => exact h.tick

/-- A timer that still waits is dropped before it is fired. -/
theorem OnTime.drop (h : OnTime s k T) (hleft : s.left k ≠ none) : Gone (s.apply (.drop k)) k := by
  rw [OnTime] at h
  split at h
  · exact ⟨by rw [left_drop, if_pos rfl], h.2⟩
  · exact absurd h.1 hleft

/-- A timer that is gone comes back only by an addition. -/
theorem Gone.apply (h : Gone s k) (hadd : ∀ d, op ≠ .add k d) : Gone (s.apply op) k := by
  obtain ⟨hleft, hfired⟩ := h
  cases op with
  | add j d =>
    have hne : k ≠ j := by
      rintro rfl
      exact hadd d rfl
    exact ⟨by rw [left_add, if_neg hne, hleft], hfired⟩
  | drop j => exact ⟨by rw [left_drop, hleft, ite_self], hfired⟩
  | tick => exact ⟨by rw [left_tick, hleft]; rfl, by rw [fired_tick, hleft]; simpa using hfired⟩

/-! ## Runs

  A run of operations on a schedule is a fold, and cannot fail.  `Valid` says what the caller
  keeps to; under it every timer that is added either fires on time or has been dropped. -/

/-- Along the run only timers that wait are dropped. -/
def Valid : Schedule κ → List (ScheduleOp κ) → Prop
  | _, [] => True
  | s, op :: ops => (∀ k, op = .drop k → s.left k ≠ none) ∧ Valid (s.apply op) ops

/-- Validity is checked operation by operation, so it can be checked in parts. -/
theorem valid_append {ops ops' : List (ScheduleOp κ)} :
    ∀ {s : Schedule κ}, Valid s ops → Valid (ops.foldl Schedule.apply s) ops' →
      Valid s (ops ++ ops') := by
  induction ops with
  | nil => exact fun _ h => h
  | cons op ops ih => exact fun h h' => ⟨h.1, ih h.2 h'⟩

/-- A dropped timer that is not added again never fires after that, however long the run is. -/
theorem run_gone : ∀ {ops : List (ScheduleOp κ)} {s : Schedule κ}, Gone s k →
    (∀ d, .add k d ∉ ops) → Gone (ops.foldl Schedule.apply s) k := by
  intro ops
  induction ops with
  | nil => exact fun h _ => h
  | cons op ops ih =>
    intro s h hadd
    refine ih (h.apply fun d hop => hadd d ?_) fun d hd => hadd d (List.mem_cons_of_mem op hd)
    rw [hop]
    exact List.mem_cons_self

/-- **A timer that is not dropped comes due on time, and one that is dropped never does.** -/
theorem run_onTime : ∀ {ops : List (ScheduleOp κ)} {s : Schedule κ}, OnTime s k T → Valid s ops →
    (∀ d, .add k d ∉ ops) →
    (.drop k ∉ ops → OnTime (ops.foldl Schedule.apply s) k T) ∧
      (.drop k ∈ ops → Gone (ops.foldl Schedule.apply s) k) := by
  intro ops
  induction ops with
  | nil => exact fun h _ _ => ⟨fun _ => h, fun hmem => absurd hmem List.not_mem_nil⟩
  | cons op ops ih =>
    intro s h hvalid hadd
    have hadd' : ∀ d, .add k d ∉ ops := fun d hd => hadd d (List.mem_cons_of_mem op hd)
    have hop : ∀ d, op ≠ .add k d := by
      rintro d rfl
      exact hadd d List.mem_cons_self
    by_cases hdrop : op = .drop k
    · subst hdrop
      refine ⟨fun hnot => absurd List.mem_cons_self hnot, fun _ => ?_⟩
      exact run_gone (s := s.apply (.drop k)) (h.drop (hvalid.1 k rfl)) hadd'
    · obtain ⟨hkeep, hgone⟩ := ih (h.apply hop hdrop) hvalid.2 hadd'
      refine ⟨fun hnot => hkeep fun hmem => hnot (List.mem_cons_of_mem op hmem), fun hmem => ?_⟩
      exact hgone ((List.mem_cons.mp hmem).resolve_left (Ne.symm hdrop))

end Schedule

end Foundation
