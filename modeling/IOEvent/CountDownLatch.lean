/-
  `CountDownLatch` (CountDownLatch.h).

  `Waited` is a latch with the calls of `wait` on it, each by its place in the function, and with
  the number of calls of `countDown`.  As for the thread pool, what a thread does from the moment
  it acquires `mutex_` until it releases it, at the end or in `condition_.wait`, is one event,
  and a thread may wake up spuriously.

  `opens` is the contract over every interleaving: no `wait` returns before the latch has been
  counted down to zero, and from then on each returns as soon as its thread runs.
-/
import IOEvent.Foundation.CondVar
import Mathlib.Algebra.Ring.Int.Defs
import IOEvent.Foundation.Runs

open Foundation

namespace IOEvent

/-- The latch: a count and the condition variable that is notified when it reaches zero. -/
structure CountDownLatch where
  count_ : Int
  condition_ : CondVar
  deriving DecidableEq, Repr

namespace CountDownLatch

/-- How `countDown()` can go wrong. -/
inductive Fault
  /-- `--count_` leaves the range of an `int`. -/
  | overflows
  deriving DecidableEq, Repr

/-- A new latch, on which nobody waits. -/
def new (count : Int) : CountDownLatch := ⟨count, .new⟩

/-- One test of `while (count_ > 0) { condition_.wait(lock); }` by the thread `i`, which goes to
    sleep or leaves the loop; the second component is whether it leaves. -/
def wait (l : CountDownLatch) (i : Nat) : CountDownLatch × Bool :=
  if 0 < l.count_ then ({ l with condition_ := l.condition_.wait i }, false) else (l, true)

/-- `countDown()`: everybody is woken when the count reaches zero, and at no other value. -/
def countDown (l : CountDownLatch) : Outcome Fault CountDownLatch CountDownLatch := do
  require (-2 ^ 31 < l.count_) .overflows l
  let l := { l with count_ := l.count_ - 1 }
  return if l.count_ = 0 then { l with condition_ := l.condition_.notifyAll } else l

/-- The thread `i` resumes after `condition_.wait`. -/
def resume (l : CountDownLatch) (i : Nat) : CountDownLatch :=
  { l with condition_ := l.condition_.resume i }

/-- A thread wakes without a notification. -/
def spurious (l : CountDownLatch) (i : Nat) : CountDownLatch :=
  { l with condition_ := l.condition_.spurious i }

/-- Nobody sleeps on a latch that is open. -/
def Rests (l : CountDownLatch) : Prop := l.count_ ≤ 0 → l.condition_.asleep = []

/-- On a new latch nobody sleeps. -/
theorem rests_new (count : Int) : (new count).Rests := fun _ => rfl

/-- A thread that finds the latch open does not sleep. -/
theorem wait_open {l : CountDownLatch} (h : l.count_ ≤ 0) (i : Nat) : l.wait i = (l, true) :=
  if_neg (Int.not_lt.mpr h)

/-- A thread that finds it shut goes to sleep. -/
theorem wait_shut {l : CountDownLatch} (h : 0 < l.count_) (i : Nat) :
    l.wait i = ({ l with condition_ := l.condition_.wait i }, false) := if_pos h

/-- Waiting does not count. -/
@[simp] theorem wait_count (l : CountDownLatch) (i : Nat) : (l.wait i).1.count_ = l.count_ := by
  rw [wait]
  split <;> rfl

/-- Nobody sleeps at an open latch, also behind one more call of `wait`. -/
theorem Rests.wait {l : CountDownLatch} (h : l.Rests) (i : Nat) : (l.wait i).1.Rests := by
  rcases Int.lt_or_le 0 l.count_ with hshut | hopen
  · rw [wait_shut hshut]
    exact fun hle => absurd hshut (Int.not_lt.mpr hle)
  · rw [wait_open hopen]
    exact h

/-- Nor behind a wake-up. -/
theorem Rests.resume {l : CountDownLatch} (h : l.Rests) (i : Nat) : (l.resume i).Rests := h

/-- Nor behind a spurious one. -/
theorem Rests.spurious {l : CountDownLatch} (h : l.Rests) (i : Nat) : (l.spurious i).Rests := by
  intro hle
  show l.condition_.asleep.erase i = []
  rw [h hle]
  rfl

/-- The count that reaches zero wakes everybody; below zero nobody has gone to sleep. -/
theorem Rests.countDown {l : CountDownLatch} (h : l.Rests) :
    Holds (fun l' => l'.Rests ∧ l'.count_ = l.count_ - 1)
      (fun f => f.2 = l ∧ l.count_ ≤ -2 ^ 31) l.countDown := by
  rw [CountDownLatch.countDown]
  by_cases hrange : -2 ^ 31 < l.count_
  · rw [require_pos _ _ hrange, ok_bind]
    refine .ok ?_
    dsimp only
    by_cases hzero : l.count_ - 1 = 0
    · rw [if_pos hzero]
      exact ⟨fun _ => rfl, rfl⟩
    · rw [if_neg hzero]
      refine ⟨fun hle => h ?_, rfl⟩
      replace hle : l.count_ - 1 ≤ 0 := hle
      omega
  · rw [require_neg _ _ hrange, error_bind]
    exact .error ⟨rfl, Int.not_lt.mp hrange⟩

/-! ## The threads

  Any number of threads that wait, and any number of calls of `countDown`, to say what the
  latch is for. -/

/-- Where a call of `wait` is. -/
inductive Waiter
  | locking
  /-- In `condition_.wait`. -/
  | waiting
  | returned
  deriving DecidableEq, Repr

/-- A latch with the calls of `wait` on it, and how often it was counted down. -/
structure Waited where
  latch : CountDownLatch
  waiters : List Waiter
  counted : Nat
  deriving DecidableEq, Repr

namespace Waited

/-- A step leaves a state, or stops with the fault. -/
abbrev M := Outcome Fault Waited Waited

/-- A latch that nobody has called. -/
def new (count : Int) : Waited := ⟨.new count, [], 0⟩

/-- A call, the next step of one, a spurious wake-up, or `countDown()`. -/
inductive Event
  /-- A thread calls `wait`. -/
  | call
  /-- The call `j` of `wait` goes on. -/
  | waiter (j : Nat)
  | spurious (j : Nat)
  | countDown

/-- The call tests the count: it returns, or goes to sleep. -/
def test (s : Waited) (j : Nat) : Waited :=
  let (latch, leaves) := s.latch.wait j
  { s with latch, waiters := s.waiters.set j (if leaves = true then .returned else .waiting) }

/-- The call is taken out of the condition variable. -/
def resume (s : Waited) (j : Nat) : Waited := { s with latch := s.latch.resume j }

/-- The call goes on, if it is not asleep. Behind a wake-up it tests the count again. -/
def stepWaiter (s : Waited) (j : Nat) : Waited :=
  match s.waiters[j]? with
  | some .locking => s.test j
  | some .waiting => if j ∈ s.latch.condition_.asleep then s else (s.resume j).test j
  | _ => s

/-- One step. -/
def step (s : Waited) : Event → M
  | .call => return { s with waiters := s.waiters ++ [.locking] }
  | .waiter j => return s.stepWaiter j
  | .spurious j => return { s with latch := s.latch.spurious j }
  | .countDown => do
    let latch ← within (fun l => { s with latch := l }) s.latch.countDown
    return { s with latch, counted := s.counted + 1 }

/-! ### The contract

  Nobody comes through before the count is zero, and nobody sleeps after it is. -/

variable {s : Waited} {n : Int} {j : Nat}

/-- At a shut latch the call sleeps. -/
theorem test_shut (h : 0 < s.latch.count_) (j : Nat) :
    (s.test j).waiters = s.waiters.set j .waiting := by
  rw [test, wait_shut h]
  rfl

/-- At an open one it returns. -/
theorem test_open (h : s.latch.count_ ≤ 0) (j : Nat) :
    (s.test j).waiters = s.waiters.set j .returned := by
  rw [test, wait_open h]
  rfl

/-- The invariant: the count is what is left of `n`, nobody sleeps at an open latch, and a call
    that has returned has found it open. -/
structure Inv (n : Int) (s : Waited) : Prop where
  count : s.latch.count_ = n - s.counted
  rests : s.latch.Rests
  /-- A call that has returned found the latch open. -/
  opened : .returned ∈ s.waiters → s.latch.count_ ≤ 0

namespace Inv

/-- It holds at the start. -/
theorem new (n : Int) : Inv n (.new n) :=
  ⟨(Int.sub_zero n).symm, rests_new n, fun h => absurd h List.not_mem_nil⟩

/-- It holds behind a test of the count. -/
theorem test (h : Inv n s) (j : Nat) : Inv n (s.test j) where
  count := (wait_count s.latch j).trans h.count
  rests := h.rests.wait j
  opened := by
    intro hmem
    show (s.latch.wait j).1.count_ ≤ 0
    rw [wait_count]
    rcases Int.lt_or_le 0 s.latch.count_ with hshut | hopen
    · -- the call went to sleep, so the one that has returned is another
      rw [test_shut hshut] at hmem
      rcases List.mem_or_eq_of_mem_set hmem with hmem | heq
      · exact h.opened hmem
      · exact nomatch heq
    · exact hopen

/-- Waking up does not count. -/
theorem resume (h : Inv n s) (j : Nat) : Inv n (s.resume j) :=
  ⟨h.count, h.rests.resume j, h.opened⟩

/-- So it holds behind each step of a call. -/
theorem stepWaiter (h : Inv n s) (j : Nat) : Inv n (s.stepWaiter j) := by
  rw [Waited.stepWaiter]
  split
  · exact h.test j
  · split
    · exact h
    · exact (h.resume j).test j
  · exact h

/-- **Every step keeps it**; what can fail is a count below the range of an `int`. -/
theorem step (h : Inv n s) (e : Event) :
    Holds (Inv n) (fun f => Inv n f.2 ∧ f.2.latch.count_ ≤ -2 ^ 31) (s.step e) := by
  cases e with
  | call =>
    refine .ok ⟨h.count, h.rests, fun hmem => h.opened ?_⟩
    rcases List.mem_append.mp hmem with hmem | hmem
    · exact hmem
    · exact nomatch List.mem_singleton.mp hmem
  | waiter j => exact .ok (h.stepWaiter j)
  | spurious j => exact .ok ⟨h.count, h.rests.spurious j, h.opened⟩
  | countDown =>
    have hdown := h.rests.countDown
    rw [Waited.step]
    cases hlatch : s.latch.countDown with
    | error f =>
      rw [hlatch, holds_error] at hdown
      obtain ⟨f, l⟩ := f
      obtain rfl : l = s.latch := hdown.1
      exact .error ⟨h, hdown.2⟩
    | ok l =>
      rw [hlatch, holds_ok] at hdown
      have hcount := h.count
      refine .ok ⟨?_, hdown.1, fun hmem => ?_⟩
      · show l.count_ = n - (s.counted + 1 : Nat)
        omega
      · have hle := h.opened hmem
        show l.count_ ≤ 0
        omega

/-- **No lost wake-up**: once the latch is open, a call of `wait` returns when its thread runs. -/
theorem returns (h : Inv n s) (hopen : s.latch.count_ ≤ 0) (hj : j < s.waiters.length) :
    (s.stepWaiter j).waiters[j]? = some .returned := by
  rw [Waited.stepWaiter]
  have hset : ∀ t : Waited, t.waiters = s.waiters → t.latch.count_ ≤ 0 →
      (t.test j).waiters[j]? = some .returned := by
    intro t ht hle
    rw [test_open hle, ht, List.getElem?_set_self hj]
  cases hat : s.waiters[j]? with
  | none => exact absurd (List.getElem?_eq_none_iff.mp hat) (Nat.not_le.mpr hj)
  | some w =>
    cases w with
    | locking => exact hset s rfl hopen
    | waiting =>
      dsimp only
      rw [h.rests hopen, if_neg List.not_mem_nil]
      exact hset (s.resume j) rfl hopen
    | returned => exact hat

end Inv

/-- **The latch**: whatever the order in which any number of threads call `wait` and `countDown`,
    wake up and resume, no call of `wait` returns before `countDown` has been called `n` times;
    after that every call returns as soon as its thread runs; and `count_` overflows only when
    `countDown` is called more than `n + 2 ^ 31` times. -/
theorem opens (n : Int32) (es : List Event) :
    Holds
      (fun s => (.returned ∈ s.waiters → n.toInt ≤ s.counted) ∧
        (n.toInt ≤ s.counted → ∀ j < s.waiters.length,
          ∃ s', s.step (.waiter j) = .ok s' ∧ s'.waiters[j]? = some .returned))
      (fun f => n.toInt + 2 ^ 31 ≤ f.2.counted)
      (run step (new n.toInt) es) := by
  refine (run_keeps (fun s e hs => Inv.step hs e) es _ (Inv.new n.toInt)).mono
    (fun s h => ?_) fun f h => ?_
  · have hcount := h.count
    refine ⟨fun hmem => ?_, fun hle j hj => ⟨_, rfl, h.returns ?_ hj⟩⟩
    · have := h.opened hmem
      omega
    · omega
  · have hcount := h.1.count
    have := h.2
    omega

end Waited

end CountDownLatch

end IOEvent
