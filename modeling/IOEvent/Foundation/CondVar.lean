/-
  Condition variables.

  A condition variable is the list of the threads asleep on it and the list of those that a
  notification has woken and that have not resumed yet.  A spurious wake-up takes a thread out of
  the first list without putting it into the second.

  `Served c d` says that no wake-up is lost for a demand of `d` threads: while somebody is
  asleep, at least `d` notified threads are about to resume.  A demand grows by one with each
  notification (`Served.notifyOne`), and a thread that resumes takes one away (`Served.resume`);
  whoever goes to sleep must see no demand (`Served.wait`).  `Tracks c P` says that the threads
  of the two lists are different ones and all are `P`.
-/
import Mathlib.Data.List.Basic
import Mathlib.Data.List.Nodup
import Mathlib.Data.List.Perm.Basic

namespace Foundation

/-- A condition variable, by the threads it keeps: those asleep in `wait`, and those that a
    notification or a spurious wake-up has taken out of it and that have not yet got the mutex
    back. -/
structure CondVar where
  asleep : List Nat
  /-- Notified but not resumed. -/
  notified : List Nat
  deriving DecidableEq, Repr

namespace CondVar

variable {c : CondVar} {P : Nat → Prop} {d i k : Nat}

/-- Nobody waits. -/
def new : CondVar := ⟨[], []⟩

/-- The thread `i` goes to sleep. -/
def wait (c : CondVar) (i : Nat) : CondVar := { c with asleep := c.asleep ++ [i] }

/-- `notify_one`: one of the threads asleep is woken, if there is one; `k` says which. -/
def notifyOne (c : CondVar) (k : Nat) : CondVar :=
  match c.asleep[k % c.asleep.length]? with
  | none => c
  | some i => ⟨c.asleep.erase i, c.notified ++ [i]⟩

/-- Every sleeper is woken, in the order in which they went to sleep. -/
def notifyAll (c : CondVar) : CondVar := ⟨[], c.notified ++ c.asleep⟩

/-- The thread `i` wakes up although nobody has notified it. It is not counted as notified, so
    a thread that does this takes no wake-up away from another. -/
def spurious (c : CondVar) (i : Nat) : CondVar := { c with asleep := c.asleep.erase i }

/-- The thread `i`, which is awake, resumes. -/
def resume (c : CondVar) (i : Nat) : CondVar := { c with notified := c.notified.erase i }

/-- A notification wakes a thread unless none is asleep. -/
theorem notifyOne_cases (c : CondVar) (k : Nat) :
    c.asleep = [] ∧ c.notifyOne k = c ∨
      ∃ i ∈ c.asleep, c.notifyOne k = ⟨c.asleep.erase i, c.notified ++ [i]⟩ := by
  rw [notifyOne]
  cases hasleep : c.asleep with
  | nil => exact Or.inl ⟨rfl, rfl⟩
  | cons j l =>
    have hlt : k % (j :: l).length < (j :: l).length := Nat.mod_lt _ (Nat.succ_pos _)
    rw [List.getElem?_eq_getElem hlt]
    exact Or.inr ⟨_, List.getElem_mem hlt, rfl⟩

/-! ## No lost wake-up

  A demand is a number of threads that could go on if they were awake: tasks for workers, places
  for posters.  Only a notification can raise it while somebody sleeps, which is why
  `notify_one` after each change of the shared state is enough. -/

/-- While somebody is asleep, `d` notified threads are about to resume. So if `d` is what
    there is to do, no sleeper is needed for it. -/
def Served (c : CondVar) (d : Nat) : Prop := c.asleep ≠ [] → d ≤ c.notified.length

namespace Served

/-- With fewer tasks to serve the same sleepers are served. -/
theorem mono (h : Served c d) {d' : Nat} (hle : d' ≤ d) : Served c d' :=
  fun hasleep => Nat.le_trans hle (h hasleep)

/-- One who goes to sleep after it looked and found nothing leaves nothing unserved. -/
theorem wait (c : CondVar) (i : Nat) : Served (c.wait i) 0 := fun _ => Nat.zero_le _

/-- **One notification for one task.** It wakes somebody if anybody sleeps, so one task more is
    served. -/
theorem notifyOne (h : Served c d) (k : Nat) : Served (c.notifyOne k) (d + 1) := by
  rcases c.notifyOne_cases k with ⟨hnone, heq⟩ | ⟨i, hi, heq⟩
  · rw [heq]
    exact fun hasleep => absurd hnone hasleep
  · rw [heq]
    intro _
    rw [List.length_append, List.length_singleton]
    exact Nat.succ_le_succ (h (List.ne_nil_of_mem hi))

/-- A spurious wake-up can only add to those awake. -/
theorem spurious (h : Served c d) (i : Nat) : Served (c.spurious i) d := by
  intro hasleep
  refine h fun hnil => hasleep ?_
  rw [CondVar.spurious, hnil]
  rfl

/-- One who takes the mutex back takes at most one task with it. -/
theorem resume (h : Served c d) (i : Nat) : Served (c.resume i) (d - 1) := by
  intro hasleep
  have hle := h hasleep
  have herase := List.le_length_erase (a := i) (l := c.notified)
  show d - 1 ≤ (c.notified.erase i).length
  omega

end Served

/-! ## Which threads wait

  The model of a thread says where it is; the condition variable says who sleeps on it.
  `Tracks` ties the two: who is listed is a thread that waits, and it is listed once. -/

/-- The threads asleep and the notified ones are different, and all are `P`. With this a
    thread can be erased from one of the lists by its number. -/
structure Tracks (c : CondVar) (P : Nat → Prop) : Prop where
  nodup : (c.asleep ++ c.notified).Nodup
  waiting : ∀ i ∈ c.asleep ++ c.notified, P i

namespace Tracks

/-- Of nobody, everything holds. -/
theorem new (P : Nat → Prop) : Tracks CondVar.new P :=
  ⟨List.nodup_nil, fun _ h => absurd h List.not_mem_nil⟩

/-- What is tracked may be weakened. -/
theorem mono (h : Tracks c P) {P' : Nat → Prop} (hP : ∀ i, P i → P' i) : Tracks c P' :=
  ⟨h.nodup, fun i hi => hP i (h.waiting i hi)⟩

/-- Who waits and who is woken may change places. -/
theorem of_perm (h : Tracks c P) {c' : CondVar}
    (hperm : (c'.asleep ++ c'.notified).Perm (c.asleep ++ c.notified)) : Tracks c' P :=
  ⟨hperm.nodup_iff.mpr h.nodup, fun i hi => h.waiting i (hperm.mem_iff.mp hi)⟩

/-- A thread may leave. -/
theorem of_sublist (h : Tracks c P) {c' : CondVar}
    (hsub : List.Sublist (c'.asleep ++ c'.notified) (c.asleep ++ c.notified)) : Tracks c' P :=
  ⟨hsub.nodup h.nodup, fun i hi => h.waiting i (hsub.subset hi)⟩

/-- One who goes to sleep is tracked from then on. -/
theorem wait (h : Tracks c P) (hi : ¬ P i) : Tracks (c.wait i) fun j => P j ∨ j = i := by
  have hnot : i ∉ c.asleep ++ c.notified := fun hmem => hi (h.waiting i hmem)
  have hperm : ((c.wait i).asleep ++ (c.wait i).notified).Perm (i :: (c.asleep ++ c.notified)) := by
    rw [CondVar.wait, List.append_assoc, List.singleton_append]
    exact List.perm_middle
  refine ⟨hperm.nodup_iff.mpr (List.nodup_cons.mpr ⟨hnot, h.nodup⟩), fun j hj => ?_⟩
  rcases List.mem_cons.mp (hperm.mem_iff.mp hj) with rfl | hj
  · exact Or.inr rfl
  · exact Or.inl (h.waiting j hj)

/-- A notification moves a thread from one list to the other, and nobody comes or goes. -/
theorem notifyOne (h : Tracks c P) (k : Nat) : Tracks (c.notifyOne k) P := by
  rcases c.notifyOne_cases k with ⟨-, heq⟩ | ⟨i, hi, heq⟩
  · rwa [heq]
  · rw [heq]
    refine h.of_perm ?_
    have hmiddle : (c.asleep.erase i ++ (c.notified ++ [i])).Perm
        (i :: (c.asleep.erase i ++ c.notified)) := by
      rw [← List.append_assoc]
      exact List.perm_append_singleton i _
    exact hmiddle.trans ((List.perm_cons_erase hi).symm.append_right c.notified)

/-- Nor does a spurious wake-up change who is there. -/
theorem spurious (h : Tracks c P) (i : Nat) : Tracks (c.spurious i) P :=
  h.of_sublist (List.erase_sublist.append_right _)

/-- The thread that resumes waits no longer. -/
theorem resume (h : Tracks c P) (hi : i ∉ c.asleep) : Tracks (c.resume i) fun j => P j ∧ j ≠ i := by
  have hsub : List.Sublist ((c.resume i).asleep ++ (c.resume i).notified)
      (c.asleep ++ c.notified) :=
    List.erase_sublist.append_left _
  refine ⟨hsub.nodup h.nodup, fun j hj => ⟨h.waiting j (hsub.subset hj), ?_⟩⟩
  rintro rfl
  rcases List.mem_append.mp hj with hj | hj
  · exact hi hj
  · exact (List.nodup_append.mp h.nodup).2.1.not_mem_erase hj

end Tracks

end CondVar

end Foundation
