/-
  `while` loops that may fail and need not terminate.

  A loop is its body: one `Turn` either leaves the loop with a result or goes on from a new state,
  or fails.  `loop body n s` is the loop with at most `n` turns, and no value when these do not
  suffice.  More turns never change a result (`loop_mono`), so the loop has at most one, whatever
  the number of turns; when every turn that goes on makes a measure smaller, as many turns as the
  measure says are enough (`loop_of_measure`); when every turn goes on there is none
  (`loop_diverges`); and what every turn keeps holds at the end (`loop_holds`).  From a state that a
  loop passes through (`Goes`, turn after turn) it goes on as from the first (`loop_of_goes`).
-/
import IOEvent.Foundation.Runs
import Mathlib.Logic.Relation

namespace Foundation

/-- What one turn of a loop ends with: a state to go on from, or the result of the loop. -/
inductive Turn (σ α : Type)
  | next (s : σ)
  | done (a : α)

section Loop

variable {σ α φ : Type} {body : σ → Except φ (Turn σ α)}

/-- The loop, given up after `n` turns. A result does not depend on `n` (`loop_mono`), so a
    statement about the loop says which `n` is enough, or that there is none. -/
def loop (body : σ → Except φ (Turn σ α)) : Nat → σ → Option (Except φ α)
  | 0, _ => none
  | n + 1, s =>
    match body s with
    | .error e => some (.error e)
    | .ok (.done a) => some (.ok a)
    | .ok (.next s') => loop body n s'

/-- A loop whose body throws has thrown. -/
theorem loop_error {s : σ} {e : φ} (h : body s = .error e) (n : Nat) :
    loop body (n + 1) s = some (.error e) := by
  rw [loop, h]

/-- A loop whose body is done returns. -/
theorem loop_done {s : σ} {a : α} (h : body s = .ok (.done a)) (n : Nat) :
    loop body (n + 1) s = some (.ok a) := by
  rw [loop, h]

/-- A loop whose body goes on does one turn and has one less to do. -/
theorem loop_next {s s' : σ} (h : body s = .ok (.next s')) (n : Nat) :
    loop body (n + 1) s = loop body n s' := by
  rw [loop, h]

/-- A turn from `s` goes on with `s'`. A chain of these is the part of a run that a loop
    invariant has brought it through. -/
def Goes (body : σ → Except φ (Turn σ α)) (s s' : σ) : Prop := body s = .ok (.next s')

/-- A state on the way has the result of the first. -/
theorem loop_of_goes {s s' : σ} (h : Relation.ReflTransGen (Goes body) s s') :
    ∃ m, ∀ n, loop body (n + m) s = loop body n s' := by
  induction h using Relation.ReflTransGen.head_induction_on with
  | refl => exact ⟨0, fun _ => rfl⟩
  | head hnext _ ih =>
    obtain ⟨m, hm⟩ := ih
    refine ⟨m + 1, fun n => ?_⟩
    rw [← Nat.add_assoc, loop_next hnext, hm]

/-- A result stays the same however many more turns are allowed. -/
theorem loop_mono {r : Except φ α} :
    ∀ {n m : Nat} {s : σ}, loop body n s = some r → n ≤ m → loop body m s = some r := by
  intro n
  induction n with
  | zero => exact fun h _ => nomatch h
  | succ n ih =>
    intro m s h hle
    obtain ⟨m, rfl⟩ : ∃ m', m = m' + 1 := ⟨m - 1, by omega⟩
    cases hbody : body s with
    | error e => rwa [loop_error hbody] at h ⊢
    | ok t =>
      cases t with
      | done a => rwa [loop_done hbody] at h ⊢
      | next s' =>
        rw [loop_next hbody] at h ⊢
        exact ih h (Nat.le_of_succ_le_succ hle)

/-- A loop has one result. -/
theorem loop_unique {r r' : Except φ α} {n m : Nat} {s : σ} (h : loop body n s = some r)
    (h' : loop body m s = some r') : r = r' := by
  have hmax := loop_mono h (Nat.le_max_left n m)
  rw [loop_mono h' (Nat.le_max_right n m)] at hmax
  exact (Option.some.inj hmax).symm

/-- **The measure rule**: when each turn that goes on keeps the invariant and makes the measure
    smaller, one turn more than the measure is enough. -/
theorem loop_of_measure {I : σ → Prop} {μ : σ → Nat}
    (hnext : ∀ s s', I s → body s = .ok (.next s') → I s' ∧ μ s' < μ s) :
    ∀ (n : Nat) (s : σ), I s → μ s < n → ∃ r, loop body n s = some r := by
  intro n
  induction n with
  | zero => exact fun s _ h => absurd h (Nat.not_lt_zero _)
  | succ n ih =>
    intro s hs hlt
    cases hbody : body s with
    | error e => exact ⟨_, loop_error hbody n⟩
    | ok t =>
      cases t with
      | done a => exact ⟨_, loop_done hbody n⟩
      | next s' =>
        obtain ⟨hs', hless⟩ := hnext s s' hs hbody
        rw [loop_next hbody]
        exact ih s' hs' (by omega)

/-- **The divergence rule**: when every turn goes on and keeps the invariant, the loop is never
    left. -/
theorem loop_diverges {I : σ → Prop} (hnext : ∀ s, I s → ∃ s', body s = .ok (.next s') ∧ I s') :
    ∀ (n : Nat) (s : σ), I s → loop body n s = none := by
  intro n
  induction n with
  | zero => exact fun _ _ => rfl
  | succ n ih =>
    intro s hs
    obtain ⟨s', hbody, hs'⟩ := hnext s hs
    rw [loop_next hbody]
    exact ih s' hs'

/-- What a turn that satisfies `Turn.Holds I P` leads to: a state with `I`, or a result with `P`. -/
def Turn.Holds (I : σ → Prop) (P : α → Prop) : Turn σ α → Prop
  | .next s => I s
  | .done a => P a

/-- **The invariant rule**: what each turn keeps holds when the loop ends. -/
theorem loop_holds {I : σ → Prop} {P : α → Prop} {Q : φ → Prop}
    (hbody : ∀ s, I s → Foundation.Holds (Turn.Holds I P) Q (body s)) :
    ∀ (n : Nat) (s : σ), I s → ∀ r ∈ loop body n s, Foundation.Holds P Q r := by
  intro n
  induction n with
  | zero => exact fun s _ r hr => nomatch hr
  | succ n ih =>
    intro s hs r hr
    have h1 := hbody s hs
    cases hb : body s with
    | error e =>
      rw [loop_error hb, Option.mem_some] at hr
      rw [hb] at h1
      rw [← hr]
      exact .error (holds_error.mp h1)
    | ok t =>
      rw [hb] at h1
      have h2 := holds_ok.mp h1
      cases t with
      | done a =>
        rw [loop_done hb, Option.mem_some] at hr
        rw [← hr]
        exact .ok h2
      | next s' =>
        rw [loop_next hb] at hr
        exact ih s' h2 r hr

end Loop

end Foundation
