/-
  Runs of a fallible step function, and the two induction rules every later module uses.

  A component is a state type `σ`, a type of events `ε` and a step `σ → ε → Except φ σ`: an event
  either takes the state to the next one or fails with a `φ` and ends the run.  `run` folds a list
  of events; every interleaving of a concurrent component is one such list.

  A property that holds of every run is an invariant (`run_keeps`).  A property that holds of some
  runs only is an invariant under a GUARD: `Guarded step C s es` says that each event of the run
  meets the condition `C` in the state it is taken from.  `run_holds` is the rule for guarded runs,
  and `guarded_iff` is its sharp form: when every event that breaks the guard also breaks the
  property, the guarded runs are exactly the runs all of whose prefixes have the property.
  `guarded_congr` exchanges one guard for another.
-/
import Mathlib.Data.List.Basic
import Mathlib.Data.List.Infix

namespace Foundation

/-- The result of an operation on a state `σ` that may fail.  A failure keeps the state the
    operation had reached, as an exception or an abort leaves the memory as it is. -/
abbrev Outcome (φ σ α : Type) := Except (φ × σ) α

/-- Check a condition; when it is false, fail with `f` in the state `s`. An `assert`, and
    every access that would be undefined, is one of these. -/
def require {φ σ : Type} (p : Prop) [Decidable p] (f : φ) (s : σ) : Outcome φ σ Unit :=
  if p then .ok () else .error (f, s)

/-- An assertion that holds lets the call go on. -/
@[simp] theorem require_pos {φ σ : Type} {p : Prop} [Decidable p] (f : φ) (s : σ) (h : p) :
    require p f s = .ok () := if_pos h

/-- One that fails ends the run, with the state at that point. -/
@[simp] theorem require_neg {φ σ : Type} {p : Prop} [Decidable p] (f : φ) (s : σ) (h : ¬ p) :
    require p f s = .error (f, s) := if_neg h

/-- An operation on a part `τ` of a state `σ`: `put` says where the part is kept, so that a
    failure inside the part is a failure of the whole. -/
def within {φ τ σ α : Type} (put : τ → σ) : Outcome φ τ α → Outcome φ σ α
  | .ok a => .ok a
  | .error (f, t) => .error (f, put t)

/-- A part that returns hands its value to the whole. -/
@[simp] theorem within_ok {φ τ σ α : Type} (put : τ → σ) (a : α) :
    within (φ := φ) put (.ok a) = .ok a := rfl

/-- A part that fails leaves the whole with the state of the part put into it. -/
@[simp] theorem within_error {φ τ σ α : Type} (put : τ → σ) (f : φ) (t : τ) :
    within (α := α) put (.error (f, t)) = .error (f, put t) := rfl

/-- If the whole went on then the part did. -/
theorem within_eq_ok {φ τ σ α : Type} {put : τ → σ} {r : Outcome φ τ α} {a : α}
    (h : within put r = .ok a) : r = .ok a := by
  cases r with
  | ok a' => exact congrArg Except.ok (Except.ok.inj h)
  | error e => exact nomatch h

/-- A successful sequence of two computations: both succeeded. -/
theorem bind_ok {φ α β : Type} {x : Except φ α} {f : α → Except φ β} {b : β}
    (h : (x >>= f) = .ok b) : ∃ a, x = .ok a ∧ f a = .ok b := by
  cases x with
  | error e => exact nomatch h
  | ok a => exact ⟨a, rfl, h⟩

/-- What returns goes on with its value. -/
@[simp] theorem ok_bind {φ α β : Type} (a : α) (f : α → Except φ β) :
    ((.ok a : Except φ α) >>= f) = f a := rfl

/-- What has failed stays failed. -/
@[simp] theorem error_bind {φ α β : Type} (e : φ) (f : α → Except φ β) :
    ((.error e : Except φ α) >>= f) = .error e := rfl

section Run

variable {σ ε φ : Type} {step : σ → ε → Except φ σ}

/-- A run: event after event, until one fails. The state before the failure is in the failure
    (`Outcome`), so nothing of a run that fails is lost. -/
def run (step : σ → ε → Except φ σ) (s : σ) (es : List ε) : Except φ σ := es.foldlM step s

/-- No events, no change. -/
@[simp] theorem run_nil (s : σ) : run step s [] = .ok s := rfl

/-- A run does its first event and goes on from there. -/
@[simp] theorem run_cons (s : σ) (e : ε) (es : List ε) :
    run step s (e :: es) = step s e >>= fun s' => run step s' es := by
  rw [run, List.foldlM_cons]
  rfl

/-- A run is cut anywhere: the second part starts where the first one ends. -/
theorem run_append (s : σ) (es fs : List ε) :
    run step s (es ++ fs) = run step s es >>= fun s' => run step s' fs := by
  rw [run, List.foldlM_append]
  rfl

/-- Two steps that agree on the events of a run make the same run. -/
theorem run_congr {step' : σ → ε → Except φ σ} : ∀ {es : List ε} (s : σ),
    (∀ e ∈ es, ∀ s, step s e = step' s e) → run step s es = run step' s es
  | [], _, _ => rfl
  | e :: es, s, h => by
    have hes : (fun s' => run step s' es) = fun s' => run step' s' es :=
      funext fun s' => run_congr s' fun e he => h e (List.mem_cons_of_mem _ he)
    rw [run_cons, run_cons, h e List.mem_cons_self, hes]

/-- What a result satisfies: `P` of the state reached, or `Q` of the failure. With `Q` false
    it says that nothing fails. -/
inductive Holds (P : σ → Prop) (Q : φ → Prop) : Except φ σ → Prop
  | ok {s : σ} (h : P s) : Holds P Q (.ok s)
  | error {f : φ} (h : Q f) : Holds P Q (.error f)

/-- What holds of a run that went through holds of its last state. -/
@[simp] theorem holds_ok {P : σ → Prop} {Q : φ → Prop} {s : σ} :
    Holds P Q (.ok s) ↔ P s := ⟨fun | .ok h => h, .ok⟩

/-- What holds of a run that stopped holds of its fault. -/
@[simp] theorem holds_error {P : σ → Prop} {Q : φ → Prop} {f : φ} :
    Holds P Q (.error f) ↔ Q f := ⟨fun | .error h => h, .error⟩

/-- Both sides of a judgement may be weakened. -/
theorem Holds.mono {P P' : σ → Prop} {Q Q' : φ → Prop} (hP : ∀ s, P s → P' s)
    (hQ : ∀ f, Q f → Q' f) : ∀ {r : Except φ σ}, Holds P Q r → Holds P' Q' r
  | _, .ok h => .ok (hP _ h)
  | _, .error h => .error (hQ _ h)

/-- Sequencing: what the first computation guarantees is enough for the second. -/
theorem Holds.bind {τ : Type} {P : τ → Prop} {P' : σ → Prop} {Q : φ → Prop} {x : Except φ τ}
    {f : τ → Except φ σ} (hx : Holds P Q x) (hf : ∀ a, P a → Holds P' Q (f a)) :
    Holds P' Q (x >>= f) := by
  cases hx with
  | ok h => exact hf _ h
  | error h => exact .error h

/-- `Guarded step C s es`: along the run of `es` from `s`, each event meets `C` in the state
    it is taken from. The condition is on the state before the event, never on what the event
    makes of it. -/
def Guarded (step : σ → ε → Except φ σ) (C : σ → ε → Prop) : σ → List ε → Prop
  | _, [] => True
  | s, e :: es => C s e ∧ ∀ s', step s e = .ok s' → Guarded step C s' es

/-- Whether every step of a given run meets its condition can be computed by doing the run. -/
instance decidableGuarded {C : σ → ε → Prop} [∀ s e, Decidable (C s e)] :
    ∀ (s : σ) (es : List ε), Decidable (Guarded step C s es)
  | _, [] => .isTrue trivial
  | s, e :: es =>
    match hse : step s e with
    | .error _ =>
      decidable_of_iff (C s e)
        ⟨fun h => ⟨h, fun _ hs' => nomatch hse.symm.trans hs'⟩, And.left⟩
    | .ok s₁ =>
      have : Decidable (Guarded step C s₁ es) := decidableGuarded s₁ es
      decidable_of_iff (C s e ∧ Guarded step C s₁ es)
        ⟨fun h => ⟨h.1, fun _ hs' => Except.ok.inj (hse.symm.trans hs') ▸ h.2⟩,
          fun h => ⟨h.1, h.2 s₁ hse⟩⟩

/-- **The run rule**: what each guarded event preserves holds after every guarded run. -/
theorem run_holds {C : σ → ε → Prop} {I : σ → Prop} {Q : φ → Prop}
    (hstep : ∀ s e, I s → C s e → Holds I Q (step s e)) :
    ∀ (es : List ε) (s : σ), I s → Guarded step C s es → Holds I Q (run step s es) := by
  intro es
  induction es with
  | nil => exact fun s hs _ => .ok hs
  | cons e es ih =>
    intro s hs hg
    have h1 := hstep s e hs hg.1
    rw [run_cons]
    cases hse : step s e with
    | error f =>
      rw [hse] at h1
      exact .error (holds_error.mp h1)
    | ok s' =>
      rw [hse] at h1
      exact ih s' (holds_ok.mp h1) (hg.2 s' hse)

/-- A condition that each event of the run meets in every state. -/
theorem Guarded.of_mem {C : σ → ε → Prop} :
    ∀ {es : List ε} (s : σ), (∀ e ∈ es, ∀ s, C s e) → Guarded step C s es
  | [], _, _ => trivial
  | _ :: _, s, h => ⟨h _ List.mem_cons_self s, fun s' _ =>
    Guarded.of_mem s' fun e he => h e (List.mem_cons_of_mem _ he)⟩

/-- A guard, together with a condition on the events alone. -/
theorem Guarded.and_mem {C : σ → ε → Prop} {D : ε → Prop} :
    ∀ {es : List ε} {s : σ}, Guarded step C s es → (∀ e ∈ es, D e) →
      Guarded step (fun s e => C s e ∧ D e) s es
  | [], _, _, _ => trivial
  | _ :: _, _, h, hD => ⟨⟨h.1, hD _ List.mem_cons_self⟩, fun s' hs' =>
    (h.2 s' hs').and_mem fun e he => hD e (List.mem_cons_of_mem _ he)⟩

/-- The run rule without a guard. -/
theorem run_keeps {I : σ → Prop} {Q : φ → Prop} (hstep : ∀ s e, I s → Holds I Q (step s e))
    (es : List ε) (s : σ) (hs : I s) : Holds I Q (run step s es) :=
  run_holds (C := fun _ _ => True) (fun s e hs _ => hstep s e hs) es s hs
    (.of_mem s fun _ _ _ => trivial)

/-- A prefix of a guarded run is guarded. -/
theorem Guarded.of_append {C : σ → ε → Prop} :
    ∀ {es : List ε} {s : σ} {fs : List ε}, Guarded step C s (es ++ fs) → Guarded step C s es
  | [], _, _, _ => trivial
  | _ :: _, _, _, h => ⟨h.1, fun s' hs' => (h.2 s' hs').of_append⟩

/-- What a guarded run still has to do from a state it passes through. -/
theorem Guarded.of_run {C : σ → ε → Prop} :
    ∀ {es : List ε} {s s' : σ} {fs : List ε}, Guarded step C s (es ++ fs) →
      run step s es = .ok s' → Guarded step C s' fs
  | [], s, s', fs, h, hr => by
    obtain rfl : s = s' := by simpa using hr
    exact h
  | e :: es, s, s', fs, h, hr => by
    rw [run_cons] at hr
    obtain ⟨s₁, h1, h2⟩ := bind_ok hr
    exact (h.2 s₁ h1).of_run h2

/-- **The rule of ranks**: when no event raises a rank and each of some events lowers it, a run with
    enough of these brings it to zero, whatever else happens in between. -/
theorem run_ranks {C : σ → ε → Prop} {I : σ → Prop} {rank : σ → Nat} {turn : ε → Bool}
    (hstep : ∀ s e s', I s → C s e → step s e = .ok s' →
      I s' ∧ rank s' ≤ rank s ∧ (turn e = true → rank s' ≤ rank s - 1)) :
    ∀ (es : List ε) (s s' : σ), I s → Guarded step C s es → run step s es = .ok s' →
      I s' ∧ rank s' ≤ rank s - es.countP turn := by
  intro es
  induction es with
  | nil =>
    intro s s' hs _ hr
    obtain rfl : s = s' := by simpa using hr
    exact ⟨hs, Nat.le_refl _⟩
  | cons e es ih =>
    intro s s' hs hg hr
    rw [run_cons] at hr
    obtain ⟨s₁, h1, h2⟩ := bind_ok hr
    obtain ⟨hs₁, hle, hturn⟩ := hstep s e s₁ hs hg.1 h1
    obtain ⟨hs', hrank⟩ := ih s₁ s' hs₁ (hg.2 s₁ h1) h2
    refine ⟨hs', ?_⟩
    cases hat : turn e with
    | false =>
      rw [List.countP_cons_of_neg (by rw [hat]; decide)]
      omega
    | true =>
      have hlow := hturn hat
      rw [List.countP_cons_of_pos hat]
      omega

/-- Two conditions that agree where an invariant holds guard the same runs. -/
theorem guarded_congr {C C' : σ → ε → Prop} {D : ε → Prop} {I : σ → Prop}
    (hstep : ∀ s e s', I s → D e → step s e = .ok s' → I s')
    (hagree : ∀ s e, I s → D e → (C s e ↔ C' s e)) :
    ∀ (es : List ε) (s : σ), I s → (∀ e ∈ es, D e) →
      (Guarded step C s es ↔ Guarded step C' s es) := by
  intro es
  induction es with
  | nil => exact fun _ _ _ => Iff.rfl
  | cons e es ih =>
    intro s hs hes
    have he := hes e List.mem_cons_self
    refine and_congr (hagree s e hs he) (forall_congr' fun s' => forall_congr' fun hs' => ?_)
    exact ih s' (hstep s e s' hs he hs') fun e' he' => hes e' (List.mem_cons_of_mem _ he')

/-- **The sharp run rule**: when a guarded event keeps the invariant and the property, and an
    unguarded one breaks the property, the guarded runs are exactly the runs all of whose prefixes
    have the property. -/
theorem guarded_iff {C : σ → ε → Prop} {I P : σ → Prop} {Q : φ → Prop} (hIP : ∀ s, I s → P s)
    (hstep : ∀ s e, I s → C s e → Holds I Q (step s e))
    (hbad : ∀ s e, I s → ¬ C s e → ¬ Holds P Q (step s e)) :
    ∀ (es : List ε) (s : σ), I s →
      (Guarded step C s es ↔ ∀ pre, pre <+: es → Holds P Q (run step s pre)) := by
  -- induction on the events, with the invariant for the state
  intro es
  induction es with
  | nil =>
    intro s hs
    refine ⟨fun _ pre hpre => ?_, fun _ => trivial⟩
    rw [List.prefix_nil.mp hpre]
    exact .ok (hIP s hs)
  | cons e es ih =>
    intro s hs
    constructor
    · -- every prefix of a guarded run is guarded
      intro hg pre hpre
      obtain ⟨rest, hrest⟩ := hpre
      rw [← hrest] at hg
      exact (run_holds hstep pre s hs hg.of_append).mono hIP fun _ h => h
    · -- the prefix `[e]` shows that `e` is guarded, and those that start with `e` the rest
      intro hall
      have hC : C s e := by
        by_contra hC
        have h1 := hall [e] ⟨es, rfl⟩
        rw [run_cons] at h1
        refine hbad s e hs hC ?_
        cases hse : step s e with
        | error f =>
          rw [hse] at h1
          exact .error (holds_error.mp h1)
        | ok s' =>
          rw [hse] at h1
          exact h1
      refine ⟨hC, fun s' hs' => ?_⟩
      have hI : I s' := by
        have h1 := hstep s e hs hC
        rw [hs'] at h1
        exact holds_ok.mp h1
      refine (ih s' hI).mpr fun pre hpre => ?_
      have h1 := hall (e :: pre) (List.cons_prefix_cons.mpr ⟨rfl, hpre⟩)
      rwa [run_cons, hs', ok_bind] at h1

end Run

end Foundation
