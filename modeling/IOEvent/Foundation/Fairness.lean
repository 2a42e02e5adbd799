/-
  Runs that do not end, and the rules for what they do sooner or later.

  A finite run says what has happened so far, and so what never happens.  That something does
  happen is a property of an infinite run (`Forever`), and mostly of a fair one: what fairness is
  required is a hypothesis about the run, in the terms of the component, and no part of its step.

  A property of a moment is a `P : Nat → Prop`, which may speak of the state and of the event
  there.  `eventually_of_turn` is the rule for one thing that has to happen: `I` stays until `G`,
  and a turn taken under `I` brings `G`.  `eventually_of_rank` is the rule for several, where
  each turn lowers a rank; `eventually_served` is its instance for a queue.  `forever_of_run`
  makes an infinite run of a finite one that ends in a state in which some event does nothing.
-/
import IOEvent.Foundation.Runs
import Mathlib.Data.List.Basic

namespace Foundation

/-- `P` holds at the moment `k` or later. It is a statement about one run; nothing bounds how
    long it takes. -/
def Eventually (P : Nat → Prop) (k : Nat) : Prop := ∃ m, k ≤ m ∧ P m

section Rules

variable {P Q G I T : Nat → Prop} {k m : Nat}

/-- What holds now holds eventually. -/
theorem Eventually.now (h : P k) : Eventually P k := ⟨k, Nat.le_refl k, h⟩

/-- What holds eventually from a later point on holds eventually from here. -/
theorem Eventually.of_le (h : Eventually P m) (hle : k ≤ m) : Eventually P k := by
  obtain ⟨n, hn, hP⟩ := h
  exact ⟨n, Nat.le_trans hle hn, hP⟩

/-- What leads to something that leads to `Q` leads to `Q`. -/
theorem Eventually.bind (h : Eventually P k) (hPQ : ∀ m, k ≤ m → P m → Eventually Q m) :
    Eventually Q k := by
  obtain ⟨m, hm, hP⟩ := h
  exact (hPQ m hm hP).of_le hm

/-- What stays until `G` is still there, or `G` has come. -/
theorem stays_until (hstep : ∀ m, k ≤ m → I m → G (m + 1) ∨ I (m + 1)) (hI : I k) (hle : k ≤ m) :
    I m ∨ Eventually G k := by
  induction hle with
  | refl => exact .inl hI
  | @step m hle ih =>
    rcases ih with hm | hG
    · rcases hstep m hle hm with hG | hm'
      · exact .inr ⟨m + 1, Nat.le_succ_of_le hle, hG⟩
      · exact .inl hm'
    · exact .inr hG

/-- **The rule of one turn**: `I` stays until `G`, a turn `T` is taken if `I` stays for ever, and
    a turn taken under `I` brings `G`. -/
theorem eventually_of_turn (hstep : ∀ m, k ≤ m → I m → G (m + 1) ∨ I (m + 1))
    (hfair : (∀ m, k ≤ m → I m) → Eventually T k)
    (hturn : ∀ m, k ≤ m → I m → T m → G (m + 1)) (hI : I k) : Eventually G k := by
  by_contra hnever
  have hall : ∀ m, k ≤ m → I m := fun m hle => (stays_until hstep hI hle).resolve_right hnever
  obtain ⟨m, hle, ht⟩ := hfair hall
  exact hnever ⟨m + 1, Nat.le_succ_of_le hle, hturn m hle (hall m hle) ht⟩

/-- **The rule of ranks**, for runs that do not end: no event raises the rank `R`, turns are
    taken again and again, and each lowers it. -/
theorem eventually_of_rank {R : Nat → Nat}
    (hstep : ∀ m, I m → G (m + 1) ∨ I (m + 1) ∧ R (m + 1) ≤ R m)
    (hfair : ∀ m, I m → Eventually T m)
    (hturn : ∀ m, I m → T m → G (m + 1) ∨ I (m + 1) ∧ R (m + 1) < R m) :
    ∀ r k, R k = r → I k → Eventually G k := by
  intro r
  induction r using Nat.strongRecOn with
  | ind r ih =>
    intro k hk hI
    -- either `G` comes, or the rank falls below `r`
    have hlower : Eventually (fun m => G m ∨ I m ∧ R m < r) k := by
      refine eventually_of_turn (I := fun m => I m ∧ R m ≤ r) (T := T) ?_ ?_ ?_
        ⟨hI, Nat.le_of_eq hk⟩
      · rintro m - ⟨hm, hle⟩
        rcases hstep m hm with hG | ⟨hm', hle'⟩
        · exact .inl (.inl hG)
        · exact .inr ⟨hm', Nat.le_trans hle' hle⟩
      · exact fun _ => hfair k hI
      · rintro m - ⟨hm, hle⟩ ht
        rcases hturn m hm ht with hG | ⟨hm', hlt⟩
        · exact .inl hG
        · exact .inr ⟨hm', Nat.lt_of_lt_of_le hlt hle⟩
    refine hlower.bind fun m _ hm => ?_
    rcases hm with hG | ⟨hm, hlt⟩
    · exact .now hG
    · exact ih (R m) hlt m rfl hm

end Rules

/-! ## Queues

  The entries of all queues stand in one list, each with the key of its queue, as handlers
  posted to several loops do.  A queue is served when its first entry is taken out; what is put
  in meanwhile goes to its end, so an entry waits for those in front of it only, and
  `eventually_served` is by induction on its position. -/

section Queues

variable {κ α : Type} [DecidableEq κ]

/-- What is queued under a key, in order. -/
def queued (l : List (κ × α)) (key : κ) : List α := (l.filter (·.1 = key)).map Prod.snd

variable {l : List (κ × α)} {key key' : κ} {a : α} {i : Nat}

/-- An entry is in the queue of its own key. -/
theorem mem_queued : a ∈ queued l key ↔ (key, a) ∈ l := by
  simp [queued]

/-- Posting at the end posts at the end of each queue. -/
theorem queued_append (l l' : List (κ × α)) (key : κ) :
    queued (l ++ l') key = queued l key ++ queued l' key := by
  simp [queued]

/-- The first entry is the first one of its own queue and is in no other. -/
theorem queued_cons (l : List (κ × α)) (key' : κ) (a : α) (key : κ) :
    queued ((key', a) :: l) key = if key' = key then a :: queued l key else queued l key := by
  rw [queued, List.filter_cons]
  by_cases h : key' = key <;> simp [h, queued]

/-- A list around one of its entries. -/
theorem split_getElem? {β : Type} {l : List β} {b : β} (hi : l[i]? = some b) :
    l = l.take i ++ b :: l.drop (i + 1) := by
  obtain ⟨hlt, rfl⟩ := List.getElem?_eq_some_iff.mp hi
  rw [← List.drop_eq_getElem_cons hlt, List.take_append_drop]

/-- Taking out the first entry of a key. -/
theorem queued_first (hi : l[i]? = some (key, a)) (hfirst : ∀ p ∈ l.take i, p.1 ≠ key) :
    queued l key = a :: queued (l.eraseIdx i) key := by
  have hnone : queued (l.take i) key = [] := by
    simpa [queued] using fun b b' hp => hfirst (b, b') hp
  rw [List.eraseIdx_eq_take_drop_succ, queued_append, hnone, List.nil_append]
  conv_lhs => rw [split_getElem? hi, queued_append, hnone, List.nil_append, queued_cons, if_pos rfl]

/-- Taking out an entry of another key. -/
theorem queued_other (hi : l[i]? = some (key', a)) (hne : key' ≠ key) :
    queued (l.eraseIdx i) key = queued l key := by
  rw [List.eraseIdx_eq_take_drop_succ, queued_append]
  conv_rhs => rw [split_getElem? hi, queued_append, queued_cons, if_neg hne]

/-- What happens to a queue: more is put in at its end, and the first entry may be taken out. -/
inductive Serves (D : α → Prop) (q q' : List α) : Prop
  | waits (new : List α) (h : q' = q ++ new)
  | serves (a : α) (rest new : List α) (h : q = a :: rest) (h' : q' = rest ++ new) (hdone : D a)

/-- **The rule of queues**: when the first entry of the queue `q` is served again and again,
    every entry is. -/
theorem eventually_served [DecidableEq α] {q : Nat → List α} {D : α → Nat → Prop} {T : Nat → Prop}
    (hstep : ∀ m, Serves (fun a => D a (m + 1)) (q m) (q (m + 1)))
    (hfair : ∀ m, q m ≠ [] → Eventually T m)
    (hturn : ∀ m, T m → ∃ a rest new, q m = a :: rest ∧ q (m + 1) = rest ++ new ∧
      D a (m + 1)) {k : Nat} (ha : a ∈ q k) : Eventually (D a) k := by
  have hserves : ∀ m, a ∈ q m → ∀ b rest new, q m = b :: rest →
      q (m + 1) = rest ++ new → D b (m + 1) →
      D a (m + 1) ∨ a ∈ q (m + 1) ∧ (q (m + 1)).idxOf a < (q m).idxOf a := by
    intro m hmem b rest new hq hq' hdone
    by_cases hb : b = a
    · exact .inl (hb ▸ hdone)
    · rw [hq] at hmem ⊢
      have hrest := (List.mem_cons.mp hmem).resolve_left (Ne.symm hb)
      refine .inr ⟨hq' ▸ List.mem_append_left _ hrest, ?_⟩
      rw [hq', List.idxOf_append_of_mem hrest, List.idxOf_cons_ne _ hb]
      exact Nat.lt_succ_self _
  refine eventually_of_rank (I := fun m => a ∈ q m) (T := T)
    (R := fun m => (q m).idxOf a) ?_ ?_ ?_ _ k rfl ha
  · intro m hmem
    cases hstep m with
    | waits new h =>
      refine .inr ⟨h ▸ List.mem_append_left _ hmem, ?_⟩
      rw [h, List.idxOf_append_of_mem hmem]
    | serves b rest new h h' hdone =>
      exact (hserves m hmem b rest new h h' hdone).imp_right fun hb => ⟨hb.1, Nat.le_of_lt hb.2⟩
  · exact fun m hmem => hfair m (List.ne_nil_of_mem hmem)
  · intro m hmem ht
    obtain ⟨b, rest, new, h, h', hdone⟩ := hturn m ht
    exact hserves m hmem b rest new h h' hdone

end Queues

section Runs

variable {σ ε φ : Type} {step : σ → ε → Except φ σ} {states : Nat → σ} {events : Nat → ε}

/-- A run that does not end: the state at `k + 1` is what the event at `k` leaves. No event
    fails, as a failure would end the run. -/
def Forever (step : σ → ε → Except φ σ) (states : Nat → σ) (events : Nat → ε) : Prop :=
  ∀ k, step (states k) (events k) = .ok (states (k + 1))

/-- What each event preserves holds at every moment. -/
theorem Forever.keeps {C : σ → ε → Prop} {I : σ → Prop} (h : Forever step states events)
    (hstep : ∀ s e s', I s → C s e → step s e = .ok s' → I s')
    (hguard : ∀ k, C (states k) (events k)) (hI : I (states 0)) : ∀ k, I (states k) := by
  intro k
  induction k with
  | zero => exact hI
  | succ k ih => exact hstep _ _ _ ih (hguard k) (h k)

/-! ## An infinite run from a finite one

  Witnesses are finite runs.  One that ends in a state in which an event changes nothing goes on
  with that event for ever, and the hypotheses of a liveness theorem can be checked of it by
  evaluation up to the end and trivially after it. -/

/-- The state after the first `k` events of a run from `s`. -/
def statesOf (step : σ → ε → Except φ σ) (s : σ) (es : List ε) (k : Nat) : σ :=
  ((run step s (es.take k)).toOption).getD s

/-- The events of a run, and then always the same. -/
def eventsOf (es : List ε) (idle : ε) (k : Nat) : ε := es.getD k idle

variable {s s' : σ} {es : List ε} {idle : ε} {k : Nat}

/-- The state after `k` events is where the run of the first `k` ends. -/
theorem statesOf_of_run (h : run step s (es.take k) = .ok s') : statesOf step s es k = s' := by
  rw [statesOf, h]
  rfl

/-- Once the events are used up the state stays what it is. -/
theorem statesOf_of_le (h : run step s es = .ok s') (hle : es.length ≤ k) :
    statesOf step s es k = s' :=
  statesOf_of_run (by rwa [List.take_of_length_le hle])

/-- Behind its end a finite run idles. -/
theorem eventsOf_of_le (hle : es.length ≤ k) : eventsOf es idle k = idle := by
  rw [eventsOf, List.getD_eq_getElem?_getD, List.getElem?_eq_none hle]
  rfl

/-- Up to its end a finite run does what it does. -/
theorem eventsOf_of_lt (hk : k < es.length) : eventsOf es idle k = es[k] := by
  rw [eventsOf, List.getD_eq_getElem?_getD, List.getElem?_eq_getElem hk]
  rfl

/-- The states that a run passes through. -/
theorem run_take (h : run step s es = .ok s') (k : Nat) :
    run step s (es.take k) = .ok (statesOf step s es k) := by
  rw [← List.take_append_drop k es, run_append] at h
  obtain ⟨s₁, h₁, -⟩ := bind_ok h
  rw [h₁, statesOf_of_run h₁]

/-- **A finite run goes on for ever** when the last state lets it idle. The premises of the
    liveness theorems are met by such runs, so they are not empty. -/
theorem forever_of_run (h : run step s es = .ok s') (hidle : step s' idle = .ok s') :
    Forever step (statesOf step s es) (eventsOf es idle) := by
  intro k
  by_cases hk : k < es.length
  · have hnext := run_take h (k + 1)
    rw [List.take_succ_eq_append_getElem hk, run_append, run_take h k, ok_bind, run_cons] at hnext
    obtain ⟨s₁, h₁, h₂⟩ := bind_ok hnext
    rw [eventsOf_of_lt hk, h₁]
    exact h₂
  · have hle : es.length ≤ k := Nat.le_of_not_lt hk
    rw [statesOf_of_le h hle, eventsOf_of_le hle, statesOf_of_le h (Nat.le_succ_of_le hle)]
    exact hidle

/-- The condition that a finite run is guarded by holds at every moment of the infinite one. -/
theorem Guarded.forever {C : σ → ε → Prop} (hguard : Guarded step C s es)
    (h : run step s es = .ok s') (hidle : C s' idle) (k : Nat) :
    C (statesOf step s es k) (eventsOf es idle k) := by
  by_cases hk : k < es.length
  · rw [← List.take_append_drop k es] at hguard
    have hrest := hguard.of_run (run_take h k)
    rw [List.drop_eq_getElem_cons hk] at hrest
    rw [eventsOf_of_lt hk]
    exact hrest.1
  · have hle : es.length ≤ k := Nat.le_of_not_lt hk
    rw [statesOf_of_le h hle, eventsOf_of_le hle]
    exact hidle

end Runs

end Foundation
