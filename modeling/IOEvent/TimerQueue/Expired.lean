/-
  What an expiry handler does to the queue, on both sides of the callbacks.

  `getExpired` moves the timers that are due from the sets to the batch.  `reset` goes over the
  batch once more: a repeating timer that was not cancelled meanwhile is restarted and put back into
  the sets (`renewed`), every other one is deleted.  `Renews` collects what that loop leaves for the
  later modules: which timers are in the sets afterwards, which are deleted, and what it does not
  touch.

  Both halves are loops over the batch.  The addresses in it are different, so a turn finds its
  timer as it was before the loop, and what the turns do can be put together (`Renews.cons`).
-/
import IOEvent.TimerQueue.Operations

open Foundation

namespace IOEvent

namespace TimerQueue

variable {q q' : TimerQueue} {held : List Addr} {a : Addr} {t : Timer} {n : Nat}
  {now e : Timestamp}

/-! ## `getExpired`

  The batch is the part of `timers_` in front of the sentinel, and what the loop erases from
  `activeTimers_` is the same timers. -/

/-- The address of an entry. -/
def addrs (l : List Entry) : List Addr := l.map fun x => (ofLex x).2

/-- No entries, no addresses. -/
@[simp] theorem addrs_nil : addrs [] = [] := rfl

/-- The first address is that of the first entry. -/
@[simp] theorem addrs_cons (x : Entry) (l : List Entry) : addrs (x :: l) = (ofLex x).2 :: addrs l :=
  rfl

/-- Addresses are listed in parts. -/
@[simp] theorem addrs_append (k l : List Entry) : addrs (k ++ l) = addrs k ++ addrs l :=
  List.map_append

/-- An address is listed when some entry has it. -/
theorem mem_addrs {l : List Entry} : a ∈ addrs l ↔ ∃ e, toLex (e, a) ∈ l := by
  constructor
  · intro h
    obtain ⟨⟨e, b⟩, hx, rfl⟩ := List.mem_map.mp h
    exact ⟨e, hx⟩
  · rintro ⟨e, he⟩
    exact List.mem_map.mpr ⟨_, he, rfl⟩

/-- The loop of `getExpired` takes the timers of `l` out of `activeTimers_`. Each of them is
    found, so the assertion of the loop holds. -/
theorem deactivate_run (l : List Entry) (q : TimerQueue)
    (hact : ∀ x ∈ l, ∃ t, q.heap (ofLex x).2 = some t ∧
      toLex ((ofLex x).2, t.sequence_) ∈ q.activeTimers_) (hnodup : (addrs l).Nodup) :
    ∃ s, run deactivate q l = .ok { q with activeTimers_ := s } ∧
      ∀ {a n}, toLex (a, n) ∈ s ↔
        toLex (a, n) ∈ q.activeTimers_ ∧ ¬ (a ∈ addrs l ∧ q.numberAt a = some n) := by
  -- by induction on the batch, for any set that still has its entries
  induction l generalizing q with
  | nil => exact ⟨q.activeTimers_, rfl, by simp⟩
  | cons x l ih =>
    obtain ⟨hx, hl⟩ := List.nodup_cons.mp hnodup
    obtain ⟨t, ht, hmem⟩ := hact x List.mem_cons_self
    have hone : q.deactivate x = .ok { q with
        activeTimers_ := (q.activeTimers_.erase (toLex ((ofLex x).2, t.sequence_))).1 } := by
      rw [deactivate, deref_eq ht, ok_bind]
      dsimp only
      rw [require_pos _ _ (OrderedSet.erase_snd.mpr hmem)]
      rfl
    obtain ⟨s, hs, hchar⟩ := ih { q with
        activeTimers_ := (q.activeTimers_.erase (toLex ((ofLex x).2, t.sequence_))).1 } (by
      intro y hy
      obtain ⟨u, hu, hmemy⟩ := hact y (List.mem_cons_of_mem x hy)
      refine ⟨u, hu, OrderedSet.mem_erase.mpr ⟨?_, hmemy⟩⟩
      -- the addresses of the batch differ, so `x`'s entry is not `y`'s
      intro heq
      exact hx (List.mem_map.mpr ⟨y, hy, (Prod.mk.inj heq).1⟩)) hl
    refine ⟨s, by rw [run_cons, hone, ok_bind, hs], ?_⟩
    intro a n
    rw [hchar, OrderedSet.mem_erase, addrs_cons, List.mem_cons]
    have hnum := numberAt_of_heap ht
    show (_ ∧ _) ∧ ¬ (_ ∧ q.numberAt a = some n) ↔ _
    constructor
    · rintro ⟨⟨hne, ha⟩, hnot⟩
      refine ⟨ha, ?_⟩
      rintro ⟨rfl | hal, hn⟩
      · obtain rfl : t.sequence_ = n := Option.some.inj (hnum.symm.trans hn)
        exact hne rfl
      · exact hnot ⟨hal, hn⟩
    · rintro ⟨ha, hnot⟩
      refine ⟨⟨?_, ha⟩, fun hal => hnot ⟨Or.inr hal.1, hal.2⟩⟩
      intro heq
      obtain ⟨rfl, rfl⟩ := Prod.mk.inj heq
      exact hnot ⟨Or.inl rfl, hnum⟩

/-- The sentinel of `getExpired`, `Entry(now, UINTPTR_MAX)`. It has the largest address, so
    that entries with the same time lie in front of it. -/
def sentinel (now : Timestamp) : Entry := toLex (now, uintptrMax)

/-- The sentinel of the search lies behind every entry that has expired, as no object starts at
    the largest address. -/
theorem lt_sentinel (ha : a < uintptrMax) : toLex (e, a) < sentinel now ↔ e ≤ now := by
  rw [sentinel, Prod.Lex.toLex_lt_toLex]
  constructor
  · rintro (h | ⟨h, -⟩)
    · exact le_of_lt h
    · exact le_of_eq h
  · intro h
    exact (lt_or_eq_of_le h).imp_right fun heq => ⟨heq, ha⟩

namespace Owns

/-- An entry of `timers_` is expired or not by its time alone. -/
theorem mem_before (h : Owns q held) :
    toLex (e, a) ∈ q.timers_.before (sentinel now) ↔ toLex (e, a) ∈ q.timers_ ∧ e ≤ now := by
  rw [OrderedSet.mem_before]
  refine and_congr_right fun hmem => ?_
  obtain ⟨t, ht, -⟩ := h.keyed hmem
  exact lt_sentinel (h.bounded ht)

/-- What the search leaves in the set is what has not expired. -/
theorem mem_fromBound (h : Owns q held) :
    toLex (e, a) ∈ q.timers_.fromBound (sentinel now) ↔ toLex (e, a) ∈ q.timers_ ∧ now < e := by
  rw [OrderedSet.mem_fromBound]
  refine and_congr_right fun hmem => ?_
  obtain ⟨t, ht, -⟩ := h.keyed hmem
  rw [← not_lt, lt_sentinel (h.bounded ht), not_le]

/-- What it takes out is what has expired. -/
theorem mem_addrs_before (h : Owns q held) :
    a ∈ addrs (q.timers_.before (sentinel now)) ↔ ∃ e ≤ now, toLex (e, a) ∈ q.timers_ := by
  rw [mem_addrs]
  constructor
  · rintro ⟨e, he⟩
    exact ⟨e, (h.mem_before.mp he).2, (h.mem_before.mp he).1⟩
  · rintro ⟨e, hle, he⟩
    exact ⟨e, h.mem_before.mpr ⟨he, hle⟩⟩

/-- No timer is taken out twice. -/
theorem addrs_before_nodup (h : Owns q held) :
    (addrs (q.timers_.before (sentinel now))).Nodup := by
  refine List.Nodup.map_on ?_ (OrderedSet.before_nodup _ _)
  rintro ⟨d, a⟩ hx ⟨e, b⟩ hy heq
  obtain ⟨t, ht, rfl⟩ := h.keyed (OrderedSet.mem_before.mp hx).1
  obtain ⟨u, hu, rfl⟩ := h.keyed (OrderedSet.mem_before.mp hy).1
  obtain rfl : a = b := heq
  obtain rfl : t = u := Option.some.inj (ht.symm.trans hu)
  rfl

/-- **`getExpired`** moves the timers that are due from the sets to the batch. The ownership
    is in order with the batch held outside the sets. -/
theorem getExpired_eq (h : Owns q held) (now : Timestamp) :
    ∃ s, q.getExpired now = .ok ({ q with
          timers_ := q.timers_.fromBound (sentinel now), activeTimers_ := s },
        q.timers_.before (sentinel now)) ∧
      Owns { q with timers_ := q.timers_.fromBound (sentinel now), activeTimers_ := s }
        (addrs (q.timers_.before (sentinel now)) ++ held) := by
  have hact : ∀ x ∈ q.timers_.before (sentinel now), ∃ t, q.heap (ofLex x).2 = some t ∧
      toLex ((ofLex x).2, t.sequence_) ∈ q.activeTimers_ := by
    rintro ⟨e, a⟩ hx
    have hmem := (OrderedSet.mem_before.mp hx).1
    obtain ⟨t, ht, rfl⟩ := h.keyed hmem
    exact ⟨t, ht, (h.mem_active ht).mpr ⟨rfl, hmem⟩⟩
  obtain ⟨s, hs, hchar⟩ := deactivate_run (q.timers_.before (sentinel now))
    { q with timers_ := q.timers_.fromBound (sentinel now) } hact h.addrs_before_nodup
  have howns : Owns { q with timers_ := q.timers_.fromBound (sentinel now), activeTimers_ := s }
      (addrs (q.timers_.before (sentinel now)) ++ held) := by
    refine ⟨h.ledger, h.bounded, fun hmem => h.keyed (h.mem_fromBound.mp hmem).1, ?_, ?_, ?_, ?_,
      ?_⟩
    -- the two sets still agree: what has left one by the bound has left the other by its address
    · intro a n
      rw [hchar]
      show toLex (a, n) ∈ q.activeTimers_ ∧ ¬ (_ ∧ q.numberAt a = some n) ↔
        ∃ t, q.heap a = some t ∧ t.sequence_ = n ∧
          toLex (t.expiration_, a) ∈ q.timers_.fromBound (sentinel now)
      constructor
      · rintro ⟨ha, hnot⟩
        obtain ⟨t, ht, rfl, hent⟩ := h.active.mp ha
        refine ⟨t, ht, rfl, h.mem_fromBound.mpr ⟨hent, ?_⟩⟩
        by_contra hle
        exact hnot ⟨h.mem_addrs_before.mpr ⟨_, not_lt.mp hle, hent⟩, numberAt_of_heap ht⟩
      · rintro ⟨t, ht, rfl, hent⟩
        obtain ⟨hent, hlt⟩ := h.mem_fromBound.mp hent
        refine ⟨(h.mem_active ht).mpr ⟨rfl, hent⟩, ?_⟩
        rintro ⟨ha, -⟩
        obtain ⟨e, hle, he⟩ := h.mem_addrs_before.mp ha
        obtain ⟨u, hu, rfl⟩ := h.keyed he
        obtain rfl : u = t := Option.some.inj (hu.symm.trans ht)
        exact absurd hlt (not_lt.mpr hle)
    -- the batch and what was held before have no address in common
    · refine List.nodup_append.mpr ⟨h.addrs_before_nodup, h.held_nodup, ?_⟩
      rintro a ha b hb rfl
      obtain ⟨e, -, he⟩ := h.mem_addrs_before.mp ha
      exact h.held_apart hb he
    · intro a ha
      rcases List.mem_append.mp ha with ha | ha
      · obtain ⟨e, -, he⟩ := h.mem_addrs_before.mp ha
        obtain ⟨t, ht, -⟩ := h.keyed he
        exact ⟨t, ht⟩
      · exact h.held_live ha
    · intro a e ha hmem
      obtain ⟨hmem, hlt⟩ := h.mem_fromBound.mp hmem
      rcases List.mem_append.mp ha with ha | ha
      · obtain ⟨d, hle, hd⟩ := h.mem_addrs_before.mp ha
        obtain ⟨t, ht, rfl⟩ := h.keyed hd
        obtain ⟨u, hu, rfl⟩ := h.keyed hmem
        obtain rfl : u = t := Option.some.inj (hu.symm.trans ht)
        exact absurd hlt (not_lt.mpr hle)
      · exact h.held_apart ha hmem
    -- every timer is in the set or held, whichever side of the bound it is on
    · intro a t ht
      rcases h.owned ht with ha | hent
      · exact Or.inl (List.mem_append_right _ ha)
      · rcases le_or_gt t.expiration_ now with hle | hlt
        · exact Or.inl (List.mem_append_left _ (h.mem_addrs_before.mpr ⟨_, hle, hent⟩))
        · exact Or.inr (h.mem_fromBound.mpr ⟨hent, hlt⟩)
  refine ⟨s, ?_, howns⟩
  have hcut : ∀ x ∈ (q.timers_.fromBound (sentinel now)).first, now < (ofLex x).1 := by
    rintro ⟨e, a⟩ hx
    exact (h.mem_fromBound.mp (OrderedSet.first_eq_some.mp hx).1).2
  have hsizes := howns.assertSizes .getExpired
  rw [getExpired, h.assertSizes, ok_bind]
  dsimp only
  rw [show (toLex (now, uintptrMax) : Entry) = sentinel now from rfl, require_pos _ _ hcut, ok_bind,
    hs, ok_bind, hsizes, ok_bind]
  rfl

end Owns

/-! ## `reset`

  One timer after the other.  The addresses in the batch are different, so what is done for one
  leaves the others alone. -/

/-- What `reset` makes of the timer `t` at `a`, one of the batch. -/
def renewed (q : TimerQueue) (now : Timestamp) (a : Addr) (t : Timer) : TimerQueue :=
  if t.repeat_ = true ∧ toLex (a, t.sequence_) ∉ q.cancelingTimers_ then
    (q.stored a (t.restart now)).inserted a (t.restart now)
  else
    q.freed a t

/-- A loop of `reset` over the timers at `l`, from `q` to `q'`. -/
structure Renews (now : Timestamp) (l : List Addr) (q q' : TimerQueue) : Prop where
  shrinks : Shrinks q q'
  cancelingTimers_eq : q'.cancelingTimers_ = q.cancelingTimers_
  callingExpiredTimers_eq : q'.callingExpiredTimers_ = q.callingExpiredTimers_
  steadyTimer_eq : q'.steadyTimer_ = q.steadyTimer_
  clock_eq : q'.clock = q.clock
  /-- Whatever is in `timers_` was there, or is a repeating timer of the batch. -/
  entries : ∀ {e a}, toLex (e, a) ∈ q'.timers_ → toLex (e, a) ∈ q.timers_ ∨
    ∃ t, q.heap a = some t ∧ a ∈ l ∧ t.repeat_ = true ∧
      toLex (a, t.sequence_) ∉ q.cancelingTimers_ ∧ e = Timestamp.addTime now t.interval_.micros
  /-- A timer of the batch that was cancelled is deleted. -/
  deletes : ∀ {a n}, a ∈ l → q.numberAt a = some n → toLex (a, n) ∈ q.cancelingTimers_ →
    n ∈ q'.deleted
  /-- The timers outside the batch stay as they are. -/
  heap_eq : ∀ {a}, a ∉ l → q'.heap a = q.heap a
  keeps : ∀ {e a}, a ∉ l → toLex (e, a) ∈ q.timers_ → toLex (e, a) ∈ q'.timers_
  /-- A repeating timer of the batch that was not cancelled is restarted and put back. -/
  restarts : ∀ {a t}, a ∈ l → q.heap a = some t → t.repeat_ = true →
    toLex (a, t.sequence_) ∉ q.cancelingTimers_ →
    q'.heap a = some (t.restart now) ∧ toLex ((t.restart now).expiration_, a) ∈ q'.timers_
  /-- Every other timer of the batch is deleted. -/
  drops : ∀ {a t}, a ∈ l → q.heap a = some t →
    (t.repeat_ = true → toLex (a, t.sequence_) ∈ q.cancelingTimers_) →
    q'.heap a = none ∧ t.sequence_ ∈ q'.deleted

namespace Owns

/-- Whatever becomes of a timer of the batch, the ownership is in order behind it. -/
theorem renewed (h : Owns q (a :: held)) (ht : q.heap a = some t) :
    Owns (q.renewed now a t) held := by
  rw [TimerQueue.renewed]
  split
  · have hnum : q.numberAt a = some (t.restart now).sequence_ := by
      rw [Timer.restart_sequence]
      exact numberAt_of_heap ht
    exact (h.stored hnum).inserted heap_stored
  · exact h.freed ht

/-- **The body of the loop of `reset`**, as a total function. The assertions and dereferences
    of it do not fail for a timer of the batch. -/
theorem renew_eq {x : Entry} (h : Owns q ((ofLex x).2 :: held)) (ht : q.heap (ofLex x).2 = some t) :
    renew now q x = .ok (q.renewed now (ofLex x).2 t) := by
  rw [renew, TimerQueue.renewed, deref_eq ht, ok_bind]
  dsimp only
  split
  · have hnum : q.numberAt (ofLex x).2 = some (t.restart now).sequence_ := by
      rw [Timer.restart_sequence]
      exact numberAt_of_heap ht
    rw [restart_eq ht, ok_bind, (h.stored hnum).insert_eq heap_stored]
    rfl
  · exact delete_eq ht

end Owns

/-- One turn of the loop of `reset`. -/
theorem Renews.single (h : Owns q (a :: held)) (ht : q.heap a = some t) :
    Renews now [a] q (q.renewed now a t) := by
  rw [TimerQueue.renewed]
  split
  case isTrue hrepeat =>
    -- the timer goes back into the sets under the number it had
    have hnum : q.numberAt a = some (t.restart now).sequence_ := by
      rw [Timer.restart_sequence]
      exact numberAt_of_heap ht
    have hnew : toLex ((t.restart now).expiration_, a) ∈
        ((q.stored a (t.restart now)).inserted a (t.restart now)).timers_ :=
      OrderedSet.mem_emplace.mpr (Or.inl rfl)
    refine ⟨(Shrinks.stored hnum).trans (.of_same rfl rfl rfl), rfl, rfl, rfl, rfl, ?_, ?_, ?_, ?_,
      ?_, ?_⟩
    · intro e b hmem
      rcases OrderedSet.mem_emplace.mp hmem with heq | hmem
      · obtain ⟨rfl, rfl⟩ := Prod.mk.inj heq
        refine Or.inr ⟨t, ht, List.mem_singleton_self _, hrepeat.1, hrepeat.2, ?_⟩
        rw [Timer.restart, if_pos hrepeat.1]
      · exact Or.inl hmem
    · intro b n hb hn hcanceling
      obtain rfl := List.mem_singleton.mp hb
      obtain rfl : t.sequence_ = n := Option.some.inj ((numberAt_of_heap ht).symm.trans hn)
      exact absurd hcanceling hrepeat.2
    · intro b hb
      exact heap_stored_of_ne (List.mem_singleton.not.mp hb)
    · intro e b _ hmem
      exact OrderedSet.mem_emplace.mpr (Or.inr hmem)
    · intro b u hb hu _ _
      obtain rfl := List.mem_singleton.mp hb
      obtain rfl : u = t := Option.some.inj (hu.symm.trans ht)
      exact ⟨heap_stored, hnew⟩
    · intro b u hb hu hdrop
      obtain rfl := List.mem_singleton.mp hb
      obtain rfl : u = t := Option.some.inj (hu.symm.trans ht)
      exact absurd (hdrop hrepeat.1) hrepeat.2
  case isFalse hone =>
    refine ⟨Shrinks.freed q a t, rfl, rfl, rfl, rfl, fun hmem => Or.inl hmem, ?_, ?_, ?_, ?_, ?_⟩
    · intro b n hb hn _
      obtain rfl := List.mem_singleton.mp hb
      obtain rfl : t.sequence_ = n := Option.some.inj ((numberAt_of_heap ht).symm.trans hn)
      exact List.mem_append_right _ (List.mem_singleton_self _)
    · intro b hb
      exact heap_freed_of_ne (List.mem_singleton.not.mp hb)
    · exact fun _ hmem => hmem
    · intro b u hb hu hrepeat hcanceling
      obtain rfl := List.mem_singleton.mp hb
      obtain rfl : u = t := Option.some.inj (hu.symm.trans ht)
      exact absurd ⟨hrepeat, hcanceling⟩ hone
    · intro b u hb hu _
      obtain rfl := List.mem_singleton.mp hb
      obtain rfl : u = t := Option.some.inj (hu.symm.trans ht)
      exact ⟨heap_freed, List.mem_append_right _ (List.mem_singleton_self _)⟩

/-- The timers of a batch are treated one after the other; they are different, so none changes
    what another finds. -/
theorem Renews.cons {q₁ q₂ : TimerQueue} {l : List Addr} (h : Renews now [a] q q₁)
    (h' : Renews now l q₁ q₂) (ha : a ∉ l) : Renews now (a :: l) q q₂ where
  shrinks := h.shrinks.trans h'.shrinks
  cancelingTimers_eq := h'.cancelingTimers_eq.trans h.cancelingTimers_eq
  callingExpiredTimers_eq := h'.callingExpiredTimers_eq.trans h.callingExpiredTimers_eq
  steadyTimer_eq := h'.steadyTimer_eq.trans h.steadyTimer_eq
  clock_eq := h'.clock_eq.trans h.clock_eq
  entries := by
    intro e b hmem
    rcases h'.entries hmem with hmem | ⟨t, ht, hb, hrepeat, hcanceling, he⟩
    · rcases h.entries hmem with hmem | ⟨t, ht, hb, hrest⟩
      · exact Or.inl hmem
      · exact Or.inr ⟨t, ht, List.mem_cons.mpr (Or.inl (List.mem_singleton.mp hb)), hrest⟩
    · have hne : b ≠ a := by
        rintro rfl
        exact ha hb
      rw [h.cancelingTimers_eq] at hcanceling
      have hsame := h.heap_eq (List.mem_singleton.not.mpr hne)
      exact Or.inr ⟨t, hsame.symm.trans ht, List.mem_cons_of_mem a hb, hrepeat, hcanceling, he⟩
  deletes := by
    intro b n hb hn hcanceling
    by_cases hba : b = a
    · subst hba
      exact h'.shrinks.deleted (h.deletes (List.mem_singleton_self b) hn hcanceling)
    · refine h'.deletes ((List.mem_cons.mp hb).resolve_left hba) ?_ ?_
      · rwa [numberAt, h.heap_eq (List.mem_singleton.not.mpr hba)]
      · rwa [h.cancelingTimers_eq]
  heap_eq := by
    intro b hb
    obtain ⟨hba, hbl⟩ := List.ne_and_not_mem_of_not_mem_cons hb
    exact (h'.heap_eq hbl).trans (h.heap_eq (List.mem_singleton.not.mpr hba))
  keeps := by
    intro e b hb hmem
    obtain ⟨hba, hbl⟩ := List.ne_and_not_mem_of_not_mem_cons hb
    exact h'.keeps hbl (h.keeps (List.mem_singleton.not.mpr hba) hmem)
  restarts := by
    intro b t hb ht hrepeat hcanceling
    by_cases hba : b = a
    · subst hba
      obtain ⟨hheap, hmem⟩ := h.restarts (List.mem_singleton_self b) ht hrepeat hcanceling
      exact ⟨(h'.heap_eq ha).trans hheap, h'.keeps ha hmem⟩
    · have hsame := h.heap_eq (List.mem_singleton.not.mpr hba)
      refine h'.restarts ((List.mem_cons.mp hb).resolve_left hba) (hsame.trans ht) hrepeat ?_
      rwa [h.cancelingTimers_eq]
  drops := by
    intro b t hb ht hdrop
    by_cases hba : b = a
    · subst hba
      obtain ⟨hheap, hmem⟩ := h.drops (List.mem_singleton_self b) ht hdrop
      exact ⟨(h'.heap_eq ha).trans hheap, h'.shrinks.deleted hmem⟩
    · have hsame := h.heap_eq (List.mem_singleton.not.mpr hba)
      refine h'.drops ((List.mem_cons.mp hb).resolve_left hba) (hsame.trans ht) ?_
      rwa [h.cancelingTimers_eq]

/-- **The loop of `reset`** gives up the batch: each of its timers is back in the sets or
    deleted. By induction on the batch, with `Renews` for what has been done so far. -/
theorem Owns.renew_run (now : Timestamp) (l : List Entry) (q : TimerQueue)
    (h : Owns q (addrs l ++ held)) :
    ∃ q', run (renew now) q l = .ok q' ∧ Owns q' held ∧ Renews now (addrs l) q q' := by
  induction l generalizing q with
  | nil =>
    refine ⟨q, rfl, h, .refl q, rfl, rfl, rfl, rfl, fun hmem => Or.inl hmem, ?_, fun _ => rfl,
      fun _ hmem => hmem, ?_, ?_⟩
    · exact fun ha => absurd ha List.not_mem_nil
    · exact fun ha => absurd ha List.not_mem_nil
    · exact fun ha => absurd ha List.not_mem_nil
  | cons x l ih =>
    obtain ⟨t, ht⟩ := h.held_live (List.mem_append_left held List.mem_cons_self)
    obtain ⟨q', hq', howns, hrenews⟩ := ih (q.renewed now (ofLex x).2 t) (h.renewed ht)
    refine ⟨q', by rw [run_cons, h.renew_eq ht, ok_bind, hq'], howns, ?_⟩
    have hx : (ofLex x).2 ∉ addrs l := fun hmem => h.not_held (List.mem_append_left held hmem)
    exact (Renews.single h ht).cons hrenews hx

/-- What the end of `reset` leaves. A wait is set when there is a timer, and when its
    expiration is `vaild()`. -/
def rearmed (q : TimerQueue) : TimerQueue :=
  match q.timers_.first with
  | none => q
  | some entry => if 0 < (ofLex entry).1 then q.resetTimer (ofLex entry).1 else q

/-- Setting `steadyTimer_` again changes nothing else. -/
theorem rearmed_cases (q : TimerQueue) :
    q.rearmed = q ∨ ∃ when, q.rearmed = q.resetTimer when := by
  rw [rearmed]
  split
  · exact Or.inl rfl
  · split
    · exact Or.inr ⟨_, rfl⟩
    · exact Or.inl rfl

/-- So the ownership is as before. -/
theorem Owns.rearmed (h : Owns q held) : Owns q.rearmed held := by
  rcases rearmed_cases q with heq | ⟨when, heq⟩
  · rwa [heq]
  · rw [heq]
    exact h.resetTimer

/-- So is the memory. -/
theorem Shrinks.rearmed (q : TimerQueue) : Shrinks q q.rearmed := by
  rcases rearmed_cases q with heq | ⟨when, heq⟩
  · rw [heq]
    exact .refl q
  · rw [heq]
    exact .of_same rfl rfl rfl

/-- The end of `reset`, as a total function. -/
theorem Owns.rearm_eq (h : Owns q held) : q.rearm = .ok q.rearmed := by
  rw [rearm, TimerQueue.rearmed]
  cases hf : q.timers_.first with
  | none => rfl
  | some entry =>
    have hlive : ∃ t, q.heap (ofLex entry).2 = some t ∧ t.expiration_ = (ofLex entry).1 :=
      h.keyed (OrderedSet.first_eq_some.mp hf).1
    obtain ⟨t, ht, he⟩ := hlive
    simp only [deref_eq ht, Except.map, he, ok_bind, Timestamp.vaild, decide_eq_true_eq]
    split <;> rfl

end TimerQueue

end IOEvent
