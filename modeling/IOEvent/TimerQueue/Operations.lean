/-
  What each operation of the queue does when the timers are owned as they should be.

  `Owns q held` is the representation invariant: every live timer is in both sets or in `held`, the
  list of the addresses that the loop holds for it outside the sets (posted insertions and the batch
  being executed), and in one of them only.  Under `Owns` no assertion fails and no pointer
  dangles, so every operation is a total function: `insert` is `inserted`, `cancelInThisThread` is
  `cancelled`, and so on.  Each operation has one such equation here, with the `Owns` it leaves;
  the later modules use these and do not unfold the operations.

  Each change of the memory and of the sets is a function of its own (`stored`, `freed`,
  `inserted`, `taken`), and `Owns` is followed through these.  The operations are put together
  from them, in the order of the source.
-/
import IOEvent.TimerQueue
import IOEvent.Foundation.Ledger

open Foundation

namespace IOEvent

namespace TimerQueue

/-- The sequence number of the timer at an address. -/
def numberAt (q : TimerQueue) (a : Addr) : Option Nat := (q.heap a).map Timer.sequence_

/-- `held` are the addresses of the timers owned outside the sets. -/
structure Owns (q : TimerQueue) (held : List Addr) : Prop where
  ledger : Ledger q.numberAt q.deleted q.s_numCreated_
  bounded : ∀ {a t}, q.heap a = some t → a < uintptrMax
  keyed : ∀ {e a}, toLex (e, a) ∈ q.timers_ → ∃ t, q.heap a = some t ∧ t.expiration_ = e
  active : ∀ {a n}, toLex (a, n) ∈ q.activeTimers_ ↔
    ∃ t, q.heap a = some t ∧ t.sequence_ = n ∧ toLex (t.expiration_, a) ∈ q.timers_
  held_nodup : held.Nodup
  held_live : ∀ {a}, a ∈ held → ∃ t, q.heap a = some t
  held_apart : ∀ {a e}, a ∈ held → toLex (e, a) ∉ q.timers_
  owned : ∀ {a t}, q.heap a = some t → a ∈ held ∨ toLex (t.expiration_, a) ∈ q.timers_

variable {q q' : TimerQueue} {held held' : List Addr} {a b : Addr} {t : Timer} {n : Nat}
  {now e : Timestamp}

/-- The number of a timer in memory. -/
theorem numberAt_of_heap (h : q.heap a = some t) : q.numberAt a = some t.sequence_ := by
  rw [numberAt, h]
  rfl

/-- A number belongs to a timer in memory. -/
theorem heap_of_numberAt (h : q.numberAt a = some n) : ∃ t, q.heap a = some t ∧ t.sequence_ = n :=
  Option.map_eq_some_iff.mp h

/-- A timer in memory can be read. -/
theorem deref_eq (h : q.heap a = some t) : q.deref a = .ok t := by
  rw [deref, h]

/-! ## First facts

  What the ownership says about two entries, and that it does not depend on the order of what
  is held. -/

namespace Owns

/-- In which order the loop holds its timers makes no difference. -/
theorem of_perm (h : Owns q held) (hp : held.Perm held') : Owns q held' where
  ledger := h.ledger
  bounded := h.bounded
  keyed := h.keyed
  active := h.active
  held_nodup := hp.nodup_iff.mp h.held_nodup
  held_live := fun ha => h.held_live (hp.mem_iff.mpr ha)
  held_apart := fun ha => h.held_apart (hp.mem_iff.mpr ha)
  owned := fun ha => (h.owned ha).imp_left hp.mem_iff.mp

/-- The waits, the clock and the pending cancellations are no part of it. -/
theorem of_same (h : Owns q held) (ht : q'.timers_ = q.timers_)
    (ha : q'.activeTimers_ = q.activeTimers_) (hh : q'.heap = q.heap)
    (hd : q'.deleted = q.deleted) (hc : q'.s_numCreated_ = q.s_numCreated_) : Owns q' held := by
  obtain ⟨_, _, _, _, _, _, _, _, _⟩ := q
  obtain ⟨_, _, _, _, _, _, _, _, _⟩ := q'
  subst ht ha hh hd hc
  exact ⟨h.ledger, h.bounded, h.keyed, h.active, h.held_nodup, h.held_live, h.held_apart, h.owned⟩

/-- `activeTimers_` has the timers of `timers_` under their own numbers. -/
theorem mem_active (h : Owns q held) (hheap : q.heap a = some t) :
    toLex (a, n) ∈ q.activeTimers_ ↔ t.sequence_ = n ∧ toLex (t.expiration_, a) ∈ q.timers_ := by
  rw [h.active]
  constructor
  · rintro ⟨u, hu, hn⟩
    obtain rfl : u = t := Option.some.inj (hu.symm.trans hheap)
    exact hn
  · exact fun hn => ⟨t, hheap, hn⟩

/-- A timer owned outside the sets is in neither of them. -/
theorem not_active (h : Owns q held) (ha : a ∈ held) : toLex (a, n) ∉ q.activeTimers_ := by
  intro hact
  obtain ⟨u, -, -, hu⟩ := h.active.mp hact
  exact h.held_apart ha hu

/-- `timers_` and `activeTimers_` correspond one to one. -/
theorem sizes (h : Owns q held) : q.timers_.size = q.activeTimers_.size := by
  refine OrderedSet.size_eq_of_bij
    (fun x => toLex ((ofLex x).2, (q.numberAt (ofLex x).2).getD 0)) ?_ ?_
  · rintro ⟨d, a⟩ hx ⟨e, b⟩ hy heq
    obtain ⟨t, ht, rfl⟩ := h.keyed hx
    obtain ⟨u, hu, rfl⟩ := h.keyed hy
    obtain rfl : a = b := congrArg (fun x => (ofLex x).1) heq
    obtain rfl : t = u := Option.some.inj (ht.symm.trans hu)
    rfl
  · rintro ⟨a, n⟩
    constructor
    · intro hmem
      obtain ⟨t, ht, rfl, hent⟩ := h.active.mp hmem
      refine ⟨_, hent, ?_⟩
      show toLex (a, (q.numberAt a).getD 0) = toLex (a, t.sequence_)
      rw [numberAt_of_heap ht, Option.getD_some]
    · rintro ⟨⟨e, b⟩, hent, heq⟩
      obtain ⟨t, ht, rfl⟩ := h.keyed hent
      have heq' : toLex (b, (q.numberAt b).getD 0) = toLex (a, n) := heq
      rw [numberAt_of_heap ht, Option.getD_some] at heq'
      obtain ⟨rfl, rfl⟩ := Prod.mk.inj heq'
      exact (h.mem_active ht).mpr ⟨rfl, hent⟩

/-- **The two sets have the same size**, because each is listed by the timers that are in memory
    and not held. -/
theorem assertSizes (h : Owns q held) (site : Site) : q.assertSizes site = .ok () :=
  require_pos _ _ h.sizes

end Owns

/-! ## `insert`

  Its two assertions hold and the timer is new in both sets. -/

/-- The timer `t` at `a` put into both sets. -/
def inserted (q : TimerQueue) (a : Addr) (t : Timer) : TimerQueue :=
  { q with
    timers_ := (q.timers_.emplace (toLex (t.expiration_, a))).1
    activeTimers_ := (q.activeTimers_.emplace (toLex (a, t.sequence_))).1 }

/-- Whether `when` comes before every expiration in `timers_`. -/
def earliest (q : TimerQueue) (when : Timestamp) : Bool :=
  match q.timers_.first with
  | none => true
  | some iter => decide (when < (ofLex iter).1)

/-- What the comparison with the first entry means. -/
theorem earliest_iff {when : Timestamp} :
    q.earliest when = true ↔ ∀ {e a}, toLex (e, a) ∈ q.timers_ → when < e := by
  rw [earliest]
  cases hf : q.timers_.first with
  | none =>
    constructor
    · intro _ e a hmem
      exact absurd hmem (OrderedSet.first_eq_none.mp hf _)
    · exact fun _ => rfl
  | some iter =>
    obtain ⟨hmem, hle⟩ := OrderedSet.first_eq_some.mp hf
    constructor
    · intro hlt e a he
      have h1 : when < (ofLex iter).1 := of_decide_eq_true hlt
      have h2 : (ofLex iter).1 ≤ e := (Prod.Lex.le_iff.mp (hle _ he)).elim le_of_lt (le_of_eq ·.1)
      exact lt_of_lt_of_le h1 h2
    · intro hall
      exact decide_eq_true (hall (e := (ofLex iter).1) (a := (ofLex iter).2) hmem)

namespace Owns

/-- **Inserting** takes a timer from those held into the sets. -/
theorem inserted (h : Owns q (a :: held)) (ht : q.heap a = some t) :
    Owns (q.inserted a t) held where
  ledger := h.ledger
  bounded := h.bounded
  keyed := by
    intro e b hmem
    rcases OrderedSet.mem_emplace.mp hmem with heq | hmem
    · obtain ⟨rfl, rfl⟩ := Prod.mk.inj heq
      exact ⟨t, ht, rfl⟩
    · exact h.keyed hmem
  active := by
    intro b n
    rw [TimerQueue.inserted, OrderedSet.mem_emplace, h.active]
    constructor
    · rintro (heq | ⟨u, hu, rfl, hent⟩)
      · obtain ⟨rfl, rfl⟩ := Prod.mk.inj heq
        exact ⟨t, ht, rfl, OrderedSet.mem_emplace.mpr (Or.inl rfl)⟩
      · exact ⟨u, hu, rfl, OrderedSet.mem_emplace.mpr (Or.inr hent)⟩
    · -- the new entry is the one of `a`, and the others were there
      rintro ⟨u, hu, rfl, hent⟩
      rcases OrderedSet.mem_emplace.mp hent with heq | hent
      · obtain ⟨-, rfl⟩ := Prod.mk.inj heq
        obtain rfl : u = t := Option.some.inj (hu.symm.trans ht)
        exact Or.inl rfl
      · exact Or.inr ⟨u, hu, rfl, hent⟩
  held_nodup := (List.nodup_cons.mp h.held_nodup).2
  held_live := fun hb => h.held_live (List.mem_cons_of_mem a hb)
  held_apart := by
    intro b e hb hmem
    rcases OrderedSet.mem_emplace.mp hmem with heq | hmem
    · obtain ⟨-, rfl⟩ := Prod.mk.inj heq
      exact (List.nodup_cons.mp h.held_nodup).1 hb
    · exact h.held_apart (List.mem_cons_of_mem a hb) hmem
  owned := by
    intro b u hu
    rcases h.owned hu with hb | hent
    · -- the timer that was held is in the sets now
      rcases List.mem_cons.mp hb with rfl | hb
      · obtain rfl : u = t := Option.some.inj (hu.symm.trans ht)
        exact Or.inr (OrderedSet.mem_emplace.mpr (Or.inl rfl))
      · exact Or.inl hb
    · exact Or.inr (OrderedSet.mem_emplace.mpr (Or.inr hent))

/-- `insert`, as a total function. -/
theorem insert_eq (h : Owns q (a :: held)) (ht : q.heap a = some t) :
    q.insert a = .ok (q.inserted a t, q.earliest t.expiration_) := by
  have hnew : (q.timers_.emplace (toLex (t.expiration_, a))).2 = true :=
    OrderedSet.emplace_snd.mpr (h.held_apart List.mem_cons_self)
  have hnew' : (q.activeTimers_.emplace (toLex (a, t.sequence_))).2 = true :=
    OrderedSet.emplace_snd.mpr (h.not_active List.mem_cons_self)
  have hsizes := (h.inserted ht).assertSizes .insert
  rw [TimerQueue.inserted] at hsizes
  rw [insert, h.assertSizes, ok_bind, deref_eq ht, ok_bind]
  dsimp only
  rw [require_pos _ _ hnew, ok_bind, require_pos _ _ hnew', ok_bind, hsizes, ok_bind]
  rfl

end Owns

/-! ## Memory

  The addresses of the timers that are owned are different, so a write to one does not touch
  the others. -/

/-- The timer `t` at `a` is deleted. -/
def freed (q : TimerQueue) (a : Addr) (t : Timer) : TimerQueue :=
  { q with heap := Function.update q.heap a none, deleted := q.deleted ++ [t.sequence_] }

/-- The timer at `a` becomes `t`. -/
def stored (q : TimerQueue) (a : Addr) (t : Timer) : TimerQueue :=
  { q with heap := Function.update q.heap a (some t) }

/-- `delete` of a timer in memory. -/
theorem delete_eq (h : q.heap a = some t) : q.delete a = .ok (q.freed a t) := by
  rw [delete, h]
  rfl

/-- `restart` of a timer in memory. -/
theorem restart_eq (h : q.heap a = some t) :
    q.restart a now = .ok (q.stored a (t.restart now)) := by
  rw [restart, deref_eq h, ok_bind]
  rfl

/-- A deleted timer has no number. -/
theorem numberAt_freed : (q.freed a t).numberAt = Function.update q.numberAt a none := by
  funext b
  by_cases hb : b = a
  · subst hb
    simp [numberAt, freed]
  · simp [numberAt, freed, hb]

/-- A new one has the next. -/
theorem numberAt_allocate {when : Timestamp} {interval : Interval} :
    (q.allocate a when interval).numberAt =
      Function.update q.numberAt a (some (q.s_numCreated_ + 1)) := by
  funext b
  by_cases hb : b = a
  · subst hb
    simp [numberAt, allocate, Timer.new]
  · simp [numberAt, allocate, hb]

/-- A timer that is stored with its own number has the number it had. -/
theorem numberAt_stored (h : q.numberAt a = some t.sequence_) :
    (q.stored a t).numberAt = q.numberAt := by
  funext b
  by_cases hb : b = a
  · subst hb
    rw [h]
    simp [numberAt, stored]
  · simp [numberAt, stored, hb]

/-- What was stored is in memory. -/
theorem heap_stored : (q.stored a t).heap a = some t := Function.update_self ..

/-- Storing a timer changes no other. -/
theorem heap_stored_of_ne (h : b ≠ a) : (q.stored a t).heap b = q.heap b :=
  Function.update_of_ne h ..

/-- What was deleted is not in memory. -/
theorem heap_freed : (q.freed a t).heap a = none := Function.update_self ..

/-- Deleting a timer changes no other. -/
theorem heap_freed_of_ne (h : b ≠ a) : (q.freed a t).heap b = q.heap b := Function.update_of_ne h ..

/-- A new timer is in memory. -/
theorem heap_allocate {when : Timestamp} {interval : Interval} :
    (q.allocate a when interval).heap a = some (.new when interval (q.s_numCreated_ + 1)) :=
  Function.update_self ..

/-- Creating a timer changes no other. -/
theorem heap_allocate_of_ne {when : Timestamp} {interval : Interval} (h : b ≠ a) :
    (q.allocate a when interval).heap b = q.heap b := Function.update_of_ne h ..

namespace Owns

/-- A timer is held once. -/
theorem not_held (h : Owns q (a :: held)) : a ∉ held := (List.nodup_cons.mp h.held_nodup).1

/-- An address that keeps its timer is not `a`, whose entry is in neither set. -/
theorem ne_of_entry (h : Owns q (a :: held)) {x : Addr} (hx : toLex (e, x) ∈ q.timers_) :
    x ≠ a := by
  rintro rfl
  exact h.held_apart List.mem_cons_self hx

/-- So what else is held is another one. -/
theorem ne_of_held (h : Owns q (a :: held)) {x : Addr} (hx : x ∈ held) : x ≠ a := by
  rintro rfl
  exact h.not_held hx

/-- `keyed` and `active` are about the timers that have an entry only. -/
theorem keyed_of_agree {heap' : Addr → Option Timer} (h : Owns q held)
    (hagree : ∀ {e b}, toLex (e, b) ∈ q.timers_ → heap' b = q.heap b) {e : Timestamp} {b : Addr}
    (hmem : toLex (e, b) ∈ q.timers_) : ∃ t, heap' b = some t ∧ t.expiration_ = e := by
  rw [hagree hmem]
  exact h.keyed hmem

/-- `activeTimers_` reads of the memory the timers of `timers_` only. -/
theorem active_of_agree {heap' : Addr → Option Timer} (h : Owns q held)
    (hagree : ∀ {e b}, toLex (e, b) ∈ q.timers_ → heap' b = q.heap b) {b : Addr} {n : Nat} :
    toLex (b, n) ∈ q.activeTimers_ ↔
      ∃ t, heap' b = some t ∧ t.sequence_ = n ∧ toLex (t.expiration_, b) ∈ q.timers_ := by
  rw [h.active]
  constructor
  · rintro ⟨u, hu, hn, hent⟩
    exact ⟨u, (hagree hent).trans hu, hn, hent⟩
  · rintro ⟨u, hu, hn, hent⟩
    exact ⟨u, (hagree hent).symm.trans hu, hn, hent⟩

/-- A timer owned outside the sets may be deleted. -/
theorem freed (h : Owns q (a :: held)) (ht : q.heap a = some t) : Owns (q.freed a t) held where
  ledger := numberAt_freed ▸ h.ledger.delete (numberAt_of_heap ht)
  bounded := by
    intro b u hu
    by_cases hb : b = a
    · subst hb
      exact h.bounded ht
    · exact h.bounded (heap_freed_of_ne hb ▸ hu)
  keyed := h.keyed_of_agree fun hmem => heap_freed_of_ne (h.ne_of_entry hmem)
  active := h.active_of_agree fun hmem => heap_freed_of_ne (h.ne_of_entry hmem)
  held_nodup := (List.nodup_cons.mp h.held_nodup).2
  held_live := by
    intro b hb
    rw [heap_freed_of_ne (h.ne_of_held hb)]
    exact h.held_live (List.mem_cons_of_mem a hb)
  held_apart := fun hb => h.held_apart (List.mem_cons_of_mem a hb)
  owned := by
    intro b u hu
    have hb : b ≠ a := by
      rintro rfl
      cases heap_freed.symm.trans hu
    rw [heap_freed_of_ne hb] at hu
    exact (h.owned hu).imp_left fun hmem => (List.mem_cons.mp hmem).resolve_left hb

/-- A timer owned outside the sets may be changed, up to its number. -/
theorem stored (h : Owns q (a :: held)) (hn : q.numberAt a = some t.sequence_) :
    Owns (q.stored a t) (a :: held) where
  ledger := (numberAt_stored hn).symm ▸ h.ledger
  bounded := by
    intro b u hu
    by_cases hb : b = a
    · subst hb
      obtain ⟨u, hu⟩ := h.held_live List.mem_cons_self
      exact h.bounded hu
    · exact h.bounded (heap_stored_of_ne hb ▸ hu)
  keyed := h.keyed_of_agree fun hmem => heap_stored_of_ne (h.ne_of_entry hmem)
  active := h.active_of_agree fun hmem => heap_stored_of_ne (h.ne_of_entry hmem)
  held_nodup := h.held_nodup
  held_live := by
    intro b hb
    by_cases hba : b = a
    · subst hba
      exact ⟨t, heap_stored⟩
    · rw [heap_stored_of_ne hba]
      exact h.held_live hb
  held_apart := h.held_apart
  owned := by
    intro b u hu
    by_cases hb : b = a
    · subst hb
      exact Or.inl List.mem_cons_self
    · exact h.owned ((heap_stored_of_ne hb).symm.trans hu)

/-- A new timer is owned outside the sets. -/
theorem allocate {when : Timestamp} {interval : Interval} (h : Owns q held)
    (hfree : q.heap a = none) (hbound : a < uintptrMax) :
    Owns (q.allocate a when interval) (a :: held) := by
  -- nothing in the sets or in `held` is at the address that was free
  have hne : ∀ {b t}, q.heap b = some t → b ≠ a := by
    rintro b t hb rfl
    cases hfree.symm.trans hb
  have hentry : ∀ {e b}, toLex (e, b) ∈ q.timers_ → b ≠ a := by
    intro e b hmem
    obtain ⟨t, ht, -⟩ := h.keyed hmem
    exact hne ht
  have hheld : ∀ {b}, b ∈ held → b ≠ a := by
    intro b hb
    obtain ⟨t, ht⟩ := h.held_live hb
    exact hne ht
  refine ⟨?_, ?_, ?_, ?_, ?_, ?_, ?_, ?_⟩
  · rw [numberAt_allocate]
    exact h.ledger.allocate (by rw [numberAt, hfree]; rfl)
  · intro b u hu
    by_cases hb : b = a
    · exact hb ▸ hbound
    · exact h.bounded (heap_allocate_of_ne hb ▸ hu)
  · exact h.keyed_of_agree fun hmem => heap_allocate_of_ne (hentry hmem)
  · exact h.active_of_agree fun hmem => heap_allocate_of_ne (hentry hmem)
  · exact List.nodup_cons.mpr ⟨fun hmem => hheld hmem rfl, h.held_nodup⟩
  · intro b hb
    by_cases hba : b = a
    · subst hba
      exact ⟨_, heap_allocate⟩
    · rw [heap_allocate_of_ne hba]
      exact h.held_live ((List.mem_cons.mp hb).resolve_left hba)
  · intro b e hb hmem
    rcases List.mem_cons.mp hb with rfl | hb
    · exact hentry hmem rfl
    · exact h.held_apart hb hmem
  · intro b u hu
    by_cases hb : b = a
    · subst hb
      exact Or.inl List.mem_cons_self
    · rw [heap_allocate_of_ne hb] at hu
      exact (h.owned hu).imp_left (List.mem_cons_of_mem a)

end Owns

/-! ## `cancelInThisThread`

  The timer is in the sets and is deleted, or it is not; then it is marked while a batch is
  being executed, and forgotten otherwise. -/

/-- The timer `t` at `a` taken out of both sets. -/
def taken (q : TimerQueue) (a : Addr) (t : Timer) : TimerQueue :=
  { q with
    timers_ := (q.timers_.erase (toLex (t.expiration_, a))).1
    activeTimers_ := (q.activeTimers_.erase (toLex (a, t.sequence_))).1 }

/-- What `cancelInThisThread` leaves. -/
def cancelled (q : TimerQueue) (timerId : TimerId) : TimerQueue :=
  if toLex (timerId.timer_, timerId.sequence_) ∈ q.activeTimers_ then
    match q.heap timerId.timer_ with
    | some t => (q.taken timerId.timer_ t).freed timerId.timer_ t
    | none => q
  else if q.callingExpiredTimers_ then
    { q with cancelingTimers_ :=
        (q.cancelingTimers_.emplace (toLex (timerId.timer_, timerId.sequence_))).1 }
  else
    q

/-- A cancel of a timer in the sets takes it out and deletes it. -/
theorem cancelled_of_active {timerId : TimerId}
    (hact : toLex (timerId.timer_, timerId.sequence_) ∈ q.activeTimers_)
    (ht : q.heap timerId.timer_ = some t) :
    q.cancelled timerId = (q.taken timerId.timer_ t).freed timerId.timer_ t := by
  rw [cancelled, if_pos hact, ht]

/-- Any other cancel marks it, or does nothing. -/
theorem cancelled_of_not_active {timerId : TimerId}
    (hact : toLex (timerId.timer_, timerId.sequence_) ∉ q.activeTimers_) :
    q.cancelled timerId = if q.callingExpiredTimers_ then
      { q with cancelingTimers_ :=
          (q.cancelingTimers_.emplace (toLex (timerId.timer_, timerId.sequence_))).1 }
    else q := by
  rw [cancelled, if_neg hact]

/-- The branch for a timer in the sets, as a total function. -/
theorem cancelActive_eq (ht : q.heap a = some t) (hent : toLex (t.expiration_, a) ∈ q.timers_) :
    q.cancelActive a t.sequence_ = .ok ((q.taken a t).freed a t) := by
  have hn : (q.timers_.erase (toLex (t.expiration_, a))).2 = 1 := OrderedSet.erase_snd.mpr hent
  have hdelete := delete_eq
    (q := { q with timers_ := (q.timers_.erase (toLex (t.expiration_, a))).1 }) ht
  rw [cancelActive, deref_eq ht, ok_bind]
  dsimp only
  rw [require_pos _ _ hn, ok_bind, hdelete, ok_bind]
  rfl

namespace Owns

/-- Taking a timer out of the sets makes it held. -/
theorem taken (h : Owns q held) (ht : q.heap a = some t)
    (hent : toLex (t.expiration_, a) ∈ q.timers_) : Owns (q.taken a t) (a :: held) where
  ledger := h.ledger
  bounded := h.bounded
  keyed := fun hmem => h.keyed (OrderedSet.mem_erase.mp hmem).2
  active := by
    intro b n
    rw [TimerQueue.taken, OrderedSet.mem_erase, h.active]
    constructor
    · rintro ⟨hne, u, hu, rfl, hb⟩
      refine ⟨u, hu, rfl, OrderedSet.mem_erase.mpr ⟨?_, hb⟩⟩
      intro heq
      obtain ⟨-, rfl⟩ := Prod.mk.inj heq
      obtain rfl : u = t := Option.some.inj (hu.symm.trans ht)
      exact hne rfl
    · -- one timer is at each address, so an entry of another time is another timer's
      rintro ⟨u, hu, rfl, hb⟩
      obtain ⟨hne, hb⟩ := OrderedSet.mem_erase.mp hb
      refine ⟨?_, u, hu, rfl, hb⟩
      intro heq
      obtain ⟨rfl, -⟩ := Prod.mk.inj heq
      obtain rfl : u = t := Option.some.inj (hu.symm.trans ht)
      exact hne rfl
  held_nodup := List.nodup_cons.mpr ⟨fun ha => h.held_apart ha hent, h.held_nodup⟩
  held_live := by
    intro b hb
    rcases List.mem_cons.mp hb with rfl | hb
    · exact ⟨t, ht⟩
    · exact h.held_live hb
  held_apart := by
    intro b e hb hmem
    obtain ⟨hne, hin⟩ := OrderedSet.mem_erase.mp hmem
    rcases List.mem_cons.mp hb with rfl | hb
    · -- the only entry of `b` was the one erased
      obtain ⟨u, hu, rfl⟩ := h.keyed hin
      obtain rfl : u = t := Option.some.inj (hu.symm.trans ht)
      exact hne rfl
    · exact h.held_apart hb hin
  owned := by
    intro b u hu
    by_cases hb : b = a
    · exact Or.inl (hb ▸ List.mem_cons_self)
    · rcases h.owned hu with hheld | hmem
      · exact Or.inl (List.mem_cons_of_mem a hheld)
      · exact Or.inr (OrderedSet.mem_erase.mpr ⟨fun heq => hb (Prod.mk.inj heq).2, hmem⟩)

/-- **A cancel keeps the ownership in order**, whatever the `TimerId` is. -/
theorem cancelled (h : Owns q held) (timerId : TimerId) : Owns (q.cancelled timerId) held := by
  by_cases hact : toLex (timerId.timer_, timerId.sequence_) ∈ q.activeTimers_
  · obtain ⟨t, ht, -, hent⟩ := h.active.mp hact
    rw [cancelled_of_active hact ht]
    exact (h.taken ht hent).freed ht
  · rw [cancelled_of_not_active hact]
    split
    · exact h.of_same rfl rfl rfl rfl rfl
    · exact h

/-- `cancelInThisThread`, as a total function. -/
theorem cancelInThisThread_eq (h : Owns q held) (timerId : TimerId) :
    q.cancelInThisThread timerId = .ok (q.cancelled timerId) := by
  have hsizes := (h.cancelled timerId).assertSizes .cancelInThisThread
  rw [cancelInThisThread, h.assertSizes, ok_bind]
  by_cases hact : toLex (timerId.timer_, timerId.sequence_) ∈ q.activeTimers_
  · obtain ⟨t, ht, hseq, hent⟩ := h.active.mp hact
    have hdone := cancelActive_eq ht hent
    rw [hseq] at hdone
    rw [cancelled_of_active hact ht] at hsizes ⊢
    simp only [if_pos hact, hdone, ok_bind, hsizes]
    rfl
  · rw [cancelled_of_not_active hact] at hsizes ⊢
    simp only [if_neg hact]
    by_cases hcalling : q.callingExpiredTimers_ = true
    · simp only [if_pos hcalling] at hsizes ⊢
      simp only [ok_bind, hsizes]
      rfl
    · simp only [if_neg hcalling] at hsizes ⊢
      simp only [ok_bind, hsizes]
      rfl

end Owns

/-! ## `addTimerInThisThread`

  The insertion, and a wait for the timer when it is the earliest. -/

/-- `steadyTimer_` owns no timer. -/
theorem Owns.resetTimer {when : Timestamp} (h : Owns q held) : Owns (q.resetTimer when) held :=
  h.of_same rfl rfl rfl rfl rfl

/-- What `addTimerInThisThread` leaves. -/
def added (q : TimerQueue) (a : Addr) (t : Timer) : TimerQueue :=
  if q.earliest t.expiration_ then (q.inserted a t).resetTimer t.expiration_ else q.inserted a t

/-- So `addTimerInThisThread` leaves the ownership in order. -/
theorem Owns.added (h : Owns q (a :: held)) (ht : q.heap a = some t) : Owns (q.added a t) held := by
  unfold TimerQueue.added
  split
  · exact (h.inserted ht).resetTimer
  · exact h.inserted ht

/-- `addTimerInThisThread`, as a total function. -/
theorem Owns.addTimerInThisThread_eq (h : Owns q (a :: held)) (ht : q.heap a = some t) :
    q.addTimerInThisThread a = .ok (q.added a t) := by
  have hderef := deref_eq (q := q.inserted a t) ht
  rw [addTimerInThisThread, TimerQueue.added, h.insert_eq ht, ok_bind]
  dsimp only
  split
  · rw [hderef]
    rfl
  · rfl

/-- An insertion changes the sets and arms a wait, nothing else. -/
theorem added_frame (q : TimerQueue) (a : Addr) (t : Timer) :
    (q.added a t).heap = q.heap ∧ (q.added a t).cancelingTimers_ = q.cancelingTimers_ ∧
      (q.added a t).callingExpiredTimers_ = q.callingExpiredTimers_ ∧
      (q.added a t).clock = q.clock := by
  unfold added
  split <;> exact ⟨rfl, rfl, rfl, rfl⟩

/-- What is in `timers_` behind an insertion. -/
theorem mem_added {b : Addr} : toLex (e, b) ∈ (q.added a t).timers_ ↔
    e = t.expiration_ ∧ b = a ∨ toLex (e, b) ∈ q.timers_ := by
  have hmem : toLex (e, b) ∈ (q.inserted a t).timers_ ↔
      e = t.expiration_ ∧ b = a ∨ toLex (e, b) ∈ q.timers_ := by
    rw [inserted, OrderedSet.mem_emplace, toLex_inj, Prod.mk.injEq]
  unfold added
  split
  · exact hmem
  · exact hmem

/-- A cancellation touches neither the waits nor the clock. -/
theorem cancelled_frame (q : TimerQueue) (timerId : TimerId) :
    (q.cancelled timerId).steadyTimer_ = q.steadyTimer_ ∧
      (q.cancelled timerId).callingExpiredTimers_ = q.callingExpiredTimers_ ∧
      (q.cancelled timerId).clock = q.clock := by
  unfold cancelled
  split
  · split <;> exact ⟨rfl, rfl, rfl⟩
  · split <;> exact ⟨rfl, rfl, rfl⟩

/-- A cancel puts nothing into `timers_`. -/
theorem mem_of_mem_cancelled {timerId : TimerId} {x : Entry}
    (h : x ∈ (q.cancelled timerId).timers_) : x ∈ q.timers_ := by
  unfold cancelled at h
  split at h
  · split at h
    · exact (OrderedSet.mem_erase.mp h).2
    · exact h
  · split at h <;> exact h

/-! ## What an operation leaves of the memory

  No timer comes to be, and those that are deleted are entered in the history. -/

/-- Without an allocation a timer may disappear and nothing else. -/
structure Shrinks (q q' : TimerQueue) : Prop where
  created : q'.s_numCreated_ = q.s_numCreated_
  alive : ∀ {a n}, q'.numberAt a = some n → q.numberAt a = some n
  deleted : ∀ {n}, n ∈ q.deleted → n ∈ q'.deleted

namespace Shrinks

/-- Nothing done, nothing gone. -/
theorem refl (q : TimerQueue) : Shrinks q q := ⟨rfl, id, id⟩

/-- Shrinking composes. -/
theorem trans {q₁ q₂ q₃ : TimerQueue} (h : Shrinks q₁ q₂) (h' : Shrinks q₂ q₃) : Shrinks q₁ q₃ :=
  ⟨h'.created.trans h.created, fun ha => h.alive (h'.alive ha), fun hn => h'.deleted (h.deleted hn)⟩

/-- The sets, the waits and the clock are not in the memory. -/
theorem of_same (hh : q'.heap = q.heap) (hd : q'.deleted = q.deleted)
    (hc : q'.s_numCreated_ = q.s_numCreated_) : Shrinks q q' := by
  refine ⟨hc, ?_, ?_⟩
  · intro a n ha
    rwa [numberAt, hh] at ha
  · intro n hn
    rwa [hd]

/-- Deleting a timer shrinks the memory. -/
theorem freed (q : TimerQueue) (a : Addr) (t : Timer) : Shrinks q (q.freed a t) := by
  refine ⟨rfl, ?_, fun hn => List.mem_append_left _ hn⟩
  intro b n hb
  rw [numberAt_freed] at hb
  rcases update_eq_some hb with ⟨-, h⟩ | ⟨-, h⟩
  · cases h
  · exact h

/-- Storing one with its own number does not grow it. -/
theorem stored (h : q.numberAt a = some t.sequence_) : Shrinks q (q.stored a t) :=
  ⟨rfl, fun hb => numberAt_stored h ▸ hb, id⟩

/-- Nor does inserting one. -/
theorem added (q : TimerQueue) (a : Addr) (t : Timer) : Shrinks q (q.added a t) := by
  unfold TimerQueue.added
  split
  · exact of_same rfl rfl rfl
  · exact of_same rfl rfl rfl

/-- Nor does a cancel. -/
theorem cancelled (q : TimerQueue) (timerId : TimerId) : Shrinks q (q.cancelled timerId) := by
  unfold TimerQueue.cancelled
  split
  · split
    · exact (of_same rfl rfl rfl : Shrinks q (q.taken _ _)).trans (freed _ _ _)
    · exact refl q
  · split
    · exact of_same rfl rfl rfl
    · exact refl q

end Shrinks

end TimerQueue

end IOEvent
