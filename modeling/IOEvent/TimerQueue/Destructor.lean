/-
  The destructor of the queue, when the loop has returned.

  `~TimerQueue` deletes the timers in `timers_`, and nothing else deletes a timer any more: the
  handlers that are still posted are destroyed with the `io_context`, and never run.  So the
  timers whose insertion is posted are lost, as their handlers hold a pointer and no ownership.
  `frees` says that these are the only ones: every other timer ever created has been deleted,
  once.
-/
import IOEvent.TimerQueue.Ownership

open Foundation

namespace IOEvent

namespace TimerQueue

variable {q q' : TimerQueue} {held : List Addr} {l : List Entry} {a : Addr}

/-- `~TimerQueue`: the waits are cancelled, and the timers in `timers_` are deleted in order. -/
def destroy (q : TimerQueue) : M TimerQueue :=
  run (fun q entry => q.delete (ofLex entry).2)
    { q with steadyTimer_ := q.steadyTimer_.filter (·.completed) } q.timers_.elems

/-- The timers at the addresses `as` are gone. -/
structure Drained (as : List Addr) (q q' : TimerQueue) : Prop where
  ledger : Ledger q'.numberAt q'.deleted q'.s_numCreated_
  created : q'.s_numCreated_ = q.s_numCreated_
  heap : ∀ b, q'.heap b = if b ∈ as then none else q.heap b

/-- One timer is deleted. -/
theorem Drained.freed (h : Ledger q.numberAt q.deleted q.s_numCreated_) {t : Timer}
    (ht : q.heap a = some t) : Drained [a] q (q.freed a t) where
  ledger := by
    rw [numberAt_freed]
    exact h.delete (numberAt_of_heap ht)
  created := rfl
  heap := by
    intro b
    by_cases hb : b = a
    · rw [if_pos (List.mem_singleton.mpr hb), hb]
      exact heap_freed
    · rw [if_neg fun hmem => hb (List.mem_singleton.mp hmem)]
      exact heap_freed_of_ne hb

/-- Timers are deleted one after the other. -/
theorem Drained.append {as bs : List Addr} {q₁ : TimerQueue} (h : Drained as q q₁)
    (h' : Drained bs q₁ q') : Drained (as ++ bs) q q' where
  ledger := h'.ledger
  created := h'.created.trans h.created
  heap := by
    intro b
    rw [h'.heap, h.heap]
    by_cases ha : b ∈ as <;> by_cases hb : b ∈ bs <;> simp [ha, hb]

/-- **The loop of the destructor** deletes the timers of a list of entries. -/
theorem deleteAll : ∀ (l : List Entry) {q : TimerQueue},
    Ledger q.numberAt q.deleted q.s_numCreated_ → (addrs l).Nodup →
    (∀ a ∈ addrs l, ∃ t, q.heap a = some t) →
    ∃ q', run (fun q entry => q.delete (ofLex entry).2) q l = .ok q' ∧ Drained (addrs l) q q' := by
  intro l
  induction l with
  | nil => exact fun {q} hledger _ _ =>
    ⟨q, rfl, hledger, rfl, fun b => (if_neg List.not_mem_nil).symm⟩
  | cons entry l ih =>
    intro q hledger hnodup hlive
    rw [addrs_cons] at hnodup hlive
    obtain ⟨hnot, hnodup⟩ := List.nodup_cons.mp hnodup
    obtain ⟨t, ht⟩ := hlive _ List.mem_cons_self
    have hfreed := Drained.freed hledger ht
    obtain ⟨q', hrun, hdrained⟩ := ih hfreed.ledger hnodup fun b hb => by
      rw [heap_freed_of_ne (ne_of_mem_of_not_mem hb hnot)]
      exact hlive b (List.mem_cons_of_mem _ hb)
    refine ⟨q', ?_, hfreed.append hdrained⟩
    rw [run_cons, delete_eq ht, ok_bind, hrun]

namespace Owns

/-- No timer has two entries. -/
theorem addrs_nodup (h : Owns q held) : (addrs q.timers_.elems).Nodup := by
  refine (List.nodup_map_iff_inj_on q.timers_.nodup).mpr ?_
  rintro ⟨d, a⟩ hx ⟨e, b⟩ hy heq
  obtain ⟨t, ht, rfl⟩ := h.keyed hx
  obtain ⟨u, hu, rfl⟩ := h.keyed hy
  obtain rfl : a = b := heq
  obtain rfl : t = u := Option.some.inj (ht.symm.trans hu)
  rfl

/-- **The destructor** deletes the timers in the sets. -/
theorem destroy_eq (h : Owns q held) :
    ∃ q', q.destroy = .ok q' ∧ Drained (addrs q.timers_.elems) q q' := by
  have hlive : ∀ a ∈ addrs q.timers_.elems, ∃ t, q.heap a = some t := by
    intro a ha
    obtain ⟨e, hent⟩ := mem_addrs.mp ha
    obtain ⟨t, ht, -⟩ := h.keyed hent
    exact ⟨t, ht⟩
  have hcancelled : Owns { q with steadyTimer_ := q.steadyTimer_.filter (·.completed) } held :=
    h.of_same rfl rfl rfl rfl rfl
  obtain ⟨q', hrun, hdrained⟩ := deleteAll q.timers_.elems hcancelled.ledger h.addrs_nodup hlive
  exact ⟨q', hrun, hdrained.ledger, hdrained.created, hdrained.heap⟩

/-- It leaves those that are held outside the sets. -/
theorem heap_drained (h : Owns q held) (hd : Drained (addrs q.timers_.elems) q q') {t : Timer} :
    q'.heap a = some t ↔ a ∈ held ∧ q.heap a = some t := by
  rw [hd.heap]
  constructor
  · intro ht
    split at ht
    · cases ht
    case isFalse hnot =>
      refine ⟨(h.owned ht).resolve_right fun hent => hnot (mem_addrs.mpr ⟨_, hent⟩), ht⟩
  · rintro ⟨ha, ht⟩
    rw [if_neg fun hmem => ?_]
    · exact ht
    · obtain ⟨e, hent⟩ := mem_addrs.mp hmem
      exact h.held_apart ha hent

end Owns

end TimerQueue

open TimerQueue

namespace IOLoop

variable {s : IOLoop}

/-- **The destructor frees** every timer whose insertion is not posted: after any run of the loop it
    does not fail, no timer has been deleted twice, and a timer has not been deleted if and only if
    the handler that was to insert it is still posted. -/
theorem frees (now : Timestamp) {es : List Event} (hrun : run step (new now) es = .ok s)
    (hreturned : s.running = none) :
    ∃ q, s.timerQueue_.destroy = .ok q ∧ q.deleted.Nodup ∧
      (∀ n, 0 < n → n ≤ s.timerQueue_.s_numCreated_ →
        (n ∉ q.deleted ↔ At s n .addPending)) ∧
      ∀ a, q.heap a ≠ none → .addTimerInThisThread a ∈ s.posted := by
  have hrep : Represents s := by
    have hall := run_keeps (fun _ e h => step_represents h e) es _ (new_represents now)
    rw [hrun] at hall
    exact holds_ok.mp hall
  have hheld : s.held = s.pendingAddrs := by
    rw [held, batch, hreturned]
    exact List.append_nil _
  obtain ⟨q, hq, hdrained⟩ := hrep.owns.destroy_eq
  -- outside the sets only the timers whose insertion is posted are left
  have hpending : ∀ {a t}, q.heap a = some t ↔
      .addTimerInThisThread a ∈ s.posted ∧ s.timerQueue_.heap a = some t := by
    intro a t
    rw [hrep.owns.heap_drained hdrained, hheld, mem_pendingAddrs]
  refine ⟨q, hq, hdrained.ledger.deleted_nodup, fun n h0 hn => ?_, fun a ha => ?_⟩
  · constructor
    · intro hnot
      obtain ⟨a, ha⟩ := (hdrained.ledger.all h0 (hdrained.created ▸ hn)).resolve_left hnot
      obtain ⟨t, ht, hseq⟩ := heap_of_numberAt ha
      obtain ⟨hposted, ht⟩ := hpending.mp ht
      exact ⟨a, hposted, hseq ▸ numberAt_of_heap ht⟩
    · rintro ⟨a, hposted, ha⟩ hdeleted
      obtain ⟨t, ht, rfl⟩ := heap_of_numberAt ha
      exact hdrained.ledger.dead hdeleted (numberAt_of_heap (hpending.mpr ⟨hposted, ht⟩))
  · obtain ⟨t, ht⟩ := Option.ne_none_iff_exists'.mp ha
    exact (hpending.mp ht).1

/-- One timer is in the sets, and the insertion of another is posted. -/
theorem frees_onePosted :
    ∃ s q, run step (new 0)
        [.addTimer true 1 5 ⟨false, 0⟩, .addTimer false 2 7 ⟨false, 0⟩] = .ok s ∧
      s.timerQueue_.destroy = .ok q ∧ 1 ∈ q.deleted ∧ 2 ∉ q.deleted := by
  have hrun : run step (new 0)
      [.addTimer true 1 5 ⟨false, 0⟩, .addTimer false 2 7 ⟨false, 0⟩] = .ok _ := rfl
  obtain ⟨q, hq, -, hpending, -⟩ := frees 0 hrun rfl
  refine ⟨_, q, hrun, hq, ?_, ?_⟩
  · by_contra hnot
    obtain ⟨a, ha, hone⟩ := (hpending 1 (by decide) (by decide)).mp hnot
    obtain rfl : a = 2 := TimerTask.addTimerInThisThread.inj (List.mem_singleton.mp ha)
    cases hone
  · exact (hpending 2 (by decide) (by decide)).mpr ⟨2, List.mem_singleton_self _, rfl⟩

end IOLoop

end IOEvent
