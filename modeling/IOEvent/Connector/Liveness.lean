/-
  A connector that is wanted gets its connection.

  `keeps_trying` says that something is under way at any time: a start, an attempt or a retry timer,
  until there is a connection.  Here it gets done.  What is under way is one thing, so `GoesOn` asks
  for one thing only: the loop runs what is posted, an attempt completes, and a timer fires, sooner
  or later.  From the moment on when no attempt fails any more, each of these brings the connection
  nearer (`distance`), and it is the same again whenever the connection closes.
-/
import IOEvent.Connector.Backoff
import IOEvent.Foundation.Fairness

open Foundation

namespace IOEvent

namespace Connector

variable {c c' : Connector} {p : Phase} {e : Event}

/-- A start is posted, an attempt is in flight, or a retry timer is armed. -/
def UnderWay (c : Connector) : Prop := c.posted ≠ [] ∨ c.inFlight ≠ [] ∨ c.retryTimers ≠ []

/-- Whether something is under way can be computed. -/
instance (c : Connector) : Decidable c.UnderWay :=
  inferInstanceAs (Decidable (_ ∨ _ ∨ _))

/-- The client has the connection of an attempt, and nothing else is under way. -/
structure Connected (c : Connector) (attempt : Nat) : Prop where
  connection : c.connection_ = some attempt
  connections : c.connections = [attempt]
  state : c.state_ = .kConnected
  quiet : ¬ c.UnderWay

/-! ## The distance to a connection

  A posted start and a retry timer are two events away from it, an attempt is one.  Only an
  attempt that fails goes back. -/

/-- How many things have to get done. -/
def Phase.distance : Phase → Nat
  | starting | waiting _ => 2
  | connecting _ => 1
  | connected _ => 0

/-- How far the next connection is: the number of steps, counted over all that is begun. -/
def distance (c : Connector) : Nat :=
  2 * c.posted.length + c.inFlight.length + 2 * c.retryTimers.length

/-- In a phase the distance is that of the phase. -/
theorem Shows.distance_eq (h : Shows c p) : c.distance = p.distance := by
  rw [distance, h.posted, h.inFlight, h.retryTimers]
  cases p <;> rfl

/-- Something is under way in every phase but the connected one. -/
theorem Shows.underWay (h : Shows c p) : c.UnderWay ↔ p.distance ≠ 0 := by
  rw [UnderWay, h.posted, h.inFlight, h.retryTimers]
  cases p <;> simp [Phase.posted, Phase.inFlight, Phase.retryTimers, Phase.distance]

/-- In the connected phase there is the connection. -/
theorem Shows.connected {attempt : Nat} (h : Shows c (.connected attempt)) :
    Connected c attempt where
  connection := h.connection
  connections := h.connections
  state := h.state
  quiet := fun hunder => h.underWay.mp hunder rfl

/-- What a step leads to. -/
theorem Shows.next (h : Shows c p) (he : e.Transient) (hstep : c.step e = .ok c') :
    ∃ p', Shows c' p' ∧ Next c p e c' p' := by
  obtain ⟨c₁, p', hc, hshows, hnext⟩ := step_leads h e he
  obtain rfl : c₁ = c' := Except.ok.inj (hc.symm.trans hstep)
  exact ⟨p', hshows, hnext⟩

/-- An event on the way to a connection: it is not taken, or there is the connection, or it is
    nearer. -/
inductive Nearer (c : Connector) (e : Event) (c' : Connector) : Prop
  | stays (htakes : ¬ e.Takes c) (hsame : c' = c)
  | connects {attempt : Nat} (hconnected : Connected c' attempt)
  | nears (hunder : c'.UnderWay) (hlt : c'.distance < c.distance)

/-- **One event** of a client that is left alone, and whose attempts do not fail. -/
theorem step_nearer (h : Shows c p) (hunder : c.UnderWay) (he : e.Transient) (hfails : ¬ e.Fails c)
    (hstep : c.step e = .ok c') : Nearer c e c' := by
  obtain ⟨p', hshows, hnext⟩ := h.next he hstep
  have hdist : p.distance ≠ 0 := h.underWay.mp hunder
  cases hnext with
  | stays htakes hsame hp => exact .stays htakes hsame
  | begins hp hp' =>
    subst hp'
    refine .nears (hshows.underWay.mpr Nat.one_ne_zero) ?_
    rw [h.distance_eq, hshows.distance_eq]
    rcases hp with rfl | ⟨delay, rfl⟩
    · exact Nat.lt_succ_self 1
    · exact Nat.lt_succ_self 1
  | retries hp hp' hdelay hfailed => exact absurd hfailed hfails
  | connects hp hp' =>
    subst hp'
    exact .connects hshows.connected
  | reconnects hp =>
    subst hp
    exact absurd rfl hdist

/-! ## Every run that does not end

  By induction on the distance: what is under way is taken sooner or later, and then the
  connection is nearer or there. -/

section Runs

variable {states : Nat → Connector} {events : Nat → Event}

/-- What is under way gets done, sooner or later. -/
def GoesOn (states : Nat → Connector) (events : Nat → Event) : Prop :=
  ∀ k, (states k).UnderWay → Eventually (fun m => (events m).Takes (states m)) k

/-- `connect()` leads to a phase. -/
theorem start_shows {isInLoopThread : Bool} (h : new.step (.start isInLoopThread) = .ok c) :
    ∃ p, Shows c p := by
  cases isInLoopThread with
  | false =>
    obtain rfl := Except.ok.inj h
    exact ⟨.starting, rfl, rfl, rfl, rfl, rfl, rfl, rfl⟩
  | true =>
    obtain rfl := Except.ok.inj h
    exact ⟨.connecting 0, rfl, rfl, rfl, rfl, rfl, rfl, rfl⟩

/-- Every state of a client that is left alone is a phase. -/
theorem shows_forever (hrun : Forever step states events) (hleft : ∀ k, (events k).Transient)
    (hzero : ∃ p, Shows (states 0) p) (k : Nat) : ∃ p, Shows (states k) p := by
  refine hrun.keeps (C := fun _ e => e.Transient) (I := fun c => ∃ p, Shows c p) ?_ hleft hzero k
  rintro c e c' ⟨p, h⟩ he hstep
  obtain ⟨p', hshows, -⟩ := h.next he hstep
  exact ⟨p', hshows⟩

/-- What is under way from `N` on leads to a connection. -/
theorem underWay_connected (hrun : Forever step states events) (hleft : ∀ k, (events k).Transient)
    (hgoes : GoesOn states events) (hshows : ∀ k, ∃ p, Shows (states k) p) {N : Nat}
    (hfails : ∀ m, N ≤ m → ¬ (events m).Fails (states m)) {k : Nat} (hk : N ≤ k)
    (hunder : (states k).UnderWay) :
    Eventually (fun m => ∃ attempt, Connected (states m) attempt) k := by
  have hnearer (m : Nat) (hm : N ≤ m ∧ (states m).UnderWay) :
      Nearer (states m) (events m) (states (m + 1)) := by
    obtain ⟨p, hp⟩ := hshows m
    exact step_nearer hp hm.2 (hleft m) (hfails m hm.1) (hrun m)
  refine eventually_of_rank (I := fun m => N ≤ m ∧ (states m).UnderWay)
    (T := fun m => (events m).Takes (states m)) (R := fun m => (states m).distance)
    ?_ (fun m hm => hgoes m hm.2) ?_ _ k rfl ⟨hk, hunder⟩
  · intro m hm
    cases hnearer m hm with
    | stays htakes hsame =>
      rw [hsame]
      exact .inr ⟨⟨Nat.le_succ_of_le hm.1, hm.2⟩, Nat.le_refl _⟩
    | connects hconnected => exact .inl ⟨_, hconnected⟩
    | nears hunder hlt => exact .inr ⟨⟨Nat.le_succ_of_le hm.1, hunder⟩, Nat.le_of_lt hlt⟩
  · intro m hm htakes
    cases hnearer m hm with
    | stays hnot hsame => exact absurd htakes hnot
    | connects hconnected => exact .inl ⟨_, hconnected⟩
    | nears hunder hlt => exact .inr ⟨⟨Nat.le_succ_of_le hm.1, hunder⟩, hlt⟩

/-- **A client that is left alone is connected again and again**: when what is under way gets
    done and no attempt fails from the moment `N` on, then at any moment there is, or will be, a
    connection. -/
theorem connected_again (isInLoopThread : Bool)
    (hstart : new.step (.start isInLoopThread) = .ok (states 0)) (hrun : Forever step states events)
    (hleft : ∀ k, (events k).Transient) (hgoes : GoesOn states events)
    {N : Nat} (hfails : ∀ m, N ≤ m → ¬ (events m).Fails (states m))
    (k : Nat) : Eventually (fun m => ∃ attempt, Connected (states m) attempt) k := by
  have hshows := shows_forever hrun hleft (start_shows hstart)
  obtain ⟨p, hp⟩ := hshows (max k N)
  refine Eventually.of_le ?_ (Nat.le_max_left k N)
  by_cases hunder : (states (max k N)).UnderWay
  · exact underWay_connected hrun hleft hgoes hshows hfails (Nat.le_max_right k N) hunder
  · -- what is not under way is a connection
    have hnear : p.distance = 0 := of_not_not (mt hp.underWay.mpr hunder)
    cases p with
    | connected attempt => exact .now ⟨attempt, hp.connected⟩
    | starting | connecting _ | waiting _ => cases hnear

end Runs

section Examples

/-- A client that has called `connect()` on another thread. -/
def started : Connector := { new with connect_ := true, posted := [.startInThisThread] }

/-- Refused, connected, closed and connected. -/
def refusedOnce : List Event :=
  [.runPosted 0, .complete 0 .connection_refused .ec, .retryTimer 0,
    .complete 0 .success (.error 0), .closed 0 true, .complete 0 .success (.error 0)]

/-- The states of the run in which the first attempt is refused. -/
def refusedOnceAt (k : Nat) : Connector := statesOf step started refusedOnce k

/-- Nothing is done after the last event, and nothing is under way. -/
theorem refusedOnce_end {k : Nat} (hk : 6 ≤ k) : refusedOnceAt k = refusedOnceAt 6 := by
  have hrun : run step started (refusedOnce.take 6) = .ok (refusedOnceAt 6) := rfl
  exact statesOf_of_le hrun hk

/-- The conditions can be met: refused once, connected, closed, and connected again for ever. -/
theorem connected_again_refusedOnce : ∃ states events, new.step (.start false) = .ok (states 0) ∧
    Forever step states events ∧ (∀ k, (events k).Transient) ∧ GoesOn states events ∧
    (∀ m, 2 ≤ m → ¬ (events m).Fails (states m)) ∧
    ∀ k, Eventually (fun m => ∃ attempt, Connected (states m) attempt) k := by
  -- six events, and from then on one that does nothing
  have hrun : run step started refusedOnce = .ok (refusedOnceAt 6) := rfl
  have hidle : step (refusedOnceAt 6) (.retryTimer 0) = .ok (refusedOnceAt 6) := rfl
  have hforever := forever_of_run hrun hidle
  -- the conditions hold by evaluation up to the sixth event, and trivially after it
  have hleft : ∀ k, (eventsOf refusedOnce (.retryTimer 0) k).Transient := by
    intro k
    by_cases hk : k < 6
    · have hall : ∀ k < 6, (eventsOf refusedOnce (.retryTimer 0) k).Transient := by decide
      exact hall k hk
    · rw [eventsOf_of_le (Nat.le_of_not_lt hk)]
      trivial
  have hgoes : GoesOn refusedOnceAt (eventsOf refusedOnce (.retryTimer 0)) := by
    intro k hunder
    by_cases hk : k < 6
    · have hall : ∀ k < 6, (refusedOnceAt k).UnderWay →
          (eventsOf refusedOnce (.retryTimer 0) k).Takes (refusedOnceAt k) := by decide +kernel
      exact .now (hall k hk hunder)
    · rw [refusedOnce_end (Nat.le_of_not_lt hk)] at hunder
      exact absurd hunder (by decide +kernel)
  have hfails : ∀ m, 2 ≤ m →
      ¬ (eventsOf refusedOnce (.retryTimer 0) m).Fails (refusedOnceAt m) := by
    intro m hm
    by_cases hk : m < 6
    · have hall : ∀ m < 6, 2 ≤ m →
          ¬ (eventsOf refusedOnce (.retryTimer 0) m).Fails (refusedOnceAt m) := by decide +kernel
      exact hall m hk hm
    · rw [eventsOf_of_le (Nat.le_of_not_lt hk)]
      exact id
  exact ⟨refusedOnceAt, _, rfl, hforever, hleft, hgoes, hfails,
    connected_again false rfl hforever hleft hgoes hfails⟩

end Examples

end Connector

end IOEvent
