/-
  What the operations of a connector leave alone.

  `Begins s c` says what any operation may do to the connector besides handing a socket to the
  client: it may begin one attempt, and it may arm a timer, but as long as `connect_` is not set it
  does neither of the two, and does not set it (`Halted`).  A completion either hands its socket
  over, when it finds that the connect succeeded and is still wanted (`Hands`), or is of this kind.
-/
import IOEvent.Connector.States

open Foundation

namespace IOEvent

namespace Connector

/-- Nothing is begun, and nothing can be. -/
structure Halted (s c : Connector) : Prop where
  connect : c.connect_ = false
  attempts : c.attempts = s.attempts
  timers : c.retryTimers = s.retryTimers

/-- What an operation that hands over nothing can do: begin an attempt under the next number, or
    arm timers. The connections stay. -/
structure Begins (s c : Connector) : Prop where
  connection : c.connection_ = s.connection_
  connections : c.connections = s.connections
  flight : (c.inFlight = s.inFlight ∧ c.attempts = s.attempts) ∨
    (c.inFlight = s.inFlight ++ [s.attempts] ∧ c.attempts = s.attempts + 1)
  halted : s.connect_ = false → Halted s c

variable {s c : Connector}

/-- Doing nothing begins nothing. -/
theorem Begins.refl (s : Connector) : Begins s s where
  connection := rfl
  connections := rfl
  flight := .inl ⟨rfl, rfl⟩
  halted := fun h => ⟨h, rfl, rfl⟩

/-- The state, the delay, the posted handlers and the uses of the socket do not matter. -/
theorem Begins.of_same {s' : Connector} (h : Begins s' c) (hconn : s'.connection_ = s.connection_)
    (hconns : s'.connections = s.connections) (hflight : s'.inFlight = s.inFlight)
    (hattempts : s'.attempts = s.attempts) (htimers : s'.retryTimers = s.retryTimers)
    (hconnect : s'.connect_ = s.connect_) : Begins s c where
  connection := h.connection.trans hconn
  connections := h.connections.trans hconns
  flight := by
    rw [← hflight, ← hattempts]
    exact h.flight
  halted := by
    intro hfalse
    have hhalted := h.halted (hconnect.trans hfalse)
    exact ⟨hhalted.connect, hhalted.attempts.trans hattempts, hhalted.timers.trans htimers⟩

/-- `retry` arms a timer at most. -/
theorem retry_begins (s : Connector) : Begins s s.retry := by
  unfold retry
  dsimp only
  split
  case isTrue hconnect =>
    have hset : s.connect_ = true := hconnect
    refine ⟨rfl, rfl, .inl ⟨rfl, rfl⟩, fun hfalse => ?_⟩
    rw [hset] at hfalse
    cases hfalse
  case isFalse => exact (Begins.refl _).of_same rfl rfl rfl rfl rfl rfl

/-- `startInThisThread` begins an attempt, or fails with everything as it was. -/
theorem startInThisThread_begins (s : Connector) :
    Holds (Begins s) (fun e => e = (.assertFailed .startInThisThread, s)) s.startInThisThread := by
  rw [startInThisThread]
  by_cases hstate : s.state_ = .kDisconnected
  · rw [require_pos _ _ hstate, ok_bind]
    split
    case isTrue hconnect =>
      refine .ok ⟨rfl, rfl, .inr ⟨rfl, rfl⟩, fun hfalse => ?_⟩
      rw [hconnect] at hfalse
      cases hfalse
    case isFalse => exact .ok (.refl s)
  · rw [require_neg _ _ hstate, error_bind]
    exact .error rfl

/-- `stopInThisThread` begins a retry at most. -/
theorem stopInThisThread_begins (s : Connector) : Begins s s.stopInThisThread := by
  unfold stopInThisThread
  split
  · exact (retry_begins _).of_same rfl rfl rfl rfl rfl rfl
  · exact .refl s

/-- So a posted handler does one of these. -/
theorem runPosted_begins (s : Connector) (i : Nat) :
    Holds (Begins s) (fun e => e.1 = .assertFailed .startInThisThread ∧ Begins s e.2)
      (s.runPosted i) := by
  unfold runPosted
  split
  · exact .ok (.refl s)
  case h_2 task _ =>
    cases task with
    | startInThisThread =>
      apply (startInThisThread_begins _).mono
      · intro c hc
        exact hc.of_same rfl rfl rfl rfl rfl rfl
      · rintro e rfl
        exact ⟨rfl, (Begins.refl _).of_same rfl rfl rfl rfl rfl rfl⟩
    | stopInThisThread => exact .ok ((stopInThisThread_begins _).of_same rfl rfl rfl rfl rfl rfl)

/-- A restart sets `connect_`, and does not fail. -/
theorem restart_begins (s : Connector) :
    ∃ c, s.restart = .ok c ∧ Begins { s with connect_ := true } c := by
  obtain ⟨c, hc, -⟩ := restart_ok (s := s)
  have hbegins := startInThisThread_begins
    { s.setState .kDisconnected with retryDelayMs_ := kInitRetryDelayMs, connect_ := true }
  rw [restart] at hc
  rw [hc] at hbegins
  exact ⟨c, hc, (holds_ok.mp hbegins).of_same rfl rfl rfl rfl rfl rfl⟩

/-- A removal without a restart. -/
theorem removeConnection_halted (s : Connector) (k : Nat) :
    Holds (fun c => s.connect_ = false → Halted s c) (fun e => s.connect_ = false → Halted s e.2)
      (s.removeConnection k false) := by
  rw [removeConnection]
  by_cases hconn : s.connection_ = some k
  · rw [require_pos _ _ hconn, ok_bind]
    exact .ok fun hfalse => ⟨hfalse, rfl, rfl⟩
  · rw [require_neg _ _ hconn, error_bind]
    exact .error fun hfalse => ⟨hfalse, rfl, rfl⟩

/-! ## Completions

  The `switch` of the lambda has three outcomes: the socket is handed over, the attempt is
  retried, or it is given up. -/

/-- The connect succeeded, and is still wanted. -/
def Hands (s : Connector) (error : Errc) (getOption : GetOption) : Prop :=
  error.Connects ∧ getOption = .error 0 ∧ s.connect_ = true

/-- Whether a completion hands over its socket can be computed. -/
instance (s : Connector) (error : Errc) (getOption : GetOption) :
    Decidable (s.Hands error getOption) := inferInstanceAs (Decidable (_ ∧ _ ∧ _))

/-- The socket of the attempt whose handler runs goes to the client. -/
structure HandsOver (s c : Connector) : Prop where
  connection : c.connection_ = s.handler
  connections : c.connections = s.connections ++ s.handler.toList
  flight : c.inFlight = s.inFlight
  attempts : c.attempts = s.attempts
  timers : c.retryTimers = s.retryTimers
  connect : c.connect_ = s.connect_

/-- **Handing over or not**: `connecting` hands over its socket exactly for no error in a
    connector that is wanted, and else begins something at most. -/
theorem connecting_cases (s : Connector) (getOption : GetOption) :
    (getOption = .error 0 ∧ s.connect_ = true) ∧ HandsOver s (s.connecting getOption) ∨
      ¬ (getOption = .error 0 ∧ s.connect_ = true) ∧ Begins s (s.connecting getOption) := by
  unfold connecting
  dsimp only
  split
  · exact .inr ⟨by simp, (Begins.refl _).of_same rfl rfl rfl rfl rfl rfl⟩
  case h_2 errNum =>
    by_cases hzero : errNum = 0
    · subst hzero
      rw [if_neg (by simp)]
      split
      case isTrue hconnect => exact .inl ⟨⟨rfl, hconnect⟩, ⟨rfl, rfl, rfl, rfl, rfl, rfl⟩⟩
      case isFalse hconnect =>
        refine .inr ⟨fun h => hconnect h.2, ?_⟩
        exact (Begins.refl _).of_same rfl rfl rfl rfl rfl rfl
    · rw [if_pos hzero]
      refine .inr ⟨by simp [hzero], ?_⟩
      exact (retry_begins _).of_same rfl rfl rfl rfl rfl rfl

/-- The same of the completion as a whole. -/
theorem completed_cases (s : Connector) (error : Errc) (getOption : GetOption) :
    s.Hands error getOption ∧ HandsOver s (s.completed error getOption) ∨
      ¬ s.Hands error getOption ∧ Begins s (s.completed error getOption) := by
  have hconnecting : error.Connects →
      s.Hands error getOption ∧ HandsOver s (s.connecting getOption) ∨
        ¬ s.Hands error getOption ∧ Begins s (s.connecting getOption) := by
    intro hconnects
    rcases connecting_cases s getOption with ⟨hwanted, h⟩ | ⟨hwanted, h⟩
    · exact .inl ⟨⟨hconnects, hwanted⟩, h⟩
    · exact .inr ⟨fun hhands => hwanted hhands.2, h⟩
  have hretry := retry_begins s
  have hclose : Begins s s.useSocket := (Begins.refl _).of_same rfl rfl rfl rfl rfl rfl
  cases error with
  | success => exact hconnecting trivial
  | operation_in_progress => exact hconnecting trivial
  | interrupted => exact hconnecting trivial
  | already_connected => exact hconnecting trivial
  | _ => exact .inr ⟨fun hhands => hhands.1, by assumption⟩

/-- **A completion** of the attempt `k` takes it out of flight, and hands its socket over or not. -/
theorem complete_cases {i k : Nat} (hk : s.inFlight[i]? = some k) (error : Errc)
    (getOption : GetOption) :
    s.Hands error getOption ∧
        HandsOver { s with inFlight := s.inFlight.eraseIdx i, handler := some k }
          (s.complete i error getOption) ∨
      ¬ s.Hands error getOption ∧
        Begins { s with inFlight := s.inFlight.eraseIdx i } (s.complete i error getOption) := by
  unfold complete
  rw [hk]
  dsimp only
  rcases completed_cases { s with inFlight := s.inFlight.eraseIdx i, handler := some k } error
    getOption with ⟨hhands, h⟩ | ⟨hhands, h⟩
  · exact .inl ⟨hhands, ⟨h.connection, h.connections, h.flight, h.attempts, h.timers, h.connect⟩⟩
  · refine .inr ⟨hhands, ?_⟩
    exact ⟨h.connection, h.connections, h.flight, fun hfalse =>
      ⟨(h.halted hfalse).connect, (h.halted hfalse).attempts, (h.halted hfalse).timers⟩⟩

end Connector

end IOEvent
