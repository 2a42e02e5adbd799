/-
  At most one connection attempt.

  `connect()` leaves `state_` at `kDisconnected` until the attempt completes, so the assertion of
  `startInThisThread` does not notice an attempt in flight, and neither does it notice an armed
  retry timer.  A second `start()` then makes a second attempt, which takes the member `socket_`
  away from the first; whatever the handler of the first does to `socket_` it does to the socket of
  the second.

  `StartsAlone` says that this does not happen: when `startInThisThread` is executed for a `start()`
  and `connect_` is set, nothing is outstanding.  Nothing else can break the property.  `stop` has
  no effect on an attempt, and in the states in which it retries (`kConnecting`, left behind when
  `get_option` failed) nothing is outstanding; `restart` is called for a connection, and while there
  is one the state is `kConnected`.  This is `AttemptInv`, and `one_attempt_iff` is the theorem:
  every prefix of a run has at most one attempt if and only if its starts are alone.
-/
import IOEvent.Connector

open Foundation

namespace IOEvent

/-- A completion handler touches the socket of its own attempt only. -/
def SocketUse.Own (u : SocketUse) : Prop := ∀ k ∈ u.handler, ∀ j ∈ u.socket, j = k

/-- Whether a use of the socket is one's own can be computed. -/
instance (u : SocketUse) : Decidable u.Own :=
  inferInstanceAs (Decidable (∀ k ∈ u.handler, ∀ j ∈ u.socket, j = k))

namespace Connector

variable {s : Connector}

/-! ## The property and the condition

  An attempt or a timer is begun by `startInThisThread`, by a retry timer that fires, and by
  `retry`; only the first can be called at any time, and the condition is about that. -/

/-- The attempts outstanding: the ones in flight and the armed retry timers. -/
def outstanding (s : Connector) : Nat := s.inFlight.length + s.retryTimers.length

/-- The property: one thing at most is under way, and no handler uses the socket of another
    attempt. -/
structure OneAttempt (s : Connector) : Prop where
  outstanding_le : s.outstanding ≤ 1
  own_socket : ∀ u ∈ s.trace, u.Own

/-- `startInThisThread` is executed for a `start()` only when nothing is outstanding (or `connect_`
    is not set any more). -/
def StartsAlone (s : Connector) : Event → Prop
  | .start true => s.outstanding = 0
  | .runPosted i =>
    s.posted[i]? = some .startInThisThread → s.connect_ = true → s.outstanding = 0
  | _ => True

/-- Whether a step starts alone can be computed. -/
instance (s : Connector) (e : Event) : Decidable (StartsAlone s e) := by
  unfold StartsAlone
  split <;> infer_instance

/-! ## The invariant

  `Sound` is kept by every member of the class; between two events no completion handler is
  running, and that is `AttemptInv`. -/

/-- What holds at any point, also inside a completion handler. -/
structure Sound (s : Connector) : Prop extends OneAttempt s where
  /-- An attempt leaves the state at `kDisconnected`. -/
  disconnected : s.outstanding ≠ 0 → s.state_ = .kDisconnected
  /-- The member holds the socket of the attempt in flight. -/
  socket : ∀ k ∈ s.inFlight, s.socket_ = some k
  connections_eq : s.connections = s.connection_.toList
  connected : s.connection_ ≠ none → s.state_ = .kConnected

/-- What holds between events. -/
structure AttemptInv (s : Connector) : Prop extends Sound s where
  no_handler : s.handler = none

/-- A new connector has begun nothing. -/
theorem new_inv : AttemptInv new where
  outstanding_le := Nat.zero_le 1
  own_socket := fun _ h => absurd h List.not_mem_nil
  disconnected := fun h => absurd rfl h
  socket := fun _ h => absurd h List.not_mem_nil
  connections_eq := rfl
  connected := fun h => absurd rfl h
  no_handler := rfl

/-- Nothing is outstanding when nothing is in flight and no timer is armed. -/
theorem idle_iff : s.outstanding = 0 ↔ s.inFlight = [] ∧ s.retryTimers = [] := by
  rw [outstanding, Nat.add_eq_zero_iff, List.length_eq_zero_iff, List.length_eq_zero_iff]

namespace Sound

/-- A connector that is not connected has no connection. -/
theorem no_connection (h : Sound s) (hstate : s.state_ ≠ .kConnected) : s.connection_ = none := by
  by_contra hconn
  exact hstate (h.connected hconn)

/-- Out of `kDisconnected` nothing is outstanding, because the state changes only in a handler
    that ends it. -/
theorem idle (h : Sound s) (hstate : s.state_ ≠ .kDisconnected) : s.outstanding = 0 := by
  by_contra hout
  exact hstate (h.disconnected hout)

/-! ## The members of the class

  One lemma for each.  Those that begin something ask that nothing is outstanding. -/

/-- A use of one's own socket keeps it. -/
theorem useSocket (h : Sound s) (huse : SocketUse.Own ⟨s.handler, s.socket_⟩) :
    Sound s.useSocket where
  outstanding_le := h.outstanding_le
  own_socket := by
    intro u hu
    rcases List.mem_append.mp hu with hu | hu
    · exact h.own_socket u hu
    · rw [List.mem_singleton.mp hu]
      exact huse
  disconnected := h.disconnected
  socket := h.socket
  connections_eq := h.connections_eq
  connected := h.connected

/-- While nothing is outstanding and there is no connection, the state is free. -/
theorem setState (h : Sound s) (hidle : s.outstanding = 0) (hconn : s.connection_ = none)
    (state : States) : Sound (s.setState state) where
  outstanding_le := h.outstanding_le
  own_socket := h.own_socket
  disconnected := fun hout => absurd hidle hout
  socket := h.socket
  connections_eq := h.connections_eq
  connected := fun hsome => absurd hconn hsome

/-- `retry` keeps it where nothing is outstanding: the timer it arms is then the only one. -/
theorem retry (h : Sound s) (hidle : s.outstanding = 0) (hconn : s.connection_ = none)
    (huse : SocketUse.Own ⟨s.handler, s.socket_⟩) : Sound s.retry := by
  have hs := (h.useSocket huse).setState hidle hconn .kDisconnected
  obtain ⟨hflight, htimers⟩ := idle_iff.mp hidle
  unfold Connector.retry
  dsimp only
  split
  · -- the retry timer is the attempt
    refine ⟨⟨?_, hs.own_socket⟩, fun _ => rfl, hs.socket, hs.connections_eq, hs.connected⟩
    show s.inFlight.length + (s.retryTimers ++ [s.retryDelayMs_]).length ≤ 1
    rw [hflight, htimers]
    exact Nat.le_refl 1
  · exact hs

/-- So does a new attempt. -/
theorem connect (h : Sound s) (hidle : s.outstanding = 0) (hstate : s.state_ = .kDisconnected)
    (hhandler : s.handler = none) : Sound s.connect := by
  have huse : SocketUse.Own ⟨s.handler, s.socket_⟩ := by
    intro k hk
    rw [hhandler] at hk
    cases hk
  have hs := h.useSocket huse
  obtain ⟨hflight, htimers⟩ := idle_iff.mp hidle
  refine ⟨⟨?_, hs.own_socket⟩, fun _ => hstate, ?_, hs.connections_eq, hs.connected⟩
  · show (s.inFlight ++ [s.attempts]).length + s.retryTimers.length ≤ 1
    rw [hflight, htimers]
    exact Nat.le_refl 1
  · intro k hk
    have hk : k ∈ s.inFlight ++ [s.attempts] := hk
    rw [hflight, List.nil_append] at hk
    rw [List.mem_singleton.mp hk]
    rfl

/-- The socket goes to the client. -/
theorem newConnection (h : Sound s) (hidle : s.outstanding = 0) (hconn : s.connection_ = none)
    (hstate : s.state_ = .kConnected) (huse : SocketUse.Own ⟨s.handler, s.socket_⟩) :
    Sound s.newConnection := by
  have hs := h.useSocket huse
  obtain ⟨hflight, -⟩ := idle_iff.mp hidle
  refine ⟨⟨hs.outstanding_le, hs.own_socket⟩, fun hout => absurd hidle hout, ?_, ?_,
    fun _ => hstate⟩
  · intro k hk
    have hk : k ∈ s.inFlight := hk
    rw [hflight] at hk
    exact absurd hk List.not_mem_nil
  · show s.connections ++ s.handler.toList = s.handler.toList
    rw [h.connections_eq, hconn]
    rfl

/-- So does the handler of a completed attempt, in each of its ways out. -/
theorem connecting (h : Sound s) (hidle : s.outstanding = 0) (hconn : s.connection_ = none)
    (huse : SocketUse.Own ⟨s.handler, s.socket_⟩) (getOption : GetOption) :
    Sound (s.connecting getOption) := by
  have hs := (h.setState hidle hconn .kConnecting).useSocket huse
  unfold Connector.connecting
  dsimp only
  split
  · exact hs.useSocket huse
  · split
    · exact hs.retry hidle hconn huse
    · have hs' := hs.setState hidle hconn .kConnected
      split
      · exact hs'.newConnection hidle hconn rfl huse
      · exact hs'.useSocket huse

/-- Whatever the error code. -/
theorem completed (h : Sound s) (hidle : s.outstanding = 0) (hconn : s.connection_ = none)
    (huse : SocketUse.Own ⟨s.handler, s.socket_⟩) (error : Errc) (getOption : GetOption) :
    Sound (s.completed error getOption) := by
  have hconnecting := h.connecting hidle hconn huse getOption
  have hretry := h.retry hidle hconn huse
  have hclose := h.useSocket huse
  cases error <;> assumption

end Sound

namespace AttemptInv

/-- Between the events no handler runs, so every use is one's own. -/
theorem own (h : AttemptInv s) : SocketUse.Own ⟨s.handler, s.socket_⟩ := by
  intro k hk
  rw [h.no_handler] at hk
  cases hk

/-- The flag, the posted handlers and the delay do not matter. -/
theorem of_flags (h : AttemptInv s) (connect : Bool) (posted : List ConnectorTask) (delay : Nat) :
    AttemptInv { s with connect_ := connect, posted := posted, retryDelayMs_ := delay } :=
  ⟨⟨⟨h.outstanding_le, h.own_socket⟩, h.disconnected, h.socket, h.connections_eq, h.connected⟩,
    h.no_handler⟩

/-- **`startInThisThread`** keeps it when nothing is outstanding, or the connector is not wanted. -/
theorem startInThisThread (h : AttemptInv s) (hidle : s.connect_ = true → s.outstanding = 0) :
    Holds AttemptInv (fun e => OneAttempt e.2) s.startInThisThread := by
  rw [Connector.startInThisThread]
  by_cases hstate : s.state_ = .kDisconnected
  · rw [require_pos _ _ hstate, ok_bind]
    split
    case isTrue hconnect =>
      exact .ok ⟨h.toSound.connect (hidle hconnect) hstate h.no_handler, h.no_handler⟩
    case isFalse => exact .ok h
  · rw [require_neg _ _ hstate, error_bind]
    exact .error h.toOneAttempt

/-- `stopInThisThread` keeps it: it acts in `kConnecting` only, where nothing is outstanding. -/
theorem stopInThisThread (h : AttemptInv s) : AttemptInv s.stopInThisThread := by
  unfold Connector.stopInThisThread
  split
  case isTrue hstate =>
    have hidle : s.outstanding = 0 := h.toSound.idle (by rw [hstate]; decide)
    have hconn : s.connection_ = none := h.toSound.no_connection (by rw [hstate]; decide)
    have hs := h.toSound.setState hidle hconn .kDisconnected
    refine ⟨hs.retry hidle hconn h.own, ?_⟩
    unfold retry
    dsimp only
    split <;> exact h.no_handler
  case isFalse => exact h

/-- **A completed attempt** keeps it: the one that was in flight has just ended. -/
theorem complete (h : AttemptInv s) (i : Nat) (error : Errc) (getOption : GetOption) :
    AttemptInv (s.complete i error getOption) := by
  unfold Connector.complete
  split
  case h_1 => exact h
  case h_2 k hk =>
    -- the attempt that completes is the only one outstanding, and the socket is its own
    obtain ⟨hi, hik⟩ := List.getElem?_eq_some_iff.mp hk
    have hle := h.outstanding_le
    rw [outstanding] at hle
    have hflight : s.inFlight.eraseIdx i = [] := by
      rw [← List.length_eq_zero_iff, List.length_eraseIdx_of_lt hi]
      omega
    have htimers : s.retryTimers = [] := List.length_eq_zero_iff.mp (by omega)
    have hstate : s.state_ = .kDisconnected := h.disconnected (by unfold outstanding; omega)
    have hconn : s.connection_ = none := h.toSound.no_connection (by rw [hstate]; decide)
    have hsocket : s.socket_ = some k := h.socket k (List.mem_of_getElem? hk)
    have hidle : ({ s with inFlight := s.inFlight.eraseIdx i, handler := some k } :
        Connector).outstanding = 0 := idle_iff.mpr ⟨hflight, htimers⟩
    have hs : Sound { s with inFlight := s.inFlight.eraseIdx i, handler := some k } := by
      refine ⟨⟨?_, h.own_socket⟩, fun _ => hstate, ?_, h.connections_eq, h.connected⟩
      · rw [hidle]
        exact Nat.zero_le 1
      · intro j hj
        exact h.socket j (List.mem_of_mem_eraseIdx hj)
    have huse : SocketUse.Own ⟨some k, s.socket_⟩ := by
      rw [hsocket]
      rintro k' hk' j hj
      exact (Option.some.inj hj).symm.trans (Option.some.inj hk')
    have hdone := hs.completed hidle hconn huse error getOption
    exact ⟨⟨⟨hdone.outstanding_le, hdone.own_socket⟩, hdone.disconnected, hdone.socket,
      hdone.connections_eq, hdone.connected⟩, rfl⟩

/-- A retry timer keeps it for the same reason. -/
theorem retryTimer (h : AttemptInv s) (i : Nat) :
    Holds AttemptInv (fun e => OneAttempt e.2) (s.retryTimer i) := by
  unfold Connector.retryTimer
  split
  case h_1 => exact .ok h
  case h_2 d hd =>
    -- the timer that fires was the only attempt
    obtain ⟨hi, -⟩ := List.getElem?_eq_some_iff.mp hd
    have hle := h.outstanding_le
    rw [outstanding] at hle
    have hflight : s.inFlight = [] := List.length_eq_zero_iff.mp (by omega)
    have htimers : s.retryTimers.eraseIdx i = [] := by
      rw [← List.length_eq_zero_iff, List.length_eraseIdx_of_lt hi]
      omega
    have hstate : s.state_ = .kDisconnected := h.disconnected (by unfold outstanding; omega)
    have hidle : ({ s with retryTimers := s.retryTimers.eraseIdx i } : Connector).outstanding = 0 :=
      idle_iff.mpr ⟨hflight, htimers⟩
    refine AttemptInv.startInThisThread ⟨⟨⟨?_, h.own_socket⟩, fun _ => hstate, h.socket,
      h.connections_eq, h.connected⟩, h.no_handler⟩ fun _ => hidle
    rw [hidle]
    exact Nat.zero_le 1

/-- So does the close of a connection: while there was one nothing was outstanding. -/
theorem closed (h : AttemptInv s) (i : Nat) (reconnect : Bool) :
    Holds AttemptInv (fun e => OneAttempt e.2) (s.closed i reconnect) := by
  unfold Connector.closed
  split
  case h_1 => exact .ok h
  case h_2 k hk =>
    -- the connection is the client's, so the state is `kConnected` and nothing is outstanding
    have hmem : k ∈ s.connection_.toList := h.connections_eq ▸ List.mem_of_getElem? hk
    have hconn : s.connection_ = some k := Option.mem_toList.mp hmem
    have hstate : s.state_ = .kConnected := h.connected (by rw [hconn]; exact Option.some_ne_none k)
    have hidle : s.outstanding = 0 := h.toSound.idle (by rw [hstate]; decide)
    have hrest : s.connections.eraseIdx i = [] := by
      have hlen := h.connections_eq
      rw [hconn] at hlen
      obtain ⟨hi, -⟩ := List.getElem?_eq_some_iff.mp hk
      rw [← List.length_eq_zero_iff, List.length_eraseIdx_of_lt hi, hlen]
      rfl
    have hremoved : AttemptInv
        { s with connections := s.connections.eraseIdx i, connection_ := none } :=
      ⟨⟨⟨h.outstanding_le, h.own_socket⟩, h.disconnected, h.socket, hrest, fun hne =>
        absurd rfl hne⟩, h.no_handler⟩
    rw [removeConnection, require_pos _ _ hconn, ok_bind]
    dsimp only
    split
    · have hs := hremoved.toSound.setState hidle rfl .kDisconnected
      have hinv : AttemptInv
          (({ s with connections := s.connections.eraseIdx i, connection_ := none } :
            Connector).setState .kDisconnected) := ⟨hs, h.no_handler⟩
      exact (hinv.of_flags true _ kInitRetryDelayMs).startInThisThread fun _ => hidle
    · exact .ok hremoved

end AttemptInv

/-! ## One event

  A step whose starts are alone keeps the invariant; one whose start is not breaks the
  property at once. -/

/-- **Every step that starts alone keeps the invariant.** -/
theorem step_inv (h : AttemptInv s) (e : Event) (halone : StartsAlone s e) :
    Holds AttemptInv (fun e => OneAttempt e.2) (step s e) := by
  cases e with
  | start isInLoopThread =>
    cases isInLoopThread with
    | true => exact (h.of_flags true s.posted s.retryDelayMs_).startInThisThread fun _ => halone
    | false => exact .ok (h.of_flags true _ s.retryDelayMs_)
  | stop isInLoopThread =>
    cases isInLoopThread with
    | true => exact .ok (h.of_flags false s.posted s.retryDelayMs_).stopInThisThread
    | false => exact .ok (h.of_flags false _ s.retryDelayMs_)
  | runPosted i =>
    dsimp only [step]
    unfold runPosted
    split
    case h_1 => exact .ok h
    case h_2 task htask =>
      have hs := h.of_flags s.connect_ (s.posted.eraseIdx i) s.retryDelayMs_
      cases task with
      | startInThisThread => exact hs.startInThisThread (halone htask)
      | stopInThisThread => exact .ok hs.stopInThisThread
  | complete i error getOption => exact .ok (h.complete i error getOption)
  | retryTimer i => exact h.retryTimer i
  | closed i reconnect => exact h.closed i reconnect

/-- A start that is executed while something is outstanding makes a second attempt. -/
theorem not_oneAttempt_start (h : AttemptInv s) (hconnect : s.connect_ = true)
    (hout : s.outstanding ≠ 0) :
    ¬ Holds OneAttempt (fun e => OneAttempt e.2) s.startInThisThread := by
  intro hholds
  rw [startInThisThread, require_pos _ _ (h.disconnected hout), ok_bind, if_pos hconnect] at hholds
  obtain ⟨hone⟩ := holds_ok.mp hholds
  have hcount : s.connect.outstanding = s.outstanding + 1 := by
    show (s.inFlight ++ [s.attempts]).length + s.retryTimers.length = _
    rw [List.length_append, List.length_singleton, outstanding]
    omega
  omega

/-- **The condition is exact**: a start beside something outstanding makes two. -/
theorem step_bad (h : AttemptInv s) (e : Event) (hnot : ¬ StartsAlone s e) :
    ¬ Holds OneAttempt (fun e => OneAttempt e.2) (step s e) := by
  cases e with
  | start isInLoopThread =>
    cases isInLoopThread with
    | true => exact not_oneAttempt_start (h.of_flags true s.posted s.retryDelayMs_) rfl hnot
    | false => exact absurd trivial hnot
  | runPosted i =>
    rw [StartsAlone] at hnot
    simp only [Classical.not_imp] at hnot
    obtain ⟨htask, hconnect, hout⟩ := hnot
    dsimp only [step]
    rw [runPosted, htask]
    exact not_oneAttempt_start (h.of_flags s.connect_ (s.posted.eraseIdx i) s.retryDelayMs_)
      hconnect hout
  | stop isInLoopThread => exact absurd trivial hnot
  | complete i error getOption => exact absurd trivial hnot
  | retryTimer i => exact absurd trivial hnot
  | closed i reconnect => exact absurd trivial hnot

/-! ## Every run

  Both directions of the equivalence, over all prefixes of the run. -/

/-- **At most one attempt**, and every completion handler keeps to its own socket, in all states of
    a run if and only if its starts are alone. -/
theorem one_attempt_iff (es : List Event) :
    Guarded step StartsAlone new es ↔
      ∀ pre, pre <+: es → Holds OneAttempt (fun e => OneAttempt e.2) (run step new pre) :=
  guarded_iff (fun _ h => h.toOneAttempt) (fun _ e h hC => step_inv h e hC)
    (fun _ e h hC => step_bad h e hC) es new new_inv

section Examples

/-- The client connects twice; the first attempt is aborted, as its socket is replaced. -/
def startTwice : List Event := [.start true, .start true, .complete 0 (.other 125) .ec]

/-- The client stops and connects again while a retry timer is armed. -/
def startWhileRetrying : List Event :=
  [.start true, .complete 0 .connection_refused .ec, .stop true, .start true]

/-- **Two attempts**: the handler of the first closes the socket of the second in one run, a connect
    is in flight and a retry timer armed at the end of the other. -/
theorem two_attempts :
    ¬ Holds OneAttempt (fun e => OneAttempt e.2) (run step new startTwice) ∧
      ¬ Holds OneAttempt (fun e => OneAttempt e.2) (run step new startWhileRetrying) := by
  constructor
  · have hend : (run step new startTwice).toOption.map (·.trace) =
        some [⟨none, none⟩, ⟨none, some 0⟩, ⟨some 0, some 1⟩] := by decide
    generalize run step new startTwice = r at hend
    intro h
    cases h with
    | error h => cases hend
    | ok h =>
      rename_i s
      have htrace : s.trace = [⟨none, none⟩, ⟨none, some 0⟩, ⟨some 0, some 1⟩] :=
        Option.some.inj hend
      have hown := h.own_socket ⟨some 0, some 1⟩ (by rw [htrace]; decide)
      exact absurd hown (by decide)
  · have hend : (run step new startWhileRetrying).toOption.map outstanding = some 2 := by decide
    generalize run step new startWhileRetrying = r at hend
    intro h
    cases h with
    | error h => cases hend
    | ok h =>
      rename_i s
      have hcount : s.outstanding = 2 := Option.some.inj hend
      have hle := h.outstanding_le
      omega

end Examples

end Connector

end IOEvent
