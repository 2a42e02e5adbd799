/-
  A connector that is wanted keeps trying, and waits longer each time.

  The errors of `async_connect` fall into two kinds.  After some the handler calls `retry`, which
  arms a timer; after the others it closes the socket and leaves it at that.  A connect that
  succeeded is checked with `get_option`, and retried as well when `SO_ERROR` is set.  A run that
  begins with one `start()`, and in which only errors of the first kind occur, every close is
  followed by a restart, and nobody starts or stops the client again (`Event.Transient`), is
  always in one of four PHASES: the start is posted, an attempt is in flight, a retry timer is
  armed, the client has a connection.  `Shows c p` says that the connector `c` is in the phase
  `p` and does nothing else; an event that the connector takes (`Event.Takes`) leads to the next
  phase (`Next`), and every other one does nothing.

  `Paced` remembers the delays of the retry timers armed since the last start; a restart, which
  happens when the connection closes, forgets them.  The delay doubles from `kInitRetryDelayMs`
  and stays at `kMaxRetryDelayMs` once it has got there.
-/
import Mathlib.Algebra.Ring.Nat
import IOEvent.Connector.States

open Foundation

namespace IOEvent

/-- The error codes after which the handler of `async_connect` tries again. -/
def Errc.Retries : Errc → Prop
  | .resource_unavailable_try_again | .address_in_use | .address_not_available
  | .connection_refused | .network_unreachable => True
  | _ => False

/-- Whether an error is retried is read off its constructor. -/
instance : DecidablePred Errc.Retries := fun error => by
  cases error <;> unfold Errc.Retries <;> infer_instance

namespace Connector

/-- What happens while the client is left alone: no completion is final, and the connection is
    wanted again when it closes. -/
def Event.Transient : Event → Prop
  | .start _ | .stop _ => False
  | .complete _ error getOption => error.Retries ∨ error.Connects ∧ getOption ≠ .ec
  | .closed _ reconnect => reconnect = true
  | .runPosted _ | .retryTimer _ => True

/-- Whether an event is transient is read off it too. -/
instance : DecidablePred Event.Transient := fun e =>
  e.casesOn (fun _ => .isFalse id) (fun _ => .isFalse id) (fun _ => .isTrue trivial)
    (fun _ error getOption =>
      decidable_of_iff (error.Retries ∨ error.Connects ∧ getOption ≠ .ec) Iff.rfl)
    (fun _ => .isTrue trivial) fun _ reconnect => decidable_of_iff (reconnect = true) Iff.rfl

/-- What the event is about is there. -/
def Event.Takes (c : Connector) : Event → Prop
  | .start _ | .stop _ => True
  | .runPosted i => i < c.posted.length
  | .complete i _ _ => i < c.inFlight.length
  | .retryTimer i => i < c.retryTimers.length
  | .closed i _ => i < c.connections.length

/-- Whether what an event is about is there can be computed. -/
instance (c : Connector) (e : Event) : Decidable (e.Takes c) :=
  e.casesOn (fun _ => .isTrue trivial) (fun _ => .isTrue trivial)
    (fun i => decidable_of_iff (i < c.posted.length) Iff.rfl)
    (fun i _ _ => decidable_of_iff (i < c.inFlight.length) Iff.rfl)
    (fun i => decidable_of_iff (i < c.retryTimers.length) Iff.rfl)
    fun i _ => decidable_of_iff (i < c.connections.length) Iff.rfl

/-- An attempt completes with a socket that is not connected. -/
def Event.Fails (c : Connector) : Event → Prop
  | .complete i error getOption =>
    i < c.inFlight.length ∧ ¬ (error.Connects ∧ getOption = .error 0)
  | _ => False

/-- So can whether it is a failed attempt. -/
instance (c : Connector) (e : Event) : Decidable (e.Fails c) :=
  e.casesOn (fun _ => .isFalse id) (fun _ => .isFalse id) (fun _ => .isFalse id)
    (fun i error getOption => decidable_of_iff
      (i < c.inFlight.length ∧ ¬ (error.Connects ∧ getOption = .error 0)) Iff.rfl)
    (fun _ => .isFalse id) fun _ _ => .isFalse id

/-- The event restarts the connector. -/
def Event.Restarts (c : Connector) : Event → Prop
  | .closed i reconnect => i < c.connections.length ∧ reconnect = true
  | _ => False

/-- So can whether it restarts the connector. -/
instance (c : Connector) (e : Event) : Decidable (e.Restarts c) :=
  e.casesOn (fun _ => .isFalse id) (fun _ => .isFalse id) (fun _ => .isFalse id)
    (fun _ _ _ => .isFalse id) (fun _ => .isFalse id)
    fun i reconnect => decidable_of_iff (i < c.connections.length ∧ reconnect = true) Iff.rfl

/-- What restarts the connector is taken. -/
theorem Event.Restarts.takes {c : Connector} {e : Event} (h : e.Restarts c) : e.Takes c := by
  cases e with
  | closed i reconnect => exact h.1
  | start => exact h.elim
  | stop => exact h.elim
  | runPosted => exact h.elim
  | complete => exact h.elim
  | retryTimer => exact h.elim

/-! ## Phases

  In each phase exactly one thing is there, so one kind of event is taken and the others find
  nothing. -/

/-- What a connector that was started once is about: the handler of that start, an attempt, a
    retry timer with its delay, or a connection. -/
inductive Phase
  | starting
  | connecting (attempt : Nat)
  | waiting (delay : Nat)
  | connected (attempt : Nat)

namespace Phase

/-- The handlers that are posted in a phase. -/
def posted : Phase → List ConnectorTask
  | starting => [.startInThisThread]
  | _ => []

/-- The attempts in flight in it. -/
def inFlight : Phase → List Nat
  | connecting attempt => [attempt]
  | _ => []

/-- The timers armed in it. -/
def retryTimers : Phase → List Nat
  | waiting delay => [delay]
  | _ => []

/-- The connection there is in it. -/
def connection : Phase → Option Nat
  | connected attempt => some attempt
  | _ => none

/-- The state in it. While an attempt is in flight the state is still `kDisconnected`; the code
    sets `kConnecting` when it completes. -/
def state : Phase → States
  | connected _ => .kConnected
  | _ => .kDisconnected

end Phase

/-- The connector is in the phase: all that is begun is what the phase says, and the flags are
    those of a connector that is wanted. -/
structure Shows (c : Connector) (p : Phase) : Prop where
  posted : c.posted = p.posted
  inFlight : c.inFlight = p.inFlight
  retryTimers : c.retryTimers = p.retryTimers
  connections : c.connections = p.connection.toList
  connection : c.connection_ = p.connection
  state : c.state_ = p.state
  wanted : c.connect_ = true

/-- Between two phases. -/
structure Idle (c : Connector) : Prop where
  posted : c.posted = []
  inFlight : c.inFlight = []
  retryTimers : c.retryTimers = []
  connections : c.connections = []
  connection : c.connection_ = none
  wanted : c.connect_ = true

/-- A phase is one thing. -/
theorem Shows.one {c : Connector} {p : Phase} (h : Shows c p) :
    c.posted.length + c.inFlight.length + c.retryTimers.length + c.connections.length = 1 := by
  rw [h.posted, h.inFlight, h.retryTimers, h.connections]
  cases p <;> rfl

/-- The one element of a list. -/
theorem only_get {α : Type} {l : List α} {a b : α} {i : Nat} (hl : l = [a]) (hi : l[i]? = some b) :
    b = a ∧ l.eraseIdx i = [] := by
  subst hl
  cases i with
  | zero => exact ⟨(Option.some.inj hi).symm, rfl⟩
  | succ i => cases hi

/-! ## The delay

  It is doubled when a timer is armed, so the `k`-th timer waits the first delay doubled `k` times,
  or the largest one. -/

/-- The delay after `k` failures. -/
def backoff (k : Nat) : Nat := min (kInitRetryDelayMs * 2 ^ k) kMaxRetryDelayMs

/-- Doubling the capped delay is capping the doubled one. -/
theorem backoff_succ (k : Nat) : backoff (k + 1) = min (backoff k * 2) kMaxRetryDelayMs := by
  rw [backoff, backoff, Nat.pow_succ, ← Nat.mul_assoc]
  omega

namespace Idle

variable {c : Connector}

/-- From nothing begun, a start leads to an attempt, with the delay as it was. -/
theorem startInThisThread (h : Idle c) (hstate : c.state_ = .kDisconnected) :
    ∃ c', c.startInThisThread = .ok c' ∧ Shows c' (.connecting c.attempts) ∧
      c'.retryDelayMs_ = c.retryDelayMs_ := by
  refine ⟨c.connect, ?_, ⟨h.posted, ?_, h.retryTimers, h.connections, h.connection, hstate,
    h.wanted⟩, rfl⟩
  · rw [Connector.startInThisThread, require_pos _ _ hstate, ok_bind, if_pos h.wanted]
    rfl
  · show c.inFlight ++ [c.attempts] = [c.attempts]
    rw [h.inFlight, List.nil_append]

/-- From nothing begun, `retry` leads to a timer, and doubles the delay up to its bound. -/
theorem retry (h : Idle c) :
    Shows c.retry (.waiting c.retryDelayMs_) ∧
      c.retry.retryDelayMs_ = min (c.retryDelayMs_ * 2) kMaxRetryDelayMs := by
  have hwanted : (c.useSocket.setState .kDisconnected).connect_ = true := h.wanted
  unfold Connector.retry
  dsimp only
  rw [if_pos hwanted]
  refine ⟨⟨h.posted, h.inFlight, ?_, h.connections, h.connection, rfl, h.wanted⟩, rfl⟩
  show c.retryTimers ++ [c.retryDelayMs_] = [c.retryDelayMs_]
  rw [h.retryTimers, List.nil_append]

/-- The socket of the attempt `k` goes to the client. -/
theorem newConnection {k : Nat} (h : Idle c) (hhandler : c.handler = some k)
    (hstate : c.state_ = .kConnected) : Shows c.newConnection (.connected k) := by
  refine ⟨h.posted, h.inFlight, h.retryTimers, ?_, hhandler, hstate, h.wanted⟩
  show c.connections ++ c.handler.toList = [k]
  rw [h.connections, hhandler]
  rfl

end Idle

/-- What a completion of the attempt `k` makes of the connector `c`: a retry or a connection. -/
inductive Completes (c : Connector) (error : Errc) (getOption : GetOption) (k : Nat)
    (c' : Connector) : Prop
  | retries (hfails : ¬ (error.Connects ∧ getOption = .error 0))
      (hshows : Shows c' (.waiting c.retryDelayMs_))
      (hdelay : c'.retryDelayMs_ = min (c.retryDelayMs_ * 2) kMaxRetryDelayMs)
  | connects (hshows : Shows c' (.connected k)) (hdelay : c'.retryDelayMs_ = c.retryDelayMs_)

namespace Idle

variable {c : Connector} {k : Nat}

/-- From nothing begun, the handler of an attempt leads to a connection or to a timer. -/
theorem connecting (h : Idle c) (hhandler : c.handler = some k) (error : Errc) (errNum : Int) :
    Completes c error (.error errNum) k (c.connecting (.error errNum)) := by
  have hidle (state : States) : Idle (((c.setState .kConnecting).useSocket).setState state) :=
    ⟨h.posted, h.inFlight, h.retryTimers, h.connections, h.connection, h.wanted⟩
  rw [Connector.connecting]
  dsimp only
  split
  case isTrue hne =>
    obtain ⟨hshows, hdelay⟩ := (hidle .kConnecting).retry
    exact .retries (fun hsucceeds => hne (GetOption.error.inj hsucceeds.2)) hshows hdelay
  case isFalse =>
    have hwanted : ((c.setState .kConnecting).useSocket.setState .kConnected).connect_ = true :=
      h.wanted
    rw [if_pos hwanted]
    exact .connects ((hidle .kConnected).newConnection hhandler rfl) rfl

/-- So does the completion as a whole, for every transient error. -/
theorem completed (h : Idle c) (hhandler : c.handler = some k) {error : Errc}
    {getOption : GetOption} (htransient : error.Retries ∨ error.Connects ∧ getOption ≠ .ec) :
    Completes c error getOption k (c.completed error getOption) := by
  obtain ⟨hshows, hdelay⟩ := h.retry
  have hretry : ¬ error.Connects → Completes c error getOption k c.retry :=
    fun hfails => .retries (fun hsucceeds => hfails hsucceeds.1) hshows hdelay
  have hconnecting : getOption ≠ .ec →
      Completes c error getOption k (c.connecting getOption) := by
    intro hoption
    cases getOption with
    | ec => exact absurd rfl hoption
    | error errNum => exact h.connecting hhandler error errNum
  rcases htransient with hretries | ⟨hconnects, hoption⟩
  · cases error <;> first | exact hretry id | cases hretries
  · cases error <;> first | exact hconnecting hoption | cases hconnects

end Idle

/-! ## One event

  One lemma for each kind of event, from the phase in which it is taken to the next. -/

/-- The phase `p'` after an event: that before, if the event is not taken, or the next one. -/
inductive Next (c : Connector) (p : Phase) (e : Event) (c' : Connector) (p' : Phase) : Prop
  | stays (htakes : ¬ e.Takes c) (hsame : c' = c) (hp : p' = p)
  /-- An attempt is begun. -/
  | begins (hp : p = .starting ∨ ∃ delay, p = .waiting delay) (hp' : p' = .connecting c.attempts)
      (hdelay : c'.retryDelayMs_ = c.retryDelayMs_) (hrestarts : ¬ e.Restarts c)
  | retries {attempt : Nat} (hp : p = .connecting attempt) (hp' : p' = .waiting c.retryDelayMs_)
      (hdelay : c'.retryDelayMs_ = min (c.retryDelayMs_ * 2) kMaxRetryDelayMs)
      (hfails : e.Fails c) (hrestarts : ¬ e.Restarts c)
  | connects {attempt : Nat} (hp : p = .connecting attempt) (hp' : p' = .connected attempt)
      (hdelay : c'.retryDelayMs_ = c.retryDelayMs_) (hrestarts : ¬ e.Restarts c)
  /-- The connection closes; the delay starts over. -/
  | reconnects {attempt : Nat} (hp : p = .connected attempt) (hp' : p' = .connecting c.attempts)
      (hdelay : c'.retryDelayMs_ = kInitRetryDelayMs) (hrestarts : e.Restarts c)

/-- The event does not fail, and leads to a phase. -/
def LeadsOn (c : Connector) (p : Phase) (e : Event) : Prop :=
  ∃ c' p', c.step e = .ok c' ∧ Shows c' p' ∧ Next c p e c' p'

section Steps

variable {c : Connector} {p : Phase}

/-- An event about something that is not there changes nothing. -/
theorem LeadsOn.stays {e : Event} (h : Shows c p) (htakes : ¬ e.Takes c)
    (hstep : c.step e = .ok c) :
    LeadsOn c p e := ⟨c, p, hstep, h, .stays htakes rfl rfl⟩

/-- A posted handler leads on: it is the one of the start. -/
theorem runPosted_leads (h : Shows c p) (i : Nat) : LeadsOn c p (.runPosted i) := by
  cases hi : c.posted[i]? with
  | none =>
    refine .stays h (Nat.not_lt.mpr (List.getElem?_eq_none_iff.mp hi)) ?_
    rw [step, runPosted, hi]
    rfl
  | some task =>
    -- the posted start is the one thing under way
    cases p with
    | starting =>
      obtain ⟨rfl, hposted⟩ := only_get h.posted hi
      have hidle : Idle { c with posted := c.posted.eraseIdx i } :=
        ⟨hposted, h.inFlight, h.retryTimers, h.connections, h.connection, h.wanted⟩
      obtain ⟨c', hc', hconnecting, hdelay⟩ := hidle.startInThisThread h.state
      refine ⟨c', _, ?_, hconnecting, .begins (.inl rfl) rfl hdelay id⟩
      rw [step, runPosted, hi]
      exact hc'
    | connecting _ | waiting _ | connected _ =>
      rw [h.posted] at hi
      cases hi

/-- A retry timer leads on to an attempt. -/
theorem retryTimer_leads (h : Shows c p) (i : Nat) : LeadsOn c p (.retryTimer i) := by
  cases hi : c.retryTimers[i]? with
  | none =>
    refine .stays h (Nat.not_lt.mpr (List.getElem?_eq_none_iff.mp hi)) ?_
    rw [step, retryTimer, hi]
    rfl
  | some delay =>
    cases p with
    | waiting d =>
      obtain ⟨-, htimers⟩ := only_get h.retryTimers hi
      have hidle : Idle { c with retryTimers := c.retryTimers.eraseIdx i } :=
        ⟨h.posted, h.inFlight, htimers, h.connections, h.connection, h.wanted⟩
      obtain ⟨c', hc', hconnecting, hdelay⟩ := hidle.startInThisThread h.state
      refine ⟨c', _, ?_, hconnecting, .begins (.inr ⟨d, rfl⟩) rfl hdelay id⟩
      rw [step, retryTimer, hi]
      exact hc'
    | starting | connecting _ | connected _ =>
      rw [h.retryTimers] at hi
      cases hi

/-- **A completed attempt leads on** to a connection or to a timer. -/
theorem complete_leads (h : Shows c p) {i : Nat} {error : Errc} {getOption : GetOption}
    (htransient : Event.Transient (.complete i error getOption)) :
    LeadsOn c p (.complete i error getOption) := by
  cases hi : c.inFlight[i]? with
  | none =>
    refine .stays h (Nat.not_lt.mpr (List.getElem?_eq_none_iff.mp hi)) ?_
    rw [step, complete, hi]
    rfl
  | some k =>
    cases p with
    | connecting attempt =>
      obtain ⟨rfl, hflight⟩ := only_get h.inFlight hi
      have hidle : Idle { c with inFlight := c.inFlight.eraseIdx i, handler := some k } :=
        ⟨h.posted, hflight, h.retryTimers, h.connections, h.connection, h.wanted⟩
      have hcompletes := hidle.completed rfl htransient
      rw [LeadsOn, step, complete, hi]
      dsimp only
      -- the handler is left, and with it nothing a phase is about
      cases hcompletes with
      | retries hfails hwaits hdelay =>
        have hflying : i < c.inFlight.length := (List.getElem?_eq_some_iff.mp hi).1
        refine ⟨_, _, rfl, ?_, .retries rfl rfl hdelay ⟨hflying, hfails⟩ id⟩
        exact ⟨hwaits.posted, hwaits.inFlight, hwaits.retryTimers, hwaits.connections,
          hwaits.connection, hwaits.state, hwaits.wanted⟩
      | connects hconnected hdelay =>
        refine ⟨_, _, rfl, ?_, .connects rfl rfl hdelay id⟩
        exact ⟨hconnected.posted, hconnected.inFlight, hconnected.retryTimers,
          hconnected.connections, hconnected.connection, hconnected.state, hconnected.wanted⟩
    | starting | waiting _ | connected _ =>
      rw [h.inFlight] at hi
      cases hi

/-- **A close with a restart leads on** to an attempt, and the delays begin again. -/
theorem closed_leads (h : Shows c p) (i : Nat) : LeadsOn c p (.closed i true) := by
  cases hi : c.connections[i]? with
  | none =>
    refine .stays h (Nat.not_lt.mpr (List.getElem?_eq_none_iff.mp hi)) ?_
    rw [step, closed, hi]
    rfl
  | some k =>
    cases p with
    | connected attempt =>
      have hrestarts : Event.Restarts c (.closed i true) :=
        ⟨(List.getElem?_eq_some_iff.mp hi).1, rfl⟩
      obtain ⟨rfl, hrest⟩ := only_get h.connections hi
      have hconn : c.connection_ = some k := h.connection
      have hidle : Idle { c with
          connections := c.connections.eraseIdx i, connection_ := none,
          state_ := .kDisconnected, retryDelayMs_ := kInitRetryDelayMs, connect_ := true } :=
        ⟨h.posted, h.inFlight, h.retryTimers, hrest, rfl, rfl⟩
      obtain ⟨c', hc', hconnecting, hdelay⟩ := hidle.startInThisThread rfl
      refine ⟨c', _, ?_, hconnecting, .reconnects rfl rfl hdelay hrestarts⟩
      rw [step, closed, hi]
      dsimp only
      rw [removeConnection, require_pos _ _ hconn, ok_bind]
      exact hc'
    | starting | connecting _ | waiting _ =>
      rw [h.connections] at hi
      cases hi

/-- **One event** leads to a phase. -/
theorem step_leads (h : Shows c p) (e : Event) (he : e.Transient) : LeadsOn c p e := by
  cases e with
  | start _ => exact he.elim
  | stop _ => exact he.elim
  | runPosted i => exact runPosted_leads h i
  | complete i error getOption => exact complete_leads h he
  | retryTimer i => exact retryTimer_leads h i
  | closed i reconnect =>
    obtain rfl : reconnect = true := he
    exact closed_leads h i

end Steps

/-! ## The delays of a run

  The delays armed are a ghost of the run: the code keeps the next one only. -/

/-- A connector with the delays it has armed since the last start, oldest first. -/
structure Paced where
  connector : Connector
  /-- The delays of the retry timers armed since the last start. -/
  armed : List Nat

namespace Paced

/-- A new connector has armed none. -/
def new : Paced := ⟨Connector.new, []⟩

/-- A step adds the delay that it arms; a restart begins a new list. -/
def next (s : Paced) (e : Event) (c : Connector) : Paced where
  connector := c
  armed :=
    if e.Restarts s.connector then []
    else s.armed ++ c.retryTimers.drop s.connector.retryTimers.length

/-- One step. -/
def step (s : Paced) (e : Event) : Outcome Fault Paced Paced := do
  let c ← within (fun c => ⟨c, s.armed⟩) (s.connector.step e)
  return s.next e c

/-- One thing is under way, and the delays are those of the backoff. -/
structure Persists (s : Paced) : Prop where
  one : s.connector.posted.length + s.connector.inFlight.length +
    s.connector.retryTimers.length + s.connector.connections.length = 1
  armed_eq : s.armed = (List.range s.armed.length).map backoff
  /-- The armed timer, if there is one, is the last of them. -/
  last : ∀ delay ∈ s.connector.retryTimers, s.armed.getLast? = some delay

/-- The invariant, in the phase `p`. -/
structure Inv (s : Paced) (p : Phase) : Prop where
  shows : Shows s.connector p
  delay : s.connector.retryDelayMs_ = backoff s.armed.length
  armed_eq : s.armed = (List.range s.armed.length).map backoff
  last : ∀ delay ∈ p.retryTimers, s.armed.getLast? = some delay

/-- The invariant has the property in it: the phase is one of the four, and the delays are those
    of the list. -/
theorem Inv.persists {s : Paced} {p : Phase} (h : Inv s p) : s.Persists where
  one := h.shows.one
  armed_eq := h.armed_eq
  last := by
    rw [h.shows.retryTimers]
    exact h.last

variable {s : Paced} {p : Phase}

/-- No retry timer was armed. -/
theorem next_armed {e : Event} {c : Connector} (hrestarts : ¬ e.Restarts s.connector)
    (htimers : c.retryTimers.length ≤ s.connector.retryTimers.length) :
    (s.next e c).armed = s.armed := by
  rw [next, if_neg hrestarts, List.drop_eq_nil_of_le htimers, List.append_nil]

/-- A step that keeps the delay and arms nothing. -/
theorem Inv.keep {q : Phase} {e : Event} {c : Connector} (h : Inv s p) (hshows : Shows c q)
    (hdelay : c.retryDelayMs_ = s.connector.retryDelayMs_) (hrestarts : ¬ e.Restarts s.connector)
    (htimers : q.retryTimers = []) : Inv (s.next e c) q := by
  have harmed : (s.next e c).armed = s.armed := by
    apply next_armed hrestarts
    rw [hshows.retryTimers, htimers]
    exact Nat.zero_le _
  refine ⟨hshows, ?_, ?_, ?_⟩
  · rw [harmed]
    exact hdelay.trans h.delay
  · rw [harmed]
    exact h.armed_eq
  · rw [htimers]
    exact fun _ hmem => absurd hmem List.not_mem_nil

/-- A step that changes nothing. -/
theorem Inv.stay {e : Event} (h : Inv s p) (hrestarts : ¬ e.Restarts s.connector) :
    Inv (s.next e s.connector) p := by
  have harmed : (s.next e s.connector).armed = s.armed := next_armed hrestarts (Nat.le_refl _)
  refine ⟨h.shows, ?_, ?_, ?_⟩
  · rw [harmed]
    exact h.delay
  · rw [harmed]
    exact h.armed_eq
  · rw [harmed]
    exact h.last

/-- The next delay is armed. -/
theorem Inv.retry {e : Event} {c : Connector} (h : Inv s p) (hnone : p.retryTimers = [])
    (hshows : Shows c (.waiting s.connector.retryDelayMs_))
    (hdelay : c.retryDelayMs_ = min (s.connector.retryDelayMs_ * 2) kMaxRetryDelayMs)
    (hrestarts : ¬ e.Restarts s.connector) :
    Inv (s.next e c) (.waiting s.connector.retryDelayMs_) := by
  have harmed : (s.next e c).armed = s.armed ++ [backoff s.armed.length] := by
    rw [next, if_neg hrestarts, h.shows.retryTimers, hnone, hshows.retryTimers, h.delay]
    rfl
  refine ⟨hshows, ?_, ?_, ?_⟩
  · rw [harmed, List.length_append, List.length_singleton, backoff_succ, ← h.delay]
    exact hdelay
  · rw [harmed, List.length_append, List.length_singleton, List.range_succ, List.map_append,
      ← h.armed_eq]
    rfl
  · rintro delay hmem
    rw [List.mem_singleton.mp hmem, harmed, List.getLast?_concat, h.delay]

/-- The delays start over. -/
theorem Inv.restart {e : Event} {c : Connector}
    (hshows : Shows c (.connecting s.connector.attempts))
    (hdelay : c.retryDelayMs_ = kInitRetryDelayMs) (hrestarts : e.Restarts s.connector) :
    Inv (s.next e c) (.connecting s.connector.attempts) := by
  have harmed : (s.next e c).armed = [] := by
    rw [next, if_pos hrestarts]
  refine ⟨hshows, ?_, ?_, fun _ hmem => absurd hmem List.not_mem_nil⟩
  · rw [harmed]
    exact hdelay
  · rw [harmed]
    rfl

/-- Leading on keeps the invariant: a timer that is armed has the next delay of the sequence. -/
theorem Inv.next {p' : Phase} {e : Event} {c : Connector} (h : Inv s p) (hshows : Shows c p')
    (hnext : Next s.connector p e c p') : Inv (s.next e c) p' := by
  cases hnext with
  | stays htakes hsame hp =>
    subst hsame hp
    exact h.stay fun hrestarts => htakes hrestarts.takes
  | begins hp hp' hdelay hrestarts =>
    subst hp'
    exact h.keep hshows hdelay hrestarts rfl
  | retries hp hp' hdelay hfails hrestarts =>
    subst hp hp'
    exact h.retry rfl hshows hdelay hrestarts
  | connects hp hp' hdelay hrestarts =>
    subst hp'
    exact h.keep hshows hdelay hrestarts rfl
  | reconnects hp hp' hdelay hrestarts =>
    subst hp'
    exact .restart hshows hdelay hrestarts

/-- Some phase, and no failure. -/
abbrev Going (r : Outcome Fault Paced Paced) : Prop :=
  Holds (fun s => ∃ p, Inv s p) (fun _ => False) r

/-- **Every transient event keeps the connector going.** -/
theorem step_going (h : ∃ p, Inv s p) (e : Event) (he : e.Transient) : Going (s.step e) := by
  obtain ⟨p, h⟩ := h
  obtain ⟨c, p', hc, hshows, hnext⟩ := step_leads h.shows e he
  rw [step, hc]
  exact .ok ⟨p', h.next hshows hnext⟩

/-- The first event of a client. -/
theorem start_going (isInLoopThread : Bool) : Going (new.step (.start isInLoopThread)) := by
  have hnone : ∀ delay ∈ ([] : List Nat), ([] : List Nat).getLast? = some delay :=
    fun _ hmem => absurd hmem List.not_mem_nil
  cases isInLoopThread with
  | false => exact .ok ⟨.starting, ⟨rfl, rfl, rfl, rfl, rfl, rfl, rfl⟩, rfl, rfl, hnone⟩
  | true => exact .ok ⟨.connecting 0, ⟨rfl, rfl, rfl, rfl, rfl, rfl, rfl⟩, rfl, rfl, hnone⟩

/-! ## Every run

  A run is one `start()` and any transient events after it. -/

/-- **The client keeps trying**: after one `start()`, and as long as nobody calls `start()` or
    `stop()` again, no error is final and every close is followed by a restart, it has exactly
    one start, attempt, retry timer or connection at any time, and the `k`-th retry since the
    last (re)start waits `min (1000 * 2 ^ k) 30000` milliseconds. -/
theorem keeps_trying (isInLoopThread : Bool) (es : List Event) (hes : ∀ e ∈ es, e.Transient) :
    Holds Persists (fun _ => False) (run step new (.start isInLoopThread :: es)) := by
  rw [run_cons]
  refine (start_going isInLoopThread).bind fun s hs => ?_
  apply (run_holds (fun s e h he => step_going h e he) es s hs
    (.of_mem s fun e he _ => hes e he)).mono
  · rintro s ⟨p, hp⟩
    exact hp.persists
  · exact fun _ h => h

/-- Refused twice, connected, closed and refused again. -/
theorem keeps_trying_refused :
    Holds Persists (fun _ => False)
      (run step new [.start false, .runPosted 0, .complete 0 .connection_refused .ec, .retryTimer 0,
        .complete 0 .network_unreachable .ec, .retryTimer 0, .complete 0 .success (.error 0),
        .closed 0 true, .complete 0 .already_connected (.error 111)]) :=
  keeps_trying false _ (by decide)

end Paced

end Connector

end IOEvent
