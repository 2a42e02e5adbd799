/-
  The state of a connector agrees with what it is doing.

  `startInThisThread` asserts `state_ == kDisconnected`, so every branch in which a connector
  gives up has to restore that state by hand.  `Session` adds what the user of the connector
  knows: whether a socket was handed out since the last `start()` or `restart()`.  A session is
  FREE when nothing is in flight, no retry timer is armed and no socket was handed out; `Agrees`
  says that the state of a free session is `kDisconnected`, that it can be started, and that no
  `start()` issued in a free session has made the assertion fail, be it executed at once or as a
  posted handler.

  Three things break this.  Two branches of `connecting` forget the state: `get_option` fails, or
  the connect succeeded after a `stop()`.  Both close the socket and leave `kConnecting` or
  `kConnected` behind.  Then, the state is still `kConnected` when the connection has closed
  without a restart, and a `start()` takes it for what it was.  And a `start()` from another
  thread looks at the state only when its handler runs; a socket may have been handed out in
  between.

  `Restores` says that an event is none of these.  Every event then moves the state as `Moves`
  says, and that is enough for `Settled`: the state is `kDisconnected`, or a socket was handed
  out.
-/
import IOEvent.Connector

open Foundation

namespace IOEvent

/-- The error codes that take the handler of `async_connect` to `connecting`. -/
def Errc.Connects : Errc → Prop
  | .success | .operation_in_progress | .interrupted | .already_connected => True
  | _ => False

/-- Whether an error connects is read off it. -/
instance : DecidablePred Errc.Connects := fun error => by
  unfold Errc.Connects
  split <;> infer_instance

namespace Connector

/-! ## The session

  `Session` is a connector with three things that it does not keep itself, which the property
  is about. -/

/-- The event starts the connector: a call of `start()`, the handler of one from another thread, or
    the `restart()` that the client makes when its connection closes. -/
def Event.starts (c : Connector) : Event → Bool
  | .start _ => true
  | .runPosted i => decide (c.posted[i]? = some .startInThisThread)
  | .closed i reconnect => decide (i < c.connections.length) && reconnect
  | .stop _ | .complete _ _ _ | .retryTimer _ => false

/-- A connector with what the property has to remember: whether a socket was handed over since the
    last start, for each posted handler whether it belongs to a start that was issued free, and
    whether such a start has failed. -/
structure Session where
  connector : Connector
  /-- A socket was handed to `newConnectionCallback_` since the last `start()` or `restart()`. -/
  handed : Bool
  /-- For each posted handler, whether it is that of a `start()` issued in a free session. -/
  issued : List Bool
  /-- The assertion of `startInThisThread` has failed for a `start()` issued in a free session. -/
  failed : Bool

/-- What the loop and the user do.  Here `restart()` may be called at any time, not only when the
    connection of the client closes. -/
inductive Call
  | event (e : Event)
  | restart
  deriving DecidableEq

namespace Call

/-- Whether the call starts the connector, so that what was handed out before it does not count. -/
def starts (c : Connector) : Call → Bool
  | .event e => e.starts c
  | .restart => true

/-- The call is one of `start()`. -/
def isStart : Call → Bool
  | .event (.start _) => true
  | _ => false

end Call

namespace Session

/-- A new connector: nothing handed over, nothing issued. -/
def new : Session := ⟨Connector.new, false, [], false⟩

/-- No attempt is in flight, no retry timer is armed, no socket was handed out. -/
structure Free (s : Session) : Prop where
  no_attempt : s.connector.inFlight = []
  no_timer : s.connector.retryTimers = []
  not_handed : s.handed = false

/-- Being free is three things that can be read off the session. -/
theorem free_iff {s : Session} : s.Free ↔
    s.connector.inFlight = [] ∧ s.connector.retryTimers = [] ∧ s.handed = false :=
  ⟨fun h => ⟨h.no_attempt, h.no_timer, h.not_handed⟩, fun h => ⟨h.1, h.2.1, h.2.2⟩⟩

/-- So it can be computed. -/
instance (s : Session) : Decidable s.Free := decidable_of_iff _ free_iff.symm

/-- The marks of the handlers that are posted after the call. -/
def issuedAfter (s : Session) : Call → List Bool
  | .event (.start false) => s.issued ++ [decide s.Free]
  | .event (.stop false) => s.issued ++ [false]
  | .event (.runPosted i) => s.issued.eraseIdx i
  | _ => s.issued

/-- The call executes a `start()` that was issued in a free session. -/
def executesFree (s : Session) : Call → Bool
  | .event (.start true) => decide s.Free
  | .event (.runPosted i) => decide (s.issued[i]? = some true)
  | _ => false

/-- The session after the connector has become `c`: a start clears the flag, a socket handed out
    sets it. -/
def next (s : Session) (call : Call) (c : Connector) : Session where
  connector := c
  handed :=
    if call.starts s.connector then false
    else if s.connector.connections.length < c.connections.length then true
    else s.handed
  issued := s.issuedAfter call
  failed := s.failed

/-- The session in which an assertion has failed, with the connector `c`. -/
def fail (s : Session) (call : Call) (c : Connector) : Session where
  connector := c
  handed := s.handed && !call.isStart
  issued := s.issuedAfter call
  failed := s.executesFree call

/-- What a call does to the connector. -/
def perform (c : Connector) : Call → M
  | .event e => c.step e
  | .restart => c.restart

/-- One call. A failed assertion ends the run, and is remembered when the start was issued free. -/
def step (s : Session) (call : Call) : Outcome Fault Session Session := do
  let c ← within (s.fail call) (perform s.connector call)
  return s.next call c

/-- The property: while the session is free the state is `kDisconnected`, a start is accepted, and
    no start that was issued free has failed. -/
structure Agrees (s : Session) : Prop where
  disconnected : s.Free → s.connector.state_ = .kDisconnected
  /-- The assertion of `startInThisThread` does not fail. -/
  starts : s.Free → ∃ c, s.connector.start true = .ok c
  /-- Nor has it failed for a `start()` issued in a free session. -/
  not_failed : s.failed = false

/-- A completion that reaches the end of `connecting` has the option, and finds that the connect
    failed or that it is still wanted; a `start()` is called in the state `kDisconnected`; and
    one that was posted in a free session finds that state when it is executed. -/
def Restores (s : Session) : Call → Prop
  | .event (.complete _ error getOption) =>
    error.Connects → getOption ≠ .ec ∧ (getOption = .error 0 → s.connector.connect_ = true)
  | .event (.start _) => s.connector.state_ = .kDisconnected
  | .event (.runPosted i) => s.issued[i]? = some true → s.connector.state_ = .kDisconnected
  | _ => True

/-- Whether a call meets the condition can be computed. -/
instance (s : Session) (call : Call) : Decidable (Restores s call) := by
  unfold Restores
  split <;> infer_instance

/-- The invariant: the state is restored, unless a socket was handed out. -/
structure Settled (s : Session) : Prop where
  restored : s.connector.state_ = .kDisconnected ∨ s.handed = true
  not_failed : s.failed = false

end Session

/-! ## What an event does to the state

  As long as the condition is met, an event keeps the state, restores `kDisconnected`, or hands
  a socket over.  Which branch of the code it goes through makes no difference to the property. -/

variable {s : Connector}

/-- The connector `s` becomes `c`. -/
inductive Moves (s c : Connector) : Prop
  | kept (hstate : c.state_ = s.state_) (hconns : c.connections.length ≤ s.connections.length)
  | disconnected (hstate : c.state_ = .kDisconnected)
  | handed (hconns : s.connections.length < c.connections.length)

/-- Behind `retry` the state is `kDisconnected`. -/
@[simp] theorem retry_state : s.retry.state_ = .kDisconnected := by
  unfold retry
  dsimp only
  split <;> rfl

/-- Behind `startInThisThread` too; a failed one leaves the state. -/
theorem startInThisThread_state :
    Holds (fun c => c.state_ = .kDisconnected) (fun e => e.2.state_ = s.state_)
      s.startInThisThread := by
  rw [startInThisThread]
  by_cases hstate : s.state_ = .kDisconnected
  · rw [require_pos _ _ hstate, ok_bind]
    split
    · exact .ok hstate
    · exact .ok hstate
  · rw [require_neg _ _ hstate, error_bind]
    apply Holds.error
    rfl

/-- In `kDisconnected` it is accepted. -/
theorem startInThisThread_ok (hstate : s.state_ = .kDisconnected) :
    ∃ c, s.startInThisThread = .ok c ∧ c.state_ = .kDisconnected := by
  rw [startInThisThread, require_pos _ _ hstate, ok_bind]
  split
  · exact ⟨s.connect, rfl, hstate⟩
  · exact ⟨s, rfl, hstate⟩

/-- `stopInThisThread` ends in `kDisconnected`, or changes nothing. -/
theorem stopInThisThread_moves : Moves s s.stopInThisThread := by
  unfold stopInThisThread
  split
  · apply Moves.disconnected
    simp
  · exact .kept rfl (Nat.le_refl _)

/-- Called for the attempt `k`, with the option at hand. -/
theorem connecting_moves {k : Nat} {errNum : Int} (hhandler : s.handler = some k)
    (hwanted : errNum = 0 → s.connect_ = true) : Moves s (s.connecting (.error errNum)) := by
  rw [connecting]
  dsimp only
  split
  case isTrue =>
    apply Moves.disconnected
    simp
  case isFalse hzero =>
    have hconnect : s.connect_ = true := hwanted (not_not.mp hzero)
    split
    case isTrue =>
      apply Moves.handed
      show s.connections.length < (s.connections ++ s.handler.toList).length
      simp [hhandler]
    case isFalse hnot => exact absurd hconnect hnot

/-- **A completed attempt** ends in `kDisconnected`, or in `kConnected` with its socket handed
    over, under the condition: without it the state is set before the flag or the socket is looked
    at, and stays. -/
theorem completed_moves {k : Nat} (hhandler : s.handler = some k) (error : Errc)
    (getOption : GetOption)
    (hrestores : error.Connects → getOption ≠ .ec ∧ (getOption = .error 0 → s.connect_ = true)) :
    Moves s (s.completed error getOption) := by
  have hconnecting : error.Connects → Moves s (s.connecting getOption) := by
    intro hconnects
    obtain ⟨hoption, hwanted⟩ := hrestores hconnects
    cases getOption with
    | ec => exact absurd rfl hoption
    | error errNum =>
      apply connecting_moves hhandler
      intro hzero
      exact hwanted (by rw [hzero])
  have hretry : Moves s s.retry := .disconnected retry_state
  have hclose : Moves s s.useSocket := .kept rfl (Nat.le_refl _)
  cases error with
  | success => exact hconnecting trivial
  | operation_in_progress => exact hconnecting trivial
  | interrupted => exact hconnecting trivial
  | already_connected => exact hconnecting trivial
  | _ => assumption

/-- What is left of a start of the connector `s'`, which has the state of `s`. -/
theorem startInThisThread_moves {s' : Connector} (hstate : s'.state_ = s.state_) :
    Holds (Moves s) (fun e => e.2.state_ = s.state_) s'.startInThisThread := by
  apply startInThisThread_state.mono
  · exact fun c hc => .disconnected hc
  · exact fun e he => he.trans hstate

/-- A restart does not fail. -/
theorem restart_ok : ∃ c, s.restart = .ok c ∧ c.state_ = .kDisconnected := by
  rw [restart]
  apply startInThisThread_ok
  rfl

/-- What matters of the connector before. -/
theorem Moves.of_same {s' c : Connector} (h : Moves s' c) (hstate : s'.state_ = s.state_)
    (hconns : s'.connections.length = s.connections.length) : Moves s c := by
  cases h with
  | kept h1 h2 => exact .kept (h1.trans hstate) (hconns ▸ h2)
  | disconnected h1 => exact .disconnected h1
  | handed h1 => exact .handed (hconns ▸ h1)

/-- The same of the handler as a whole. -/
theorem complete_moves (i : Nat) (error : Errc) (getOption : GetOption)
    (hrestores : error.Connects → getOption ≠ .ec ∧ (getOption = .error 0 → s.connect_ = true)) :
    Moves s (s.complete i error getOption) := by
  unfold complete
  split
  case h_1 => exact .kept rfl (Nat.le_refl _)
  case h_2 k hk =>
    have hmoves := completed_moves
      (s := { s with inFlight := s.inFlight.eraseIdx i, handler := some k }) rfl error getOption
      hrestores
    cases hmoves with
    | kept hstate hconns => exact .kept hstate hconns
    | disconnected hstate => exact .disconnected hstate
    | handed hconns => exact .handed hconns

/-- A close moves the state only by a restart. -/
theorem closed_moves (i : Nat) (reconnect : Bool) :
    Holds (Moves s) (fun e => e.2.state_ = s.state_) (s.closed i reconnect) := by
  unfold closed
  split
  case h_1 => exact .ok (.kept rfl (Nat.le_refl _))
  case h_2 k hk =>
    rw [removeConnection]
    by_cases hconn : s.connection_ = some k
    · rw [require_pos _ _ hconn, ok_bind]
      dsimp only
      split
      · obtain ⟨c, hc, hstate⟩ := restart_ok
          (s := { s with connections := s.connections.eraseIdx i, connection_ := none })
        rw [hc]
        exact .ok (.disconnected hstate)
      · exact .ok (.kept rfl (List.length_eraseIdx_le s.connections i))
    · rw [require_neg _ _ hconn, error_bind]
      exact .error rfl

/-- Every event moves the state as `Moves` says, and no failure changes it. -/
theorem perform_moves {session : Session} {call : Call} (hrestores : session.Restores call) :
    Holds (Moves session.connector) (fun e => e.2.state_ = session.connector.state_)
      (Session.perform session.connector call) := by
  cases call with
  | restart =>
    show Holds _ _ session.connector.restart
    obtain ⟨c, hc, hstate⟩ := restart_ok (s := session.connector)
    rw [hc]
    exact .ok (.disconnected hstate)
  | event e =>
    cases e with
    -- from another thread a call only posts its handler
    | start isInLoopThread =>
      cases isInLoopThread with
      | true => exact startInThisThread_moves rfl
      | false => exact .ok (.kept rfl (Nat.le_refl _))
    | stop isInLoopThread =>
      cases isInLoopThread with
      | true =>
        apply Holds.ok
        exact stopInThisThread_moves.of_same rfl rfl
      | false => exact .ok (.kept rfl (Nat.le_refl _))
    -- a posted handler runs as the call does on the loop thread
    | runPosted i =>
      show Holds _ _ (session.connector.runPosted i)
      unfold runPosted
      split
      case h_1 => exact .ok (.kept rfl (Nat.le_refl _))
      case h_2 task htask =>
        cases task with
        | startInThisThread => exact startInThisThread_moves rfl
        | stopInThisThread =>
          apply Holds.ok
          exact stopInThisThread_moves.of_same rfl rfl
    | complete i error getOption => exact .ok (complete_moves i error getOption hrestores)
    | retryTimer i =>
      show Holds _ _ (session.connector.retryTimer i)
      unfold retryTimer
      split
      case h_1 => exact .ok (.kept rfl (Nat.le_refl _))
      case h_2 => exact startInThisThread_moves rfl
    | closed i reconnect => exact closed_moves i reconnect

namespace Session

variable {s : Session} {call : Call}

/-- A start that succeeds leaves `kDisconnected`, until its attempt completes. -/
theorem starts_disconnected {c : Connector} (hrestores : s.Restores call)
    (hstarts : call.starts s.connector = true) (h : perform s.connector call = .ok c) :
    c.state_ = .kDisconnected := by
  -- a start that goes through leaves the state at `kDisconnected`
  have hexecuted {c' : Connector} (h : c'.startInThisThread = .ok c) :
      c.state_ = .kDisconnected := by
    have hstate := startInThisThread_state (s := c')
    rw [h] at hstate
    cases hstate with
    | ok hdisconnected => exact hdisconnected
  -- so does a restart
  have hrestarted {c' : Connector} (h : c'.restart = .ok c) : c.state_ = .kDisconnected := by
    obtain ⟨c₁, hc₁, hstate⟩ := restart_ok (s := c')
    obtain rfl : c₁ = c := Except.ok.inj (hc₁.symm.trans h)
    exact hstate
  -- the calls that start an attempt; the others contradict `starts`
  cases call with
  | restart => exact hrestarted h
  | event e =>
    cases e with
    | start isInLoopThread =>
      cases isInLoopThread with
      | true => exact hexecuted h
      | false =>
        obtain rfl := Except.ok.inj h
        exact hrestores
    | runPosted i =>
      have htask : s.connector.posted[i]? = some .startInThisThread := of_decide_eq_true hstarts
      rw [perform, Connector.step, runPosted, htask] at h
      exact hexecuted h
    | closed i reconnect =>
      obtain ⟨hi, rfl⟩ := Bool.and_eq_true_iff.mp hstarts
      have hlt : i < s.connector.connections.length := of_decide_eq_true hi
      rw [perform, Connector.step, closed, List.getElem?_eq_getElem hlt] at h
      dsimp only at h
      rw [removeConnection] at h
      obtain ⟨-, -, h⟩ := bind_ok h
      exact hrestarted h
    | stop => cases hstarts
    | complete => cases hstarts
    | retryTimer => cases hstarts

/-- A `start()` issued in a free session does not fail. -/
theorem executesFree_ok (hrestores : s.Restores call) (hfree : s.executesFree call = true)
    (hstate : s.Free → s.connector.state_ = .kDisconnected) :
    ∃ c, perform s.connector call = .ok c := by
  cases call with
  | restart => cases hfree
  | event e =>
    cases e with
    | start isInLoopThread =>
      cases isInLoopThread with
      | true =>
        obtain ⟨c, hc, -⟩ := startInThisThread_ok (s := { s.connector with connect_ := true })
          (hstate (of_decide_eq_true hfree))
        exact ⟨c, hc⟩
      | false => cases hfree
    -- `Restores` says that the posted start finds the state restored
    | runPosted i =>
      have hposted : s.connector.state_ = .kDisconnected := hrestores (of_decide_eq_true hfree)
      show ∃ c, s.connector.runPosted i = .ok c
      unfold runPosted
      split
      case h_1 => exact ⟨_, rfl⟩
      case h_2 task htask =>
        cases task with
        | startInThisThread =>
          obtain ⟨c, hc, -⟩ := startInThisThread_ok
            (s := { s.connector with posted := s.connector.posted.eraseIdx i }) hposted
          exact ⟨c, hc⟩
        | stopInThisThread => exact ⟨_, rfl⟩
    | stop => cases hfree
    | complete => cases hfree
    | retryTimer => cases hfree
    | closed => cases hfree

/-- The state of a free session. -/
theorem Settled.disconnected (h : s.Settled) (hfree : s.Free) :
    s.connector.state_ = .kDisconnected := by
  rcases h.restored with hstate | hhanded
  · exact hstate
  · rw [hfree.not_handed] at hhanded
    cases hhanded

/-- The invariant has the property in it. -/
theorem Settled.agrees (h : s.Settled) : s.Agrees := by
  refine ⟨h.disconnected, fun hfree => ?_, h.not_failed⟩
  obtain ⟨c, hc, -⟩ := startInThisThread_ok (s := { s.connector with connect_ := true })
    (h.disconnected hfree)
  exact ⟨c, hc⟩

/-- A call that succeeds: one that starts the connector leaves `kDisconnected`, and any other
    keeps the flag, or sets it when it hands out a socket. -/
theorem Settled.next {c : Connector} (h : s.Settled) (hrestores : s.Restores call)
    (hmoves : Moves s.connector c) (hc : perform s.connector call = .ok c) :
    (s.next call c).Settled := by
  refine ⟨?_, h.not_failed⟩
  by_cases hstarts : call.starts s.connector = true
  · exact .inl (starts_disconnected hrestores hstarts hc)
  · cases hmoves with
    | kept hstate hconns =>
      have hhanded : (s.next call c).handed = s.handed := by
        rw [Session.next, if_neg hstarts, if_neg (Nat.not_lt.mpr hconns)]
      show c.state_ = _ ∨ (s.next call c).handed = true
      rw [hstate, hhanded]
      exact h.restored
    | disconnected hstate => exact .inl hstate
    | handed hconns =>
      apply Or.inr
      rw [Session.next, if_neg hstarts, if_pos hconns]

/-- A call that fails: it is not a `start()` issued in a free session, nor one called outside
    `kDisconnected`, so that it has not touched the flag. -/
theorem Settled.fail {f : Fault} {c : Connector} (h : s.Settled) (hrestores : s.Restores call)
    (hstate : c.state_ = s.connector.state_) (hc : perform s.connector call = .error (f, c)) :
    (s.fail call c).Settled := by
  have hnot : s.executesFree call = false := by
    by_contra hfree
    obtain ⟨c', hc'⟩ := executesFree_ok hrestores (eq_true_of_ne_false hfree) h.disconnected
    cases hc.symm.trans hc'
  refine ⟨?_, hnot⟩
  show c.state_ = _ ∨ (s.handed && !call.isStart) = true
  rw [hstate]
  by_cases hstart : call.isStart = true
  · obtain ⟨isInLoopThread, rfl⟩ : ∃ isInLoopThread, call = .event (.start isInLoopThread) := by
      unfold Call.isStart at hstart
      split at hstart
      · exact ⟨_, rfl⟩
      · cases hstart
    exact .inl hrestores
  · rw [Bool.eq_false_iff.mpr hstart]
    simpa using h.restored

/-- **Every call under the condition keeps the invariant.** -/
theorem step_settled (h : s.Settled) (call : Call) (hrestores : s.Restores call) :
    Holds Settled (fun e => Settled e.2) (step s call) := by
  have hmoves := perform_moves hrestores
  rw [step]
  cases hperform : perform s.connector call with
  | error e =>
    rw [hperform] at hmoves
    cases hmoves with
    | error hstate => exact .error (h.fail hrestores hstate hperform)
  | ok c =>
    rw [hperform] at hmoves
    exact .ok (h.next hrestores (holds_ok.mp hmoves) hperform)

/-- **The state agrees with reality**: as long as the completions restore the state, no `start()` is
    called in another state than `kDisconnected`, and none that was posted in a free session is
    executed in another one, a connector that is neither trying nor connected is `kDisconnected` and
    can be started. -/
theorem state_agrees (calls : List Call) (hrestores : Guarded step Restores new calls) :
    Holds Agrees (fun e => Agrees e.2) (run step new calls) := by
  have hnew : new.Settled := ⟨.inl rfl, rfl⟩
  apply (run_holds (fun s call h hC => step_settled h call hC) calls new hnew hrestores).mono
  · exact fun s h => h.agrees
  · exact fun e h => h.agrees

section Examples

/-- The connect succeeds after a stop. -/
def connectedAfterStop : List Call :=
  [.event (.start true), .event (.stop true), .event (.complete 0 .success (.error 0))]

/-- `get_option` fails. -/
def optionFails : List Call := [.event (.start true), .event (.complete 0 .success .ec)]

/-- The connection closes and is not wanted again; later it is, by another thread. -/
def startedAgain : List Call :=
  [.event (.start true), .event (.complete 0 .success (.error 0)), .event (.closed 0 false),
    .event (.start false)]

/-- Another thread starts a free connector twice, and the first attempt succeeds before the
    handler of the second `start()` runs. -/
def startedTwice : List Call :=
  [.event (.start false), .event (.start false), .event (.runPosted 0),
    .event (.complete 0 .success (.error 0)), .event (.runPosted 0)]

/-- The connect is refused, the client stops and starts again on another thread. -/
theorem state_agrees_refused :
    Holds Agrees (fun e => Agrees e.2)
      (run step new [.event (.start true), .event (.complete 0 .success (.error 111)),
        .event (.stop true), .event (.retryTimer 0), .event (.start false),
        .event (.runPosted 0)]) :=
  state_agrees _ (by decide)

/-- A session that ends free in another state than `kDisconnected`. -/
theorem not_agrees {calls : List Call} {state : States} (hne : state ≠ .kDisconnected)
    (hend : (run step new calls).toOption.map (fun s =>
      (s.connector.inFlight, s.connector.retryTimers, s.handed, s.connector.state_)) =
        some ([], [], false, state)) :
    ¬ Holds Agrees (fun e => Agrees e.2) (run step new calls) := by
  generalize run step new calls = r at hend
  intro hholds
  cases hholds with
  | error h => cases hend
  | ok h =>
    rename_i s
    obtain ⟨hflight, htimers, hhanded, hstate⟩ :
        s.connector.inFlight = [] ∧ s.connector.retryTimers = [] ∧ s.handed = false ∧
          s.connector.state_ = state := by
      simpa using Option.some.inj hend
    exact hne (hstate ▸ h.disconnected ⟨hflight, htimers, hhanded⟩)

/-- **The state is lost**: it is left at `kConnected` and at `kConnecting`, and the assertion of
    the next `start()` fails; it is `kConnected` after a `start()` that comes when the connection
    has closed; and the assertion fails for a `start()` that was posted in a free session. -/
theorem state_lost :
    (¬ Holds Agrees (fun e => Agrees e.2) (run step new connectedAfterStop) ∧
      ¬ Holds Agrees (fun e => Agrees e.2) (run step new optionFails) ∧
      ¬ Holds Agrees (fun e => Agrees e.2) (run step new startedAgain) ∧
      ¬ Holds Agrees (fun e => Agrees e.2) (run step new startedTwice)) ∧
    ∀ calls ∈ [connectedAfterStop, optionFails, startedAgain],
      (run step new (calls ++ [.event (.start true)])).toOption.isNone := by
  refine ⟨⟨?_, ?_, ?_, ?_⟩, ?_⟩
  · exact not_agrees (by decide : States.kConnected ≠ _) (by decide)
  · exact not_agrees (by decide : States.kConnecting ≠ _) (by decide)
  · exact not_agrees (by decide : States.kConnected ≠ _) (by decide)
  · obtain ⟨e, he, hfailed⟩ : ∃ e, run step new startedTwice = .error e ∧ e.2.failed = true :=
      ⟨_, rfl, rfl⟩
    intro hholds
    rw [he] at hholds
    rw [(holds_error.mp hholds).not_failed] at hfailed
    cases hfailed
  · decide

end Examples

end Session

end Connector

end IOEvent
