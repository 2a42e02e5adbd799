/-
  After `stop()` the client stays quiet.

  A `stop()` that has returned opens a window in the log of the client, and the next call of
  `connect()` closes it.  `StopHolds` says that in no window an `async_connect` is started, a retry
  timer is armed or `newConnectionCallback_` is called.

  Two flags have to be off for that, the client's and the connector's: the connector's stops the
  posted starts, the retry timers, the completions and the retries, and the client's stops the one
  call that would set the connector's again, the `restart()` of a closing connection.  A `stop()`
  clears the client's flag first, so no handler that runs before it clears the other one can set
  that again.  This is `StopInv`: in a window both flags are off, and they are on the way there
  while a `stop()` runs on another thread.

  Calls of `connect()` and `stop()` must not overlap (`Sequential`).
-/
import IOEvent.Foundation.Windows
import IOEvent.TcpClient

open Foundation

namespace IOEvent

/-- What must not happen after a `stop()`. -/
def ClientObs.Active : ClientObs → Prop
  | .asyncConnect | .retryTimer | .newConnection => True
  | _ => False

/-- The calls that set or clear the flags of the client and its connector. -/
def ClientCall.Switches : ClientCall → Prop
  | .connect | .stop => True
  | _ => False

/-- Whether a call sets one of the flags is read off its constructor. -/
instance : DecidablePred ClientCall.Switches := fun c => by
  cases c <;> unfold ClientCall.Switches <;> infer_instance

namespace TcpClient

/-- The calls of user code in an event. -/
def Event.calls : Event → List ClientCall
  | .call c | .callElsewhere c => [c]
  | .complete _ _ _ _ calls | .io _ _ calls | .connectDestroyed _ _ calls => calls
  | .proceed _ | .runPosted _ | .retryTimer _ => []

/-- No call of `connect()` or `stop()` begins while another one runs. -/
def Sequential (s : TcpClient) (e : Event) : Prop := ∀ c ∈ e.calls, c.Switches → s.calls = []

/-- So whether the calls of an event are sequential can be computed. -/
instance (s : TcpClient) (e : Event) : Decidable (s.Sequential e) :=
  inferInstanceAs (Decidable (∀ c ∈ _, _ → _))

/-- `stop()` has returned, and `connect()` has not been called since. -/
def Stopped (s : TcpClient) : Prop := InWindow (· = .stopped) (· = .connect) s.log

/-- **`stop()` holds**: nothing is begun after it, until the next `connect()`. -/
def StopHolds (s : TcpClient) : Prop := Silent (· = .stopped) (· = .connect) ClientObs.Active s.log

/-! ## The invariant

  While the client is stopped both flags are off, so that nothing is begun.  A call on another
  thread is at one of four places, and the invariant has something to say about each. -/

/-- Both flags are off. -/
structure Blocked (s : TcpClient) : Prop where
  client : s.connect_ = false
  connector : s.connector_.connect_ = false

/-- The invariant: no two calls that set the flags overlap, and behind a `stop()` both flags are
    off, be it returned or about to dispatch. -/
structure StopInv (s : TcpClient) : Prop where
  holds : s.StopHolds
  alone : s.calls.length ≤ 1
  stopped : s.Stopped → s.Blocked
  starting : .setConnect ∈ s.calls ∨ .dispatchStart ∈ s.calls → ¬ s.Stopped
  clearing : .clearConnect ∈ s.calls → s.connect_ = false
  dispatching : .dispatchStop ∈ s.calls → s.Blocked

/-- What a handler, or a call on the loop thread, leaves. -/
def KeepsStop (s : TcpClient) (r : M) : Prop :=
  Holds (fun s' => StopInv s' ∧ s'.calls = s.calls) (fun e => StopInv e.2) r

variable {s s' : TcpClient}

/-- A new client was never stopped. -/
theorem new_stopInv (serverAddress : List Char) (cc mc : Bool) (nextConnId : Int) :
    StopInv (new serverAddress cc mc nextConnId) where
  holds := silent_nil
  alone := Nat.zero_le 1
  stopped := fun h => absurd h not_inWindow_nil
  starting := fun _ => not_inWindow_nil
  clearing := fun h => absurd h List.not_mem_nil
  dispatching := fun h => absurd h List.not_mem_nil

/-- Behind a change that leaves the calls, an operation that keeps it keeps it from the start. -/
theorem KeepsStop.trans (hcalls : s'.calls = s.calls) {r : M} (h : KeepsStop s' r) :
    KeepsStop s r :=
  h.mono (fun _ hs => ⟨hs.1, hs.2.trans hcalls⟩) fun _ he => he

/-- While the client is not stopped, and no `stop()` runs elsewhere, the flags do not matter. -/
theorem StopInv.of_not_stopped (hholds : s.StopHolds) (hnot : ¬ s.Stopped)
    (halone : s.calls.length ≤ 1)
    (hcalls : ∀ p ∈ s.calls, p = .setConnect ∨ p = .dispatchStart) : StopInv s where
  holds := hholds
  alone := halone
  stopped := fun h => absurd h hnot
  starting := fun _ => hnot
  clearing := by
    intro hmem
    rcases hcalls _ hmem with h | h <;> cases h
  dispatching := by
    intro hmem
    rcases hcalls _ hmem with h | h <;> cases h

/-- While both flags are off, and no `connect()` runs elsewhere, it does not matter whether the
    client is stopped. -/
theorem StopInv.of_blocked (hholds : s.StopHolds) (hblocked : s.Blocked)
    (halone : s.calls.length ≤ 1)
    (hcalls : ∀ p ∈ s.calls, p = .clearConnect ∨ p = .dispatchStop) : StopInv s where
  holds := hholds
  alone := halone
  stopped := fun _ => hblocked
  starting := by
    rintro (hmem | hmem) <;> rcases hcalls _ hmem with h | h <;> cases h
  clearing := fun _ => hblocked.client
  dispatching := fun _ => hblocked

namespace StopInv

/-- A change of what `stop()` has nothing to do with; the flags may go off. -/
theorem of_same (h : StopInv s) (hlog : s'.log = s.log) (hcalls : s'.calls = s.calls)
    (hclient : s.connect_ = false → s'.connect_ = false)
    (hconnector : s.connector_.connect_ = false → s'.connector_.connect_ = false) : StopInv s' := by
  have hstopped : s'.Stopped ↔ s.Stopped := by rw [Stopped, hlog, Stopped]
  have hblocked : s.Blocked → s'.Blocked := fun hb => ⟨hclient hb.client, hconnector hb.connector⟩
  constructor
  · rw [StopHolds, hlog]
    exact h.holds
  · rw [hcalls]
    exact h.alone
  · exact fun hs => hblocked (h.stopped (hstopped.mp hs))
  · rw [hcalls, hstopped]
    exact h.starting
  · rw [hcalls]
    exact fun hc => hclient (h.clearing hc)
  · rw [hcalls]
    exact fun hc => hblocked (h.dispatching hc)

/-- Something is recorded that neither opens nor closes a window. -/
theorem observe (h : StopInv s) {o : ClientObs} (hstopped : o ≠ .stopped) (hconnect : o ≠ .connect)
    (hactive : o.Active → ¬ s.Stopped) : StopInv (s.observe o) := by
  have hiff : (s.observe o).Stopped ↔ s.Stopped := by
    apply inWindow_append_singleton.trans
    simp only [hstopped, hconnect, false_or, not_false_eq_true, true_and]
    rfl
  constructor
  · exact silent_append_singleton.mpr ⟨h.holds, hactive⟩
  · exact h.alone
  · exact fun hs => ⟨(h.stopped (hiff.mp hs)).client, (h.stopped (hiff.mp hs)).connector⟩
  · exact fun hc => mt hiff.mp (h.starting hc)
  · exact h.clearing
  · exact fun hc => ⟨(h.dispatching hc).client, (h.dispatching hc).connector⟩

/-- `stop()` returns. -/
theorem returns (hholds : s.StopHolds) (hblocked : s.Blocked) (hcalls : s.calls = []) :
    StopInv (s.observe .stopped) := by
  have hnil : (s.observe .stopped).calls = [] := hcalls
  apply of_blocked
  · exact silent_append_singleton.mpr ⟨hholds, fun hactive => hactive.elim⟩
  · exact ⟨hblocked.client, hblocked.connector⟩
  · simp [hnil]
  · simp [hnil]

/-! ## The connector

  With its flag off it begins nothing, whatever handler is run: each of them looks at the flag
  first. -/

/-- A connector that is halted has begun nothing. -/
theorem begun_halted {c c' : Connector} (h : Connector.Halted c c') : begun c c' = [] := by
  rw [begun, h.attempts, h.timers, Nat.sub_self, Nat.sub_self]
  rfl

/-- Whatever the connector does while the client is not stopped. -/
theorem not_stopped (h : StopInv s) (hnot : ¬ s.Stopped) (c : Connector) :
    (s.setConnector c).StopHolds ∧ ¬ (s.setConnector c).Stopped := by
  apply Silent.append _ h.holds hnot
  intro o ho
  rcases mem_begun ho with rfl | rfl <;> simp

/-- The connector begins nothing when its flag is off. -/
theorem setConnector (h : StopInv s) {c : Connector}
    (hquiet : s.connector_.connect_ = false → Connector.Halted s.connector_ c) :
    StopInv (s.setConnector c) := by
  by_cases hoff : s.connector_.connect_ = false
  · have hhalted := hquiet hoff
    have hlog : s.log ++ begun s.connector_ c = s.log := by
      rw [begun_halted hhalted, List.append_nil]
    exact h.of_same hlog rfl (fun hclient => hclient) fun _ => hhalted.connect
  · have hblocked : ¬ s.Blocked := fun hb => hoff hb.connector
    obtain ⟨hholds, hnot⟩ := h.not_stopped (mt h.stopped hblocked) c
    exact ⟨hholds, h.alone, fun hs => absurd hs hnot, fun _ => hnot, h.clearing,
      fun hc => absurd (h.dispatching hc) hblocked⟩

/-- **With its flag off, an operation of the connector begins nothing**, so nothing is entered in
    a stopped window. -/
theorem inConnector (h : StopInv s) {r : Outcome Connector.Fault Connector Connector}
    (hr : Holds (fun c => s.connector_.connect_ = false → Connector.Halted s.connector_ c)
      (fun e => s.connector_.connect_ = false → Connector.Halted s.connector_ e.2) r) :
    KeepsStop s (s.inConnector r) := by
  cases hr with
  | ok hquiet => exact .ok ⟨h.setConnector hquiet, rfl⟩
  | error hquiet => exact .error (h.setConnector hquiet)

/-- Whatever the connector does while the client's flag is on. -/
theorem inConnector_on (h : StopInv s) (hon : s.connect_ = true)
    (r : Outcome Connector.Fault Connector Connector) : KeepsStop s (s.inConnector r) := by
  have hblocked : ¬ s.Blocked := by
    intro hb
    rw [hb.client] at hon
    cases hon
  have hset : ∀ c, StopInv (s.setConnector c) := by
    intro c
    obtain ⟨hholds, hnot⟩ := h.not_stopped (mt h.stopped hblocked) c
    refine ⟨hholds, h.alone, fun hs => absurd hs hnot, fun _ => hnot, h.clearing, ?_⟩
    exact fun hc => absurd (h.dispatching hc) hblocked
  cases r with
  | ok c => exact .ok ⟨hset c, rfl⟩
  | error e => exact .error (hset e.2)

/-- `startInThisThread` reads the flag first. -/
theorem startInThisThread (h : StopInv s) :
    KeepsStop s (s.inConnector s.connector_.startInThisThread) := by
  apply h.inConnector
  apply (Connector.startInThisThread_begins _).mono
  · exact fun c hc => hc.halted
  · rintro e rfl
    exact (Connector.Begins.refl _).halted

end StopInv

/-! ## The calls of user code

  They come whole on the loop thread, and step by step on another one.  The first step of
  `connect()` closes the window, and only a later one sets the flag of the connector. -/

/-- `disconnect()` clears a flag and begins nothing. -/
theorem disconnect_keeps (h : StopInv s) (isInLoopThread : Bool) :
    StopInv (s.disconnect isInLoopThread) ∧ (s.disconnect isInLoopThread).calls = s.calls := by
  unfold disconnect
  dsimp only
  split
  · exact ⟨h.of_same rfl rfl (fun _ => rfl) id, rfl⟩
  · split <;> exact ⟨h.of_same rfl rfl (fun _ => rfl) id, rfl⟩

/-- `enableRetry()` has no part in it: a restart asks for both flags. -/
theorem enableRetry_keeps (h : StopInv s) : StopInv s.enableRetry := h.of_same rfl rfl id id

/-- `connect()` is called: the window is closed. -/
theorem observe_connect_inv (hholds : s.StopHolds) (halone : s.calls.length ≤ 1)
    (hcalls : ∀ p ∈ s.calls, p = .setConnect ∨ p = .dispatchStart) :
    StopInv (s.observe .connect) := by
  refine .of_not_stopped ?_ ?_ halone hcalls
  · exact silent_append_singleton.mpr ⟨hholds, fun hactive => hactive.elim⟩
  · intro hs
    rcases inWindow_append_singleton.mp hs with hopens | ⟨hcloses, -⟩
    · cases hopens
    · exact hcloses rfl

/-- `connect()` closes the window, and then begins. -/
theorem connect_keeps (h : StopInv s) (hcalls : s.calls = []) : KeepsStop s s.connect := by
  have hcalled : StopInv
      ((({ s with connect_ := true } : TcpClient).setConnectorFlag true).observe .connect) := by
    apply observe_connect_inv
    · exact h.holds
    · exact h.alone
    · intro p hp
      have hp : p ∈ s.calls := hp
      rw [hcalls] at hp
      cases hp
  have hstart := hcalled.startInThisThread
  rw [connect, Connector.start, if_pos rfl]
  exact hstart

/-- `stop()` opens it, with both flags off. -/
theorem stop_keeps (h : StopInv s) (hcalls : s.calls = []) : KeepsStop s (.ok s.stop) := by
  have hoff : StopInv (({ s with connect_ := false } : TcpClient).setConnectorFlag false) :=
    h.of_same rfl rfl (fun _ => rfl) fun _ => rfl
  have hquiet := (Connector.stopInThisThread_begins { s.connector_ with connect_ := false }).halted
  have hstopped := hoff.setConnector hquiet
  have hblocked := (hquiet rfl).connect
  exact .ok ⟨.returns hstopped.holds ⟨rfl, hblocked⟩ hcalls, rfl⟩

/-- Each call of user code keeps it. -/
theorem call_keeps (h : StopInv s) {c : ClientCall} (hcalls : c.Switches → s.calls = []) :
    KeepsStop s (s.call c) := by
  cases c with
  | connect => exact connect_keeps h (hcalls trivial)
  | disconnect => exact .ok (disconnect_keeps h true)
  | stop => exact stop_keeps h (hcalls trivial)
  | enableRetry => exact .ok ⟨enableRetry_keeps h, rfl⟩

/-- So do several of one callback, by induction on them. -/
theorem callAll_keeps (calls : List ClientCall) :
    ∀ {s : TcpClient}, StopInv s → (∀ c ∈ calls, c.Switches → s.calls = []) →
      KeepsStop s (s.callAll calls) := by
  induction calls with
  | nil => exact fun h _ => .ok ⟨h, rfl⟩
  | cons c calls ih =>
    intro s h hcalls
    rw [callAll, run_cons]
    have hcall := call_keeps h (hcalls c List.mem_cons_self)
    apply Holds.bind hcall
    rintro s' ⟨hs', hsame⟩
    apply KeepsStop.trans hsame
    apply ih hs'
    intro c' hc'
    rw [hsame]
    exact hcalls c' (List.mem_cons_of_mem c hc')

/-- A call that begins on another thread keeps it: nobody else is inside one that sets the flags. -/
theorem callElsewhere_keeps (h : StopInv s) {c : ClientCall} (hcalls : c.Switches → s.calls = []) :
    StopInv (s.callElsewhere c) := by
  -- the two calls that switch the client are not under way at the same time
  cases c with
  | connect =>
    have hlist : s.calls ++ [.setConnect] = [.setConnect] := by rw [hcalls trivial, List.nil_append]
    apply observe_connect_inv
    · exact h.holds
    · show (s.calls ++ _).length ≤ 1
      rw [hlist]
      exact Nat.le_refl 1
    · intro p hp
      have hp : p ∈ s.calls ++ _ := hp
      rw [hlist] at hp
      exact .inl (List.mem_singleton.mp hp)
  | disconnect => exact (disconnect_keeps h false).1
  | stop =>
    have hlist : (s.callElsewhere .stop).calls = [.clearConnect] := by
      show s.calls ++ _ = _
      rw [hcalls trivial, List.nil_append]
    constructor
    · exact h.holds
    · rw [hlist]
      exact Nat.le_refl 1
    · exact fun hs => ⟨rfl, (h.stopped hs).connector⟩
    · rw [hlist]
      simp
    · exact fun _ => rfl
    · rw [hlist]
      simp
  | enableRetry => exact enableRetry_keeps h

/-- There is one call, and this is its next step. -/
theorem StopInv.calls_eq (h : StopInv s) {i : Nat} {p : ClientStep} (hp : s.calls[i]? = some p) :
    s.calls = [p] ∧ i = 0 := by
  obtain ⟨hi, hget⟩ := List.getElem?_eq_some_iff.mp hp
  have halone := h.alone
  obtain rfl : i = 0 := by omega
  match hcalls : s.calls with
  | [] => simp [hcalls] at hi
  | [q] =>
    simp only [hcalls] at hget
    exact ⟨by rw [← hget]; rfl, rfl⟩
  | q :: r :: rest => simp [hcalls] at halone

/-- The next step of it keeps it too. This is why the flags are tracked with the calls under way. -/
theorem proceed_keeps (h : StopInv s) (i : Nat) : StopInv (s.proceed i) := by
  unfold proceed
  split
  case h_1 => exact h
  case h_2 hp =>
    have hcalls := h.calls_eq hp
    have hnot := h.starting (.inl (List.mem_of_getElem? hp))
    exact .of_not_stopped h.holds hnot (by simp [setConnectorFlag, hcalls])
      (by simp [setConnectorFlag, hcalls])
  case h_3 hp =>
    have hcalls := h.calls_eq hp
    have hnot := h.starting (.inr (List.mem_of_getElem? hp))
    exact .of_not_stopped h.holds hnot (by simp [post, hcalls]) (by simp [post, hcalls])
  case h_4 hp =>
    have hcalls := h.calls_eq hp
    have hclient := h.clearing (List.mem_of_getElem? hp)
    exact .of_blocked h.holds ⟨hclient, rfl⟩ (by simp [setConnectorFlag, hcalls])
      (by simp [setConnectorFlag, hcalls])
  case h_5 hp =>
    have hcalls := h.calls_eq hp
    have hblocked := h.dispatching (List.mem_of_getElem? hp)
    apply StopInv.returns
    · exact h.holds
    · exact ⟨hblocked.client, hblocked.connector⟩
    · simp [post, hcalls]

/-! ## The handlers of the loop

  They begin something only by way of the connector, or by a restart, which looks at the flag
  of the client. -/

/-- What a connection does has no part in it. -/
theorem inConnection_keeps (h : StopInv s) (conn : Nat)
    (r : Outcome Fault TcpConnection TcpConnection) : KeepsStop s (s.inConnection conn r) := by
  cases r with
  | ok c => exact .ok ⟨h.of_same rfl rfl id id, rfl⟩
  | error e => exact .error (h.of_same rfl rfl id id)

/-- The connector is only restarted while the client's flag is on. -/
theorem removeConnection_keeps (h : StopInv s) (conn : Nat) :
    KeepsStop s (s.removeConnection conn) := by
  have herased : StopInv { s with connector_ :=
      { s.connector_ with connections := s.connector_.connections.erase conn } } :=
    h.of_same rfl rfl id id
  unfold removeConnection
  cases hreconnect : s.retry_ && s.connect_ with
  | false =>
    have hremoved := herased.inConnector (Connector.removeConnection_halted _ conn)
    refine Holds.bind hremoved ?_
    rintro s' ⟨hs', hcalls⟩
    exact .ok ⟨hs'.of_same rfl rfl id id, hcalls⟩
  | true =>
    have hon : s.connect_ = true := by simp_all
    refine Holds.bind (h.inConnector_on hon _) ?_
    rintro s' ⟨hs', hcalls⟩
    have hposted : StopInv { s' with posted := s'.posted ++ [conn] } := hs'.of_same rfl rfl id id
    exact .ok ⟨hposted.observe (by simp) (by simp) fun hactive => hactive.elim, hcalls⟩

/-- A retry timer that fires after a stop finds the flag off. -/
theorem retryTimer_keeps (h : StopInv s) (i : Nat) : KeepsStop s (s.retryTimer i) := by
  unfold retryTimer
  split
  case h_1 => exact .ok ⟨h, rfl⟩
  case h_2 =>
    have herased : StopInv { s with connector_ :=
        { s.connector_ with retryTimers := s.connector_.retryTimers.eraseIdx i } } :=
      h.of_same rfl rfl id id
    exact herased.startInThisThread

section Steps

variable [VectorImpl]

/-- A socket is only handed to the client while the connector's flag is on. -/
theorem newConnection_keeps (h : StopInv s) (hon : s.connector_.connect_ = true) (conn : Nat)
    (onConnection : List Act) : KeepsStop s (s.newConnection conn onConnection) := by
  have hnot : ¬ s.Stopped := by
    intro hs
    rw [(h.stopped hs).connector] at hon
    cases hon
  have hmade : StopInv { s with
      nextConnId_ := (s.nextConnId_ + 1).bmod (2 ^ 32)
      opened := Function.update s.opened conn (some ⟨s.connectionName, .new s.connectionCallback_
        s.messageCallback_ true⟩) } := h.of_same rfl rfl id id
  have hlogged := hmade.observe (o := .newConnection) (by simp) (by simp) fun _ => hnot
  exact inConnection_keeps hlogged conn _

/-- **An attempt that completes after a stop** finds the flag off and closes its socket. -/
theorem complete_keeps (h : StopInv s) (i : Nat) (error : Errc) (getOption : Connector.GetOption)
    (onConnection : List Act) {calls : List ClientCall}
    (hcalls : ∀ c ∈ calls, c.Switches → s.calls = []) :
    KeepsStop s (s.complete i error getOption onConnection calls) := by
  cases hconn : s.connector_.inFlight[i]? with
  | none =>
    rw [complete, hconn]
    exact .ok ⟨h, rfl⟩
  | some conn =>
    rcases complete_cases hconn error getOption onConnection calls with
      ⟨hhands, hover, hr⟩ | ⟨-, hbegins, hr⟩
    · have hset : StopInv (s.setConnector (s.connector_.complete i error getOption)) := by
        apply h.setConnector
        intro hoff
        rw [hhands.2.2] at hoff
        cases hoff
      have hon := hover.connect.trans hhands.2.2
      rw [hr]
      refine Holds.bind (newConnection_keeps hset hon conn onConnection) ?_
      rintro s' ⟨hs', hsame⟩
      apply KeepsStop.trans hsame
      apply callAll_keeps calls hs'
      rw [hsame]
      exact hcalls
    · rw [hr]
      refine .ok ⟨h.setConnector fun hoff => ?_, rfl⟩
      have hhalted := hbegins.halted hoff
      exact ⟨hhalted.connect, hhalted.attempts, hhalted.timers⟩

/-- A connection that closes after a stop is not made again. -/
theorem io_keeps (h : StopInv s) (conn : Nat) (e : TcpServer.Io) {calls : List ClientCall}
    (hcalls : ∀ c ∈ calls, c.Switches → s.calls = []) : KeepsStop s (s.io conn e calls) := by
  unfold io
  split
  case h_1 => exact .ok ⟨h, rfl⟩
  case h_2 o _ =>
    split
    case h_1 f c _ => exact .error (h.of_same rfl rfl id id)
    case h_2 c _ =>
      have hset : StopInv (s.setConnection conn c) := h.of_same rfl rfl id id
      refine Holds.bind (callAll_keeps calls hset hcalls) ?_
      rintro s' ⟨hs', hsame⟩
      split
      · exact .ok ⟨hs', hsame⟩
      · exact (removeConnection_keeps hs' conn).trans hsame

/-- A posted destruction keeps it, with the calls of its callback. -/
theorem connectDestroyed_keeps (h : StopInv s) (i : Nat) (onConnection : List Act)
    {calls : List ClientCall} (hcalls : ∀ c ∈ calls, c.Switches → s.calls = []) :
    KeepsStop s (s.connectDestroyed i onConnection calls) := by
  unfold connectDestroyed
  split
  case h_1 => exact .ok ⟨h, rfl⟩
  case h_2 conn _ =>
    have herased : StopInv { s with posted := s.posted.eraseIdx i } := h.of_same rfl rfl id id
    dsimp only
    split
    case h_1 => exact .ok ⟨herased, rfl⟩
    case h_2 o _ =>
      refine Holds.bind (inConnection_keeps herased conn _) ?_
      rintro s' ⟨hs', hsame⟩
      apply KeepsStop.trans hsame
      apply callAll_keeps calls hs'
      rw [hsame]
      exact hcalls

/-! ## Every run

  The induction, over any number of windows. -/

/-- **Every event keeps the invariant.** -/
theorem step_keepsStop (h : StopInv s) (e : Event) (hseq : s.Sequential e) :
    Holds StopInv (fun e => StopInv e.2) (s.step e) := by
  have hkeeps : ∀ r, KeepsStop s r → Holds StopInv (fun e => StopInv e.2) r :=
    fun r hr => hr.mono (fun _ hs => hs.1) fun _ he => he
  cases e with
  | call c => exact hkeeps _ (call_keeps h (hseq c List.mem_cons_self))
  | callElsewhere c => exact .ok (callElsewhere_keeps h (hseq c List.mem_cons_self))
  | proceed i => exact .ok (proceed_keeps h i)
  | runPosted i =>
    apply hkeeps
    apply h.inConnector
    exact (Connector.runPosted_begins _ i).mono (fun _ hc => hc.halted) fun _ he => he.2.halted
  | complete i error getOption onConnection calls =>
    exact hkeeps _ (complete_keeps h i error getOption onConnection hseq)
  | retryTimer i => exact hkeeps _ (retryTimer_keeps h i)
  | io conn e calls => exact hkeeps _ (io_keeps h conn e hseq)
  | connectDestroyed i onConnection calls =>
    exact hkeeps _ (connectDestroyed_keeps h i onConnection hseq)

/-- **`stop()` holds** in every run in which the calls of `connect()` and `stop()` do not
    overlap. -/
theorem stop_holds (serverAddress : List Char) (cc mc : Bool) (nextConnId : Int) (es : List Event)
    (hseq : Guarded step Sequential (new serverAddress cc mc nextConnId) es) :
    Holds StopHolds (fun e => StopHolds e.2) (run step (new serverAddress cc mc nextConnId) es) :=
  (run_holds (fun _ e h hs => step_keepsStop h e hs) es _
    (new_stopInv _ cc mc nextConnId) hseq).mono (fun _ h => h.holds) fun _ h => h.holds

end Steps

section Examples

attribute [local instance] VectorImpl.exact

/-- Another thread stops the client while it waits to retry; the timer fires, the client connects
    again, and stops in the callback of the connection that closes. -/
def stoppedTwice : List Event :=
  [.call .enableRetry, .call .connect, .complete 0 .connection_refused .ec [] [],
    .callElsewhere .stop, .proceed 0, .proceed 0, .retryTimer 0, .runPosted 0, .call .connect,
    .complete 0 .success (.error 0) [] [], .io 0 (.socket (.readError [])) [.stop]]

/-- The condition can be met: two stops, one on another thread and one in a callback. -/
theorem stop_holds_stoppedTwice :
    Guarded step Sequential (new [] true true 0) stoppedTwice ∧
    Holds StopHolds (fun e => StopHolds e.2) (run step (new [] true true 0) stoppedTwice) := by
  have hseq : Guarded step Sequential (new [] true true 0) stoppedTwice := by decide +kernel
  exact ⟨hseq, stop_holds [] true true 0 stoppedTwice hseq⟩

end Examples

end TcpClient

end IOEvent
