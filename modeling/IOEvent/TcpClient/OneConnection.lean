/-
  The client and its one connection.

  `OneConnection` says that at most one of the connections the client made is not disconnected,
  that none of them closes more than once, and that each closing restarts the connector at most
  once.  The other half of the property is that the `assert` of `removeConnection` does not fail.

  The client forgets a connection in one place: `newConnection` sets `connection_`, whatever it was.
  That happens when a second attempt succeeds while the connection of the first is up, as it can
  when `connect()` was called twice; then there are two connections, and the one that is not
  `connection_` cannot be removed.  `Vacant` says that no completion makes a connection while
  `connection_` is set, and this is all that is needed.  `Tracked` is the invariant: the connection
  that is up is `connection_`, between the events of the loop; inside the handler that closes the
  connection, until it is removed, none is up.

  One direction is an induction over the run, handler by handler, with `Tracked`.  For the
  other, a completion that finds `connection_` set makes a second connection, and nothing that
  follows in the same handler takes one of the two down (`call_up`).
-/
import IOEvent.TcpClient
import IOEvent.TcpClient.Closes

open Foundation

namespace IOEvent

namespace TcpClient

/-! ## The property and the condition

  The property counts the connections that are not down, and the restarts for each.  The
  condition is about the completions only. -/

/-- A connection that is not disconnected. -/
def Up (s : TcpClient) (conn : Nat) : Prop :=
  ∃ o, s.opened conn = some o ∧ o.connection.state_ ≠ .kDisconnected

/-- How often a connection has called the close callback. -/
def closings (s : TcpClient) (conn : Nat) : Nat :=
  match s.opened conn with
  | none => 0
  | some o => o.connection.trace.count .closeCallback

/-- The property: at most one connection is up, each one closes once at most, and each is followed
    by one restart at most. -/
structure OneConnection (s : TcpClient) : Prop where
  one_up : ∀ i j, s.Up i → s.Up j → i = j
  closed_once : ∀ conn, s.closings conn ≤ 1
  restarted : ∀ conn, s.log.count (.restart conn) ≤ s.closings conn

/-- No completion makes a connection while `connection_` is set. -/
def Vacant (s : TcpClient) : Event → Prop
  | .complete i error getOption _ _ => i < s.connector_.inFlight.length →
    s.connector_.Hands error getOption → s.connector_.connection_ = none
  | _ => True

/-! ## The invariant

  `Tracked` names the connection that is up and the one that is `connection_`.  Between two
  events they are the same; inside a handler they may differ, as one that has just closed is not
  removed yet. -/

/-- The attempts have different numbers, and an attempt in flight has made no connection yet. -/
structure Numbered (s : TcpClient) : Prop where
  flight_nodup : s.connector_.inFlight.Nodup
  flight_lt : ∀ k ∈ s.connector_.inFlight, k < s.connector_.attempts
  opened : ∀ k, s.opened k ≠ none → k ∉ s.connector_.inFlight ∧ k < s.connector_.attempts

/-- The connection that is up, and the one that is `connection_`. -/
structure Tracked (s : TcpClient) (up current : Option Nat) : Prop where
  owned : ∀ conn o, s.opened conn = some o → o.connection.Owned
  up_iff : ∀ conn, s.Up conn ↔ up = some conn
  current_eq : s.connector_.connection_ = current
  destroyed : ∀ conn ∈ s.posted, s.opened conn ≠ none ∧ ¬ s.Up conn
  restarted : ∀ conn, s.log.count (.restart conn) ≤ s.closings conn
  current_made : ∀ conn, current = some conn →
    s.opened conn ≠ none ∧ s.log.count (.restart conn) = 0
  numbered : s.Numbered

/-- A failure that leaves the property alone. -/
def Unbroken (e : ClientFault × TcpClient) : Prop :=
  e.2.OneConnection ∧ e.1 ≠ .connector (.assertFailed .removeConnection)

/-- A step keeps track of the two, or fails without breaking the property. -/
def KeepsTracked (up current : Option Nat) (r : M) : Prop :=
  Holds (fun s => Tracked s up current) Unbroken r

variable {s s' : TcpClient} {up current : Option Nat}

/-- A new client has no connection, so there is nothing to keep track of. -/
theorem new_tracked (serverAddress : List Char) (cc mc : Bool) (nextConnId : Int) :
    Tracked (new serverAddress cc mc nextConnId) none none where
  owned := by
    intro conn o h
    cases h
  up_iff := by
    intro conn
    constructor
    · rintro ⟨o, h, -⟩
      cases h
    · intro h
      cases h
  current_eq := rfl
  destroyed := fun conn h => absurd h List.not_mem_nil
  restarted := fun _ => Nat.le_refl 0
  current_made := by
    intro conn h
    cases h
  numbered := ⟨List.nodup_nil, fun k h => absurd h List.not_mem_nil, fun k h => absurd rfl h⟩

/-- The connector begins an attempt, or none. -/
theorem Numbered.begins (h : s.Numbered) (hopened : s'.opened = s.opened)
    (hbegins : Connector.Begins s.connector_ s'.connector_) : s'.Numbered := by
  rcases hbegins.flight with ⟨hflight, hattempts⟩ | ⟨hflight, hattempts⟩
  · -- no new attempt
    refine ⟨?_, ?_, ?_⟩ <;> rw [hflight]
    · exact h.flight_nodup
    · rw [hattempts]
      exact h.flight_lt
    · rw [hattempts, hopened]
      exact h.opened
  · refine ⟨?_, ?_, ?_⟩ <;> rw [hflight]
    · -- the new attempt has the next number, which no socket has had
      refine List.nodup_append.mpr ⟨h.flight_nodup, List.nodup_singleton _, ?_⟩
      rintro k hk j hj rfl
      have hlt := h.flight_lt k hk
      rw [List.mem_singleton.mp hj] at hlt
      exact Nat.lt_irrefl _ hlt
    · intro k hk
      rw [hattempts]
      rcases List.mem_append.mp hk with hk | hk
      · exact Nat.lt_succ_of_lt (h.flight_lt k hk)
      · rw [List.mem_singleton.mp hk]
        exact Nat.lt_succ_self _
    · intro k hk
      rw [hopened] at hk
      obtain ⟨hnot, hlt⟩ := h.opened k hk
      rw [hattempts]
      refine ⟨?_, Nat.lt_succ_of_lt hlt⟩
      intro hmem
      rcases List.mem_append.mp hmem with hmem | hmem
      · exact hnot hmem
      · rw [List.mem_singleton.mp hmem] at hlt
        exact Nat.lt_irrefl _ hlt

/-- An attempt is not in flight any more. -/
theorem Numbered.lands (h : s.Numbered) (i : Nat) : Numbered { s with connector_ :=
    { s.connector_ with inFlight := s.connector_.inFlight.eraseIdx i } } where
  flight_nodup := h.flight_nodup.sublist (List.eraseIdx_sublist _ _)
  flight_lt := fun k hk => h.flight_lt k (List.mem_of_mem_eraseIdx hk)
  opened := by
    intro k hk
    obtain ⟨hnot, hlt⟩ := h.opened k hk
    exact ⟨fun hmem => hnot (List.mem_of_mem_eraseIdx hmem), hlt⟩

/-- An attempt in flight is there once, and has made no connection. -/
theorem Numbered.fresh (h : s.Numbered) {i conn : Nat}
    (hconn : s.connector_.inFlight[i]? = some conn) :
    s.opened conn = none ∧ conn ∉ s.connector_.inFlight.eraseIdx i ∧
      conn < s.connector_.attempts := by
  have hmem : conn ∈ s.connector_.inFlight := List.mem_of_getElem? hconn
  refine ⟨?_, ?_, h.flight_lt conn hmem⟩
  · by_contra hopened
    exact (h.opened conn hopened).1 hmem
  · obtain ⟨hi, hget⟩ := List.getElem?_eq_some_iff.mp hconn
    rw [← h.flight_nodup.erase_getElem i hi, hget]
    exact h.flight_nodup.not_mem_erase

/-- What the connector begins is never a restart that is entered for a connection. -/
theorem count_setConnector (c : Connector) (conn : Nat) :
    (s.setConnector c).log.count (.restart conn) = s.log.count (.restart conn) := by
  have hnone : (begun s.connector_ c).count (.restart conn) = 0 := by
    apply List.count_eq_zero_of_not_mem
    intro hmem
    rcases mem_begun hmem with heq | heq <;> cases heq
  show (s.log ++ begun s.connector_ c).count _ = _
  rw [List.count_append, hnone, Nat.add_zero]

/-! ## One connection of the client changes

  An event of a connection changes that one; these lemmas carry the invariant over from the
  connections as they were. -/

/-- The connections behind a change of one of them. -/
theorem opened_setConnection {conn : Nat} {o : Opened} (ho : s.opened conn = some o)
    (c : TcpConnection) (j : Nat) :
    (s.setConnection conn c).opened j =
      if j = conn then some { o with connection := c } else s.opened j := by
  show Function.update s.opened conn _ j = _
  rw [Function.update_apply, ho]
  rfl

/-- Which of them are up is decided by the state of the changed one. -/
theorem up_setConnection {conn : Nat} {o : Opened} (ho : s.opened conn = some o)
    (c : TcpConnection) (j : Nat) :
    (s.setConnection conn c).Up j ↔ if j = conn then c.state_ ≠ .kDisconnected else s.Up j := by
  unfold Up
  rw [opened_setConnection ho]
  by_cases hj : j = conn
  · rw [if_pos hj, if_pos hj]
    simp
  · rw [if_neg hj, if_neg hj]

/-- How often it has closed is read off its trace. -/
theorem closings_setConnection {conn : Nat} {o : Opened} (ho : s.opened conn = some o)
    (c : TcpConnection) (j : Nat) :
    (s.setConnection conn c).closings j =
      if j = conn then c.trace.count .closeCallback else s.closings j := by
  unfold closings
  rw [opened_setConnection ho]
  by_cases hj : j = conn
  · rw [if_pos hj, if_pos hj]
  · rw [if_neg hj, if_neg hj]

namespace Tracked

/-- The invariant has the property in it: there is one number, so there is one connection. -/
theorem oneConnection (h : Tracked s up current) : s.OneConnection where
  one_up := by
    intro i j hi hj
    have hup := ((h.up_iff i).mp hi).symm.trans ((h.up_iff j).mp hj)
    exact Option.some.inj hup
  closed_once := by
    intro conn
    unfold closings
    split
    · exact Nat.zero_le 1
    case h_2 o ho =>
      rw [(h.owned conn o ho).closes]
      split <;> omega
  restarted := h.restarted

/-- A fault that is not the assertion of `removeConnection` leaves the property alone. -/
theorem unbroken (h : Tracked s up current) {f : ClientFault}
    (hf : f ≠ .connector (.assertFailed .removeConnection)) : Unbroken (f, s) :=
  ⟨h.oneConnection, hf⟩

/-- A change of what the property does not depend on. -/
theorem of_same (h : Tracked s up current) (hopened : s'.opened = s.opened)
    (hposted : ∀ conn ∈ s'.posted, conn ∈ s.posted)
    (hlog : ∀ conn, s'.log.count (.restart conn) = s.log.count (.restart conn))
    (hcurrent : s'.connector_.connection_ = s.connector_.connection_)
    (hnumbered : s'.Numbered) : Tracked s' up current := by
  have hup : ∀ conn, s'.Up conn ↔ s.Up conn := fun conn => by rw [Up, hopened, Up]
  constructor
  · rw [hopened]
    exact h.owned
  · exact fun conn => (hup conn).trans (h.up_iff conn)
  · exact hcurrent.trans h.current_eq
  · intro conn hconn
    rw [hup, hopened]
    exact h.destroyed conn (hposted conn hconn)
  · intro conn
    rw [hlog, closings, hopened]
    exact h.restarted conn
  · intro conn hconn
    rw [hopened, hlog]
    exact h.current_made conn hconn
  · exact hnumbered

/-- The connector begins something, or nothing. -/
theorem setConnector (h : Tracked s up current) {c : Connector}
    (hbegins : Connector.Begins s.connector_ c) : Tracked (s.setConnector c) up current :=
  h.of_same rfl (fun _ => id) (count_setConnector c) hbegins.connection
    (h.numbered.begins rfl hbegins)

/-- An operation of the connector that only begins things keeps track of both. -/
theorem inConnector (h : Tracked s up current) {r : Outcome Connector.Fault Connector Connector}
    (hr : Holds (Connector.Begins s.connector_) (fun e => e.1 = .assertFailed .startInThisThread ∧
      Connector.Begins s.connector_ e.2) r) : KeepsTracked up current (s.inConnector r) := by
  cases hr with
  | ok hbegins => exact .ok (h.setConnector hbegins)
  | error he =>
    rename_i e
    obtain ⟨f, c⟩ := e
    obtain ⟨rfl, hbegins⟩ := he
    exact .error ((h.setConnector hbegins).unbroken (by decide))

/-- `startInThisThread` is one of them, failed assertion included. -/
theorem startInThisThread (h : Tracked s up current) :
    KeepsTracked up current (s.inConnector s.connector_.startInThisThread) := by
  apply h.inConnector
  apply (Connector.startInThisThread_begins _).mono fun _ hc => hc
  rintro e rfl
  exact ⟨rfl, .refl _⟩

/-- A connection becomes another one that the client owns, and is not up unless it was. -/
theorem setConnection (h : Tracked s up current) {conn : Nat} {o : Opened}
    (ho : s.opened conn = some o) {c : TcpConnection} (howned : c.Owned)
    (hcloses : o.connection.trace.count .closeCallback ≤ c.trace.count .closeCallback)
    (hup : c.state_ ≠ .kDisconnected → o.connection.state_ ≠ .kDisconnected) {up' : Option Nat}
    (hup' : ∀ j, (s.setConnection conn c).Up j ↔ up' = some j) :
    Tracked (s.setConnection conn c) up' current where
  owned := by
    intro j o' ho'
    rw [opened_setConnection ho] at ho'
    split at ho'
    · obtain rfl := Option.some.inj ho'
      exact howned
    · exact h.owned j o' ho'
  up_iff := hup'
  current_eq := h.current_eq
  destroyed := by
    intro j hj
    obtain ⟨hopened, hdown⟩ := h.destroyed j hj
    rw [opened_setConnection ho, up_setConnection ho]
    -- only `conn` changes, and the others are as before
    by_cases heq : j = conn
    · subst heq
      rw [if_pos rfl, if_pos rfl]
      exact ⟨by simp, fun hc => hdown ⟨o, ho, hup hc⟩⟩
    · rw [if_neg heq, if_neg heq]
      exact ⟨hopened, hdown⟩
  restarted := by
    intro j
    rw [closings_setConnection ho]
    by_cases heq : j = conn
    · subst heq
      rw [if_pos rfl]
      have hle := h.restarted j
      rw [closings, ho] at hle
      exact Nat.le_trans hle hcloses
    · rw [if_neg heq]
      exact h.restarted j
  current_made := by
    intro j hj
    obtain ⟨hopened, hzero⟩ := h.current_made j hj
    refine ⟨?_, hzero⟩
    rw [opened_setConnection ho]
    split
    · simp
    · exact hopened
  numbered := by
    refine ⟨h.numbered.flight_nodup, h.numbered.flight_lt, fun k hk => h.numbered.opened k ?_⟩
    rw [opened_setConnection ho] at hk
    by_cases heq : k = conn
    · rw [heq, ho]
      simp
    · rwa [if_neg heq] at hk

/-- A steady step of a connection keeps track of both. -/
theorem steady (h : Tracked s up current) {conn : Nat} {o : Opened} (ho : s.opened conn = some o)
    {c : TcpConnection} (hs : o.connection.Steady c) :
    Tracked (s.setConnection conn c) up current := by
  have hstate : c.state_ ≠ .kDisconnected ↔ o.connection.state_ ≠ .kDisconnected :=
    not_congr hs.down_iff
  have howned := (h.owned conn o ho).steady hs
  refine h.setConnection ho howned (Nat.le_of_eq hs.closes.symm) hstate.mp ?_
  intro j
  rw [up_setConnection ho, ← h.up_iff j]
  by_cases heq : j = conn
  · subst heq
    rw [if_pos rfl, hstate]
    simp [Up, ho]
  · rw [if_neg heq]

/-- The connection that is up closes, and then none is up. -/
theorem closes (h : Tracked s up current) {conn : Nat} {o : Opened} (ho : s.opened conn = some o)
    {c : TcpConnection} (hs : o.connection.Closes c) :
    up = some conn ∧ Tracked (s.setConnection conn c) none current := by
  have hup : up = some conn := (h.up_iff conn).mp ⟨o, ho, hs.before⟩
  refine ⟨hup, ?_⟩
  refine h.setConnection ho ((h.owned conn o ho).closed hs) ?_ (fun _ => hs.before) ?_
  · rw [hs.closes]
    exact Nat.le_succ _
  · intro j
    rw [up_setConnection ho]
    by_cases heq : j = conn
    · rw [if_pos heq]
      simp [hs.after]
    · rw [if_neg heq, h.up_iff j, hup]
      constructor
      · intro hj
        exact absurd (Option.some.inj hj).symm heq
      · intro hj
        cases hj

/-! ## What does not matter

  The invariant says nothing of the flags, the calls under way or the log but for its
  restarts. -/

/-- The flags of the client and the calls under way have no part in it. -/
theorem flags (h : Tracked s up current) (connect retry : Bool) (calls : List ClientStep) :
    Tracked { s with connect_ := connect, retry_ := retry, calls := calls } up current :=
  ⟨h.owned, h.up_iff, h.current_eq, h.destroyed, h.restarted, h.current_made,
    ⟨h.numbered.flight_nodup, h.numbered.flight_lt, h.numbered.opened⟩⟩

/-- The connector changes, but for its attempts; the client may let go of its connection. -/
theorem of_connector (h : Tracked s up current) (c : Connector)
    (hflight : c.inFlight = s.connector_.inFlight) (hattempts : c.attempts = s.connector_.attempts)
    {current' : Option Nat} (hcurrent : c.connection_ = current')
    (hsome : ∀ conn, current' = some conn → current = some conn) :
    Tracked { s with connector_ := c } up current' := by
  refine ⟨h.owned, h.up_iff, hcurrent, h.destroyed, h.restarted, ?_, ?_⟩
  · exact fun conn hconn => h.current_made conn (hsome conn hconn)
  · refine ⟨?_, ?_, ?_⟩
    · show c.inFlight.Nodup
      rw [hflight]
      exact h.numbered.flight_nodup
    · show ∀ k ∈ c.inFlight, k < c.attempts
      rw [hflight, hattempts]
      exact h.numbered.flight_lt
    · show ∀ k, s.opened k ≠ none → k ∉ c.inFlight ∧ k < c.attempts
      rw [hflight, hattempts]
      exact h.numbered.opened

/-- Nor has the flag of the connector. -/
theorem setConnectorFlag (h : Tracked s up current) (connect : Bool) :
    Tracked (s.setConnectorFlag connect) up current :=
  h.of_connector { s.connector_ with connect_ := connect } rfl rfl h.current_eq fun _ => id

/-- An entry that is no restart has no part in it. -/
theorem observe (h : Tracked s up current) {o : ClientObs} (ho : ∀ conn, o ≠ .restart conn) :
    Tracked (s.observe o) up current := by
  refine h.of_same rfl (fun _ => id) ?_ rfl ?_
  · intro conn
    show (s.log ++ [o]).count _ = _
    rw [List.count_append, List.count_singleton, if_neg (by simpa using ho conn), Nat.add_zero]
  · exact ⟨h.numbered.flight_nodup, h.numbered.flight_lt, h.numbered.opened⟩

/-- `connectDestroyed` is posted, for a connection that has closed. -/
theorem post_destroyed (h : Tracked s up current) {conn : Nat} (hopened : s.opened conn ≠ none)
    (hdown : ¬ s.Up conn) : Tracked { s with posted := s.posted ++ [conn] } up current := by
  refine ⟨h.owned, h.up_iff, h.current_eq, ?_, h.restarted, h.current_made,
    ⟨h.numbered.flight_nodup, h.numbered.flight_lt, h.numbered.opened⟩⟩
  intro j hj
  rcases List.mem_append.mp hj with hj | hj
  · exact h.destroyed j hj
  · rw [List.mem_singleton.mp hj]
    exact ⟨hopened, hdown⟩

/-- The connector is restarted for a connection, the first time. -/
theorem restart (h : Tracked s up none) {conn : Nat} (hzero : s.log.count (.restart conn) = 0)
    (hclosings : s.closings conn = 1) : Tracked (s.observe (.restart conn)) up none := by
  refine ⟨h.owned, h.up_iff, h.current_eq, h.destroyed, ?_, by simp,
    ⟨h.numbered.flight_nodup, h.numbered.flight_lt, h.numbered.opened⟩⟩
  intro j
  show (s.log ++ [ClientObs.restart conn]).count _ ≤ s.closings j
  rw [List.count_append, List.count_singleton]
  by_cases hj : j = conn
  · subst hj
    rw [hzero, hclosings]
    simp
  · rw [if_neg (by simpa using Ne.symm hj)]
    exact h.restarted j

end Tracked

/-! ## The calls of user code

  They start attempts and clear flags.  None of them makes a connection, and `disconnect()` only
  begins to close one. -/

/-- `disconnect()` shuts the connection down, which does not close it. -/
theorem disconnect_tracked (h : Tracked s up current) (isInLoopThread : Bool) :
    Tracked (s.disconnect isInLoopThread) up current := by
  have hflags := h.flags false s.retry_ s.calls
  unfold disconnect
  dsimp only
  split
  case h_1 => exact hflags
  case h_2 conn _ =>
    split
    case h_1 => exact hflags
    case h_2 o ho =>
      exact hflags.steady ho (TcpConnection.shutdown_calm (h.owned conn o ho).output _).steady

/-- `connect()` begins an attempt at most. -/
theorem connect_tracked (h : Tracked s up current) : KeepsTracked up current s.connect := by
  have hset := (h.flags true s.retry_ s.calls).setConnectorFlag true
  have hstart := (hset.observe (o := .connect) (by simp)).startInThisThread
  rw [connect, Connector.start, if_pos rfl]
  exact hstart

/-- `stop()` begins nothing. -/
theorem stop_tracked (h : Tracked s up current) : Tracked s.stop up current := by
  have hset := (h.flags false s.retry_ s.calls).setConnectorFlag false
  have hstop := hset.setConnector (Connector.stopInThisThread_begins _)
  exact hstop.observe (o := .stopped) (by simp)

/-- `enableRetry()` sets a flag. -/
theorem enableRetry_tracked (h : Tracked s up current) : Tracked s.enableRetry up current :=
  h.flags s.connect_ true s.calls

/-- Each call that user code can make keeps track of both. -/
theorem call_tracked (h : Tracked s up current) (c : ClientCall) :
    KeepsTracked up current (s.call c) := by
  cases c with
  | connect => exact connect_tracked h
  | disconnect => exact .ok (disconnect_tracked h true)
  | stop => exact .ok (stop_tracked h)
  | enableRetry => exact .ok (enableRetry_tracked h)

/-- So do several of one callback, by induction on them. -/
theorem callAll_tracked (calls : List ClientCall) :
    ∀ {s : TcpClient}, Tracked s up current → KeepsTracked up current (s.callAll calls) := by
  induction calls with
  | nil => exact fun h => .ok h
  | cons c calls ih =>
    intro s h
    rw [callAll, run_cons]
    have hcall := call_tracked h c
    exact Holds.bind hcall fun s' hs' => ih hs'

/-- A call that begins on another thread has done nothing yet, or has set a flag. -/
theorem callElsewhere_tracked (h : Tracked s up current) (c : ClientCall) :
    Tracked (s.callElsewhere c) up current := by
  cases c with
  | connect => exact (h.flags true s.retry_ _).observe (by simp)
  | disconnect => exact disconnect_tracked h false
  | stop => exact h.flags false s.retry_ _
  | enableRetry => exact enableRetry_tracked h

/-- A handler posted for the connector has done nothing yet. -/
theorem post_tracked (h : Tracked s up current) (task : ConnectorTask) :
    Tracked (s.post task) up current :=
  h.of_connector { s.connector_ with posted := s.connector_.posted ++ [task] } rfl rfl h.current_eq
    fun _ => id

/-- The next step of a call on another thread keeps track of both. -/
theorem proceed_tracked (h : Tracked s up current) (i : Nat) :
    Tracked (s.proceed i) up current := by
  have hcalls := h.flags s.connect_ s.retry_
  unfold proceed
  split
  · exact h
  · exact (hcalls _).setConnectorFlag true
  · exact post_tracked (hcalls _) _
  · exact (hcalls _).setConnectorFlag false
  · exact (post_tracked (hcalls _) _).observe (by simp)

/-! ## The connection is removed

  `removeConnection` is called by the connection that has just gone down.  It is `connection_`,
  so the assertion holds, and this is the one restart for it. -/

/-- The connection that has just closed is `connection_`, and it has not been restarted for. -/
theorem removeConnection_tracked {conn : Nat} (h : Tracked s none (some conn)) :
    KeepsTracked none none (s.removeConnection conn) := by
  obtain ⟨hopened, hzero⟩ := h.current_made conn rfl
  obtain ⟨o, ho⟩ := Option.ne_none_iff_exists'.mp hopened
  -- the connection is down, and has called its close callback once
  have hdown : ¬ s.Up conn := by
    rw [h.up_iff]
    simp
  have hclosings : s.closings conn = 1 := by
    have hstate : o.connection.state_ = .kDisconnected := by
      by_contra hne
      exact hdown ⟨o, ho, hne⟩
    rw [closings, ho]
    dsimp only
    rw [(h.owned conn o ho).closes, if_pos hstate]
  unfold removeConnection
  dsimp only
  rw [Connector.removeConnection, require_pos _ _ h.current_eq, ok_bind]
  -- whether the client retries decides about the restart
  cases hreconnect : s.retry_ && s.connect_ with
  | false =>
    have hremoved := h.of_connector { s.connector_ with
      connections := s.connector_.connections.erase conn
      connection_ := none } rfl rfl rfl (by simp)
    have hset := hremoved.setConnector (.refl _)
    exact .ok (hset.post_destroyed hopened hdown)
  | true =>
    obtain ⟨c, hc, hbegins⟩ := Connector.restart_begins { s.connector_ with
      connections := s.connector_.connections.erase conn
      connection_ := none }
    have hon := h.of_connector { s.connector_ with
      connections := s.connector_.connections.erase conn
      connection_ := none
      connect_ := true } rfl rfl rfl (by simp)
    have hposted := (hon.setConnector hbegins).post_destroyed hopened hdown
    rw [if_pos rfl, hc]
    exact .ok (hposted.restart ((count_setConnector c conn).trans hzero) hclosings)

section Steps

variable [VectorImpl]

/-! ## A connection is made

  A completion hands a socket over, and nothing was up before, by the condition.  So the new
  connection is the only one. -/

/-- The client `s` has made the connection `conn`, and nothing else has happened to it. -/
structure Makes (s s' : TcpClient) (conn : Nat) : Prop where
  made : ∃ o, s'.opened conn = some o ∧ o.connection.Owned ∧ o.connection.state_ ≠ .kDisconnected
  others : ∀ j, j ≠ conn → s'.opened j = s.opened j
  connector : s'.connector_ = s.connector_
  posted : s'.posted = s.posted
  log : s'.log = s.log ++ [.newConnection]

omit [VectorImpl] in
/-- A connection that was just made may change its state, as long as it is not down. -/
theorem Makes.setConnection {conn : Nat} (h : Makes s s' conn) {c : TcpConnection}
    (howned : c.Owned) (hup : c.state_ ≠ .kDisconnected) :
    Makes s (s'.setConnection conn c) conn := by
  obtain ⟨o, ho, -⟩ := h.made
  refine ⟨⟨{ o with connection := c }, ?_, howned, hup⟩, ?_, h.connector, h.posted, h.log⟩
  · rw [opened_setConnection ho, if_pos rfl]
  · intro j hj
    rw [opened_setConnection ho, if_neg hj]
    exact h.others j hj

/-- **`newConnection` makes the one connection** under its attempt, and establishes it. -/
theorem newConnection_makes (s : TcpClient) (conn : Nat) (onConnection : List Act) :
    Holds (fun s' => Makes s s' conn) (fun e => Makes s e.2 conn ∧ ∃ f, e.1 = .connection f)
      (s.newConnection conn onConnection) := by
  have hnew := TcpConnection.new_owned s.connectionCallback_ s.messageCallback_
  have hset : (TcpConnection.setState (.new s.connectionCallback_ s.messageCallback_ true)
      .kConnected).Owned := ⟨hnew.output, hnew.callback, rfl⟩
  have hstate : (TcpConnection.setState (.new s.connectionCallback_ s.messageCallback_ true)
      .kConnected).state_ ≠ .kDisconnected := by simp [TcpConnection.setState]
  have hsteady := TcpConnection.connectEstablished_steady hnew.output rfl onConnection
  have hmade : Makes s (({ s with
      nextConnId_ := (s.nextConnId_ + 1).bmod (2 ^ 32)
      opened := Function.update s.opened conn (some ⟨s.connectionName,
        .new s.connectionCallback_ s.messageCallback_ true⟩) } : TcpClient).observe
          .newConnection) conn := by
    refine ⟨⟨_, Function.update_self conn _ _, hnew, ?_⟩, ?_, rfl, rfl, rfl⟩
    · simp [TcpConnection.new]
    · exact fun j hj => Function.update_of_ne hj _ _
  unfold newConnection
  dsimp only
  generalize TcpConnection.connectEstablished _ onConnection = r at hsteady
  cases hsteady with
  | ok hc => exact .ok (hmade.setConnection (hset.steady hc) (mt hc.down_iff.mp hstate))
  | error hc =>
    exact .error ⟨hmade.setConnection (hset.steady hc) (mt hc.down_iff.mp hstate), _, rfl⟩

omit [VectorImpl] in
/-- The new connection is the one that is up. -/
theorem Makes.tracked {i conn : Nat} {c : Connector} (h : Tracked s none none)
    (hconn : s.connector_.inFlight[i]? = some conn)
    (hover : Connector.HandsOver { s.connector_ with
      inFlight := s.connector_.inFlight.eraseIdx i, handler := some conn } c)
    (hmakes : Makes (s.setConnector c) s' conn) : Tracked s' (some conn) (some conn) := by
  obtain ⟨hfresh, hlanded, hlt⟩ := h.numbered.fresh hconn
  have hrest := h.numbered.lands i
  obtain ⟨o, ho, howned, hup⟩ := hmakes.made
  -- nothing else has changed
  have hothers : ∀ j, j ≠ conn → s'.opened j = s.opened j := hmakes.others
  have hcount : ∀ j, s'.log.count (.restart j) = s.log.count (.restart j) := by
    intro j
    rw [hmakes.log, List.count_append, count_setConnector]
    simp
  constructor
  · -- the parts of `Tracked` one after the other: `conn` itself, then the others
    intro j o' ho'
    by_cases hj : j = conn
    · rw [hj, ho] at ho'
      obtain rfl := Option.some.inj ho'
      exact howned
    · exact h.owned j o' (hothers j hj ▸ ho')
  · intro j
    by_cases hj : j = conn
    · subst hj
      -- no other one was up
      simp [Up, ho, hup]
    · have hdown : ¬ s.Up j := by
        rw [h.up_iff]
        simp
      rw [Up, hothers j hj]
      constructor
      · exact fun hj' => absurd hj' hdown
      · exact fun hj' => absurd (Option.some.inj hj').symm hj
  · rw [hmakes.connector]
    exact hover.connection
  · intro j hj
    rw [hmakes.posted] at hj
    obtain ⟨hopened, hdown⟩ := h.destroyed j hj
    -- nothing was posted for `conn` before it was made
    have hne : j ≠ conn := by
      rintro rfl
      exact hopened hfresh
    rw [Up, hothers j hne]
    exact ⟨hopened, hdown⟩
  · intro j
    rw [hcount]
    by_cases hj : j = conn
    · have hle := h.restarted j
      rw [hj, closings, hfresh] at hle
      rw [hj]
      exact Nat.le_trans hle (Nat.zero_le _)
    · rw [closings, hothers j hj]
      exact h.restarted j
  · intro j hj
    obtain rfl := Option.some.inj hj
    have hle := h.restarted conn
    rw [closings, hfresh] at hle
    rw [hcount]
    exact ⟨by simp [ho], Nat.le_zero.mp hle⟩
  · -- its number is no longer in flight
    refine ⟨?_, ?_, ?_⟩ <;> rw [hmakes.connector]
    · show c.inFlight.Nodup
      rw [hover.flight]
      exact hrest.flight_nodup
    · show ∀ k ∈ c.inFlight, k < c.attempts
      rw [hover.flight, hover.attempts]
      exact hrest.flight_lt
    · show ∀ k, s'.opened k ≠ none → k ∉ c.inFlight ∧ k < c.attempts
      rw [hover.flight, hover.attempts]
      intro k hk
      by_cases heq : k = conn
      · rw [heq]
        exact ⟨hlanded, hlt⟩
      · rw [hothers k heq] at hk
        exact hrest.opened k hk

/-- **An attempt completes**: where it hands over a socket there is no current connection, by the
    condition, so the new one is the only one. -/
theorem complete_tracked (h : Tracked s current current) (i : Nat) (error : Errc)
    (getOption : Connector.GetOption) (onConnection : List Act) (calls : List ClientCall)
    (hvacant : s.Vacant (.complete i error getOption onConnection calls)) :
    Holds (fun s' => ∃ current, Tracked s' current current) Unbroken
      (s.complete i error getOption onConnection calls) := by
  cases hconn : s.connector_.inFlight[i]? with
  | none =>
    rw [complete, hconn]
    exact .ok ⟨current, h⟩
  | some conn =>
    rcases complete_cases hconn error getOption onConnection calls with
      ⟨hhands, hover, hr⟩ | ⟨-, hbegins, hr⟩
    · have hnone : current = none := by
        rw [← h.current_eq]
        exact hvacant (List.getElem?_eq_some_iff.mp hconn).1 hhands
      subst hnone
      have hmakes := newConnection_makes
        (s.setConnector (s.connector_.complete i error getOption)) conn onConnection
      rw [hr]
      refine Holds.bind (hmakes.mono (fun s' hs' => hs'.tracked h hconn hover) ?_) ?_
      · rintro ⟨f, s'⟩ ⟨hs', f', rfl⟩
        exact (hs'.tracked h hconn hover).unbroken (by simp)
      · exact fun s' hs' => (callAll_tracked calls hs').mono (fun _ h' => ⟨_, h'⟩) fun _ he => he
    · have hlanded : Tracked { s with connector_ := { s.connector_ with
          inFlight := s.connector_.inFlight.eraseIdx i } } current current :=
        h.of_same rfl (fun _ => id) (fun _ => rfl) rfl (h.numbered.lands i)
      rw [hr]
      exact .ok ⟨current, hlanded.setConnector hbegins⟩

/-! ## The other handlers of the loop

  Retry timers, the handlers of the connections, the posted destructions. -/

omit [VectorImpl] in
/-- A retry timer begins an attempt at most. -/
theorem retryTimer_tracked (h : Tracked s up current) (i : Nat) :
    KeepsTracked up current (s.retryTimer i) := by
  unfold retryTimer
  split
  case h_1 => exact .ok h
  case h_2 =>
    have hfired := h.of_connector { s.connector_ with
      retryTimers := s.connector_.retryTimers.eraseIdx i } rfl rfl h.current_eq fun _ => id
    exact hfired.startInThisThread

/-- **What happens on a connection** closes it once at most, and then it is the current one no
    more. -/
theorem io_tracked (h : Tracked s current current) (conn : Nat) (e : TcpServer.Io)
    (calls : List ClientCall) :
    Holds (fun s' => ∃ current, Tracked s' current current) Unbroken (s.io conn e calls) := by
  unfold io
  split
  case h_1 => exact .ok ⟨current, h⟩
  case h_2 o ho =>
    have howned := h.owned conn o ho
    have hstep := TcpConnection.io_closes howned.output howned.callback e
    split
    case h_1 f c hr =>
      rw [hr] at hstep
      cases hstep with
      | error hsteady => exact .error ((h.steady ho hsteady).unbroken (by simp))
    case h_2 c hr =>
      rw [hr] at hstep
      rcases holds_ok.mp hstep with hsteady | hcloses
      · refine Holds.bind (callAll_tracked calls (h.steady ho hsteady)) fun s' hs' => ?_
        rw [if_pos hsteady.closes]
        exact .ok ⟨current, hs'⟩
      · -- the callback comes first, then the removal
        obtain ⟨hup, hclosed⟩ := h.closes ho hcloses
        rw [hup] at hclosed
        refine Holds.bind (callAll_tracked calls hclosed) fun s' hs' => ?_
        rw [if_neg (by rw [hcloses.closes]; omega)]
        exact (removeConnection_tracked hs').mono (fun _ h' => ⟨none, h'⟩) fun _ he => he

/-- A posted destruction finds its connection down. -/
theorem connectDestroyed_tracked (h : Tracked s up current) (i : Nat) (onConnection : List Act)
    (calls : List ClientCall) :
    KeepsTracked up current (s.connectDestroyed i onConnection calls) := by
  unfold connectDestroyed
  split
  case h_1 => exact .ok h
  case h_2 conn hconn =>
    have hrest : Tracked { s with posted := s.posted.eraseIdx i } up current := by
      refine h.of_same rfl (fun j hj => List.mem_of_mem_eraseIdx hj) (fun _ => rfl) rfl ?_
      exact ⟨h.numbered.flight_nodup, h.numbered.flight_lt, h.numbered.opened⟩
    dsimp only
    split
    case h_1 => exact .ok hrest
    case h_2 o ho =>
      -- it has closed, so there is nothing left to do
      have hdown : o.connection.state_ = .kDisconnected := by
        by_contra hne
        exact (h.destroyed conn (List.mem_of_getElem? hconn)).2 ⟨o, ho, hne⟩
      rw [TcpConnection.connectDestroyed, if_neg (by rw [hdown]; decide)]
      have hsame := hrest.steady ho (.refl (h.owned conn o ho).output)
      exact callAll_tracked calls hsame

/-! ## One event

  Between two events the connection that is up is `connection_`, which is `Attached`. -/

/-- Between the events of the loop. -/
def Attached (s : TcpClient) : Prop := ∃ current, Tracked s current current

/-- **Every event between which nothing is half done keeps the invariant.** -/
theorem step_attached (h : s.Attached) (e : Event) (hvacant : s.Vacant e) :
    Holds Attached Unbroken (s.step e) := by
  obtain ⟨current, h⟩ := h
  have hkeeps : ∀ r, KeepsTracked current current r → Holds Attached Unbroken r :=
    fun r hr => hr.mono (fun _ hs => ⟨current, hs⟩) fun _ he => he
  cases e with
  | call c => exact hkeeps _ (call_tracked h c)
  | callElsewhere c => exact .ok ⟨current, callElsewhere_tracked h c⟩
  | proceed i => exact .ok ⟨current, proceed_tracked h i⟩
  | runPosted i =>
    apply hkeeps
    exact h.inConnector (Connector.runPosted_begins _ i)
  | complete i error getOption onConnection calls =>
    exact complete_tracked h i error getOption onConnection calls hvacant
  | retryTimer i => exact hkeeps _ (retryTimer_tracked h i)
  | io conn e calls => exact io_tracked h conn e calls
  | connectDestroyed i onConnection calls =>
    exact hkeeps _ (connectDestroyed_tracked h i onConnection calls)

/-! ## A second connection

  The converse: a completion that finds `connection_` set leaves two connections up, and
  nothing in the rest of that event takes one down. -/

/-- A connection stays up, whether the operation returns or fails. -/
def KeepsUp (conn : Nat) (r : M) : Prop := Holds (fun s => s.Up conn) (fun e => e.2.Up conn) r

omit [VectorImpl] in
/-- A connection that is shut down is still up. -/
theorem shutdown_up {c : TcpConnection} (hup : c.state_ ≠ .kDisconnected) (isInLoopThread : Bool) :
    (c.shutdown isInLoopThread).state_ ≠ .kDisconnected := by
  unfold TcpConnection.shutdown TcpConnection.shutdownInThisThread
  split
  · dsimp only
    split
    · split <;> exact nofun
    · exact nofun
  · exact hup

omit [VectorImpl] in
/-- No call takes a connection down. -/
theorem call_up {conn : Nat} (hup : s.Up conn) (c : ClientCall) : KeepsUp conn (s.call c) := by
  cases c with
  | connect =>
    show KeepsUp conn (inConnector _ (s.connector_.start true))
    cases s.connector_.start true with
    | ok c => exact .ok hup
    | error e => exact .error hup
  | disconnect =>
    apply Holds.ok
    unfold disconnect
    dsimp only
    split
    · exact hup
    · split
      case h_1 => exact hup
      case h_2 o ho =>
        refine (up_setConnection (s := { s with connect_ := false }) ho _ conn).mpr ?_
        split
        case isTrue heq =>
          obtain ⟨o', ho', hstate⟩ := hup
          obtain rfl : o = o' := Option.some.inj (ho.symm.trans (heq ▸ ho'))
          exact shutdown_up hstate true
        case isFalse => exact hup
  | stop => exact .ok hup
  | enableRetry => exact .ok hup

omit [VectorImpl] in
/-- So none of several does. -/
theorem callAll_up {conn : Nat} (calls : List ClientCall) :
    ∀ {s : TcpClient}, s.Up conn → KeepsUp conn (s.callAll calls) := by
  induction calls with
  | nil => exact fun hup => .ok hup
  | cons c calls ih =>
    intro s hup
    rw [callAll, run_cons]
    have hcall := call_up hup c
    exact Holds.bind hcall fun s' hs' => ih hs'

/-- **The condition is exact**: a completion that hands over a socket while there is a connection
    makes a second one, and both are up. -/
theorem step_bad (h : s.Attached) (e : Event) (hnot : ¬ s.Vacant e) :
    ¬ Holds OneConnection Unbroken (s.step e) := by
  obtain ⟨current, h⟩ := h
  cases e with
  | complete i error getOption onConnection calls =>
    simp only [Vacant, Classical.not_imp] at hnot
    obtain ⟨hi, hhands, hset⟩ := hnot
    obtain ⟨k, hk⟩ := Option.ne_none_iff_exists'.mp hset
    have hconn := List.getElem?_eq_getElem hi
    generalize s.connector_.inFlight[i] = conn at hconn
    -- the old connection is up, and the new one is another one
    have hcurrent : current = some k := h.current_eq.symm.trans hk
    have hold : s.Up k := (h.up_iff k).mpr hcurrent
    have hne : k ≠ conn := by
      rintro rfl
      exact (h.current_made k hcurrent).1 (h.numbered.fresh hconn).1
    have hkeeps : ∀ j, j = k ∨ j = conn →
        KeepsUp j (s.complete i error getOption onConnection calls) := by
      intro j hj
      have hup : ∀ s', Makes (s.setConnector (s.connector_.complete i error getOption)) s' conn →
          s'.Up j := by
        intro s' hmakes
        by_cases heq : j = conn
        · obtain ⟨o, ho, -, hstate⟩ := hmakes.made
          exact ⟨o, heq ▸ ho, hstate⟩
        · rw [Up, hmakes.others j heq]
          rw [hj.resolve_right heq]
          exact hold
      rcases complete_cases hconn error getOption onConnection calls with
        ⟨-, -, hr⟩ | ⟨hnot, -⟩
      · have hmakes := newConnection_makes
          (s.setConnector (s.connector_.complete i error getOption)) conn onConnection
        rw [hr]
        refine Holds.bind (hmakes.mono hup fun e he => hup _ he.1) fun s' hs' => ?_
        exact callAll_up calls hs'
      · exact absurd hhands hnot
    have hk := hkeeps k (.inl rfl)
    have hconn := hkeeps conn (.inr rfl)
    intro hholds
    change Holds _ _ (s.complete i error getOption onConnection calls) at hholds
    generalize s.complete i error getOption onConnection calls = r at hk hconn hholds
    cases hholds with
    | ok hone =>
      rw [KeepsUp, holds_ok] at hk hconn
      exact hne (hone.one_up k conn hk hconn)
    | error hunbroken =>
      rw [KeepsUp, holds_error] at hk hconn
      exact hne (hunbroken.1.one_up k conn hk hconn)
  | call c => exact absurd trivial hnot
  | callElsewhere c => exact absurd trivial hnot
  | proceed i => exact absurd trivial hnot
  | runPosted i => exact absurd trivial hnot
  | retryTimer i => exact absurd trivial hnot
  | io conn e calls => exact absurd trivial hnot
  | connectDestroyed i onConnection calls => exact absurd trivial hnot

/-! ## Every run

  The equivalence, by induction for the one direction and by the event at which the condition
  fails for the other. -/

/-- **The one connection**: in all states of a run at most one connection is not disconnected, each
    closing restarts the connector at most once, and the `assert` of `removeConnection` does not
    fail, if and only if no completion makes a connection while `connection_` is set. -/
theorem one_connection_iff (serverAddress : List Char) (cc mc : Bool) (nextConnId : Int)
    (es : List Event) :
    Guarded step Vacant (new serverAddress cc mc nextConnId) es ↔
      ∀ pre, pre <+: es →
        Holds OneConnection
          (fun e => e.2.OneConnection ∧ e.1 ≠ .connector (.assertFailed .removeConnection))
          (run step (new serverAddress cc mc nextConnId) pre) :=
  guarded_iff (fun _ h => h.elim fun _ h => h.oneConnection) (fun _ e h hC => step_attached h e hC)
    (fun _ e h hC => step_bad h e hC) es _ ⟨none, new_tracked _ cc mc nextConnId⟩

end Steps

section Examples

attribute [local instance] VectorImpl.exact

/-- The client connects twice, and both attempts succeed: the first takes the socket of the second.
    Then it stops, and connects again while the connection is up. -/
def connectedTwice : List Event :=
  [.call .connect, .call .connect, .complete 0 .success (.error 0) [] [],
    .complete 0 .success .ec [] [], .call .stop, .call .connect,
    .complete 0 .success (.error 0) [] []]

/-- **Two connections** are up, and when the first closes, the `assert` of `removeConnection`
    fails. -/
theorem two_connections :
    ¬ Holds OneConnection
      (fun e => e.2.OneConnection ∧ e.1 ≠ .connector (.assertFailed .removeConnection))
      (run step (new [] true true 0) connectedTwice) ∧
    ¬ Holds OneConnection
      (fun e => e.2.OneConnection ∧ e.1 ≠ .connector (.assertFailed .removeConnection))
      (run step (new [] true true 0)
        (connectedTwice ++ [.io 0 (.socket (.readError [])) []])) := by
  constructor
  · -- both attempts have made a connection
    have hend : (run step (new [] true true 0) connectedTwice).toOption.map (fun s =>
        ((s.opened 0).map (·.connection.state_), (s.opened 2).map (·.connection.state_))) =
          some (some .kConnected, some .kConnected) := by decide +kernel
    generalize run step (new [] true true 0) connectedTwice = r at hend
    intro h
    cases h with
    | error h => cases hend
    | ok h =>
      rename_i s
      have hup : ∀ conn, (s.opened conn).map (·.connection.state_) = some .kConnected →
          s.Up conn := by
        intro conn hconn
        obtain ⟨o, ho, hstate⟩ := Option.map_eq_some_iff.mp hconn
        exact ⟨o, ho, by rw [hstate]; decide⟩
      have hstates := Prod.ext_iff.mp (Option.some.inj hend)
      exact absurd (h.one_up 0 2 (hup 0 hstates.1) (hup 2 hstates.2)) (by decide)
  · -- and when the first one closes, the assertion of `removeConnection` fails
    have hend : (match run step (new [] true true 0)
        (connectedTwice ++ [.io 0 (.socket (.readError [])) []]) with
      | .ok _ => none
      | .error e => some e.1) = some (.connector (.assertFailed .removeConnection)) := by
        decide +kernel
    generalize run step (new [] true true 0)
      (connectedTwice ++ [.io 0 (.socket (.readError [])) []]) = r at hend
    intro h
    cases h with
    | ok h => cases hend
    | error h => exact h.2 (Option.some.inj hend)

end Examples

end TcpClient

end IOEvent
