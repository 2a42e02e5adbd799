/-
  The connections of a server are spread evenly over the loops of its pool.

  `getNextIOLoop` is called for every new connection and for nothing else, so `next_` is the number
  of connections accepted so far, modulo the number of loops.  The connection number `k` therefore
  lives on the loop `turn k`: the base loop when the pool has no threads, and otherwise the loop
  whose turn it is.  No other handler touches the pool or moves a connection (`StaysPut`), whatever
  the connections do and however their handlers end.

  The loads follow by counting the numbers below the number of connections in one residue class.
-/
import Mathlib.Data.Int.CardIntervalMod
import IOEvent.TcpServer.Table

open Foundation

namespace IOEvent

namespace IOLoopThreadPool

/-- The loop of the `k`-th connection. It depends on the number of loops only, not on how they
    have been given out. -/
def turn (p : IOLoopThreadPool) (k : Nat) : Nat :=
  if p.io_contexts_ = [] then 0 else k % p.io_contexts_.length + 1

/-- The pool after `k` calls of `getNextIOLoop`. -/
structure RoundRobin (p : IOLoopThreadPool) (k : Nat) : Prop where
  loops : p.io_contexts_ = (List.range p.io_contexts_.length).map (· + 1)
  bound : p.io_contexts_.length < 2 ^ 32
  threads : p.numThreads_ < 2 ^ 32
  next : p.io_contexts_ ≠ [] → p.next_ = k % p.io_contexts_.length
  fresh : p.started_ = false → p.io_contexts_ = [] ∧ p.next_ = 0

variable {p : IOLoopThreadPool} {k : Nat}

/-- Whose turn it is depends on the loops alone. -/
theorem turn_congr {p' : IOLoopThreadPool} (h : p'.io_contexts_ = p.io_contexts_) (k : Nat) :
    p'.turn k = p.turn k := by
  rw [turn, turn, h]

/-- Counting up to `n` and starting over is counting modulo `n`. -/
theorem succ_mod {n : Nat} (hn : 0 < n) (k : Nat) :
    (if n ≤ k % n + 1 then 0 else k % n + 1) = (k + 1) % n := by
  have hlt : k % n < n := Nat.mod_lt k hn
  rw [← Nat.mod_add_mod]
  split
  · have hall : k % n + 1 = n := by omega
    rw [hall, Nat.mod_self]
  · rw [Nat.mod_eq_of_lt (show k % n + 1 < n by omega)]

/-- **`getNextIOLoop` gives out the loop whose turn it is**, and goes round at the end. -/
theorem RoundRobin.getNextIOLoop (h : RoundRobin p k) (hstarted : p.started_ = true) :
    ∃ p', p.getNextIOLoop = .ok (p.turn k, p') ∧ RoundRobin p' (k + 1) ∧
      p'.io_contexts_ = p.io_contexts_ ∧ p'.started_ = p.started_ := by
  rw [IOLoopThreadPool.getNextIOLoop, require_pos _ _ hstarted, ok_bind, turn]
  by_cases hnil : p.io_contexts_ = []
  · rw [if_pos hnil, if_pos hnil]
    exact ⟨p, rfl, ⟨h.loops, h.bound, h.threads, fun hne => absurd hnil hne, h.fresh⟩, rfl, rfl⟩
  · have hpos : 0 < p.io_contexts_.length := List.length_pos_iff.mpr hnil
    have hlt : k % p.io_contexts_.length < p.io_contexts_.length := Nat.mod_lt k hpos
    have hbound := h.bound
    have hget : p.io_contexts_[p.next_]? = some (k % p.io_contexts_.length + 1) := by
      rw [h.next hnil, h.loops, List.getElem?_map, List.length_map, List.length_range,
        List.getElem?_range hlt]
      rfl
    have hwrap : (p.next_ + 1) % 2 ^ 32 = k % p.io_contexts_.length + 1 := by
      rw [h.next hnil]
      exact Nat.mod_eq_of_lt (by omega)
    rw [if_neg hnil, if_neg hnil, hget]
    refine ⟨_, rfl, ⟨h.loops, h.bound, h.threads, fun _ => ?_, fun hfresh => ?_⟩, rfl, rfl⟩
    · dsimp only
      rw [hwrap]
      exact succ_mod hpos k
    · exact absurd (h.fresh hfresh).1 hnil

/-- A pool that starts begins with the first of its loops. -/
theorem RoundRobin.run (h : RoundRobin p k) (hfresh : p.started_ = false) :
    ∃ p', p.run = .ok p' ∧ RoundRobin p' 0 ∧ p'.started_ = true := by
  obtain ⟨hnil, hnext⟩ := h.fresh hfresh
  rw [IOLoopThreadPool.run, require_pos _ _ hfresh, ok_bind]
  refine ⟨_, rfl, ⟨?_, ?_, h.threads, fun _ => ?_, nofun⟩, rfl⟩
  · simp only [hnil, List.nil_append, List.length_map, List.length_range]
  · simp only [hnil, List.nil_append, List.length_map, List.length_range]
    exact h.threads
  · dsimp only
    rw [hnext, Nat.zero_mod]

/-- The number of threads has no part in whose turn it is. -/
theorem RoundRobin.setThreadNum (h : RoundRobin p k) (numThreads : Int) :
    RoundRobin (p.setThreadNum numThreads) k :=
  ⟨h.loops, h.bound, toUnsigned_lt 32 numThreads, h.next, h.fresh⟩

/-- How many of the first `m` connections live on the loop `i + 1`: the numbers congruent to `i`. -/
theorem count_turn (hnil : p.io_contexts_ ≠ []) {i : Nat} (hi : i < p.io_contexts_.length)
    (m : Nat) :
    ((List.range m).map p.turn).count (i + 1) =
      m / p.io_contexts_.length + if i < m % p.io_contexts_.length then 1 else 0 := by
  have hcount := Nat.count_modEq_card m (List.length_pos_iff.mpr hnil) i
  rw [Nat.mod_eq_of_lt hi] at hcount
  rw [← hcount, Nat.count, List.count, List.countP_map]
  apply List.countP_congr
  intro k _
  simp only [Function.comp, turn, if_neg hnil, beq_iff_eq, decide_eq_true_eq, Nat.ModEq,
    Nat.mod_eq_of_lt hi]
  omega

/-- The loads of any two loops differ by one at most. -/
theorem RoundRobin.count_le (h : RoundRobin p k) {i j : Nat} (hi : i ∈ p.io_contexts_)
    (hj : j ∈ p.io_contexts_) (m : Nat) :
    ((List.range m).map p.turn).count i ≤ ((List.range m).map p.turn).count j + 1 := by
  have hnil : p.io_contexts_ ≠ [] := List.ne_nil_of_mem hi
  have hindex {l : Nat} (hl : l ∈ p.io_contexts_) : ∃ a < p.io_contexts_.length, a + 1 = l := by
    rw [h.loops] at hl
    simpa using hl
  obtain ⟨a, ha, rfl⟩ := hindex hi
  obtain ⟨b, hb, rfl⟩ := hindex hj
  rw [count_turn hnil ha, count_turn hnil hb]
  split <;> split <;> omega

end IOLoopThreadPool

/-- The faults of the pool. -/
def ServerFault.OfPool : ServerFault → Prop
  | .outOfBounds | .assertFailed .run | .assertFailed .getNextIOLoop => True
  | _ => False

namespace TcpServer

/-! ## What the other handlers leave alone

  They change a connection, the table or a queue, and none of that moves a connection to
  another loop. -/

/-- The loops of the accepted connections, in the order in which they were accepted. -/
def loops (s : TcpServer) : List Nat := s.accepted.map Served.loop_

/-- No connection changes its loop, none comes and the pool gives out none. Every handler but
    that of an acceptance is of this kind. -/
structure Unmoved (s s' : TcpServer) : Prop where
  loops : s'.loops = s.loops
  pool : s'.threadPool_ = s.threadPool_
  started : s'.started_ = s.started_

/-- A handler moves no connection, and does not fail in the pool. -/
def StaysPut (s : TcpServer) (r : M) : Prop :=
  Holds (Unmoved s) (fun e => Unmoved s e.2 ∧ ¬ e.1.OfPool) r

variable {s : TcpServer}

/-- Nothing done, nothing moved. -/
theorem Unmoved.refl (s : TcpServer) : Unmoved s s := ⟨rfl, rfl, rfl⟩

/-- What a connection does moves no connection. -/
theorem Unmoved.setConnection {s' : TcpServer} (h : Unmoved s s') (conn : Nat)
    (c : TcpConnection) : Unmoved s (s'.setConnection conn c) := by
  refine ⟨?_, h.pool, h.started⟩
  rw [← h.loops]
  apply List.ext_getElem?
  intro i
  rw [TcpServer.loops, TcpServer.loops, List.getElem?_map, List.getElem?_map]
  exact loopOf_setConnection i

/-- Behind a step that moves nothing, an operation that moves nothing moves nothing. -/
theorem Unmoved.stays {s' : TcpServer} {r : M} (h : Unmoved s s') (hr : StaysPut s' r) :
    StaysPut s r := by
  have htrans {t : TcpServer} (ht : Unmoved s' t) : Unmoved s t :=
    ⟨ht.loops.trans h.loops, ht.pool.trans h.pool, ht.started.trans h.started⟩
  exact Holds.mono (fun _ ht => htrans ht) (fun _ he => ⟨htrans he.1, he.2⟩) hr

/-- A check of the handler. -/
theorem require_stays {q : Prop} [Decidable q] {f : ServerFault} {x : M} (hf : ¬ f.OfPool)
    (hx : StaysPut s x) : StaysPut s (require q f s >>= fun _ => x) := by
  by_cases hq : q
  · rw [require_pos _ _ hq, ok_bind]
    exact hx
  · rw [require_neg _ _ hq, error_bind]
    exact .error ⟨.refl s, hf⟩

/-- An operation within a connection moves nothing, faults included. -/
theorem inConnection_stays (conn : Nat) (r : Outcome Fault TcpConnection TcpConnection) :
    StaysPut s (s.inConnection conn r) := by
  cases r with
  | ok c => exact .ok ((Unmoved.refl s).setConnection conn c)
  | error e => exact .error ⟨(Unmoved.refl s).setConnection conn e.2, id⟩

/-- Nor does a call of `shutdown()`. -/
theorem callShutdown_stays (conn : Nat) : Unmoved s (s.callShutdown conn) := by
  unfold callShutdown
  split
  · exact .refl s
  · split
    · exact ⟨rfl, rfl, rfl⟩
    · exact .refl s

/-- Nor does the second half of one. -/
theorem setShutdown_stays (i : Nat) : Unmoved s (s.setShutdown i) := by
  unfold setShutdown
  split
  · exact .refl s
  · split
    · exact .refl s
    · have hcalls : Unmoved s { s with calls := s.calls.eraseIdx i } := ⟨rfl, rfl, rfl⟩
      exact hcalls.setConnection _ _

/-! ## The invariant

  It knows all the loops given out, as a list, and where the pool stands. -/

/-- How many connections were given to a loop. -/
def load (s : TcpServer) (loop : Nat) : Nat := s.loops.count loop

/-- The property: the connections go round the loops, so that any two loops of the pool carry
    numbers of connections that differ by one at most. -/
structure Balanced (s : TcpServer) : Prop where
  /-- The connection number `k` lives on the loop whose turn it was. -/
  turns : ∀ k loop, s.loopOf k = some loop → loop = s.threadPool_.turn k
  loads : ∀ i ∈ s.threadPool_.io_contexts_, ∀ j ∈ s.threadPool_.io_contexts_,
    s.load i ≤ s.load j + 1

/-- The invariant. An acceptance adds one connection and one call of `getNextIOLoop`, so the
    two counts never part. -/
structure Spread (s : TcpServer) : Prop where
  pool : s.threadPool_.RoundRobin s.accepted.length
  started : s.threadPool_.started_ = s.started_
  unstarted : s.started_ = false → s.accepted = []
  loops : s.loops = (List.range s.accepted.length).map s.threadPool_.turn

/-- The invariant has the property in it: how many turns each loop has had is an arithmetic fact
    about going round. -/
theorem Spread.balanced (h : Spread s) : Balanced s where
  turns := by
    intro k loop hloop
    have hk : s.loops[k]? = some loop := by
      rw [TcpServer.loops, List.getElem?_map]
      exact hloop
    rw [h.loops, List.getElem?_map] at hk
    obtain ⟨k', hk', rfl⟩ := Option.map_eq_some_iff.mp hk
    obtain ⟨hlt, hget⟩ := List.getElem?_eq_some_iff.mp hk'
    rw [List.getElem_range hlt] at hget
    rw [hget]
  loads := by
    intro i hi j hj
    rw [load, load, h.loops]
    exact h.pool.count_le hi hj _

/-- Where nothing moves it stays. -/
theorem Spread.same {s' : TcpServer} (h : Spread s) (hs : Unmoved s s') : Spread s' := by
  have hlength : s'.accepted.length = s.accepted.length := by
    have hlen := congrArg List.length hs.loops
    rwa [TcpServer.loops, TcpServer.loops, List.length_map, List.length_map] at hlen
  refine ⟨?_, ?_, fun hs' => ?_, ?_⟩
  · rw [hs.pool, hlength]
    exact h.pool
  · rw [hs.pool, hs.started]
    exact h.started
  · apply List.length_eq_zero_iff.mp
    rw [hlength, h.unstarted (hs.started.symm.trans hs'), List.length_nil]
  · rw [hs.loops, hs.pool, hlength]
    exact h.loops

/-- What every step keeps. -/
def KeepsSpread (r : M) : Prop := Holds Spread (fun e => Spread e.2 ∧ ¬ e.1.OfPool) r

/-- So an operation that moves nothing keeps it. -/
theorem Spread.stays {r : M} (h : Spread s) (hr : StaysPut s r) : KeepsSpread r :=
  Holds.mono (fun _ hs => h.same hs) (fun _ he => ⟨h.same he.1, he.2⟩) hr

/-- A new server has no connections to spread. -/
theorem new_spread (ip : AddressV4) (cc mc : Bool) : Spread (new ip cc mc) where
  pool := ⟨rfl, Nat.two_pow_pos 32, Nat.two_pow_pos 32, fun hne =>
    absurd rfl hne, fun _ => ⟨rfl, rfl⟩⟩
  started := rfl
  unstarted := fun _ => rfl
  loops := rfl

/-- `start()` makes the loops, while there are no connections. -/
theorem start_spread (h : Spread s) : KeepsSpread s.start := by
  unfold start
  split
  · exact .ok h
  · rename_i hnot
    have hfresh : s.started_ = false := Bool.not_eq_true _ ▸ hnot
    have hnone := h.unstarted hfresh
    obtain ⟨p, hp, hround, hstarted⟩ := h.pool.run (h.started.trans hfresh)
    dsimp only
    rw [hp, within_ok, ok_bind]
    refine .ok ⟨?_, hstarted, nofun, ?_⟩
    · show p.RoundRobin s.accepted.length
      rw [hnone]
      exact hround
    · show s.accepted.map Served.loop_ = (List.range s.accepted.length).map p.turn
      rw [hnone]
      rfl

/-! ## The handlers

  An acceptance asks the pool for the next loop; every other handler stays put. -/

section Handlers

variable [VectorImpl]

/-- A handler moves nothing: it is about a connection that has its loop. -/
theorem handle_stays (loop : Nat) (onConnection : List Act) (task : ServerTask) :
    StaysPut s (s.handle loop onConnection task) := by
  have hobserve (o : ServerObs) (conn : Nat) (r : Outcome Fault TcpConnection TcpConnection) :
      StaysPut s ((s.observe o).inConnection conn r) := by
    have hsame : Unmoved s (s.observe o) := ⟨rfl, rfl, rfl⟩
    exact hsame.stays (inConnection_stays conn r)
  cases task with
  | connectEstablished conn =>
    rw [handle, connectEstablished]
    split
    · exact .ok (.refl s)
    · exact require_stays id (hobserve ..)
  | connectDestroyed conn =>
    rw [handle, connectDestroyed]
    split
    · exact .ok (.refl s)
    · exact require_stays id (hobserve ..)
  | removeConnectionInThisThread conn =>
    rw [handle, removeConnectionInThisThread]
    split
    · exact .ok (.refl s)
    case h_2 served _ =>
      apply require_stays id
      have hsame : Unmoved s ({ s with
          connections_ := s.connections_.erase served.name_ }.observe
            (.removed conn (s.connections_.lookup served.name_))) := ⟨rfl, rfl, rfl⟩
      exact hsame.stays (require_stays id (.ok ⟨rfl, rfl, rfl⟩))

/-- Neither does a dispatch, be it run at once or posted. -/
theorem dispatch_stays (current target : Nat) (onConnection : List Act) (task : ServerTask) :
    StaysPut s (s.dispatch current target onConnection task) := by
  rw [dispatch]
  split
  · exact handle_stays target onConnection task
  · exact .ok ⟨rfl, rfl, rfl⟩

/-- Neither does the running of a posted handler. -/
theorem runPosted_stays (i : Nat) (onConnection : List Act) :
    StaysPut s (s.runPosted i onConnection) := by
  rw [runPosted]
  split
  · exact .ok (.refl s)
  · split
    · have hsame : Unmoved s { s with posted := s.posted.eraseIdx i } := ⟨rfl, rfl, rfl⟩
      exact hsame.stays (handle_stays _ onConnection _)
    · exact .ok (.refl s)

/-- Neither does what happens on a connection. -/
theorem io_stays (conn : Nat) (e : Io) : StaysPut s (s.io conn e) := by
  rw [io]
  split
  · exact .ok (.refl s)
  · split
    · exact .error ⟨(Unmoved.refl s).setConnection conn _, id⟩
    · have hset (c : TcpConnection) := (Unmoved.refl s).setConnection conn c
      split
      · exact .ok (hset _)
      · exact (hset _).stays (dispatch_stays ..)

/-- **A new connection** takes the turn that comes next. Where the connection fails to be set up
    the turn is taken all the same, and so is its place in the record. -/
theorem newConnection_spread (h : Spread s) (hstarted : s.started_ = true)
    (onConnection : List Act) :
    KeepsSpread (s.newConnection onConnection) := by
  obtain ⟨p, hp, hround, hcontexts, hpstarted⟩ := h.pool.getNextIOLoop (h.started.trans hstarted)
  rw [newConnection, hp, within_ok, ok_bind]
  refine Spread.stays ?_ (dispatch_stays ..)
  have hturn : p.turn = s.threadPool_.turn := funext (IOLoopThreadPool.turn_congr hcontexts)
  refine ⟨?_, hpstarted.trans h.started, fun hnot => ?_, ?_⟩
  · show p.RoundRobin (s.accepted ++ [_]).length
    rw [List.length_append, List.length_singleton]
    exact hround
  · exact absurd (hstarted.symm.trans hnot) (by decide)
  · show (s.accepted ++ [_]).map Served.loop_ = (List.range (s.accepted ++ [_]).length).map p.turn
    rw [List.length_append, List.length_singleton, List.range_succ, List.map_append,
      List.map_append, hturn, ← h.loops]
    rfl

/-! ## Every run

  No condition on the events: a handler that fails has moved nothing either. -/

/-- **Every step keeps it**, without a condition. -/
theorem step_spread (h : Spread s) (e : Event) : KeepsSpread (s.step e) := by
  cases e with
  | setThreadNum numThreads =>
    exact .ok ⟨h.pool.setThreadNum numThreads, h.started, h.unstarted, h.loops⟩
  | start => exact start_spread h
  | accept onConnection =>
    show KeepsSpread (if s.started_ then _ else _)
    split
    case isTrue hstarted => exact newConnection_spread h hstarted onConnection
    case isFalse => exact .ok h
  | runPosted i onConnection => exact h.stays (runPosted_stays i onConnection)
  | io conn e => exact h.stays (io_stays conn e)
  | callShutdown conn => exact .ok (h.same (callShutdown_stays conn))
  | setShutdown i => exact .ok (h.same (setShutdown_stays i))

/-- **The connections are balanced**: in every run of a server, whatever its connections do and
    whether a handler fails or not, the connection number `k` lives on the loop whose turn it was,
    the numbers of connections any two loops of the pool were given differ by one at most, and no
    handler fails in the pool. -/
theorem connections_balanced (ip : AddressV4) (cc mc : Bool) (es : List Event) :
    Holds Balanced (fun e => Balanced e.2 ∧ ¬ e.1.OfPool) (run step (new ip cc mc) es) :=
  (run_keeps (fun _ e hs => step_spread hs e) es _ (new_spread ip cc mc)).mono
    (fun _ hs => hs.balanced) fun _ he => ⟨he.1.balanced, he.2⟩

end Handlers

end TcpServer

end IOEvent
