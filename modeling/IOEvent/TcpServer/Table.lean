/-
  The connection table of a server.

  A connection passes through five stages: it is accepted, established on its own loop, closed
  there, removed from the table on the base loop, and destroyed on its own loop again.  Three of
  the steps are handlers that another loop posted, so the invariant (`AtStage`) says for each
  stage which of the three handlers are posted for the connection, which have run, and where the
  connection stands.  Every count is 0 or 1, and a handler that is posted determines the stage.

  The table itself (`TableOk`) follows: it holds the accepted connections up to the fourth step,
  each under the name it was given, and these names differ as long as fewer than 2^32 connections
  are accepted: the number in the name is printed as an `int`, but all 32 bits of it are there,
  and an IPv4 address leaves room for it in the 64 bytes of the name.

  The proof has three layers.  `About` says that an operation is about one connection and leaves
  the others; the lemmas on `TableOk` say what each handler does to the table and to the log;
  and each handler is then taken through `AtStage`, from the stage at which it is found to the
  next one.
-/
import IOEvent.TcpServer.Standing
import Mathlib.Data.List.Perm.Basic

open Foundation

namespace IOEvent

/-! ## The names

  The buffer takes 63 characters, and an address with its number is shorter than that.  So
  nothing is cut off, and numbers below `2 ^ 32` that differ give names that differ. -/

/-- Each of the four numbers has three digits at most. -/
theorem AddressV4.toString_length (ip : AddressV4) : ip.toString.length ≤ 15 := by
  have hbyte : ∀ b : UInt8, (decimal (b.toNat : Int)).length ≤ 3 := by
    intro b
    have hb : b.toNat < 256 := b.toNat_lt
    exact toDigits_length_le (by decide) (by omega)
  have ha := hbyte ip.a
  have hb := hbyte ip.b
  have hc := hbyte ip.c
  have hd := hbyte ip.d
  simp only [AddressV4.toString, List.length_append, List.length_cons]
  omega

/-- The `snprintf` does not truncate the name. -/
theorem connectionName_eq {ipPort : List Char} (hip : ipPort.length ≤ 15) (id : Nat) :
    connectionName ipPort id = '-' :: ipPort ++ '#' :: decimal (toSigned 32 id) := by
  have hrange := toSigned_range (w := 32) (by decide) id
  have hdigits : (decimal (toSigned 32 id)).length ≤ 11 :=
    decimal_length_le (by decide) (by omega)
  apply List.take_of_length_le
  simp only [List.length_append, List.length_cons]
  omega

/-- **Names are different for different numbers.** The buffer of the name holds the address and
    ten digits, so nothing is cut off. -/
theorem connectionName_injective {ipPort : List Char} (hip : ipPort.length ≤ 15) {i j : Nat}
    (hi : i < 2 ^ 32) (hj : j < 2 ^ 32) (h : connectionName ipPort i = connectionName ipPort j) :
    i = j := by
  rw [connectionName_eq hip, connectionName_eq hip] at h
  have hdigits := (List.cons.inj (List.append_cancel_left h)).2
  exact toSigned_injective hi hj (decimal_injective hdigits)

/-! ## The property

  Told on the table and on the log of the handlers, without the stages of the proof. -/

/-- The connection a handler is about. -/
def ServerTask.conn : ServerTask → Nat
  | .connectEstablished conn | .removeConnectionInThisThread conn | .connectDestroyed conn => conn

/-- The connection that an entry of the log is about. -/
def ServerObs.conn : ServerObs → Nat
  | .connectEstablished conn | .removed conn _ | .connectDestroyed conn => conn

namespace TcpServer

variable {s s' : TcpServer} {conn : Nat}

/-- The name of an accepted connection. -/
def nameOf (s : TcpServer) (conn : Nat) : Option (List Char) := s.accepted[conn]?.map Served.name_

/-- The loop of an accepted connection. -/
def loopOf (s : TcpServer) (conn : Nat) : Option Nat := s.accepted[conn]?.map Served.loop_

/-- The base loop has processed the removal message of the connection. -/
def Removed (s : TcpServer) (conn : Nat) : Prop := ∃ erased, .removed conn erased ∈ s.log

/-- The property: the table holds exactly the connections whose removal was not processed, under
    names that no two of them share, and each connection is established and destroyed once at
    most, in this order. -/
structure TableOk (s : TcpServer) : Prop where
  table : ∀ name conn, s.connections_.lookup name = some conn ↔
    s.nameOf conn = some name ∧ ¬ s.Removed conn
  distinct : ∀ name i j, s.nameOf i = some name → s.nameOf j = some name → i = j
  /-- A removal erases the entry of the closing connection. -/
  erased : ∀ conn erased, .removed conn erased ∈ s.log → erased = some conn
  established : ∀ conn, s.log.count (.connectEstablished conn) ≤ 1
  destroyed : ∀ conn, s.log.count (.connectDestroyed conn) ≤ 1
  order : ∀ conn before after, s.log = before ++ .connectDestroyed conn :: after →
    .connectEstablished conn ∈ before

/-- What a step must meet: no force close, and fewer than 2^32 connections. -/
def Peaceful (s : TcpServer) : Event → Prop
  | .accept onConnection => s.accepted.length + 1 < 2 ^ 32 ∧ Unforced onConnection
  | .runPosted _ onConnection => Unforced onConnection
  | .io _ e => e.Unforced
  | _ => True

/-- Whether an event is peaceful can be computed. -/
instance (s : TcpServer) (e : Event) : Decidable (s.Peaceful e) := by
  cases e <;> unfold Peaceful <;> infer_instance

/-! ## The stages of a connection

  A connection is accepted, comes up, closes, is removed, and is destroyed.  At each stage at
  most one handler about it is posted, and it is the one that leads to the next stage. -/

/-- The stages that a connection goes through, one after the other. Which handler about it is
    posted, and which has run, is known at each of them. -/
inductive Stage
  | accepted
  | established
  | closed
  | removed
  | destroyed
  deriving DecidableEq, Repr

/-- Where it stands at a stage, seen from inside the connection. -/
def Stage.standing : Stage → Standing
  | .accepted => .waiting
  | .established => .up
  | _ => .closed

/-- How often the close callback has been called. -/
def Stage.closes : Stage → Nat
  | .accepted | .established => 0
  | _ => 1

/-- How often a handler is posted. -/
def pending (s : TcpServer) (task : ServerTask) : Nat := (s.posted.map Prod.snd).count task

/-- The handlers posted and run for a connection at a stage, and where it stands. -/
structure AtStage (s : TcpServer) (conn : Nat) (c : TcpConnection) (g : Stage) : Prop where
  standing : c.At g.standing g.closes
  toEstablish : s.pending (.connectEstablished conn) = if g = .accepted then 1 else 0
  toRemove : s.pending (.removeConnectionInThisThread conn) = if g = .closed then 1 else 0
  toDestroy : s.pending (.connectDestroyed conn) = if g = .removed then 1 else 0
  established : s.log.count (.connectEstablished conn) = if g = .accepted then 0 else 1
  removed : s.Removed conn ↔ g = .removed ∨ g = .destroyed
  destroyed : s.log.count (.connectDestroyed conn) = if g = .destroyed then 1 else 0

/-- The loop a handler is for. -/
def home (s : TcpServer) : ServerTask → Option Nat
  | .removeConnectionInThisThread conn => (s.loopOf conn).map fun _ => 0
  | .connectEstablished conn | .connectDestroyed conn => s.loopOf conn

/-! ## The invariant

  A part for the pool, one for each connection at its stage, one for the table.  `ServerInv`
  puts them together. -/

/-- The pool gives out its own loops, or the base loop when it has none. -/
structure PoolOk (p : IOLoopThreadPool) : Prop where
  next : p.io_contexts_ ≠ [] → p.next_ < p.io_contexts_.length
  loops : ∀ loop ∈ p.io_contexts_, loop ≠ 0
  fresh : p.started_ = false → p.io_contexts_ = [] ∧ p.next_ = 0

/-- How the connections were made. -/
structure Setup (s : TcpServer) : Prop where
  named : ∀ conn name, s.nameOf conn = some name → name = connectionName s.ipPort_ (conn + 1)
  ip : s.ipPort_.length ≤ 15
  nextId : s.nextConnId_ = (s.accepted.length + 1) % 2 ^ 32
  bound : s.accepted.length < 2 ^ 32
  pool : PoolOk s.threadPool_
  started : s.threadPool_.started_ = s.started_
  unstarted : s.started_ = false → s.accepted = []
  loops : ∀ conn loop, s.loopOf conn = some loop → (loop = 0 ↔ s.threadPool_.io_contexts_ = [])

/-- The invariant: the property itself, how the connections were made, a stage for each of them,
    and a home for each posted handler. `shutdown()` is called from outside on established
    connections alone. -/
structure ServerInv (s : TcpServer) : Prop where
  tableOk : TableOk s
  setup : Setup s
  stages : ∀ conn served, s.accepted[conn]? = some served →
    ∃ g, AtStage s conn served.connection g
  homes : ∀ p ∈ s.posted, s.home p.2 = some p.1
  calls : ∀ conn ∈ s.calls, .connectEstablished conn ∈ s.log
  logged : ∀ o ∈ s.log, o.conn < s.accepted.length

/-! ## What the operations leave alone

  Most steps concern one connection.  These lemmas say that the others are where they were. -/

section Frames

variable {c : TcpConnection} {task : ServerTask} {loop : Nat} {o : ServerObs}

/-- The connections behind a change of one of them. -/
theorem accepted_setConnection (s : TcpServer) (conn : Nat) (c : TcpConnection) (i : Nat) :
    (s.setConnection conn c).accepted[i]? =
      if conn = i then s.accepted[i]?.map fun served => { served with connection := c }
      else s.accepted[i]? := by
  show (s.accepted.modify conn _)[i]? = _
  rw [List.getElem?_modify]
  split <;> simp

/-- The one that was changed is what it was changed to. -/
theorem connection_setConnection {served : Served}
    (h : (s.setConnection conn c).accepted[conn]? = some served) : served.connection = c := by
  rw [accepted_setConnection, if_pos rfl] at h
  obtain ⟨x, -, rfl⟩ := Option.map_eq_some_iff.mp h
  rfl

/-- Names do not change with what a connection does. -/
@[simp] theorem nameOf_setConnection (i : Nat) :
    (s.setConnection conn c).nameOf i = s.nameOf i := by
  rw [nameOf, nameOf, accepted_setConnection]
  split <;> simp [Function.comp_def]

/-- Nor do loops. -/
@[simp] theorem loopOf_setConnection (i : Nat) :
    (s.setConnection conn c).loopOf i = s.loopOf i := by
  rw [loopOf, loopOf, accepted_setConnection]
  split <;> simp [Function.comp_def]

/-- Nor the number of connections. -/
@[simp] theorem length_setConnection :
    (s.setConnection conn c).accepted.length = s.accepted.length := List.length_modify ..

/-- A post adds one handler. -/
@[simp] theorem pending_post (task' : ServerTask) :
    (s.post loop task).pending task' = s.pending task' + if task = task' then 1 else 0 := by
  show ((s.posted ++ [(loop, task)]).map Prod.snd).count task' = _
  rw [List.map_append, List.count_append, List.map_singleton, List.count_singleton]
  simp only [beq_iff_eq, pending]

/-- A change within a connection adds none. -/
@[simp] theorem pending_setConnection (task' : ServerTask) :
    (s.setConnection conn c).pending task' = s.pending task' := rfl

/-- Nor does an entry in the log. -/
@[simp] theorem pending_observe (task' : ServerTask) :
    (s.observe o).pending task' = s.pending task' := rfl

/-- Nor does a change of the table. -/
@[simp] theorem pending_setTable (connections : AList fun _ : List Char => Nat)
    (task' : ServerTask) :
    ({ s with connections_ := connections } : TcpServer).pending task' = s.pending task' := rfl

/-- The log is not changed by what a connection does. -/
@[simp] theorem log_setConnection : (s.setConnection conn c).log = s.log := rfl

/-- Nor by a post. -/
@[simp] theorem log_post : (s.post loop task).log = s.log := rfl

/-- What is removed is read off the log, so nothing within a connection removes it. -/
@[simp] theorem removed_setConnection (i : Nat) :
    (s.setConnection conn c).Removed i ↔ s.Removed i := Iff.rfl

/-- Nor does a post. -/
@[simp] theorem removed_post (i : Nat) : (s.post loop task).Removed i ↔ s.Removed i := Iff.rfl

/-- What was entered, counted behind one more entry. -/
@[simp] theorem count_observe (o' : ServerObs) :
    (s.observe o).log.count o' = s.log.count o' + if o = o' then 1 else 0 := by
  show (s.log ++ [o]).count o' = _
  rw [List.count_append, List.count_singleton]
  simp only [beq_iff_eq]

/-- An entry removes the connection it says it removes. -/
theorem removed_observe (i : Nat) :
    (s.observe o).Removed i ↔ s.Removed i ∨ ∃ erased, o = .removed i erased := by
  unfold Removed
  show (∃ erased, _ ∈ s.log ++ [o]) ↔ _
  simp only [List.mem_append, List.mem_singleton, exists_or, eq_comm]

/-- What a handler about one connection may change. -/
structure About (conn : Nat) (s s' : TcpServer) : Prop where
  names : ∀ i, s'.nameOf i = s.nameOf i
  loops : ∀ i, s'.loopOf i = s.loopOf i
  length : s'.accepted.length = s.accepted.length
  setup : s'.nextConnId_ = s.nextConnId_ ∧ s'.ipPort_ = s.ipPort_ ∧ s'.threadPool_ = s.threadPool_ ∧
    s'.started_ = s.started_
  accepted : ∀ i ≠ conn, s'.accepted[i]? = s.accepted[i]?
  pending : ∀ task, task.conn ≠ conn → s'.pending task = s.pending task
  log : ∃ os, s'.log = s.log ++ os ∧ ∀ o ∈ os, o.conn = conn
  posted : ∀ p ∈ s'.posted, p ∈ s.posted ∨ s.home p.2 = some p.1
  calls : ∀ i ∈ s'.calls, i ∈ s.calls ∨ .connectEstablished i ∈ s'.log

/-- A handler about one connection leaves the homes of all handlers. -/
theorem About.home (h : About conn s s') (task : ServerTask) : s'.home task = s.home task := by
  cases task <;> simp only [TcpServer.home, h.loops]

/-- Two changes about one connection are one. -/
theorem About.trans {s'' : TcpServer} (h : About conn s s') (h' : About conn s' s'') :
    About conn s s'' where
  names := fun i => (h'.names i).trans (h.names i)
  loops := fun i => (h'.loops i).trans (h.loops i)
  length := h'.length.trans h.length
  setup := ⟨h'.setup.1.trans h.setup.1, h'.setup.2.1.trans h.setup.2.1,
    h'.setup.2.2.1.trans h.setup.2.2.1, h'.setup.2.2.2.trans h.setup.2.2.2⟩
  accepted := fun i hi => (h'.accepted i hi).trans (h.accepted i hi)
  pending := fun task ht => (h'.pending task ht).trans (h.pending task ht)
  log := by
    obtain ⟨os, hos, hconn⟩ := h.log
    obtain ⟨os', hos', hconn'⟩ := h'.log
    refine ⟨os ++ os', by rw [hos', hos, List.append_assoc], fun o ho => ?_⟩
    exact (List.mem_append.mp ho).elim (hconn o) (hconn' o)
  posted := by
    intro p hp
    rcases h'.posted p hp with hp | hp
    · exact h.posted p hp
    · exact .inr (by rw [← h.home, hp])
  calls := by
    intro i hi
    obtain ⟨os, hos, -⟩ := h'.log
    rcases h'.calls i hi with hi | hi
    · refine (h.calls i hi).imp_right fun hlog => ?_
      rw [hos]
      exact List.mem_append_left _ hlog
    · exact .inr hi

/-- A change within a connection is about it. -/
theorem About.setConnection (s : TcpServer) (conn : Nat) (c : TcpConnection) :
    About conn s (s.setConnection conn c) where
  names := fun _ => nameOf_setConnection _
  loops := fun _ => loopOf_setConnection _
  length := length_setConnection
  setup := ⟨rfl, rfl, rfl, rfl⟩
  accepted := fun i hi => by rw [accepted_setConnection, if_neg (Ne.symm hi)]
  pending := fun _ _ => rfl
  log := ⟨[], (List.append_nil _).symm, nofun⟩
  posted := fun _ hp => .inl hp
  calls := fun _ hi => .inl hi

/-- An entry about a connection is about it. -/
theorem About.observe (s : TcpServer) (conn : Nat) (ho : o.conn = conn) :
    About conn s (s.observe o) where
  names := fun _ => rfl
  loops := fun _ => rfl
  length := rfl
  setup := ⟨rfl, rfl, rfl, rfl⟩
  accepted := fun _ _ => rfl
  pending := fun _ _ => rfl
  log := ⟨[o], rfl, fun o' ho' => by rw [List.mem_singleton.mp ho']; exact ho⟩
  posted := fun _ hp => .inl hp
  calls := fun _ hi => .inl hi

/-- A handler posted to its home is about its connection. -/
theorem About.post (s : TcpServer) (conn : Nat) (ht : task.conn = conn)
    (hhome : s.home task = some loop) :
    About conn s (s.post loop task) where
  names := fun _ => rfl
  loops := fun _ => rfl
  length := rfl
  setup := ⟨rfl, rfl, rfl, rfl⟩
  accepted := fun _ _ => rfl
  pending := by
    intro task' ht'
    have hne : task ≠ task' := by
      rintro rfl
      exact ht' ht
    rw [pending_post, if_neg hne]
    rfl
  log := ⟨[], (List.append_nil _).symm, nofun⟩
  posted := by
    intro p hp
    rcases List.mem_append.mp hp with hp | hp
    · exact .inl hp
    · rw [List.mem_singleton.mp hp]
      exact .inr hhome
  calls := fun _ hi => .inl hi

/-- The handler that runs is posted no more. -/
theorem About.unpost (s : TcpServer) (conn : Nat) (ht : task.conn = conn) :
    About conn (s.post loop task) s where
  names := fun _ => rfl
  loops := fun _ => rfl
  length := rfl
  setup := ⟨rfl, rfl, rfl, rfl⟩
  accepted := fun _ _ => rfl
  pending := by
    intro task' ht'
    have hne : task ≠ task' := by
      rintro rfl
      exact ht' ht
    rw [pending_post, if_neg hne]
    rfl
  log := ⟨[], (List.append_nil _).symm, nofun⟩
  posted := fun _ hp => .inl (List.mem_append_left _ hp)
  calls := fun _ hi => .inl hi

/-- The table changes. -/
theorem About.setTable (s : TcpServer) (conn : Nat) (connections : AList fun _ : List Char => Nat) :
    About conn s { s with connections_ := connections } :=
  ⟨fun _ => rfl, fun _ => rfl, rfl, ⟨rfl, rfl, rfl, rfl⟩, fun _ _ => rfl, fun _ _ => rfl,
    ⟨[], (List.append_nil _).symm, nofun⟩, fun _ hp => .inl hp, fun _ hi => .inl hi⟩

/-- How the connections were made has nothing to do with what they do. -/
theorem Setup.about (h : Setup s) (ha : About conn s s') : Setup s' := by
  obtain ⟨hnext, hip, hpool, hstarted⟩ := ha.setup
  refine ⟨fun i name hname => ?_, hip ▸ h.ip, ?_, ?_, hpool ▸ h.pool, ?_, fun hs =>
    ?_, fun i l hl => ?_⟩
  · rw [ha.names] at hname
    rw [hip]
    exact h.named i name hname
  · rw [hnext, ha.length]
    exact h.nextId
  · rw [ha.length]
    exact h.bound
  · rw [hpool, hstarted]
    exact h.started
  · rw [hstarted] at hs
    have hnil := h.unstarted hs
    apply List.length_eq_zero_iff.mp
    rw [ha.length, hnil, List.length_nil]
  · rw [ha.loops] at hl
    rw [hpool]
    exact h.loops i l hl

/-- A connection stays at its stage as long as nothing is posted or recorded for it. -/
theorem AtStage.same {g : Stage} (h : AtStage s conn c g)
    (hpending : ∀ task : ServerTask, task.conn = conn → s'.pending task = s.pending task)
    (hlog : ∀ o : ServerObs, o.conn = conn → s'.log.count o = s.log.count o) :
    AtStage s' conn c g where
  standing := h.standing
  toEstablish := (hpending _ rfl).trans h.toEstablish
  toRemove := (hpending _ rfl).trans h.toRemove
  toDestroy := (hpending _ rfl).trans h.toDestroy
  established := (hlog _ rfl).trans h.established
  removed := by
    rw [← h.removed, Removed, Removed]
    refine exists_congr fun erased => ?_
    rw [← List.count_pos_iff, ← List.count_pos_iff, hlog _ rfl]
  destroyed := (hlog _ rfl).trans h.destroyed

/-- **A handler about one connection** keeps the invariant when it keeps the table and leaves the
    connection at a stage. -/
theorem ServerInv.about (h : ServerInv s) (hlt : conn < s.accepted.length) (ha : About conn s s')
    (htable : TableOk s')
    (hstage : ∀ served, s'.accepted[conn]? = some served →
      ∃ g, AtStage s' conn served.connection g) :
    ServerInv s' where
  tableOk := htable
  setup := h.setup.about ha
  stages := by
    intro i served hserved
    by_cases hi : i = conn
    · subst hi
      exact hstage served hserved
    · rw [ha.accepted i hi] at hserved
      obtain ⟨g, hg⟩ := h.stages i served hserved
      obtain ⟨os, hos, hconn⟩ := ha.log
      refine ⟨g, hg.same (fun task ht => ha.pending task (ht ▸ hi)) fun o ho => ?_⟩
      -- what is recorded is about `conn`
      have hzero : os.count o = 0 :=
        List.count_eq_zero.mpr fun hmem => hi (ho.symm.trans (hconn o hmem))
      rw [hos, List.count_append, hzero, Nat.add_zero]
  homes := by
    intro p hp
    rw [ha.home]
    exact (ha.posted p hp).elim (h.homes p) id
  calls := by
    intro i hi
    obtain ⟨os, hos, -⟩ := ha.log
    rcases ha.calls i hi with hi | hi
    · rw [hos]
      exact List.mem_append_left _ (h.calls i hi)
    · exact hi
  logged := by
    intro o ho
    obtain ⟨os, hos, hconn⟩ := ha.log
    rw [hos] at ho
    rw [ha.length]
    rcases List.mem_append.mp ho with ho | ho
    · exact h.logged o ho
    · rw [hconn o ho]
      exact hlt

end Frames

/-! ## The table, handler by handler

  What each of the handlers does to the table and its log, as far as the table is concerned. -/

section Tables

variable {c : TcpConnection} {task : ServerTask} {loop : Nat} {name : List Char}

/-- A step that changes neither the table nor the log nor a name. -/
theorem TableOk.same (h : TableOk s) (hconnections : s'.connections_ = s.connections_)
    (hlog : s'.log = s.log) (hnames : ∀ i, s'.nameOf i = s.nameOf i) : TableOk s' where
  table := by
    intro name i
    rw [hconnections, hnames, Removed, hlog]
    exact h.table name i
  distinct := by
    intro name i j
    rw [hnames, hnames]
    exact h.distinct name i j
  erased := hlog ▸ h.erased
  established := hlog ▸ h.established
  destroyed := hlog ▸ h.destroyed
  order := hlog ▸ h.order

/-- What is in a list before an element of it, when another is put behind. -/
theorem order_snoc {α : Type} {l : List α} {a b x : α}
    (h : ∀ before after, l = before ++ b :: after → a ∈ before) (hx : x = b → a ∈ l) :
    ∀ before after, l ++ [x] = before ++ b :: after → a ∈ before := by
  intro before after heq
  rcases List.eq_nil_or_concat after with rfl | ⟨after, y, rfl⟩
  · obtain ⟨rfl, hxb⟩ := List.append_inj' heq rfl
    exact hx (List.singleton_inj.mp hxb)
  · have heq' : l ++ [x] = (before ++ b :: after) ++ [y] := by
      rw [heq, List.concat_eq_append, List.append_assoc]
      rfl
    exact h before after (List.append_inj' heq' rfl).1

/-- What the log says of erased entries after one more observation. -/
theorem TableOk.erased_observe (h : TableOk s) {o : ServerObs}
    (ho : ∀ i erased, o = .removed i erased → erased = some i) (i : Nat) (erased : Option Nat)
    (hmem : .removed i erased ∈ (s.observe o).log) : erased = some i := by
  rcases List.mem_append.mp hmem with hmem | hmem
  · exact h.erased i erased hmem
  · exact ho i erased (List.mem_singleton.mp hmem).symm

/-- `connectEstablished` runs, for the first time. -/
theorem TableOk.establish (h : TableOk s) (hzero : s.log.count (.connectEstablished conn) = 0) :
    TableOk (s.observe (.connectEstablished conn)) where
  table := by
    intro name i
    rw [removed_observe, or_iff_left (by simp)]
    exact h.table name i
  distinct := h.distinct
  erased := h.erased_observe nofun
  established := by
    intro i
    rw [count_observe]
    split
    · rename_i heq
      cases heq
      rw [hzero]
    · exact h.established i
  destroyed := by
    intro i
    rw [count_observe, if_neg (by simp)]
    exact h.destroyed i
  order := fun i => order_snoc (h.order i) nofun

/-- `connectDestroyed` runs, for the first time, and after `connectEstablished`. -/
theorem TableOk.destroy (h : TableOk s) (hzero : s.log.count (.connectDestroyed conn) = 0)
    (hbefore : .connectEstablished conn ∈ s.log) :
    TableOk (s.observe (.connectDestroyed conn)) where
  table := by
    intro name i
    rw [removed_observe, or_iff_left (by simp)]
    exact h.table name i
  distinct := h.distinct
  erased := h.erased_observe nofun
  established := by
    intro i
    rw [count_observe, if_neg (by simp)]
    exact h.established i
  destroyed := by
    intro i
    rw [count_observe]
    split
    · rename_i heq
      cases heq
      rw [hzero]
    · exact h.destroyed i
  order := fun i => order_snoc (h.order i) fun heq => by
    cases heq
    exact hbefore

/-- A connection that is in the table is taken out of it. -/
theorem TableOk.remove (h : TableOk s) (hname : s.nameOf conn = some name)
    (hin : s.connections_.lookup name = some conn) :
    TableOk ({ s with connections_ := s.connections_.erase name }.observe
      (.removed conn (some conn))) where
  -- the name is gone from the table, and the connection is on the log as removed
  table := by
    intro name' i
    rw [removed_observe]
    show (s.connections_.erase name).lookup name' = some i ↔ s.nameOf i = some name' ∧ _
    by_cases heq : name' = name
    · subst heq
      rw [AList.lookup_erase]
      refine ⟨nofun, fun ⟨hi, hno⟩ => ?_⟩
      obtain rfl := h.distinct _ _ _ hi hname
      exact absurd (.inr ⟨_, rfl⟩) hno
    · have hne : s.nameOf i = some name' → i ≠ conn := by
        rintro hi rfl
        exact heq (Option.some.inj (hi.symm.trans hname))
      rw [AList.lookup_erase_ne heq, h.table]
      refine and_congr_right fun hi => not_congr ?_
      have hother : ¬ ∃ erased, ServerObs.removed conn (some conn) = .removed i erased := by
        rintro ⟨erased, hobs⟩
        cases hobs
        exact hne hi rfl
      rw [or_iff_left hother]
      rfl
  -- the names are as before
  distinct := h.distinct
  erased := h.erased_observe fun i erased hobs => by
    cases hobs
    rfl
  established := by
    intro i
    rw [count_observe, if_neg (by simp)]
    exact h.established i
  destroyed := by
    intro i
    rw [count_observe, if_neg (by simp)]
    exact h.destroyed i
  order := fun i => order_snoc (h.order i) nofun

/-- A connection enters the table under a new name. -/
theorem TableOk.insert (h : TableOk s) {conn : Nat} (hnew : s.nameOf conn = none)
    (hfresh : ∀ i, s.nameOf i ≠ some name) (hnone : ¬ s.Removed conn)
    (hconnections : s'.connections_ = s.connections_.insert name conn) (hlog : s'.log = s.log)
    (hnames : ∀ i, s'.nameOf i = if i = conn then some name else s.nameOf i) : TableOk s' where
  -- only the new connection has the new name
  table := by
    intro name' i
    rw [hconnections, hnames, Removed, hlog]
    by_cases heq : name' = name
    · subst heq
      rw [AList.lookup_insert]
      constructor
      · rintro hi
        cases hi
        exact ⟨if_pos rfl, hnone⟩
      · rintro ⟨hi, -⟩
        split at hi
        · rename_i hconn
          rw [hconn]
        · exact absurd hi (hfresh i)
    · rw [AList.lookup_insert_ne heq, h.table]
      refine and_congr_left fun _ => ?_
      split
      · rename_i hconn
        subst hconn
        rw [hnew]
        exact ⟨nofun, fun hi => absurd (Option.some.inj hi).symm heq⟩
      · rfl
  -- two of the old ones, or the new one twice
  distinct := by
    intro name' i j hi hj
    rw [hnames] at hi hj
    split at hi <;> split at hj
    · rename_i hci hcj
      exact hci.trans hcj.symm
    · cases hi
      exact absurd hj (hfresh j)
    · cases hj
      exact absurd hi (hfresh i)
    · exact h.distinct name' i j hi hj
  erased := hlog ▸ h.erased
  established := hlog ▸ h.established
  destroyed := hlog ▸ h.destroyed
  order := hlog ▸ h.order

end Tables

/-! ## The handlers

  One lemma for each.  A handler is found in the queue, which says at which stage its connection
  is, and puts that at the next one. -/

section Steps

variable {task : ServerTask} {loop : Nat}

/-- What a handler keeps; it fails only inside a connection. -/
def KeepsServer (r : M) : Prop :=
  Holds ServerInv (fun e => TableOk e.2 ∧ ∃ f : Fault, e.1 = .connection f ∧ f.Inner) r

/-- Making no calls forces nothing. -/
theorem unforced_nil : Unforced [] := fun _ h => absurd h List.not_mem_nil

/-- Of a handler that was counted once, the one that runs now was the only one. -/
theorem one_of_succ {n : Nat} {p : Prop} [Decidable p] (h : n + 1 = if p then 1 else 0) :
    p ∧ n = 0 := by
  split at h
  · exact ⟨‹p›, by omega⟩
  · omega

/-- A handler with a home is about a connection there is. -/
theorem home_isSome (h : s.home task = some loop) : (s.loopOf task.conn).isSome := by
  cases task with
  | removeConnectionInThisThread conn =>
    obtain ⟨l, hl, -⟩ := Option.map_eq_some_iff.mp h
    exact Option.isSome_of_eq_some hl
  | connectEstablished conn => exact Option.isSome_of_eq_some h
  | connectDestroyed conn => exact Option.isSome_of_eq_some h

/-- The connection of a posted handler, and the loop it was posted to. -/
theorem ServerInv.due (h : ServerInv (s.post loop task)) (conn : Nat) (hconn : task.conn = conn) :
    ∃ served, s.accepted[conn]? = some served ∧
      (∃ g, AtStage (s.post loop task) conn served.connection g) ∧ s.home task = some loop := by
  subst hconn
  have hhome : s.home task = some loop :=
    h.homes (loop, task) (List.mem_append_right _ (List.mem_singleton_self _))
  have hloop := home_isSome hhome
  rw [loopOf, Option.isSome_map] at hloop
  obtain ⟨served, hserved⟩ := Option.isSome_iff_exists.mp hloop
  exact ⟨served, hserved, h.stages _ served hserved, hhome⟩

/-- While a handler runs, the property holds as before: it does not look at what is posted. -/
theorem ServerInv.of_due (h : ServerInv (s.post loop task)) : TableOk s :=
  h.tableOk.same rfl rfl fun _ => rfl

/-- A step that changes how connections are made; the order of the posted handlers does not
    matter. -/
theorem ServerInv.same (h : ServerInv s) (hsetup : Setup s') (haccepted : s'.accepted = s.accepted)
    (hconnections : s'.connections_ = s.connections_) (hlog : s'.log = s.log)
    (hposted : s'.posted.Perm s.posted) (hcalls : s'.calls = s.calls) : ServerInv s' where
  tableOk := h.tableOk.same hconnections hlog fun i => by rw [nameOf, nameOf, haccepted]
  setup := hsetup
  stages := by
    intro conn served hserved
    rw [haccepted] at hserved
    obtain ⟨g, hg⟩ := h.stages conn served hserved
    exact ⟨g, hg.same (fun task _ => (hposted.map Prod.snd).count_eq task) fun o _ => by rw [hlog]⟩
  homes := by
    intro p hp
    have hhome : s'.home p.2 = s.home p.2 := by
      cases p.2 <;> simp only [home, loopOf, haccepted]
    rw [hhome]
    exact h.homes p (hposted.mem_iff.mp hp)
  calls := by
    rw [hcalls, hlog]
    exact h.calls
  logged := by
    rw [hlog, haccepted]
    exact h.logged

/-- **The pool gives out a loop of its own**, or the base loop when it has none, and stays in
    order. -/
theorem getNextIOLoop_spec {p : IOLoopThreadPool} (h : PoolOk p) (hstarted : p.started_ = true) :
    ∃ ios p', p.getNextIOLoop = .ok (ios, p') ∧ PoolOk p' ∧ p'.started_ = p.started_ ∧
      p'.io_contexts_ = p.io_contexts_ ∧ (ios = 0 ↔ p.io_contexts_ = []) := by
  rw [IOLoopThreadPool.getNextIOLoop, require_pos _ _ hstarted, ok_bind]
  split
  case isTrue hnil => exact ⟨0, p, rfl, h, rfl, rfl, by simp [hnil]⟩
  case isFalse hne =>
    have hlt := h.next hne
    rw [List.getElem?_eq_getElem hlt]
    refine ⟨_, _, rfl, ⟨fun _ => ?_, h.loops, fun hfresh => ?_⟩, rfl, rfl, ?_⟩
    · dsimp only
      split <;> omega
    · exact absurd (h.fresh hfresh).1 hne
    · simp only [hne, iff_false]
      exact h.loops _ (List.getElem_mem hlt)

/-- The entries of a list with one more at its end. -/
theorem getElem?_snoc {α : Type} (l : List α) (a : α) (i : Nat) :
    (l ++ [a])[i]? = if i = l.length then some a else l[i]? := by
  by_cases hi : i = l.length
  · rw [if_pos hi, hi, List.getElem?_concat_length]
  · rw [if_neg hi]
    rcases Nat.lt_or_gt_of_ne hi with hlt | hgt
    · exact List.getElem?_append_left hlt
    · rw [List.getElem?_eq_none (Nat.le_of_lt hgt), List.getElem?_eq_none]
      rw [List.length_append, List.length_singleton]
      exact hgt

/-- A new connection, in the table, with `connectEstablished` on the way. -/
def enter (s : TcpServer) (pool : IOLoopThreadPool) (made : Served) : TcpServer :=
  ({ s with
    threadPool_ := pool
    nextConnId_ := (s.nextConnId_ + 1) % 2 ^ 32
    accepted := s.accepted ++ [made]
    connections_ := s.connections_.insert made.name_ s.accepted.length } : TcpServer).post
      made.loop_
      (.connectEstablished s.accepted.length)

section Enter

variable {pool : IOLoopThreadPool} {made : Served}

/-- The connections with one more. -/
theorem accepted_enter (i : Nat) : (s.enter pool made).accepted[i]? =
    if i = s.accepted.length then some made else s.accepted[i]? := getElem?_snoc _ _ _

/-- Its name is the one it was made with. -/
theorem nameOf_enter (i : Nat) : (s.enter pool made).nameOf i =
    if i = s.accepted.length then some made.name_ else s.nameOf i := by
  rw [nameOf, accepted_enter]
  split <;> rfl

/-- Its loop is the one it was given. -/
theorem loopOf_enter (i : Nat) : (s.enter pool made).loopOf i =
    if i = s.accepted.length then some made.loop_ else s.loopOf i := by
  rw [loopOf, accepted_enter]
  split <;> rfl

/-- There is one more of them. -/
theorem length_enter : (s.enter pool made).accepted.length = s.accepted.length + 1 := by
  show (s.accepted ++ [made]).length = _
  rw [List.length_append, List.length_singleton]

/-- And one more handler, its own. -/
theorem pending_enter (task' : ServerTask) : (s.enter pool made).pending task' =
    s.pending task' + if .connectEstablished s.accepted.length = task' then 1 else 0 :=
  pending_post task'

/-- Nothing was posted for the new connection before. -/
theorem ServerInv.pending_new (h : ServerInv s) (task' : ServerTask)
    (ht : task'.conn = s.accepted.length) : s.pending task' = 0 := by
  apply List.count_eq_zero.mpr
  intro hmem
  obtain ⟨p, hp, rfl⟩ := List.mem_map.mp hmem
  have hloop := home_isSome (h.homes p hp)
  rw [ht, loopOf, List.getElem?_eq_none (Nat.le_refl _)] at hloop
  cases hloop

/-- Nothing was recorded of it. -/
theorem ServerInv.log_new (h : ServerInv s) (o : ServerObs) (ho : o.conn = s.accepted.length) :
    o ∉ s.log := by
  intro hmem
  have hlt := h.logged o hmem
  omega

/-- The new name is no other connection's. -/
theorem ServerInv.name_new (h : ServerInv s) (hbound : s.accepted.length + 1 < 2 ^ 32) (i : Nat) :
    s.nameOf i ≠ some (connectionName s.ipPort_ s.nextConnId_) := by
  intro hi
  have hid : s.nextConnId_ = s.accepted.length + 1 := by
    rw [h.setup.nextId, Nat.mod_eq_of_lt hbound]
  have hlt : i < s.accepted.length := by
    obtain ⟨served, hserved, -⟩ := Option.map_eq_some_iff.mp hi
    exact (List.getElem?_eq_some_iff.mp hserved).1
  have hsame := connectionName_injective h.setup.ip (by omega) (by omega) (h.setup.named i _ hi)
  omega

/-- The names stay the ones that were given: the new one carries the number that `nextConnId_`
    showed, and the pool has handed out one loop more. -/
theorem ServerInv.setup_enter (h : ServerInv s) (hbound : s.accepted.length + 1 < 2 ^ 32)
    (hname : made.name_ = connectionName s.ipPort_ s.nextConnId_) (hstarted : s.started_ = true)
    (hpool : PoolOk pool) (hpstarted : pool.started_ = s.threadPool_.started_)
    (hcontexts : pool.io_contexts_ = s.threadPool_.io_contexts_)
    (hloop : made.loop_ = 0 ↔ s.threadPool_.io_contexts_ = []) : Setup (s.enter pool made) := by
  refine ⟨fun i name hi => ?_, h.setup.ip, ?_, ?_, hpool, ?_, fun hs => ?_, fun i loop hi => ?_⟩
  · rw [nameOf_enter] at hi
    split at hi
    case isTrue hlast =>
      rw [← Option.some.inj hi, hname, h.setup.nextId, Nat.mod_eq_of_lt hbound, hlast]
      rfl
    case isFalse => exact h.setup.named i name hi
  · rw [length_enter]
    show (s.nextConnId_ + 1) % 2 ^ 32 = _
    rw [h.setup.nextId, Nat.mod_add_mod]
  · rw [length_enter]
    exact hbound
  · exact hpstarted.trans h.setup.started
  · exact absurd (hstarted.symm.trans hs) (by decide)
  · show loop = 0 ↔ pool.io_contexts_ = []
    rw [hcontexts]
    rw [loopOf_enter] at hi
    split at hi
    · rw [← Option.some.inj hi]
      exact hloop
    · exact h.setup.loops i loop hi

/-- Of the new connection nothing but its posted `connectEstablished` is known: no other handler
    is about it, and it was never recorded. -/
theorem ServerInv.atStage_new (h : ServerInv s) (hmade : made.connection.At .waiting 0) :
    AtStage (s.enter pool made) s.accepted.length made.connection .accepted := by
  refine ⟨hmade, ?_, ?_, ?_, ?_, ?_, ?_⟩
  · rw [pending_enter, if_pos rfl, h.pending_new _ rfl, if_pos rfl]
  · rw [pending_enter, if_neg (by simp), h.pending_new _ rfl]
    rfl
  · rw [pending_enter, if_neg (by simp), h.pending_new _ rfl]
    rfl
  · exact List.count_eq_zero.mpr (h.log_new _ rfl)
  · simpa using fun ⟨erased, hmem⟩ => h.log_new _ rfl hmem
  · exact List.count_eq_zero.mpr (h.log_new _ rfl)

/-- The handlers of the older connections are untouched. -/
theorem AtStage.enter {c : TcpConnection} {i : Nat} {g : Stage} (hg : AtStage s i c g)
    (hne : i ≠ s.accepted.length) : AtStage (s.enter pool made) i c g := by
  refine hg.same (fun task ht => ?_) fun _ _ => rfl
  rw [pending_enter, if_neg, Nat.add_zero]
  rintro rfl
  exact hne ht.symm

/-- A handler that had its home keeps it: an old handler is about an old connection, and no
    connection changes its loop. -/
theorem home_enter {p : Nat × ServerTask} (hhome : s.home p.2 = some p.1) :
    (s.enter pool made).home p.2 = some p.1 := by
  have hsome := home_isSome hhome
  have hne : p.2.conn ≠ s.accepted.length := by
    intro heq
    rw [heq, loopOf, List.getElem?_eq_none (Nat.le_refl _)] at hsome
    cases hsome
  rw [← hhome]
  generalize p.2 = task at hne
  cases task with
  | connectEstablished conn => exact (loopOf_enter conn).trans (if_neg hne)
  | connectDestroyed conn => exact (loopOf_enter conn).trans (if_neg hne)
  | removeConnectionInThisThread conn =>
    exact congrArg (Option.map fun _ => 0) ((loopOf_enter conn).trans (if_neg hne))

/-- **A new connection** enters the table under a name of its own. -/
theorem ServerInv.enter (h : ServerInv s) (hbound : s.accepted.length + 1 < 2 ^ 32)
    (hname : made.name_ = connectionName s.ipPort_ s.nextConnId_)
    (hmade : made.connection.At .waiting 0) (hstarted : s.started_ = true) (hpool : PoolOk pool)
    (hpstarted : pool.started_ = s.threadPool_.started_)
    (hcontexts : pool.io_contexts_ = s.threadPool_.io_contexts_)
    (hloop : made.loop_ = 0 ↔ s.threadPool_.io_contexts_ = []) : ServerInv (s.enter pool made) where
  tableOk := by
    apply h.tableOk.insert
    · rw [nameOf, List.getElem?_eq_none (Nat.le_refl _), Option.map_none]
    · exact fun i => hname ▸ h.name_new hbound i
    · exact fun ⟨erased, hmem⟩ => h.log_new _ rfl hmem
    · rfl
    · rfl
    · exact nameOf_enter
  setup := h.setup_enter hbound hname hstarted hpool hpstarted hcontexts hloop
  stages := by
    intro i served hserved
    rw [accepted_enter] at hserved
    split at hserved
    case isTrue hlast =>
      subst hlast
      obtain rfl := Option.some.inj hserved
      exact ⟨.accepted, h.atStage_new hmade⟩
    case isFalse hne =>
      obtain ⟨g, hg⟩ := h.stages i served hserved
      exact ⟨g, hg.enter hne⟩
  homes := by
    intro p hp
    rcases List.mem_append.mp hp with hp | hp
    · exact home_enter (h.homes p hp)
    · rw [List.mem_singleton.mp hp]
      exact (loopOf_enter _).trans (if_pos rfl)
  calls := h.calls
  logged := by
    intro o ho
    rw [length_enter]
    exact Nat.lt_succ_of_lt (h.logged o ho)

end Enter

/-- The entry of a connection that has closed is there, and is its own. -/
theorem removeConnectionInThisThread_keeps
    (h : ServerInv (s.post loop (.removeConnectionInThisThread conn))) :
    KeepsServer (s.removeConnectionInThisThread loop conn) := by
  -- it runs on the base loop, as it was posted there
  obtain ⟨served, hserved, ⟨g, hg⟩, hhome⟩ := h.due conn rfl
  have hloop : loop = 0 := by
    simp only [home, loopOf, hserved, Option.map_some, Option.some.injEq] at hhome
    exact hhome.symm
  -- it was the only one of its kind for `conn`
  have hposted := hg.toRemove
  rw [pending_post, if_pos rfl] at hposted
  obtain ⟨rfl, hzero⟩ := one_of_succ hposted
  -- so the name is in the table still, and the two assertions hold
  have hname : s.nameOf conn = some served.name_ := by rw [nameOf, hserved, Option.map_some]
  have hnot : ¬ s.Removed conn := by simpa using hg.removed
  have hin : s.connections_.lookup served.name_ = some conn :=
    (h.of_due.table _ _).mpr ⟨hname, hnot⟩
  rw [removeConnectionInThisThread, hserved]
  dsimp only
  rw [require_pos _ _ hloop, ok_bind, hin]
  rw [require_pos _ _ (show (some conn).toList.length = 1 from rfl), ok_bind]
  have htable := h.of_due.remove hname hin
  -- the rest is about `conn` only
  apply Holds.ok
  apply h.about
  · exact (List.getElem?_eq_some_iff.mp hserved).1
  · have hpost : home ({ s with connections_ := s.connections_.erase served.name_ }.observe
        (.removed conn (some conn))) (.connectDestroyed conn) = some served.loop_ := by
      show s.loopOf conn = _
      rw [loopOf, hserved, Option.map_some]
    exact (About.unpost s conn rfl).trans ((About.setTable s conn _).trans
      ((About.observe _ conn rfl).trans (About.post _ conn rfl hpost)))
  · exact htable.same rfl rfl fun _ => rfl
  · -- the stage of `conn` is `removed` now
    intro served' hserved'
    obtain rfl : served = served' := Option.some.inj (hserved.symm.trans hserved')
    refine ⟨.removed, hg.standing, ?_, ?_, ?_, ?_, ?_, ?_⟩
    · simpa using hg.toEstablish
    · simpa using hzero
    · simpa using hg.toDestroy
    · simpa using hg.established
    · simp [removed_observe]
    · simpa using hg.destroyed

/-- `start()` makes the loops before there is a connection. -/
theorem start_keeps (h : ServerInv s) : KeepsServer s.start := by
  rw [start]
  split
  case isTrue => exact .ok h
  case isFalse hstarted =>
    have hfalse : s.started_ = false := Bool.not_eq_true _ ▸ hstarted
    have hpfalse : s.threadPool_.started_ = false := h.setup.started.trans hfalse
    have hnil := h.setup.unstarted hfalse
    obtain ⟨hcontexts, hnext⟩ := h.setup.pool.fresh hpfalse
    unfold IOLoopThreadPool.run
    dsimp only
    rw [require_pos _ _ hpfalse, ok_bind]
    apply Holds.ok
    refine h.same ⟨h.setup.named, h.setup.ip, h.setup.nextId, h.setup.bound, ⟨fun hne => ?_,
      fun loop hloop => ?_, nofun⟩, rfl, nofun, fun i loop hi => ?_⟩ rfl rfl rfl (.refl _) rfl
    · show s.threadPool_.next_ < _
      rw [hnext]
      exact List.length_pos_of_ne_nil hne
    · change loop ∈ s.threadPool_.io_contexts_ ++ _ at hloop
      rw [hcontexts, List.nil_append] at hloop
      obtain ⟨i, -, rfl⟩ := List.mem_map.mp hloop
      exact Nat.succ_ne_zero i
    · change s.loopOf i = some loop at hi
      rw [loopOf, hnil] at hi
      cases hi

/-- The number of threads has no part in it. -/
theorem setThreadNum_keeps (h : ServerInv s) (numThreads : Int) :
    ServerInv (s.setThreadNum numThreads) :=
  h.same ⟨h.setup.named, h.setup.ip, h.setup.nextId, h.setup.bound,
    ⟨h.setup.pool.next, h.setup.pool.loops, h.setup.pool.fresh⟩, h.setup.started, h.setup.unstarted,
    h.setup.loops⟩ rfl rfl rfl (.refl _) rfl

/-- Only a connection that has been established is found connected. -/
theorem callShutdown_keeps (h : ServerInv s) (conn : Nat) : ServerInv (s.callShutdown conn) := by
  rw [callShutdown]
  split
  · exact h
  case h_2 served hserved =>
    split
    case isTrue hstate =>
      obtain ⟨g, hg⟩ := h.stages conn served hserved
      have hone : s.log.count (.connectEstablished conn) = 1 := by
        rw [hg.established, if_neg]
        rintro rfl
        exact absurd (hg.standing.fits.1.symm.trans hstate) (by decide)
      have hmem : .connectEstablished conn ∈ s.log := List.count_pos_iff.mp (by omega)
      have hcalls : About conn s { s with calls := s.calls ++ [conn] } := by
        refine ⟨fun _ => rfl, fun _ => rfl, rfl, ⟨rfl, rfl, rfl, rfl⟩, fun _ _ => rfl,
          fun _ _ => rfl, ⟨[], (List.append_nil _).symm, nofun⟩, fun _ hp => .inl hp,
          fun i hi => ?_⟩
        rcases List.mem_append.mp hi with hi | hi
        · exact .inl hi
        · rw [List.mem_singleton.mp hi]
          exact .inr hmem
      apply h.about (List.getElem?_eq_some_iff.mp hserved).1 hcalls
      · exact h.tableOk.same rfl rfl fun _ => rfl
      · intro served' hserved'
        obtain rfl : served = served' := Option.some.inj (hserved.symm.trans hserved')
        exact ⟨g, hg.same (fun _ _ => rfl) fun _ _ => rfl⟩
    case isFalse => exact h

/-- The second half of a `shutdown()` finds an established connection. -/
theorem setShutdown_keeps (h : ServerInv s) (i : Nat) : ServerInv (s.setShutdown i) := by
  rw [setShutdown]
  split
  · exact h
  case h_2 conn hcall =>
    split
    · exact h
    case h_2 served hserved =>
      obtain ⟨g, hg⟩ := h.stages conn served hserved
      have hmem := h.calls conn (List.mem_of_getElem? hcall)
      have hup : g.standing ≠ .waiting := by
        have hone := hg.established
        cases g with
        | accepted => exact absurd hmem (List.count_eq_zero.mp hone)
        | _ => exact nofun
      have hset := TcpConnection.setShutdown_at hg.standing hup
      have hcalls : About conn s { s with calls := s.calls.eraseIdx i } :=
        ⟨fun _ => rfl, fun _ => rfl, rfl, ⟨rfl, rfl, rfl, rfl⟩, fun _ _ => rfl, fun _ _ => rfl,
          ⟨[], (List.append_nil _).symm, nofun⟩, fun _ hp => .inl hp,
          fun _ hi => .inl (List.mem_of_mem_eraseIdx hi)⟩
      apply h.about (List.getElem?_eq_some_iff.mp hserved).1
        (hcalls.trans (About.setConnection _ conn _))
      · exact h.tableOk.same rfl rfl fun _ => nameOf_setConnection _
      · intro served' hserved'
        rw [connection_setConnection hserved']
        exact ⟨g, { hg with standing := hset }⟩

/-- A new server has nothing in its table. -/
theorem new_inv (ip : AddressV4) (cc mc : Bool) : ServerInv (new ip cc mc) where
  tableOk := by
    refine ⟨fun name conn => ?_, nofun, nofun, fun _ => Nat.zero_le 1, fun _ => Nat.zero_le 1, ?_⟩
    · exact ⟨nofun, fun h => nomatch h.1⟩
    · intro conn before after h
      exact absurd h.symm (List.append_ne_nil_of_right_ne_nil _ (List.cons_ne_nil _ _))
  setup := ⟨nofun, ip.toString_length, rfl, Nat.two_pow_pos 32,
    ⟨fun h => absurd rfl h, nofun, fun _ => ⟨rfl, rfl⟩⟩,
    rfl, fun _ => rfl, nofun⟩
  stages := nofun
  homes := nofun
  calls := nofun
  logged := nofun

variable [VectorImpl]

/-- **Establishing** takes a connection from the first stage to the second. -/
theorem connectEstablished_keeps (h : ServerInv (s.post loop (.connectEstablished conn)))
    {onConnection : List Act} (hforce : Unforced onConnection) :
    KeepsServer (s.connectEstablished loop conn onConnection) := by
  obtain ⟨served, hserved, ⟨g, hg⟩, hhome⟩ := h.due conn rfl
  -- it runs on the loop of the connection
  have hloop : loop = served.loop_ := by
    simp only [home, loopOf, hserved, Option.map_some, Option.some.injEq] at hhome
    exact hhome.symm
  have hposted := hg.toEstablish
  rw [pending_post, if_pos rfl] at hposted
  obtain ⟨rfl, hzero⟩ := one_of_succ hposted
  have htable : TableOk (s.observe (.connectEstablished conn)) :=
    h.of_due.establish (by simpa using hg.established)
  -- what the connection does in it
  have hstep := TcpConnection.connectEstablished_at hg.standing hforce
  rw [connectEstablished, hserved]
  dsimp only
  rw [require_pos _ _ hloop, ok_bind]
  cases hstep' : served.connection.connectEstablished onConnection with
  | error e =>
    rw [hstep'] at hstep
    cases hstep with
    | error hinner => exact .error ⟨htable.same rfl rfl fun _ => nameOf_setConnection _, _,
      rfl, hinner⟩
  | ok c =>
    rw [hstep'] at hstep
    have hc : c.At .up 0 := holds_ok.mp hstep
    apply Holds.ok
    apply h.about
    · exact (List.getElem?_eq_some_iff.mp hserved).1
    · exact (About.unpost s conn rfl).trans
        ((About.observe s conn rfl).trans (About.setConnection _ conn c))
    · exact htable.same rfl rfl fun _ => nameOf_setConnection _
    · -- the stage of `conn` is `established` now
      intro served' hserved'
      rw [connection_setConnection hserved']
      refine ⟨.established, hc, ?_, ?_, ?_, ?_, ?_, ?_⟩
      · simpa using hzero
      · simpa using hg.toRemove
      · simpa using hg.toDestroy
      · simpa using hg.established
      · simpa [removed_observe] using hg.removed
      · simpa using hg.destroyed

/-- **Destroying** takes it to the last; it is down already, so nobody is called. -/
theorem connectDestroyed_keeps (h : ServerInv (s.post loop (.connectDestroyed conn)))
    (onConnection : List Act) : KeepsServer (s.connectDestroyed loop conn onConnection) := by
  obtain ⟨served, hserved, ⟨g, hg⟩, hhome⟩ := h.due conn rfl
  -- it runs on the loop of the connection
  have hloop : loop = served.loop_ := by
    simp only [home, loopOf, hserved, Option.map_some, Option.some.injEq] at hhome
    exact hhome.symm
  have hposted := hg.toDestroy
  rw [pending_post, if_pos rfl] at hposted
  obtain ⟨rfl, hzero⟩ := one_of_succ hposted
  have hstep := TcpConnection.connectDestroyed_at hg.standing onConnection
  rw [connectDestroyed, hserved]
  dsimp only
  rw [require_pos _ _ hloop, ok_bind, hstep]
  -- it was established once, and not destroyed yet
  have htable : TableOk (s.observe (.connectDestroyed conn)) := by
    apply h.of_due.destroy
    · simpa using hg.destroyed
    · apply List.count_pos_iff.mp
      have hone : s.log.count (.connectEstablished conn) = 1 := hg.established
      omega
  apply Holds.ok
  apply h.about
  · exact (List.getElem?_eq_some_iff.mp hserved).1
  · exact (About.unpost s conn rfl).trans
      ((About.observe s conn rfl).trans (About.setConnection _ conn _))
  · exact htable.same rfl rfl fun _ => nameOf_setConnection _
  · -- the stage of `conn` is `destroyed` now
    intro served' hserved'
    rw [connection_setConnection hserved']
    refine ⟨.destroyed, hg.standing, ?_, ?_, ?_, ?_, ?_, ?_⟩
    · simpa using hg.toEstablish
    · simpa using hg.toRemove
    · simpa using hzero
    · simpa using hg.established
    · simpa [removed_observe] using hg.removed
    · simpa using hg.destroyed

/-- A handler that is posted, or due to be run at once. -/
theorem handle_keeps (h : ServerInv (s.post loop task)) {onConnection : List Act}
    (hforce : Unforced onConnection) : KeepsServer (s.handle loop onConnection task) := by
  cases task with
  | connectEstablished conn => exact connectEstablished_keeps h hforce
  | removeConnectionInThisThread conn => exact removeConnectionInThisThread_keeps h
  | connectDestroyed conn => exact connectDestroyed_keeps h onConnection

/-- A dispatch runs the handler at once, if it is on the right loop, or posts it. -/
theorem dispatch_keeps (current : Nat) (h : ServerInv (s.post loop task)) {onConnection : List Act}
    (hforce : Unforced onConnection) : KeepsServer (s.dispatch current loop onConnection task) := by
  rw [dispatch]
  split
  · exact handle_keeps h hforce
  · exact .ok h

/-- A posted handler is run on its home, so its assertion holds. -/
theorem runPosted_keeps (h : ServerInv s) (i : Nat) {onConnection : List Act}
    (hforce : Unforced onConnection) : KeepsServer (s.runPosted i onConnection) := by
  rw [runPosted]
  split
  · exact .ok h
  case h_2 loop task hposted =>
    split
    · apply handle_keeps _ hforce
      obtain ⟨hlt, hget⟩ := List.getElem?_eq_some_iff.mp hposted
      have hsetup : Setup ({ s with posted := s.posted.eraseIdx i }.post loop task) :=
        ⟨h.setup.named, h.setup.ip, h.setup.nextId, h.setup.bound, h.setup.pool, h.setup.started,
          h.setup.unstarted, h.setup.loops⟩
      apply h.same hsetup rfl rfl rfl _ rfl
      show (s.posted.eraseIdx i ++ [(loop, task)]).Perm s.posted
      rw [← hget]
      exact (List.perm_append_singleton _ _).trans (List.getElem_cons_eraseIdx_perm hlt)
    · exact .ok h

/-- What a connection does on its loop; when it closes, its removal is on the way. -/
theorem io_keeps (h : ServerInv s) (conn : Nat) {e : Io} (hforce : e.Unforced) :
    KeepsServer (s.io conn e) := by
  rw [io]
  split
  · exact .ok h
  case h_2 served hserved =>
    have hlt : conn < s.accepted.length := (List.getElem?_eq_some_iff.mp hserved).1
    obtain ⟨g, hg⟩ := h.stages conn served hserved
    have hstep := TcpConnection.io_at hg.standing hforce
    have hset : ∀ c, TableOk (s.setConnection conn c) :=
      fun c => h.tableOk.same rfl rfl fun _ => nameOf_setConnection _
    split
    case h_1 f c hr =>
      rw [hr] at hstep
      cases hstep with
      | error hinner => exact .error ⟨hset c, f, rfl, hinner⟩
    case h_2 c hr =>
      rw [hr] at hstep
      have hcloses := hg.standing.closes
      split
      case isTrue hsame =>
        -- the close callback has not been called, so the connection has not moved on
        have hc : c.At g.standing g.closes := by
          rcases holds_ok.mp hstep with hc | ⟨-, hc⟩
          · exact hc
          · have := hc.closes
            omega
        apply Holds.ok
        apply h.about hlt (About.setConnection s conn c) (hset c)
        intro served' hserved'
        rw [connection_setConnection hserved']
        exact ⟨g, { hg with standing := hc }⟩
      case isFalse hmore =>
        -- it has been called, which only an established connection does
        have hc : g.standing = .up ∧ c.At .closed (g.closes + 1) := by
          rcases holds_ok.mp hstep with hc | hc
          · exact absurd (hc.closes.trans hcloses.symm) hmore
          · exact hc
        obtain ⟨hup, hc⟩ := hc
        obtain rfl : g = .established := by
          cases g <;> first | rfl | cases hup
        apply dispatch_keeps _ _ unforced_nil
        apply h.about hlt
        · have hpost : home (s.setConnection conn c) (.removeConnectionInThisThread conn) =
              some 0 := by
            rw [home, loopOf_setConnection, loopOf, hserved]
            rfl
          exact (About.setConnection s conn c).trans (About.post _ conn rfl hpost)
        · exact (hset c).same rfl rfl fun _ => rfl
        · intro served' hserved'
          change (s.setConnection conn c).accepted[conn]? = some served' at hserved'
          rw [connection_setConnection hserved']
          refine ⟨.closed, hc, ?_, ?_, ?_, ?_, ?_, ?_⟩
          · simpa using hg.toEstablish
          · simpa using hg.toRemove
          · simpa using hg.toDestroy
          · simpa using hg.established
          · simpa using hg.removed
          · simpa using hg.destroyed

/-! ## Accepting, and the other events

  The acceptance is the only event that adds a connection; its lemma is put together from
  those on `enter` above. -/

/-- **An acceptance** enters a connection at the first stage. -/
theorem newConnection_keeps (h : ServerInv s) (hstarted : s.started_ = true)
    (hbound : s.accepted.length + 1 < 2 ^ 32)
    {onConnection : List Act} (hforce : Unforced onConnection) :
    KeepsServer (s.newConnection onConnection) := by
  obtain ⟨ioLoop, pool, hnext, hpool, hpstarted, hcontexts, hzero⟩ :=
    getNextIOLoop_spec h.setup.pool (h.setup.started.trans hstarted)
  rw [newConnection, hnext, within_ok, ok_bind]
  apply dispatch_keeps 0 _ hforce
  have hmade := TcpConnection.new_at s.connectionCallback_ s.messageCallback_
  have henter : ServerInv (s.enter pool ⟨ioLoop, connectionName s.ipPort_ s.nextConnId_,
      .new s.connectionCallback_ s.messageCallback_ true⟩) :=
    h.enter hbound rfl hmade hstarted hpool hpstarted hcontexts hzero
  exact henter

/-! ## Every run

  One case for each event, and the induction. -/

/-- **Every peaceful step keeps the invariant.** -/
theorem step_keepsServer (h : ServerInv s) (e : Event) (hguard : s.Peaceful e) :
    KeepsServer (s.step e) := by
  cases e with
  | setThreadNum numThreads => exact .ok (setThreadNum_keeps h numThreads)
  | start => exact start_keeps h
  | accept onConnection =>
    show KeepsServer (if s.started_ then _ else _)
    split
    case isTrue hstarted => exact newConnection_keeps h hstarted hguard.1 hguard.2
    case isFalse => exact .ok h
  | runPosted i onConnection => exact runPosted_keeps h i hguard
  | io conn e => exact io_keeps h conn hguard
  | callShutdown conn => exact .ok (callShutdown_keeps h conn)
  | setShutdown i => exact .ok (setShutdown_keeps h i)

/-- **The connection table.**  In every run of a server without force close that accepts fewer than
    2^32 connections, whatever the number of its threads and the order of events, the table is as
    `TableOk` says; and neither an `assert` of the server, nor one of the handlers it sends to its
    connections, nor an `assertInLoopThread` of one of these fails. -/
theorem connection_table (ip : AddressV4) (cc mc : Bool) (es : List Event)
    (h : Guarded step Peaceful (new ip cc mc) es) :
    Holds TableOk (fun e => TableOk e.2 ∧ ∃ f : Fault, e.1 = .connection f ∧ f.Inner)
      (run step (new ip cc mc) es) :=
  (run_holds (fun _ e hs hg => step_keepsServer hs e hg) es _ (new_inv ip cc mc) h).mono
    (fun _ hs => hs.tableOk) fun _ he => he

end Steps

section Examples

attribute [local instance] VectorImpl.exact

/-- Two connections on the loops of two threads; the first closes and is removed while the second is
    being established. -/
def acceptedAndClosed : List Event :=
  [.setThreadNum 2, .start, .accept [], .runPosted 0 [],
    .io 0 (.socket (.readDone [0, 0, 0, 1] 0 [])), .accept [], .callShutdown 0,
    .io 0 (.socket (.readError [])), .setShutdown 0, .runPosted 1 [], .runPosted 0 [],
      .runPosted 0 []]

/-- The condition can be met: a connection is accepted, closes and is removed while another one is
    being established. -/
theorem connection_table_acceptedAndClosed :
    Guarded step Peaceful (new ⟨10, 0, 0, 1⟩ true true) acceptedAndClosed ∧
    Holds TableOk (fun e => TableOk e.2 ∧ ∃ f : Fault, e.1 = .connection f ∧ f.Inner)
      (run step (new ⟨10, 0, 0, 1⟩ true true) acceptedAndClosed) := by
  have hguard : Guarded step Peaceful (new ⟨10, 0, 0, 1⟩ true true) acceptedAndClosed := by
    decide +kernel
  exact ⟨hguard, connection_table ⟨10, 0, 0, 1⟩ true true acceptedAndClosed hguard⟩

end Examples

end TcpServer

end IOEvent
