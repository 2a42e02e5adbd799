/-
  What the two `send`s hand to `sendInThisThread`.

  `send(Buffer *)` takes a string out of the buffer, and `std::bind` keeps that string.
  `send(std::string &&)` forwards its argument as a `StringPiece`, so what `std::bind` keeps is the
  address and the length of the CALLER's string.  On the loop thread there is no difference, as the
  bytes are read before `send` returns.  From another thread they are read when the loop runs the
  handler, and by then the caller may have changed the string or destroyed it.

  `Handover` is the connection with the strings of its callers, by the address of their storage, and
  the handlers its loop still has to run.  It records for every message the bytes it had at the
  call and the bytes that `sendInThisThread` was given.  `Kept` says that the callers leave a string
  alone while a piece of it is posted, and that a message is short enough for the `int` in a
  `StringPiece`.  Then every message is handed over as it was.
-/
import IOEvent.TcpConnection
import IOEvent.Buffer.Queue
import Mathlib.Logic.Function.Basic

open Foundation

namespace IOEvent

/-- A `StringPiece` as it is: a reference into somebody's storage. The bytes it refers to are
    whatever is there when it is read. -/
structure Piece where
  ptr_ : Nat
  length_ : Int
  deriving DecidableEq, Repr

/-- `StringPiece(const std::string &str)`, of a string with these bytes at this address. -/
def Piece.ofString (address : Nat) (bytes : List UInt8) : Piece :=
  ⟨address, toSigned 32 bytes.length⟩

/-- The bytes that a piece of so many bytes refers to, in the storage as it is; none when the
    storage is gone or the piece is not inside it. -/
def deref (storage : Option (List UInt8)) (length : Int) : Option (List UInt8) :=
  match storage with
  | none => none
  | some bytes =>
    if 0 ≤ length ∧ length ≤ bytes.length then some (bytes.take length.toNat) else none

/-- What `std::bind` keeps of the message. One overload binds the caller's address, and the
    other a copy of its own. -/
inductive BoundMessage
  | piece (str : Piece)
  | string (value : List UInt8)
  deriving DecidableEq, Repr

/-- A posted `sendInThisThread`, and the bytes the message had when `send` was called. -/
structure PostedSend where
  message : BoundMessage
  called : List UInt8
  deriving DecidableEq, Repr

/-- A message: its bytes when `send` was called, and what `sendInThisThread` was given. -/
structure Handed where
  called : List UInt8
  given : Option (List UInt8)
  deriving DecidableEq, Repr

/-- A connection, the strings that its callers keep in their own storage, the messages that
    are posted, and a record of what was passed to `send` and what reached the connection. A
    message goes into `handed` when `sendInThisThread` gets it, with what it was at the call. -/
structure Handover where
  connection : TcpConnection
  strings : Nat → Option (List UInt8)
  posted : List PostedSend
  handed : List Handed

namespace Handover

variable {s s' : Handover}

/-- The same with another connection. -/
def setConnection (s : Handover) (c : TcpConnection) : Handover := { s with connection := c }

/-- What a caller does with its storage and its connection, and the loop with what was posted. -/
inductive Event
  /-- A caller makes a string in free storage. -/
  | create (address : Nat) (bytes : List UInt8)
  /-- It changes one. -/
  | modify (address : Nat) (bytes : List UInt8)
  | destroy (address : Nat)
  /-- `send(std::string &&)`. -/
  | sendString (isInLoopThread : Bool) (address : Nat)
  /-- `send(Buffer *)`. -/
  | sendBuffer (isInLoopThread : Bool) (buf : Buffer) (h : buf.Ok)
  /-- The loop runs the `i`-th of the posted sends. -/
  | runPosted (i : Nat)
  /-- Whatever else happens to the connection. -/
  | connection (e : TcpConnection.Event)

section Machine

variable [VectorImpl]

/-- `sendInThisThread`, given a piece of `length` bytes of the storage. -/
def sendInThisThread (s : Handover) (called : List UInt8) (storage : Option (List UInt8))
    (length : Int) : Outcome Fault Handover Handover :=
  let s := { s with handed := s.handed ++ [⟨called, deref storage length⟩] }
  if s.connection.state_ = .kDisconnected then
    return s
  else
    match deref storage length with
    | none => do
      -- `append` makes the space it is asked for, and then reads what is not there
      let b ← within (fun b => s.setConnection (s.connection.setOutput b))
        (s.connection.outputBuffer_.ensureWritableBytes (toUnsigned 64 length))
      .error (if storage.isSome then .outOfBounds else .useAfterFree,
        s.setConnection (s.connection.setOutput b))
    | some bytes =>
      if h : bytes.length < 2 ^ 31 then do
        let c ← within s.setConnection (s.connection.sendInThisThread ⟨bytes, h⟩)
        return s.setConnection c
      else
        .error (.outOfBounds, s)

/-- `send(std::string &&message)`, for the string at `address`. -/
def sendString (s : Handover) (isInLoopThread : Bool) (address : Nat) :
    Outcome Fault Handover Handover :=
  match s.strings address with
  | none => return s
  | some bytes =>
    if s.connection.state_ = .kConnected then
      let str := Piece.ofString address bytes
      if isInLoopThread then
        s.sendInThisThread bytes (s.strings str.ptr_) str.length_
      else
        return { s with posted := s.posted ++ [⟨.piece str, bytes⟩] }
    else
      return s

/-- `send(Buffer *buf)`. -/
def sendBuffer (s : Handover) (isInLoopThread : Bool) (buf : Buffer) :
    Outcome Fault Handover Handover :=
  if s.connection.state_ = .kConnected then do
    let (value, _) ← within (fun _ => s) buf.retrieveAllAsString
    if isInLoopThread then
      s.sendInThisThread buf.contents (some value) (Piece.ofString 0 value).length_
    else
      return { s with posted := s.posted ++ [⟨.string value, buf.contents⟩] }
  else
    return s

/-- A posted message is read when it is run: a `StringPiece` from the storage of the caller as it
    is then, a `std::string` from the copy that the handler holds. -/
def runPosted (s : Handover) (i : Nat) : Outcome Fault Handover Handover :=
  match s.posted[i]? with
  | none => return s
  | some task =>
    let s := { s with posted := s.posted.eraseIdx i }
    match task.message with
    | .piece str => s.sendInThisThread task.called (s.strings str.ptr_) str.length_
    | .string value => s.sendInThisThread task.called (some value) (Piece.ofString 0 value).length_

/-- One step. -/
def step (s : Handover) : Event → Outcome Fault Handover Handover
  | .create address bytes =>
    if s.strings address = none then
      return { s with strings := Function.update s.strings address (some bytes) }
    else
      return s
  | .modify address bytes =>
    if s.strings address = none then
      return s
    else
      return { s with strings := Function.update s.strings address (some bytes) }
  | .destroy address => return { s with strings := Function.update s.strings address none }
  | .sendString isInLoopThread address => s.sendString isInLoopThread address
  | .sendBuffer isInLoopThread buf _ => s.sendBuffer isInLoopThread buf
  | .runPosted i => s.runPosted i
  | .connection e => do
    let c ← within s.setConnection (s.connection.step e)
    return s.setConnection c

/-- No strings, nothing posted, nothing handed over. -/
def start (cc mc clc : Bool) : Handover := ⟨.new cc mc clc, fun _ => none, [], []⟩

end Machine

/-! ## The property and the condition

  `Exact` compares two records.  `Kept` is a rule for the callers alone, which nothing in the
  code enforces. -/

/-- Every message was handed over as it was when `send` was called. -/
def Exact (s : Handover) : Prop := ∀ h ∈ s.handed, h.given = some h.called

/-- No piece of the string at `address` is posted. -/
def Unposted (s : Handover) (address : Nat) : Prop :=
  ∀ task ∈ s.posted, match task.message with
    | .piece str => str.ptr_ ≠ address
    | .string _ => True

/-- Whether an address is still posted is read off the handlers. -/
instance (s : Handover) (address : Nat) : Decidable (s.Unposted address) := by
  have hdec : ∀ task : PostedSend, Decidable (match task.message with
      | .piece str => str.ptr_ ≠ address
      | .string _ => True) := by
    intro task
    split <;> infer_instance
  exact List.decidableBAll _ _

/-- A caller leaves its string alone while a piece of it is posted, and a message is shorter than
    `2 ^ 31` bytes. -/
def Kept (s : Handover) : Event → Prop
  | .modify address bytes => s.strings address = some bytes ∨ s.Unposted address
  | .destroy address => s.Unposted address
  | .sendString _ address =>
    s.connection.state_ = .kConnected → ∀ bytes ∈ s.strings address, bytes.length < 2 ^ 31
  | .sendBuffer _ buf _ => s.connection.state_ = .kConnected → buf.contents.length < 2 ^ 31
  | _ => True

/-- So whether a caller keeps to the condition can be computed. -/
instance (s : Handover) (e : Event) : Decidable (s.Kept e) := by
  cases e <;> unfold Kept <;> infer_instance

/-! ## The invariant

  For a piece that is posted, the storage it points into has what was passed; a bound string
  is its own storage. -/

/-- Read now, a posted message has the bytes it had at the call. -/
def Current (strings : Nat → Option (List UInt8)) (task : PostedSend) : Prop :=
  task.called.length < 2 ^ 31 ∧
    match task.message with
    | .piece str => strings str.ptr_ = some task.called ∧ str.length_ = task.called.length
    | .string value => value = task.called

/-- The invariant: what reached the connection is what was passed, and the storage that a posted
    piece points into still holds what was passed. -/
structure HandInv (s : Handover) : Prop where
  exact : s.Exact
  current : ∀ task ∈ s.posted, Current s.strings task

/-- A string of less than `2 ^ 31` bytes is read whole. -/
theorem deref_ofString {bytes : List UInt8} (h : bytes.length < 2 ^ 31) (address : Nat) :
    deref (some bytes) (Piece.ofString address bytes).length_ = some bytes := by
  have hlen : (Piece.ofString address bytes).length_ = bytes.length :=
    toSigned_of_lt (by decide) (by omega)
  unfold deref
  dsimp only
  rw [hlen, if_pos ⟨by omega, by omega⟩, Int.toNat_natCast, List.take_length]

/-- What an operation keeps: the invariant, or (when it fails) the property. -/
def KeepsExact (r : Outcome Fault Handover Handover) : Prop := Holds HandInv (fun e => Exact e.2) r

/-- The connection may have done anything. -/
theorem HandInv.setConnection (h : HandInv s) (c : TcpConnection) : HandInv (s.setConnection c) :=
  ⟨h.exact, h.current⟩

/-- An operation of the connection alone. -/
theorem within_keepsExact (h : HandInv s) (r : TcpConnection.M) :
    KeepsExact (within s.setConnection r >>= fun c => .ok (s.setConnection c)) := by
  cases r with
  | ok c => exact .ok (h.setConnection c)
  | error e => exact .error (h.setConnection e.2).exact

/-- The storage at `address` is another one now, and no piece of it is posted. -/
theorem HandInv.update (h : HandInv s) {address : Nat} (hunposted : s.Unposted address)
    (storage : Option (List UInt8)) :
    HandInv { s with strings := Function.update s.strings address storage } := by
  refine ⟨h.exact, fun task htask => ?_⟩
  obtain ⟨hlen, hcurrent⟩ := h.current task htask
  have hother := hunposted task htask
  refine ⟨hlen, ?_⟩
  cases hmessage : task.message with
  | string value =>
    rw [hmessage] at hcurrent
    exact hcurrent
  | piece str =>
    rw [hmessage] at hcurrent hother
    refine ⟨?_, hcurrent.2⟩
    show Function.update s.strings address storage str.ptr_ = some task.called
    rw [Function.update_of_ne hother]
    exact hcurrent.1

/-- No piece of free storage is posted. -/
theorem HandInv.unposted (h : HandInv s) {address : Nat} (hfree : s.strings address = none) :
    s.Unposted address := by
  intro task htask
  obtain ⟨-, hcurrent⟩ := h.current task htask
  split
  case h_1 str hstr =>
    rw [hstr] at hcurrent
    rintro rfl
    have hlive : s.strings str.ptr_ = some task.called := hcurrent.1
    rw [hfree] at hlive
    cases hlive
  case h_2 => trivial

section Steps

variable [VectorImpl]

/-- A message read as it was passed is handed over exactly. -/
theorem sendInThisThread_keepsExact (h : HandInv s) {called : List UInt8}
    {storage : Option (List UInt8)} {length : Int} (hread : deref storage length = some called) :
    KeepsExact (s.sendInThisThread called storage length) := by
  have hrecorded : HandInv { s with handed := s.handed ++ [⟨called, some called⟩] } := by
    refine ⟨fun m hm => ?_, h.current⟩
    rcases List.mem_append.mp hm with hm | hm
    · exact h.exact m hm
    · rw [List.mem_singleton.mp hm]
  rw [sendInThisThread, hread]
  dsimp only
  split
  · exact .ok hrecorded
  · split
    · exact within_keepsExact hrecorded _
    · exact .error hrecorded.exact

/-- `send` of a string keeps it, as long as the string stays what it is until it is run. -/
theorem sendString_keepsExact (h : HandInv s) (isInLoopThread : Bool) (address : Nat)
    (hkept : s.Kept (.sendString isInLoopThread address)) :
    KeepsExact (s.sendString isInLoopThread address) := by
  rw [sendString]
  split
  case h_1 => exact .ok h
  case h_2 bytes hbytes =>
    split
    case isFalse => exact .ok h
    case isTrue hstate =>
      have hlen : bytes.length < 2 ^ 31 := hkept hstate bytes hbytes
      dsimp only
      split
      · apply sendInThisThread_keepsExact h
        show deref (s.strings address) _ = _
        rw [hbytes]
        exact deref_ofString hlen address
      · refine .ok ⟨h.exact, fun task htask => ?_⟩
        rcases List.mem_append.mp htask with htask | htask
        · exact h.current task htask
        · rw [List.mem_singleton.mp htask]
          exact ⟨hlen, hbytes, toSigned_of_lt (by decide) hlen⟩

/-- `send(Buffer *)` keeps it for contents that fit a `StringPiece`; posted, they are copied into
    a string first. -/
theorem sendBuffer_keepsExact (h : HandInv s) (isInLoopThread : Bool) {buf : Buffer} (hok : buf.Ok)
    (hkept : s.connection.state_ = .kConnected → buf.contents.length < 2 ^ 31) :
    KeepsExact (s.sendBuffer isInLoopThread buf) := by
  rw [sendBuffer]
  split
  case isFalse => exact .ok h
  case isTrue hstate =>
    have hlen := hkept hstate
    obtain ⟨buf', hbuf, -, -⟩ := Buffer.retrieveAllAsString_spec hok
    rw [hbuf, within_ok, ok_bind]
    dsimp only
    split
    · exact sendInThisThread_keepsExact h (deref_ofString hlen 0)
    · refine .ok ⟨h.exact, fun task htask => ?_⟩
      rcases List.mem_append.mp htask with htask | htask
      · exact h.current task htask
      · rw [List.mem_singleton.mp htask]
        exact ⟨hlen, rfl⟩

/-- The handler reads what the message was at the call. -/
theorem runPosted_keepsExact (h : HandInv s) (i : Nat) : KeepsExact (s.runPosted i) := by
  rw [runPosted]
  split
  case h_1 => exact .ok h
  case h_2 task htask =>
    have hrest : HandInv { s with posted := s.posted.eraseIdx i } :=
      ⟨h.exact, fun task' hmem => h.current task' (List.mem_of_mem_eraseIdx hmem)⟩
    obtain ⟨hlen, hcurrent⟩ := h.current task (List.mem_of_getElem? htask)
    dsimp only
    split
    case h_1 str hstr =>
      rw [hstr] at hcurrent
      apply sendInThisThread_keepsExact hrest
      show deref (s.strings str.ptr_) str.length_ = _
      have hread := deref_ofString hlen 0
      rw [Piece.ofString, toSigned_of_lt (by decide) hlen] at hread
      rw [hcurrent.1, hcurrent.2]
      exact hread
    case h_2 value hvalue =>
      rw [hvalue] at hcurrent
      have hsame : value = task.called := hcurrent
      apply sendInThisThread_keepsExact hrest
      rw [hsame]
      exact deref_ofString hlen 0

/-- **Every step that keeps the strings keeps the invariant.** -/
theorem step_keepsExact (h : HandInv s) (e : Event) (hkept : s.Kept e) : KeepsExact (s.step e) := by
  cases e with
  | create address bytes =>
    dsimp only [step]
    split
    case isTrue hfree => exact .ok (h.update (h.unposted hfree) (some bytes))
    case isFalse => exact .ok h
  | modify address bytes =>
    dsimp only [step]
    split
    case isTrue => exact .ok h
    case isFalse =>
      rcases hkept with hsame | hunposted
      · rw [← hsame, Function.update_eq_self]
        exact .ok h
      · exact .ok (h.update hunposted (some bytes))
  | destroy address => exact .ok (h.update hkept none)
  | sendString isInLoopThread address => exact sendString_keepsExact h isInLoopThread address hkept
  | sendBuffer isInLoopThread buf hok => exact sendBuffer_keepsExact h isInLoopThread hok hkept
  | runPosted i => exact runPosted_keepsExact h i
  | connection e => exact within_keepsExact h (s.connection.step e)

/-! ## Every run

  From a new connection without strings.  The events of the connection itself neither read nor
  write a string. -/

/-- **The two `send`s agree**: as long as the callers leave their strings alone while pieces of them
    are posted, and the messages are short enough, each of the two hands over exactly the message
    it was called with, whatever the thread. -/
theorem handed_exact (cc mc clc : Bool) (es : List Event)
    (h : Guarded step Kept (start cc mc clc) es) :
    Holds Exact (fun e => Exact e.2) (run step (start cc mc clc) es) := by
  have hstart : HandInv (start cc mc clc) :=
    ⟨fun _ hmem => absurd hmem List.not_mem_nil, fun _ hmem => absurd hmem List.not_mem_nil⟩
  apply (run_holds (fun s e hs hg => step_keepsExact hs e hg) es _ hstart h).mono
  · exact fun s hs => hs.exact
  · exact fun e he => he

end Steps

section Examples

attribute [local instance] VectorImpl.exact

/-- A message from another thread, whose string is destroyed after the loop has run the handler. -/
def keptString : List Event :=
  [.connection (.connectEstablished []), .create 0 [1, 2], .sendString false 0, .runPosted 0,
    .destroy 0, .sendBuffer false (.new 16) (Buffer.new_ok (by decide)), .runPosted 0]

/-- The condition can be met: a string that outlives the handler. -/
theorem handed_exact_keptString :
    Holds Exact (fun e => Exact e.2) (run step (start true true true) keptString) :=
  handed_exact true true true keptString (by decide +kernel)

/-- The string is changed before the loop runs the handler. -/
def changedString : List Event :=
  [.connection (.connectEstablished []), .create 0 [1, 2], .sendString false 0, .modify 0 [9, 9],
    .runPosted 0]

/-- It is destroyed. -/
def destroyedString : List Event :=
  [.connection (.connectEstablished []), .create 0 [1, 2], .sendString false 0, .destroy 0,
    .runPosted 0]

/-- **A message that nobody sent**: the bytes handed over are the caller's later ones, and in the
    other run memory that was given back is read. -/
theorem string_not_copied :
    ¬ Holds Exact (fun e => Exact e.2) (run step (start true true true) changedString) ∧
      ¬ Holds Exact (fun e => Exact e.2) (run step (start true true true) destroyedString) := by
  constructor
  · have hend : (run step (start true true true) changedString).toOption.map (·.handed) =
        some [⟨[1, 2], some [9, 9]⟩] := by decide +kernel
    generalize run step (start true true true) changedString = r at hend
    intro hholds
    cases hholds with
    | error h => cases hend
    | ok h =>
      rename_i s
      have hhanded : s.handed = [⟨[1, 2], some [9, 9]⟩] := Option.some.inj hend
      exact absurd (h ⟨[1, 2], some [9, 9]⟩ (by rw [hhanded]; decide)) (by decide)
  · have hend : (match run step (start true true true) destroyedString with
        | .ok _ => none
        | .error e => some (e.1, e.2.handed)) = some (.useAfterFree, [⟨[1, 2], none⟩]) := by
      decide +kernel
    generalize run step (start true true true) destroyedString = r at hend
    intro hholds
    cases hholds with
    | ok h => cases hend
    | error h =>
      rename_i e
      have hhanded : e.2.handed = [⟨[1, 2], none⟩] := congrArg Prod.snd (Option.some.inj hend)
      exact absurd (h ⟨[1, 2], none⟩ (by rw [hhanded]; decide)) (by decide)

end Examples

end Handover

end IOEvent
