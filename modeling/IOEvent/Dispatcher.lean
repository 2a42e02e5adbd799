/-
  `Dispatcher` (Dispatcher.h): one callback for each message type.

  `callbacks_` is a map from descriptors.  A callback registered for a class `T` stands under
  `T::descriptor()` and replaces what stood there; a message goes to the callback under its own
  descriptor, or to `defaultCallback_`.  On the way the message is cast down to `T`, which two
  asserts check: the cast of `down_pointer_cast` (Types.h) and the pointer it gives.

  What it is for is simpler: a function that has a callback for EVERY descriptor, at first the
  default one, and a registration changes it at one place.  `Table` is that function, and
  `dispatches` says that the dispatcher is never told apart from it.
-/
import IOEvent.TcpConnection
import Mathlib.Data.List.AList
import Mathlib.Logic.Function.Basic

open Foundation

namespace IOEvent

/-- The classes of the protobuf library, as far as the dispatcher asks about them. -/
structure Classes (Message Descriptor Class : Type) where
  GetDescriptor : Message → Descriptor
  /-- `T::descriptor()`. -/
  descriptor : Class → Descriptor
  /-- `dynamic_cast<T *>(message) != nullptr`. -/
  dynamic_cast : Class → Message → Bool

namespace Dispatcher

/-- The function whose `assert` fails. -/
inductive Site
  | down_pointer_cast
  | onMessage
  deriving DecidableEq, Repr

/-- How a dispatch can go wrong: the assertion of a callback fails, or there is no message. -/
inductive Fault
  | assertFailed (site : Site)
  /-- A call of a member function through a null pointer. -/
  | nullPointer
  deriving DecidableEq, Repr

section Dispatcher

variable {Message Descriptor Class : Type} (lib : Classes Message Descriptor Class)

/-- A message of a generated class: it is of the class whose descriptor it has. -/
def Generated (message : Message) : Prop :=
  ∀ type, lib.descriptor type = lib.GetDescriptor message → lib.dynamic_cast type message = true

/-- `down_pointer_cast<T>(f)`. -/
def down_pointer_cast (type : Class) (f : Option Message) : Except Fault (Option Message) :=
  match f with
  | none => .ok none
  | some message =>
    if lib.dynamic_cast type message = true then .ok f
    else .error (.assertFailed .down_pointer_cast)

/-- A `CallbackT<T>`: the class, and what its callback does with the connection of a message. -/
structure CallbackT (Message Class : Type) where
  type : Class
  callback_ : Message → List Act

/-- `CallbackT<T>::onMessage`. -/
def CallbackT.onMessage (callback : CallbackT Message Class) (message : Option Message) :
    Except Fault (List Act) := do
  let concrete ← down_pointer_cast lib callback.type message
  match concrete with
  | none => .error (.assertFailed .onMessage)
  | some concrete => return callback.callback_ concrete

end Dispatcher

end Dispatcher

/-- The callbacks by descriptor, and the one for all other messages. -/
structure Dispatcher (Message Descriptor Class : Type) where
  callbacks_ : AList fun _ : Descriptor => Dispatcher.CallbackT Message Class
  defaultCallback_ : Message → List Act

namespace Dispatcher

section Dispatcher

variable {Message Descriptor Class : Type} [DecidableEq Descriptor]
  (lib : Classes Message Descriptor Class)

/-- A dispatcher with no callbacks of its own. -/
def new (defaultCb : Message → List Act) : Dispatcher Message Descriptor Class := ⟨∅, defaultCb⟩

/-- `onMessage`: the callback of the descriptor of the message, or the default one. -/
def onMessage (d : Dispatcher Message Descriptor Class) (message : Option Message) :
    Except Fault (List Act) :=
  match message with
  | none => .error .nullPointer
  | some m =>
    match d.callbacks_.lookup (lib.GetDescriptor m) with
    | some it => it.onMessage lib message
    | none => .ok (d.defaultCallback_ m)

/-- `registerMessageCallback`: the callback is filed under the descriptor of its own class; an
    older one is replaced. -/
def registerMessageCallback (d : Dispatcher Message Descriptor Class)
    (callback : CallbackT Message Class) : Dispatcher Message Descriptor Class :=
  { d with callbacks_ := d.callbacks_.insert (lib.descriptor callback.type) callback }

/-! ## What it is for

  The abstract side: a table, what a registration does to it, and which table a dispatcher
  stands for. -/

/-- A callback for every descriptor. -/
abbrev Table (Message Descriptor : Type) := Descriptor → Message → List Act

/-- The table a dispatcher stands for. -/
def table (d : Dispatcher Message Descriptor Class) : Table Message Descriptor := fun descriptor =>
  (d.callbacks_.lookup descriptor).elim d.defaultCallback_ CallbackT.callback_

/-- Every callback stands under the descriptor of its class. -/
def Filed (d : Dispatcher Message Descriptor Class) : Prop :=
  ∀ descriptor callback, d.callbacks_.lookup descriptor = some callback →
    lib.descriptor callback.type = descriptor

variable {lib} {d : Dispatcher Message Descriptor Class}

/-- A new dispatcher answers everything by default. -/
@[simp] theorem table_new (defaultCb : Message → List Act) :
    (new defaultCb : Dispatcher Message Descriptor Class).table = fun _ => defaultCb := rfl

/-- A registration changes the answer for one descriptor. -/
theorem table_register (callback : CallbackT Message Class) :
    (d.registerMessageCallback lib callback).table =
      Function.update d.table (lib.descriptor callback.type) callback.callback_ := by
  funext descriptor
  rw [table, registerMessageCallback]
  by_cases heq : descriptor = lib.descriptor callback.type
  · subst heq
    rw [Function.update_self, AList.lookup_insert]
    rfl
  · rw [Function.update_of_ne heq, AList.lookup_insert_ne heq]
    rfl

variable (lib) in
/-- In a new dispatcher there is nothing to be filed wrongly. -/
theorem new_filed (defaultCb : Message → List Act) :
    Filed lib (new defaultCb : Dispatcher Message Descriptor Class) := nofun

/-- A registration files its callback under the right descriptor. -/
theorem Filed.register (h : Filed lib d) (callback : CallbackT Message Class) :
    Filed lib (d.registerMessageCallback lib callback) := by
  intro descriptor it hit
  rw [registerMessageCallback] at hit
  by_cases heq : descriptor = lib.descriptor callback.type
  · subst heq
    rw [AList.lookup_insert] at hit
    rw [Option.some.inj hit]
  · rw [AList.lookup_insert_ne heq] at hit
    exact h descriptor it hit

variable (lib) in
/-- Registrations one after another. -/
def registerAll (d : Dispatcher Message Descriptor Class)
    (callbacks : List (CallbackT Message Class)) :
    Dispatcher Message Descriptor Class :=
  callbacks.foldl (registerMessageCallback lib) d

variable (lib) in
/-- The table that the same registrations make of the default callback. -/
def tableOf (defaultCb : Message → List Act) (callbacks : List (CallbackT Message Class)) :
    Table Message Descriptor :=
  callbacks.foldl (fun table callback =>
    Function.update table (lib.descriptor callback.type) callback.callback_) fun _ => defaultCb

/-- So do several. -/
theorem Filed.registerAll (h : Filed lib d) (callbacks : List (CallbackT Message Class)) :
    Filed lib (d.registerAll lib callbacks) := by
  induction callbacks generalizing d with
  | nil => exact h
  | cons callback callbacks ih => exact ih (h.register callback)

/-- What several registrations amount to: for each descriptor the last of them. -/
theorem table_registerAll (defaultCb : Message → List Act)
    (callbacks : List (CallbackT Message Class)) :
    (((new defaultCb).registerAll lib callbacks :
      Dispatcher Message Descriptor Class)).table = tableOf lib defaultCb callbacks := by
  have hnew : (new defaultCb : Dispatcher Message Descriptor Class).table = fun _ => defaultCb :=
    table_new defaultCb
  rw [tableOf, ← hnew, registerAll]
  generalize new defaultCb = d
  induction callbacks generalizing d with
  | nil => rfl
  | cons callback callbacks ih =>
    rw [List.foldl_cons, List.foldl_cons, ih, table_register]

/-- A message of a generated class is cast to the class of the callback it is found. -/
theorem Filed.onMessage_eq (h : Filed lib d) {message : Message} (hgen : Generated lib message) :
    d.onMessage lib (some message) = .ok (d.table (lib.GetDescriptor message) message) := by
  rw [onMessage, table]
  cases hit : d.callbacks_.lookup (lib.GetDescriptor message) with
  | none => rfl
  | some it =>
    have hcast : lib.dynamic_cast it.type message = true := hgen it.type (h _ it hit)
    simp only [CallbackT.onMessage, down_pointer_cast, if_pos hcast, ok_bind]
    rfl

/-! ## Registrations and messages in any order

  A message goes to the callback that was registered last for its descriptor, or to the
  default one. -/

variable (Message Class) in
/-- A registration, or a message. -/
inductive Event
  | registerMessageCallback (callback : CallbackT Message Class)
  | onMessage (message : Option Message)

/-- A dispatcher, and what its callbacks did with the messages so far. -/
structure Dispatching (Message Descriptor Class : Type) where
  dispatcher : Dispatcher Message Descriptor Class
  handled : List (List Act)

variable (lib) in
/-- One step: what the callback does is entered. -/
def Dispatching.step (s : Dispatching Message Descriptor Class) :
    Event Message Class → Except Fault (Dispatching Message Descriptor Class)
  | .registerMessageCallback callback =>
    .ok { s with dispatcher := s.dispatcher.registerMessageCallback lib callback }
  | .onMessage message => do
    let acts ← s.dispatcher.onMessage lib message
    return { s with handled := s.handled ++ [acts] }

/-- A table, and what its callbacks did. -/
structure Tabled (Message Descriptor : Type) where
  table : Table Message Descriptor
  handled : List (List Act)

variable (lib) in
/-- The same events on a table. -/
def Tabled.apply (s : Tabled Message Descriptor) : Event Message Class → Tabled Message Descriptor
  | .registerMessageCallback callback =>
    { s with table := Function.update s.table (lib.descriptor callback.type) callback.callback_ }
  | .onMessage none => s
  | .onMessage (some message) =>
    { s with handled := s.handled ++ [s.table (lib.GetDescriptor message) message] }

variable (lib) in
/-- What the callers see to: a message is one of a generated class. -/
def Passed : Event Message Class → Prop
  | .registerMessageCallback _ => True
  | .onMessage message => ∃ m, message = some m ∧ Generated lib m

/-- **The dispatcher is a table.**  In every sequence of registrations and messages each message is
    handled once, by the callback registered last for its descriptor before it, or by the default
    callback when there is none; and no assert fails. -/
theorem dispatches (defaultCb : Message → List Act) (es : List (Event Message Class))
    (hes : ∀ e ∈ es, Passed lib e) :
    ∃ s, run (Dispatching.step lib) ⟨new defaultCb, []⟩ es = .ok s ∧
      ⟨s.dispatcher.table, s.handled⟩ =
        es.foldl (Tabled.apply lib) (⟨fun _ => defaultCb, []⟩ : Tabled Message Descriptor) := by
  -- the induction is on the events, from any dispatcher whose callbacks are filed
  suffices hall : ∀ (es : List (Event Message Class)) (s : Dispatching Message Descriptor Class),
      Filed lib s.dispatcher → (∀ e ∈ es, Passed lib e) →
      ∃ s', run (Dispatching.step lib) s es = .ok s' ∧
        ⟨s'.dispatcher.table, s'.handled⟩ =
          es.foldl (Tabled.apply lib) ⟨s.dispatcher.table, s.handled⟩ from
    hall es ⟨new defaultCb, []⟩ (new_filed lib defaultCb) hes
  intro es
  induction es with
  | nil => exact fun s _ _ => ⟨s, rfl, rfl⟩
  | cons e es ih =>
    intro s hfiled hes
    have hrest : ∀ e ∈ es, Passed lib e := fun e he => hes e (List.mem_cons_of_mem _ he)
    have he := hes e List.mem_cons_self
    rw [run_cons, List.foldl_cons]
    cases e with
    | registerMessageCallback callback =>
      rw [Dispatching.step, ok_bind]
      obtain ⟨s', hrun, heq⟩ := ih ⟨s.dispatcher.registerMessageCallback lib callback, s.handled⟩
        (hfiled.register callback) hrest
      refine ⟨s', hrun, ?_⟩
      rw [heq, table_register]
      rfl
    | onMessage message =>
      obtain ⟨m, rfl, hgen⟩ := he
      rw [Dispatching.step, hfiled.onMessage_eq hgen, ok_bind]
      obtain ⟨s', hrun, heq⟩ := ih { s with
        handled := s.handled ++ [s.dispatcher.table (lib.GetDescriptor m) m] } hfiled hrest
      exact ⟨s', hrun, heq⟩

end Dispatcher

section Examples

/-- Two classes, each with its own descriptor: the negative numbers and the others. -/
def signs : Classes Int Bool Bool where
  GetDescriptor i := decide (i < 0)
  descriptor type := type
  dynamic_cast type i := type == decide (i < 0)

/-- A message before the registration of its class, one behind it, and one behind the next. -/
def twoRegistrations : List (Event Int Bool) :=
  [.onMessage (some (-1)), .registerMessageCallback ⟨true, fun _ => [.shutdown]⟩,
    .onMessage (some (-1)), .registerMessageCallback ⟨true, fun _ => [.forceClose]⟩,
    .onMessage (some (-1))]

/-- The conditions of the property are met by this run. -/
theorem twoRegistrations_passed : ∀ e ∈ twoRegistrations, Passed signs e := by
  intro e he
  cases e with
  | registerMessageCallback => trivial
  | onMessage message =>
    have hm : message = some (-1) := by simpa [twoRegistrations] using he
    exact ⟨-1, hm, fun type htype => beq_iff_eq.mpr htype⟩

/-- The first goes to the default callback, and each of the others to the callback before it. -/
theorem dispatches_signs :
    ∃ s, run (Dispatching.step signs) ⟨new fun _ => [], []⟩ twoRegistrations = .ok s ∧
      s.handled = [[], [.shutdown], [.forceClose]] := by
  obtain ⟨s, hrun, heq⟩ := dispatches (fun _ => []) twoRegistrations twoRegistrations_passed
  exact ⟨s, hrun, congrArg Tabled.handled heq⟩

end Examples

end Dispatcher

end IOEvent
