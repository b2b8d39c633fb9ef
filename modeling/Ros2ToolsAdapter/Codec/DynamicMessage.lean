import Ros2ToolsAdapter.Codec.Introspection
import Ros2ToolsAdapter.Foundation.Ownership
import Ros2ToolsAdapter.Foundation.Throwing

/-!
# DynamicMessage

The storage of a message: a buffer of the size its type asks for, which a function of the type
initialises and another one finishes. A `DynamicMessage` is two pointers, to the buffer and to the
table of the type, and it owns the buffer; everything that is to hold of the two is up to the five
member functions below.

An object is known by where it lies, so that the two objects of a move assignment may be one. The
allocator and the two functions of a type are calls to the environment, which decides where a buffer
lies, and whether there is one at all; storage that has been released may be allocated again.
-/

namespace Ros2ToolsAdapter

open Interaction Ownership

/-- Where a buffer lies. -/
abbrev Buffer := ℕ

/-- Where an object lies. -/
abbrev Object := ℕ

/-- A `MessageMembers` table, with what `DynamicMessage` reads of it: whether there are the two
functions, and the size. -/
structure MembersTable where
  address : ℕ
  initFunction : Bool
  finiFunction : Bool
  sizeOf : ℕ
  deriving DecidableEq

/-! ## The environment -/

inductive MemoryCall
  | operatorNew (size : ℕ)
  | init (members : MembersTable) (data : Buffer)
  | fini (members : MembersTable) (data : Buffer)
  | operatorDelete (data : Buffer)

/-- `operator new` may find no storage, and an `init_function` may throw. -/
@[reducible] def MemoryCall.Answer : MemoryCall → Type
  | .operatorNew _ => Option Buffer
  | .init _ _ => Except Exn Unit
  | .fini _ _ | .operatorDelete _ => Unit

abbrev MemoryEvent := Event MemoryCall MemoryCall.Answer

/-- The buffer that a call is about. -/
def MemoryEvent.buffer? : MemoryEvent → Option Buffer
  | ⟨.operatorNew _, data⟩ => data
  | ⟨.init _ data, _⟩ | ⟨.fini _ data, _⟩ | ⟨.operatorDelete data, _⟩ => some data

/-- Whether the storage is in use after a call, given whether it was before. -/
def usedAfter (data : Buffer) (used : Bool) : MemoryEvent → Bool
  | ⟨.operatorNew _, answer⟩ => decide (answer = some data) || used
  | ⟨.operatorDelete released, _⟩ => decide (released ≠ data) && used
  | _ => used

/-- The storage has been allocated, and has not been released since. -/
def inUse (data : Buffer) (calls : List MemoryEvent) : Bool := calls.foldl (usedAfter data) false

/-- `operator new` returns storage that is not in use. -/
def Allocates (before : List MemoryEvent) : MemoryEvent → Prop
  | ⟨.operatorNew _, some data⟩ => inUse data before = false
  | _ => True

/-! ## The class -/

structure DynamicMessage where
  members_ : Option MembersTable
  data_ : Option Buffer
  deriving DecidableEq

namespace DynamicMessage

/-- Both pointers null. -/
def empty : DynamicMessage := ⟨none, none⟩

/-- `DynamicMessage(members)` -/
def construct (members : Option MembersTable) :
    Proc Exn MemoryCall MemoryCall.Answer DynamicMessage := do
  let incomplete :=
    permanentError "ros_type_support_invalid" "ROS2 message introspection is incomplete"
  match members with
  | none => throw incomplete
  | some members => do
    throwIf (members.initFunction = false ∨ members.finiFunction = false ∨ members.sizeOf = 0)
      incomplete
    let data ← Proc.invoke (.operatorNew members.sizeOf) fun
      | some data => .ok data
      | none => .error (.std "std::bad_alloc")
    tryCatch (Proc.invoke (.init members data) fun outcome ↦ outcome) fun e ↦ do
      Proc.perform (MemoryCall.operatorDelete data)
      throw e
    return ⟨some members, some data⟩

/-- `reset()`: what it leaves in the two fields. -/
def reset (this : DynamicMessage) : Prog MemoryCall MemoryCall.Answer DynamicMessage := do
  match this.data_, this.members_ with
  | some data, some members => do
    Prog.perform (MemoryCall.fini members data)
    Prog.perform (MemoryCall.operatorDelete data)
  | _, _ => pure ()
  return empty

end DynamicMessage

/-! ## Objects -/

/-- The objects that are alive. -/
abbrev Objects := Object → Option DynamicMessage

namespace Objects

/-- The fields of an object that is alive. -/
def fields (objects : Objects) (this : Object) : DynamicMessage :=
  (objects this).getD .empty

/-- The pointers of the other object become those of this one, and null there. -/
def take (objects : Objects) (this other : Object) : Objects :=
  let objects := Function.update objects this (some (objects.fields other))
  Function.update objects other (some .empty)

/-- `DynamicMessage(std::move(other))` -/
def moveConstruct (objects : Objects) (this other : Object) : Objects := objects.take this other

/-- `*this = std::move(other)` -/
def moveAssign (objects : Objects) (this other : Object) :
    Prog MemoryCall MemoryCall.Answer Objects :=
  if this ≠ other then do
    let left ← (objects.fields this).reset
    let objects := Function.update objects this (some left)
    return take objects this other
  else return objects

/-- `~DynamicMessage()` -/
def destroy (objects : Objects) (this : Object) : Prog MemoryCall MemoryCall.Answer Objects := do
  let _ ← (objects.fields this).reset
  return Function.update objects this none

end Objects

inductive Operation
  | construct (this : Object) (members : Option MembersTable)
  | moveConstruct (this other : Object)
  | moveAssign (this other : Object)
  | destroy (this : Object)

namespace Operation

/-- What the language allows: an object is constructed where there is none, and used while it is
alive. -/
def Allowed (objects : Objects) : Operation → Prop
  | construct this _ => objects this = none
  | moveConstruct this other => objects this = none ∧ (objects other).isSome
  | moveAssign this other => (objects this).isSome ∧ (objects other).isSome
  | destroy this => (objects this).isSome

/-- An operation leaves the objects as they are when it throws. -/
def perform (objects : Objects) : Operation → Prog MemoryCall MemoryCall.Answer Objects
  | construct this members =>
    Proc.catching (do
      let message ← DynamicMessage.construct members
      return Function.update objects this (some message)) fun _ ↦ objects
  | moveConstruct this other => return objects.moveConstruct this other
  | moveAssign this other => objects.moveAssign this other
  | destroy this => objects.destroy this

end Operation

/-- The objects, and all calls so far. -/
structure World where
  objects : Objects
  calls : List MemoryEvent

namespace World

/-- Nothing has happened yet. -/
def initial : World := ⟨fun _ ↦ none, []⟩

/-- One operation. -/
inductive Step (w : World) : World → Prop
  | perform (operation : Operation) {objects : Objects} {calls : List MemoryEvent} :
      operation.Allowed w.objects →
      Prog.Returns (operation.perform w.objects) calls objects →
      Prog.Guarded (fun before event ↦ Allocates (w.calls ++ before) event) calls →
        Step w ⟨objects, w.calls ++ calls⟩

def Reachable (w : World) : Prop := Relation.ReflTransGen Step initial w

end World

end Ros2ToolsAdapter
