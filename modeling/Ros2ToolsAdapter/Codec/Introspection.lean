import Ros2ToolsAdapter.Adapter.Contract

/-!
# ROS introspection

A message type as `rosidl_typesupport_introspection_cpp` describes it to the codec, and the storage
of a message of that type.

`MessageMembers` is the table of members, a list whose nested entries carry a table of their own. Of
a member it holds what the codec reads: the name, the string bound, and for an array the size, the
kind of bound and which of the six accessor functions are present. An accessor that is present does
what the generated code does — `size`, `get`, `get_const`, `fetch`, `assign` and `resize` of the
field's container — so only its presence is data.

Storage is typed by the table. `MessageMembers.Message` is the tuple of the fields, an array field
is the list of its items, and `Slot` chooses between the two, so that no message of a type can hold
a field of another.
-/

namespace Ros2ToolsAdapter

/-! ## Field types -/

/-- The type ids with a representation of their own. -/
inductive ScalarType
  | bool
  | float
  | double
  | longDouble
  | char
  | octet
  | uint8
  | int8
  | uint16
  | int16
  | uint32
  | int32
  | uint64
  | int64
  | string
  | wstring
  deriving DecidableEq

/-- Strings of UTF-16 code units. -/
abbrev WStr := List UInt16

/-- The C++ type a type id stands for. -/
@[reducible] def ScalarType.Val : ScalarType → Type
  | .bool => Bool
  | .float => FloatValue .binary32
  | .double => FloatValue .binary64
  | .longDouble => FloatValue .extended80
  | .char | .octet | .uint8 => IntRange 0 (2 ^ 8 - 1)
  | .int8 => IntRange (-2 ^ 7) (2 ^ 7 - 1)
  | .uint16 => IntRange 0 (2 ^ 16 - 1)
  | .int16 => IntRange (-2 ^ 15) (2 ^ 15 - 1)
  | .uint32 => IntRange 0 (2 ^ 32 - 1)
  | .int32 => IntRange (-2 ^ 31) (2 ^ 31 - 1)
  | .uint64 => IntRange 0 (2 ^ 64 - 1)
  | .int64 => IntRange (-2 ^ 63) (2 ^ 63 - 1)
  | .string => Str
  | .wstring => WStr

/-- What `resize` puts into a new item of a container. -/
def ScalarType.fresh : (t : ScalarType) → t.Val
  | .bool => false
  | .float => .ofInt _ 0
  | .double => .ofInt _ 0
  | .longDouble => .ofInt _ 0
  | .char | .octet | .uint8 => ⟨0, by decide⟩
  | .int8 => ⟨0, by decide⟩
  | .uint16 => ⟨0, by decide⟩
  | .int16 => ⟨0, by decide⟩
  | .uint32 => ⟨0, by decide⟩
  | .int32 => ⟨0, by decide⟩
  | .uint64 => ⟨0, by decide⟩
  | .int64 => ⟨0, by decide⟩
  | .string => []
  | .wstring => []

/-- A `bool` has a second way in and out of a container, for the packed `std::vector<bool>`: through
a local variable, which starts out false. -/
def ScalarType.packed : (t : ScalarType) → Option t.Val
  | .bool => some false
  | _ => none

/-! ## Members -/

/-- The array part of a `MessageMember`, present when `is_array_` is set. -/
structure ArrayMember where
  arraySize : ℕ
  isUpperBound : Bool
  sizeFunction : Bool
  getConstFunction : Bool
  getFunction : Bool
  fetchFunction : Bool
  assignFunction : Bool
  resizeFunction : Bool
  deriving DecidableEq

namespace ArrayMember

/-- A fixed array: its size is part of the type. -/
def IsFixed (a : ArrayMember) : Prop := a.arraySize ≠ 0 ∧ a.isUpperBound = false

/-- A sequence with an upper bound. -/
def IsBounded (a : ArrayMember) : Prop := a.isUpperBound = true ∧ a.arraySize ≠ 0

/-- A field of the array type may have that many items. -/
def Allows (a : ArrayMember) (size : ℕ) : Prop :=
  (a.IsFixed → size = a.arraySize) ∧ (a.IsBounded → size ≤ a.arraySize)

instance (a : ArrayMember) : Decidable a.IsFixed := inferInstanceAs (Decidable (_ ∧ _))

instance (a : ArrayMember) : Decidable a.IsBounded := inferInstanceAs (Decidable (_ ∧ _))

end ArrayMember

/-- `MessageMember`, less its type. -/
structure MessageMember where
  name : Str
  stringUpperBound : ℕ
  array : Option ArrayMember
  deriving DecidableEq

/-- A member the codec cannot enter. -/
inductive Untyped
  | nullMembers
  | unsupported
  deriving DecidableEq

/-- `MessageMembers`: the members in order. -/
inductive MessageMembers
  | nil
  | scalar (member : MessageMember) (type : ScalarType) (rest : MessageMembers)
  | nested (member : MessageMember) (members : MessageMembers) (rest : MessageMembers)
  | untyped (member : MessageMember) (why : Untyped) (rest : MessageMembers)
  deriving DecidableEq

/-- The storage of a member: one value, or the items of its container. -/
@[reducible] def Slot : Option ArrayMember → Type → Type
  | none, T => T
  | some _, T => List T

namespace MessageMembers

/-- The member names, in order. -/
def names : MessageMembers → List Str
  | .nil => []
  | .scalar m _ rest | .nested m _ rest | .untyped m _ rest => m.name :: rest.names

/-- The storage of a message. -/
@[reducible] def Message : MessageMembers → Type
  | .nil => Unit
  | .scalar m t rest => Slot m.array t.Val × rest.Message
  | .nested m s rest => Slot m.array s.Message × rest.Message
  | .untyped m _ rest => Slot m.array Unit × rest.Message

/-- What initialising a message puts into it: the initial value of every field, and for a nested
member also the defaults of its type, from which new items of a sequence are made. -/
@[reducible] def Defaults : MessageMembers → Type
  | .nil => Unit
  | .scalar m t rest => Slot m.array t.Val × rest.Defaults
  | .nested m s rest => Slot m.array s.Message × s.Defaults × rest.Defaults
  | .untyped m _ rest => Slot m.array Unit × rest.Defaults

/-- The initialised message. -/
def initial : (S : MessageMembers) → S.Defaults → S.Message
  | .nil, _ => ()
  | .scalar _ _ rest, (field, ds) => (field, rest.initial ds)
  | .nested _ _ rest, (field, _, ds) => (field, rest.initial ds)
  | .untyped _ _ rest, (field, ds) => (field, rest.initial ds)

end MessageMembers

/-- `path[index]`. -/
def itemPath (path : Str) (index : ℕ) : Str := path ++ "[" ++ Str.ofNat index ++ "]"

/-- A `MessageMembers` table as `DynamicMessage` uses it: besides the members, an `init_function`
that may be absent or throw, and whether there is a `fini_function` and a size. -/
structure MessageSupport where
  members : MessageMembers
  initFunction : Option (Except Str members.Defaults)
  finiFunction : Bool
  sizeOf : ℕ

namespace MessageSupport

/-- `DynamicMessage(members)`: a message as `init_function` leaves it. -/
def construct (support : MessageSupport) : Except Exn support.members.Defaults :=
  match support.initFunction with
  | some init =>
    if support.finiFunction ∧ support.sizeOf ≠ 0 then init.mapError .std
    else .error (permanentError "ros_type_support_invalid"
      "ROS2 message introspection is incomplete")
  | none => .error (permanentError "ros_type_support_invalid"
      "ROS2 message introspection is incomplete")

end MessageSupport

end Ros2ToolsAdapter
