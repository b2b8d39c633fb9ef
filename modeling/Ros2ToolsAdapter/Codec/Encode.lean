import Ros2ToolsAdapter.Codec.Introspection

/-!
# From a message to JSON

`JsonCodec::messageToJson` and the functions it is made of, arranged as the decoder is: the loop
over the items of a container takes the projection of one item as an argument, and `membersToJson`
is the recursion over the table of members. The object under construction is an argument of it, as
the source assigns the members of one `Json::Value` in turn.
-/

namespace Ros2ToolsAdapter

open Json

/-! ## Scalars -/

/-- `Json::Value(Json::Int)` and `Json::Value(Json::Int64)`. -/
def intToJson {lo hi : ℤ} (h : -2 ^ 63 ≤ lo ∧ hi ≤ 2 ^ 63 - 1) (n : IntRange lo hi) : Value :=
  .int ⟨n.val, h.1.trans n.property.1, n.property.2.trans h.2⟩

/-- `Json::Value(Json::UInt)` and `Json::Value(Json::UInt64)`. -/
def uintToJson {hi : ℤ} (h : hi ≤ 2 ^ 64 - 1) (n : IntRange 0 hi) : Value :=
  .uint ⟨n.val, n.property.1, n.property.2.trans h⟩

def longDoubleToJson (value : FloatValue .extended80) (path : Str) : Except Exn Value := do
  throwIf (value.isFinite = false ∨
      FloatValue.absGt value (.convert .extended80 (.maxFinite .binary64)) = true)
    (permanentError "message_field_out_of_range"
      (path ++ " cannot be represented as JSON number"))
  pure (.real (.convert .binary64 value))

def wstringToJson (value : WStr) (path : Str) : Except Exn Value := do
  throwIf (value.any (fun character ↦ 0x7f < character) = true)
    (permanentError "unsupported_message_field" (path ++ " contains a non-ASCII wide string"))
  pure (.string (value.map UInt16.toUInt8))

/-- `scalarToJson`, the cases other than a nested message. -/
def scalarToJson : (t : ScalarType) → t.Val → (path : Str) → Except Exn Value
  | .bool, x, _ => pure (.boolean x)
  | .float, x, _ => pure (.real (.convert .binary64 x))
  | .double, x, _ => pure (.real x)
  | .longDouble, x, path => longDoubleToJson x path
  | .char, x, _ | .octet, x, _ | .uint8, x, _ => pure (uintToJson (by decide) x)
  | .int8, x, _ => pure (intToJson (by decide) x)
  | .uint16, x, _ => pure (uintToJson (by decide) x)
  | .int16, x, _ => pure (intToJson (by decide) x)
  | .uint32, x, _ => pure (uintToJson (by decide) x)
  | .int32, x, _ => pure (intToJson (by decide) x)
  | .uint64, x, _ => pure (uintToJson (by decide) x)
  | .int64, x, _ => pure (intToJson (by decide) x)
  | .string, x, _ => pure (.string x)
  | .wstring, x, path => wstringToJson x path

/-- `scalarToJson`, the cases that always throw. -/
def untypedToJson (why : Untyped) (path : Str) : Except Exn Value :=
  match why with
  | .nullMembers => .error (permanentError "ros_type_support_invalid"
      "nested ROS2 message introspection is unavailable")
  | .unsupported => .error (permanentError "unsupported_message_field"
      (path ++ " uses an unsupported ROS2 field type"))

/-! ## Members -/

/-- How the codec projects one value of type `T`. -/
abbrev Project (T : Type) := T → Str → Except Exn Value

section Members

variable {T : Type}

/-- One round of the loop over a container: through a reference to the item, or through a local
variable when the container is a packed one. -/
def itemToJson (array : ArrayMember) (packed : Option T) (project : Project T) (cell : T)
    (path : Str) : Except Exn Value :=
  if array.getConstFunction then project cell path
  -- only a `bool` has the local variable, and only with a `fetch_function` to fill it
  else match packed, array.fetchFunction with
    | some _, true => project cell path
    | _, _ => .error (permanentError "ros_type_support_invalid"
        (path ++ " sequence projection is unavailable"))

/-- The loop over the items of a container, from `index` on. -/
def itemsToJson (array : ArrayMember) (packed : Option T) (project : Project T) (path : Str) :
    ℕ → List T → Except Exn (List Value)
  | _, [] => pure []
  | index, cell :: cells => do
    let value ← itemToJson array packed project cell (itemPath path index)
    let values ← itemsToJson array packed project path (index + 1) cells
    pure (value :: values)

/-- `memberToJson`. -/
def memberToJson (packed : Option T) (project : Project T) (path : Str) :
    (array : Option ArrayMember) → Slot array T → Except Exn Value
  | none, field => project field path
  | some a, field => do
    throwIf (a.sizeFunction = false)
      (permanentError "ros_type_support_invalid"
        (path ++ " sequence introspection is incomplete"))
    let values ← itemsToJson a packed project path 0 field
    pure (.array values)

end Members

/-! ## Messages -/

/-- The loop over the members of a message, into the object `result`. -/
def membersToJson : (S : MessageMembers) → S.Message → (result : Value) → Str → Except Exn Value
  | .nil, _, result, _ => pure result
  | .scalar m t rest, (field, fields), result, path => do
    let value ← memberToJson t.packed (scalarToJson t) (path ++ "." ++ m.name) m.array field
    membersToJson rest fields (result.set m.name value) path
  | .nested m s rest, (field, fields), result, path => do
    -- `scalarToJson` on a member of message type
    let value ← memberToJson none (fun x p ↦ membersToJson s x (.object []) p)
      (path ++ "." ++ m.name) m.array field
    membersToJson rest fields (result.set m.name value) path
  | .untyped m why rest, (field, fields), result, path => do
    let value ← memberToJson none (fun _ p ↦ untypedToJson why p)
      (path ++ "." ++ m.name) m.array field
    membersToJson rest fields (result.set m.name value) path

/-- `JsonCodec::messageToJson`. -/
def messageToJson (S : MessageMembers) (message : S.Message) : Except Exn Value :=
  membersToJson S message (.object []) "message"

end Ros2ToolsAdapter
