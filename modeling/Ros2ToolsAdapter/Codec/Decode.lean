import Ros2ToolsAdapter.Codec.Introspection

/-!
# From JSON to a message

`JsonCodec::messageFromJson` and the functions it is made of. The source writes through a pointer
into the message; here a function takes what the field holds and returns what it holds afterwards,
which matters only where a nested message keeps the fields the JSON does not mention.

The three functions of the source call one another: a member is one scalar or an array of them, and
a scalar of message type is a run over members. `assignMember` and the loop over the items of an
array do not depend on which scalar they assign, so they take it as an argument, and the recursion
that is left, `assignMembers`, is over the table of members.
-/

namespace Ros2ToolsAdapter

open Json

/-- A library call that throws an exception of its own. -/
def ofStd {α : Type} (x : Except Str α) : Except Exn α := x.mapError .std

theorem ofStd_eq_ok {α : Type} {x : Except Str α} {a : α} : ofStd x = .ok a ↔ x = .ok a := by
  cases x <;> simp [ofStd, Except.mapError]

theorem ofStd_eq_error {α : Type} {x : Except Str α} {e : Exn} :
    ofStd x = .error e ↔ ∃ what, x = .error what ∧ e = .std what := by
  cases x <;> simp [ofStd, Except.mapError, eq_comm]

def requireObject (value : Value) (path : Str) : Except Exn Unit :=
  throwIf (value.isObject = false)
    (permanentError "invalid_message" (path ++ " must be a JSON object"))

def rejectUnknownFields (value : Value) (names : List Str) (path : Str) : Except Exn Unit :=
  forM value.getMemberNames fun name ↦
    throwIf (name ∉ names)
      (permanentError "unknown_message_field" (path ++ " contains unknown field '" ++ name ++ "'"))

/-! ## Scalars -/

/-- `assignSigned<T>`, for the integer type with these limits. -/
def assignSigned (lo hi : ℤ) (value : Value) (path : Str) : Except Exn (IntRange lo hi) := do
  throwIf (value.isIntegral = false)
    (permanentError "invalid_message_field" (path ++ " must be an integer"))
  let parsed ← ofStd value.asInt64
  if h : lo ≤ parsed ∧ parsed ≤ hi then
    pure ⟨parsed, h⟩
  else
    throw (permanentError "message_field_out_of_range" (path ++ " is out of range"))

/-- `value.isInt64() && value.asInt64() < 0` -/
def isNegativeInt64 (value : Value) : Except Exn Bool :=
  if value.isInt64 then (ofStd value.asInt64).map fun parsed ↦ decide (parsed < 0) else .ok false

/-- The guard and the conversion with which an unsigned integer is read. -/
def readUnsigned (value : Value) (notUnsigned : Exn) : Except Exn ℤ := do
  throwIf (value.isIntegral = false) notUnsigned
  -- `asInt64` is called only where `isInt64` holds, unlike in `assignSigned`
  let negative ← isNegativeInt64 value
  throwIf (negative = true) notUnsigned
  ofStd value.asUInt64

/-- `assignUnsigned<T>`, for the integer type from zero to this limit. -/
def assignUnsigned (hi : ℤ) (value : Value) (path : Str) : Except Exn (IntRange 0 hi) := do
  let parsed ← readUnsigned value
    (permanentError "invalid_message_field" (path ++ " must be an unsigned integer"))
  -- the parsed value is a `UInt64`, so the lower limit is never what fails
  if h : 0 ≤ parsed ∧ parsed ≤ hi then
    pure ⟨parsed, h⟩
  else
    throw (permanentError "message_field_out_of_range" (path ++ " is out of range"))

/-- `assignFloating<T>`, for the format of `T`. -/
def assignFloating (f : FloatFormat) (value : Value) (path : Str) :
    Except Exn (FloatValue f) := do
  throwIf (value.isNumeric = false)
    (permanentError "invalid_message_field" (path ++ " must be numeric"))
  let parsed := value.asDouble
  throwIf (parsed.isFinite = false ∨
      FloatValue.absGt parsed (.convert .binary64 (.maxFinite f)) = true)
    (permanentError "message_field_out_of_range" (path ++ " is out of range"))
  pure (.convert f parsed)

def assignBool (value : Value) (path : Str) : Except Exn Bool := do
  throwIf (value.isBool = false)
    (permanentError "invalid_message_field" (path ++ " must be boolean"))
  pure value.asBool

def assignString (stringUpperBound : ℕ) (value : Value) (path : Str) : Except Exn Str := do
  throwIf (value.isString = false)
    (permanentError "invalid_message_field" (path ++ " must be a string"))
  let parsed := value.asString
  throwIf (stringUpperBound ≠ 0 ∧ stringUpperBound < parsed.length)
    (permanentError "message_field_out_of_range" (path ++ " exceeds its string bound"))
  pure parsed

def assignWString (stringUpperBound : ℕ) (value : Value) (path : Str) : Except Exn WStr := do
  throwIf (value.isString = false)
    (permanentError "invalid_message_field" (path ++ " must be a string"))
  throwIf (value.asString.any (fun character ↦ 0x7f < character) = true)
    (permanentError "unsupported_message_field" (path ++ " contains a non-ASCII wide string"))
  let parsed := value.asString.map UInt8.toUInt16
  throwIf (stringUpperBound ≠ 0 ∧ stringUpperBound < parsed.length)
    (permanentError "message_field_out_of_range" (path ++ " exceeds its wide-string bound"))
  pure parsed

/-- `assignScalar`, the cases other than a nested message. -/
def assignScalar (stringUpperBound : ℕ) :
    (t : ScalarType) → Value → (path : Str) → Except Exn t.Val
  | .bool => assignBool
  | .float => assignFloating .binary32
  | .double => assignFloating .binary64
  | .longDouble => assignFloating .extended80
  | .char | .octet | .uint8 => assignUnsigned (2 ^ 8 - 1)
  | .int8 => assignSigned (-2 ^ 7) (2 ^ 7 - 1)
  | .uint16 => assignUnsigned (2 ^ 16 - 1)
  | .int16 => assignSigned (-2 ^ 15) (2 ^ 15 - 1)
  | .uint32 => assignUnsigned (2 ^ 32 - 1)
  | .int32 => assignSigned (-2 ^ 31) (2 ^ 31 - 1)
  | .uint64 => assignUnsigned (2 ^ 64 - 1)
  | .int64 => assignSigned (-2 ^ 63) (2 ^ 63 - 1)
  | .string => assignString stringUpperBound
  | .wstring => assignWString stringUpperBound

/-- `assignScalar`, the cases that always throw. -/
def assignUntyped (why : Untyped) (path : Str) : Except Exn Unit :=
  match why with
  | .nullMembers => .error (permanentError "ros_type_support_invalid"
      "nested ROS2 message introspection is unavailable")
  | .unsupported => .error (permanentError "unsupported_message_field"
      (path ++ " uses an unsupported ROS2 field type"))

/-! ## Members -/

/-- How the codec assigns one value of type `T`, given what is there. -/
abbrev Assign (T : Type) := Value → T → Str → Except Exn T

section Members

variable {T : Type}

/-- One round of the loop over an array: in place when the container has references to its items,
through a local variable when it is a packed one. -/
def assignItem (array : ArrayMember) (packed : Option T) (assign : Assign T) (value : Value)
    (cell : T) (path : Str) : Except Exn T :=
  if array.getFunction then assign value cell path
  else match packed, array.assignFunction with
    | some item, true => assign value item path
    | _, _ => .error (permanentError "ros_type_support_invalid"
        (path ++ " sequence assignment is unavailable"))

/-- The loop over the items of an array, from `index` on. -/
def assignItems (array : ArrayMember) (packed : Option T) (assign : Assign T) (path : Str) :
    ℕ → List Value → List T → Except Exn (List T)
  | index, value :: values, cell :: cells => do
    let item ← assignItem array packed assign value cell (itemPath path index)
    let items ← assignItems array packed assign path (index + 1) values cells
    pure (item :: items)
  -- the container has as many items as the JSON array, so the two end together
  | _, _, _ => pure []

/-- `resize_function`: the first `n` items, with new ones after them when there are fewer. -/
def resize (cells : List T) (n : ℕ) (fresh : T) : List T :=
  cells.take n ++ List.replicate (n - cells.length) fresh

/-- The container before the loop: as long as the JSON array, if it is one that can be resized. -/
def prepare (array : ArrayMember) (field : List T) (requested : ℕ) (fresh : T) : List T :=
  if (array.arraySize = 0 ∨ array.isUpperBound = true) ∧ array.resizeFunction = true then
    resize field requested fresh
  else field

/-- `assignMember`. -/
def assignMember (packed : Option T) (fresh : T) (assign : Assign T) (value : Value) (path : Str) :
    (array : Option ArrayMember) → Slot array T → Except Exn (Slot array T)
  | none, field => assign value field path
  | some a, field => do
    throwIf (value.isArray = false)
      (permanentError "invalid_message_field" (path ++ " must be an array"))
    let requested := value.items.length
    throwIf (a.arraySize ≠ 0 ∧ a.isUpperBound = false ∧ requested ≠ a.arraySize)
      (permanentError "invalid_message_field"
        (path ++ " must contain exactly " ++ Str.ofNat a.arraySize ++ " items"))
    throwIf (a.isUpperBound = true ∧ a.arraySize ≠ 0 ∧ a.arraySize < requested)
      (permanentError "invalid_message_field" (path ++ " exceeds its bounded sequence size"))
    let field := prepare a field requested fresh
    -- also where a fixed or unresizable container has another size than the array
    throwIf (a.sizeFunction = false ∨ field.length ≠ requested)
      (permanentError "ros_type_support_invalid"
        (path ++ " sequence introspection is incomplete"))
    assignItems a packed assign path 0 value.items field

/-- One round of the loop over members: a member the JSON does not mention is left alone. -/
def assignPresent {array : Option ArrayMember} (packed : Option T) (fresh : T) (assign : Assign T)
    (value : Value) (name : Str) (field : Slot array T) (path : Str) :
    Except Exn (Slot array T) :=
  if value.isMember name then
    assignMember packed fresh assign (value.get name) (path ++ "." ++ name) array field
  else pure field

end Members

/-! ## Messages -/

/-- The loop over the members of a message. -/
def assignMembers : (S : MessageMembers) → S.Defaults → Value → S.Message → Str →
    Except Exn S.Message
  | .nil, _, _, _, _ => pure ()
  | .scalar m t rest, (_, ds), value, (field, fields), path => do
    let field ← assignPresent t.packed t.fresh
      (fun v _ p ↦ assignScalar m.stringUpperBound t v p) value m.name field path
    let fields ← assignMembers rest ds value fields path
    pure (field, fields)
  | .nested m s rest, (_, d, ds), value, (field, fields), path => do
    -- `assignScalar` on a member of message type
    let field ← assignPresent none (s.initial d) (fun v cell p ↦ do
      requireObject v p
      rejectUnknownFields v s.names p
      assignMembers s d v cell p) value m.name field path
    let fields ← assignMembers rest ds value fields path
    pure (field, fields)
  | .untyped m why rest, (_, ds), value, (field, fields), path => do
    let field ← assignPresent none () (fun _ _ p ↦ assignUntyped why p) value m.name field path
    let fields ← assignMembers rest ds value fields path
    pure (field, fields)

/-- `JsonCodec::messageFromJson`. -/
def messageFromJson (support : MessageSupport) (value : Value) :
    Except Exn support.members.Message := do
  requireObject value "message"
  rejectUnknownFields value support.members.names "message"
  let defaults ← support.construct
  assignMembers support.members defaults value (support.members.initial defaults) "message"

end Ros2ToolsAdapter
