import Ros2ToolsAdapter.Foundation.Pattern
import Ros2ToolsAdapter.JsonCpp.Value

/-!
# JSON Schema

The fragment of draft 2020-12 that describes a flat object: for each property its type and the
keywords `pattern`, `maxLength`, `minimum`, `maximum` and `enum`, and for the object `required` and
`additionalProperties`. Every keyword constrains only the kind of value it is about and holds of all
others, a length is counted in characters, and an integer is a number without a fractional part
whatever its representation.
-/

namespace Json

namespace Value

/-- The number a value is. -/
def number? : Value → Option ℚ
  | .int n => some n.val
  | .uint n => some n.val
  | .real x => x.toRat?
  | _ => none

private theorem number?_of_integer? {v : Value} {n : ℤ} (h : v.integer? = some n) :
    v.number? = some (n : ℚ) := by
  cases v with
  | int m =>
    obtain rfl := Option.some_injective _ h
    rfl
  | uint m =>
    obtain rfl := Option.some_injective _ h
    rfl
  | real x => exact FloatValue.toRat?_of_toInt? h
  | _ => simp [integer?] at h

end Value

/-! ## Properties -/

/-- The keyword `type`. -/
inductive SchemaType
  | object
  | string
  | integer

def SchemaType.Admits : SchemaType → Value → Prop
  | .object, v => v.isObject = true
  | .string, v => v.isString = true
  | .integer, v => v.integer?.isSome = true

/-- The schema of a property. A keyword that is absent admits everything. -/
structure PropertySchema where
  type : Option SchemaType := none
  pattern : Option (RegularExpression UInt8) := none
  maxLength : Option ℕ := none
  minimum : Option ℤ := none
  maximum : Option ℤ := none
  enum : Option (List Str) := none

/-- The value is valid against the schema. -/
structure PropertySchema.Admits (schema : PropertySchema) (v : Value) : Prop where
  type : ∀ t ∈ schema.type, t.Admits v
  pattern : ∀ r ∈ schema.pattern, ∀ s, v = .string s → s ∈ r.matches'
  maxLength : ∀ n ∈ schema.maxLength, ∀ s, v = .string s → Str.characters s ≤ n
  minimum : ∀ n ∈ schema.minimum, ∀ q, v.number? = some q → (n : ℚ) ≤ q
  maximum : ∀ n ∈ schema.maximum, ∀ q, v.number? = some q → q ≤ (n : ℚ)
  enum : ∀ values ∈ schema.enum, ∃ s ∈ values, v = .string s

namespace PropertySchema

variable {v : Value}

theorem admits_object_iff : Admits { type := some .object } v ↔ v.isObject = true := by
  constructor
  · exact fun h ↦ h.type _ rfl
  · intro h
    constructor <;> simp [SchemaType.Admits, h]

theorem admits_string_iff {r : RegularExpression UInt8} {n : ℕ} :
    Admits { type := some .string, pattern := some r, maxLength := some n } v ↔
      ∃ s, v = .string s ∧ s ∈ r.matches' ∧ Str.characters s ≤ n := by
  constructor
  · intro h
    obtain ⟨s, rfl⟩ := Value.isString_iff.mp (h.type _ rfl)
    exact ⟨s, rfl, h.pattern _ rfl s rfl, h.maxLength _ rfl s rfl⟩
  · rintro ⟨s, rfl, hr, hn⟩
    constructor <;> simp [SchemaType.Admits, Value.isString, hr, hn]

theorem admits_integer_iff {lo hi : ℤ} :
    Admits { type := some .integer, minimum := some lo, maximum := some hi } v ↔
      ∃ n, v.integer? = some n ∧ lo ≤ n ∧ n ≤ hi := by
  constructor
  · intro h
    obtain ⟨n, hn⟩ := Option.isSome_iff_exists.mp (h.type _ rfl)
    have hnumber := Value.number?_of_integer? hn
    exact ⟨n, hn, by exact_mod_cast h.minimum lo rfl _ hnumber,
      by exact_mod_cast h.maximum hi rfl _ hnumber⟩
  · rintro ⟨n, hn, hlo, hhi⟩
    constructor <;>
      simp [SchemaType.Admits, hn, Value.number?_of_integer? hn, hlo, hhi]

theorem admits_enum_iff {values : List Str} :
    Admits { enum := some values } v ↔ ∃ s ∈ values, v = .string s := by
  constructor
  · exact fun h ↦ h.enum _ rfl
  · intro h
    constructor <;> simp_all

end PropertySchema

/-! ## Objects -/

/-- The schema of an object. -/
structure ObjectSchema where
  properties : List (Str × PropertySchema)
  required : List Str
  additionalProperties : Bool := true

namespace ObjectSchema

/-- The value is valid against the schema. -/
structure Admits (schema : ObjectSchema) (v : Value) : Prop where
  type : v.isObject = true
  properties : ∀ p ∈ schema.properties, ∀ w, v.member? p.1 = some w → p.2.Admits w
  required : ∀ name ∈ schema.required, v.isMember name = true
  additionalProperties : schema.additionalProperties = false →
    ∀ name ∈ v.getMemberNames, name ∈ schema.properties.map Prod.fst

/-- Against a closed schema with every property required, a valid value has exactly the properties,
each valid. -/
theorem admits_iff {schema : ObjectSchema} {v : Value}
    (hrequired : schema.required = schema.properties.map Prod.fst)
    (hclosed : schema.additionalProperties = false) :
    schema.Admits v ↔ v.isObject = true ∧
      (∀ name ∈ v.getMemberNames, name ∈ schema.properties.map Prod.fst) ∧
      ∀ p ∈ schema.properties, ∃ w, v.member? p.1 = some w ∧ p.2.Admits w := by
  constructor
  · intro h
    refine ⟨h.type, h.additionalProperties hclosed, fun p hp ↦ ?_⟩
    have hname : p.1 ∈ schema.required := hrequired ▸ List.mem_map_of_mem hp
    obtain ⟨w, hw⟩ := Value.isMember_iff.mp (h.required p.1 hname)
    exact ⟨w, hw, h.properties p hp w hw⟩
  · rintro ⟨hobject, hnames, hproperties⟩
    refine ⟨hobject, fun p hp w hw ↦ ?_, fun name hname ↦ ?_, fun _ ↦ hnames⟩
    · obtain ⟨w', hw', hadmits⟩ := hproperties p hp
      obtain rfl := Option.some_injective _ (hw.symm.trans hw')
      exact hadmits
    · rw [hrequired] at hname
      obtain ⟨p, hp, rfl⟩ := List.mem_map.mp hname
      obtain ⟨w, hw, -⟩ := hproperties p hp
      exact Value.isMember_iff.mpr ⟨w, hw⟩

end ObjectSchema

/-! ## Objects that are put together -/

namespace Value

variable {v : Value} {fields : List (Str × Value)} {key : Str}

end Value

end Json
