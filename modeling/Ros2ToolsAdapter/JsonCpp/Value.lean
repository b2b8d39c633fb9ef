import Ros2ToolsAdapter.Foundation.FloatFormat
import Ros2ToolsAdapter.Foundation.Text

/-!
# `Json::Value`

The values of JsonCpp 1.9.5 and the accessors the adapter calls. A number is held in one of three
representations — signed 64-bit, unsigned 64-bit, or double — and the accessors do not agree about
them: `isIntegral` holds of some numbers on which `asInt64` throws, and of one that it takes for
another. What a number *is* is `integer?`, the mathematical integer it denotes, and each accessor is
related to that once below.

An object is the list of its members in key order, as `getMemberNames` enumerates them. An accessor
that can throw returns an `Except` with the text of the exception.
-/

/-- The integers of a range, an integer type given by its limits. -/
abbrev IntRange (lo hi : ℤ) := {n : ℤ // lo ≤ n ∧ n ≤ hi}

namespace Json

/-- `Json::Int64`. -/
abbrev Int64 := IntRange (-2 ^ 63) (2 ^ 63 - 1)

/-- `Json::UInt64`. -/
abbrev UInt64 := IntRange 0 (2 ^ 64 - 1)

/-- A C `double`. -/
abbrev Double := FloatValue .binary64

/-- `Json::Value`. -/
inductive Value
  | null
  | boolean (b : Bool)
  | int (n : Int64)
  | uint (n : UInt64)
  | real (x : Double)
  | string (s : Str)
  | array (items : List Value)
  | object (members : List (Str × Value))

namespace Value

theorem bmod_mem_int64 (n : ℤ) : -2 ^ 63 ≤ n.bmod (2 ^ 64) ∧ n.bmod (2 ^ 64) ≤ 2 ^ 63 - 1 := by
  have hlo := Int.le_bmod (x := n) (show 0 < 2 ^ 64 by decide)
  have hhi := Int.bmod_lt (x := n) (show 0 < 2 ^ 64 by decide)
  omega

/-- `Json::Value(static_cast<Json::Int64>(n))`. -/
def ofInt64 (n : ℤ) : Value := .int ⟨n.bmod (2 ^ 64), bmod_mem_int64 n⟩

/-- `Json::Value(static_cast<Json::UInt64>(n))`. -/
def ofUInt64 (n : ℤ) : Value :=
  .uint ⟨n % 2 ^ 64, Int.emod_nonneg n (by decide),
    Int.le_sub_one_of_lt (Int.emod_lt_of_pos n (by decide))⟩

/-! ## Kinds -/

def isObject : Value → Bool
  | .object _ => true
  | _ => false

def isArray : Value → Bool
  | .array _ => true
  | _ => false

def isString : Value → Bool
  | .string _ => true
  | _ => false

def isBool : Value → Bool
  | .boolean _ => true
  | _ => false

def isNumeric : Value → Bool
  | .int _ | .uint _ | .real _ => true
  | _ => false

theorem isObject_iff {v : Value} : v.isObject = true ↔ ∃ members, v = .object members := by
  cases v <;> simp [isObject]

theorem isString_iff {v : Value} : v.isString = true ↔ ∃ s, v = .string s := by
  cases v <;> simp [isString]

theorem isBool_iff {v : Value} : v.isBool = true ↔ ∃ b, v = .boolean b := by
  cases v <;> simp [isBool]

/-- `asBool`, on the booleans it is called on. -/
def asBool : Value → Bool
  | .boolean b => b
  | _ => false

/-- `asString`, on the strings it is called on. -/
def asString : Value → Str
  | .string s => s
  | _ => []

/-! ## Members and items -/

/-- The member of that name, if there is one. -/
def member? (v : Value) (key : Str) : Option Value :=
  match v with
  | .object members => members.lookup key
  | _ => none

def isMember (v : Value) (key : Str) : Bool := (v.member? key).isSome

/-- `value[key]`, the null value when there is no such member. -/
def get (v : Value) (key : Str) : Value := (v.member? key).getD .null

def getMemberNames : Value → List Str
  | .object members => members.map Prod.fst
  | _ => []

/-- The items of an array. -/
def items : Value → List Value
  | .array items => items
  | _ => []

theorem get_of_member? {v w : Value} {key : Str} (h : v.member? key = some w) :
    v.get key = w := by rw [get, h, Option.getD_some]

theorem isMember_iff {v : Value} {key : Str} :
    v.isMember key = true ↔ ∃ w, v.member? key = some w := by
  rw [isMember, Option.isSome_iff_exists]

/-- The names enumerated are those that are members. -/
theorem mem_getMemberNames_iff {v : Value} {key : Str} :
    key ∈ v.getMemberNames ↔ v.isMember key = true := by
  cases v with
  | object members =>
    rw [getMemberNames, isMember, member?, List.lookup_eq_findSome?, List.findSome?_isSome_iff]
    simp
  | _ => simp [getMemberNames, isMember, member?]

/-- The members with one set, replaced where it stands or put in at its place in key order. -/
def insertMember (key : Str) (x : Value) : List (Str × Value) → List (Str × Value)
  | [] => [(key, x)]
  | (k, y) :: rest =>
    if key = k then (key, x) :: rest
    else if key < k then (key, x) :: (k, y) :: rest
    else (k, y) :: insertMember key x rest

/-- `value[key] = x`, on the objects it is applied to. -/
def set (v : Value) (key : Str) (x : Value) : Value :=
  match v with
  | .object members => .object (insertMember key x members)
  | v => v

private theorem lookup_cons_eq_ite (k k' : Str) (y : Value) (rest : List (Str × Value)) :
    ((k', y) :: rest).lookup k = if k = k' then some y else rest.lookup k := by
  rw [List.lookup_cons]
  by_cases h : k = k'
  · simp [h]
  · simp [h, beq_eq_false_iff_ne.mpr h]

private theorem lookup_insertMember (key k : Str) (x : Value) (members : List (Str × Value)) :
    (insertMember key x members).lookup k = if k = key then some x else members.lookup k := by
  induction members with
  | nil => rw [insertMember, lookup_cons_eq_ite]
  | cons head rest ih =>
    obtain ⟨k', y⟩ := head
    rw [insertMember, lookup_cons_eq_ite k k' y rest]
    split
    · rename_i hkey
      rw [lookup_cons_eq_ite, ← hkey]
      split <;> rfl
    · split
      · rw [lookup_cons_eq_ite, lookup_cons_eq_ite]
      · rename_i hne _
        rw [lookup_cons_eq_ite, ih]
        by_cases hk : k = k'
        · have hne' : k' ≠ key := fun h ↦ hne h.symm
          rw [if_pos hk, if_neg (by rwa [hk]), if_pos hk]
        · rw [if_neg hk, if_neg hk]

theorem member?_set {v : Value} (hv : v.isObject = true) (key k : Str) (x : Value) :
    (v.set key x).member? k = if k = key then some x else v.member? k := by
  obtain ⟨members, rfl⟩ := isObject_iff.mp hv
  exact lookup_insertMember key k x members

private theorem mem_keys_insertMember {key k : Str} {x : Value} {members : List (Str × Value)} :
    k ∈ (insertMember key x members).map Prod.fst ↔ k = key ∨ k ∈ members.map Prod.fst := by
  induction members with
  | nil => simp [insertMember]
  | cons head rest ih =>
    obtain ⟨k', y⟩ := head
    rw [insertMember]
    split
    · simp_all
    · split
      · simp
      · rw [List.map_cons, List.mem_cons, ih, List.map_cons, List.mem_cons]
        exact or_left_comm

theorem mem_getMemberNames_set {v : Value} (hv : v.isObject = true) {key k : Str} {x : Value} :
    k ∈ (v.set key x).getMemberNames ↔ k = key ∨ k ∈ v.getMemberNames := by
  obtain ⟨members, rfl⟩ := isObject_iff.mp hv
  exact mem_keys_insertMember

@[simp] theorem isObject_set {v : Value} (hv : v.isObject = true) (key : Str) (x : Value) :
    (v.set key x).isObject = true := by
  obtain ⟨members, rfl⟩ := isObject_iff.mp hv
  rfl

/-! ## Numbers -/

/-- The mathematical integer a number is equal to, if it is equal to one. -/
def integer? : Value → Option ℤ
  | .int n => some n.val
  | .uint n => some n.val
  | .real x => x.toInt?
  | _ => none

theorem integer?_ofInt64 {n : ℤ} (hlo : -2 ^ 63 ≤ n) (hhi : n < 2 ^ 63) :
    (ofInt64 n).integer? = some n :=
  congrArg some (Int.bmod_eq_of_le (by omega) (by omega))

def isIntegral : Value → Bool
  | .int _ | .uint _ => true
  | .real x => x.toInt?.any fun n ↦ -2 ^ 63 ≤ n && n < 2 ^ 64
  | _ => false

def isInt64 : Value → Bool
  | .int _ => true
  | .uint n => n.val ≤ 2 ^ 63 - 1
  | .real x => x.toInt?.any fun n ↦ -2 ^ 63 ≤ n && n < 2 ^ 63
  | _ => false

/-- `InRange`. The limits are converted to `double` first, so that `maxInt64` counts as `2 ^ 63` and
`maxUInt64` as `2 ^ 64`. -/
def inRange (x : Double) (lo hi : ℤ) : Bool :=
  FloatValue.le (.ofInt _ lo) x && FloatValue.le x (.ofInt _ hi)

/-- `Int64(x)` and `UInt64(x)`, for the type with these limits: the integer part. Where that does
not fit C++ leaves the result undefined, and the conversion of x86-64 yields the least value. -/
def toLargest (lo hi : ℤ) (x : Double) : ℤ :=
  if lo ≤ x.truncate ∧ x.truncate ≤ hi then x.truncate else lo

/-- `asInt64`. It throws when the stored number is outside the range of `Int64`, as far as `InRange`
can tell. -/
def asInt64 : Value → Except Str ℤ
  | .int n => .ok n.val
  | .uint n =>
    if n.val ≤ 2 ^ 63 - 1 then .ok n.val else .error "LargestUInt out of Int64 range"
  | .real x =>
    if inRange x (-2 ^ 63) (2 ^ 63 - 1) then .ok (toLargest (-2 ^ 63) (2 ^ 63 - 1) x)
    else .error "double out of Int64 range"
  | .null => .ok 0
  | .boolean b => .ok b.toNat
  | _ => .error "Value is not convertible to Int64."

/-- `asUInt64`. -/
def asUInt64 : Value → Except Str ℤ
  | .int n => if 0 ≤ n.val then .ok n.val else .error "LargestInt out of UInt64 range"
  | .uint n => .ok n.val
  | .real x =>
    if inRange x 0 (2 ^ 64 - 1) then .ok (toLargest 0 (2 ^ 64 - 1) x)
    else .error "double out of UInt64 range"
  | .null => .ok 0
  | .boolean b => .ok b.toNat
  | _ => .error "Value is not convertible to UInt64."

/-- `asUInt`. -/
def asUInt : Value → Except Str ℤ
  | .int n =>
    if 0 ≤ n.val ∧ n.val ≤ 2 ^ 32 - 1 then .ok n.val else .error "LargestInt out of UInt range"
  | .uint n => if n.val ≤ 2 ^ 32 - 1 then .ok n.val else .error "LargestUInt out of UInt range"
  | .real x =>
    if inRange x 0 (2 ^ 32 - 1) then .ok x.truncate else .error "double out of UInt range"
  | .null => .ok 0
  | .boolean b => .ok b.toNat
  | _ => .error "Value is not convertible to UInt."

/-- `asDouble`, on the numbers it is called on. -/
def asDouble : Value → Double
  | .int n => .ofInt _ n.val
  | .uint n => .ofInt _ n.val
  | .real x => x
  | _ => .ofInt _ 0

private theorem toInt?_ofInt_limits :
    (FloatValue.ofInt .binary64 (-2 ^ 63)).toInt? = some (-2 ^ 63) ∧
      (FloatValue.ofInt .binary64 (2 ^ 63 - 1)).toInt? = some (2 ^ 63) ∧
      (FloatValue.ofInt .binary64 0).toInt? = some 0 ∧
      (FloatValue.ofInt .binary64 (2 ^ 64 - 1)).toInt? = some (2 ^ 64) := by
  decide +kernel

private theorem inRange_iff {x : Double} {lo hi lo' hi' n : ℤ} (hx : x.toInt? = some n)
    (hlo : (FloatValue.ofInt .binary64 lo).toInt? = some lo')
    (hhi : (FloatValue.ofInt .binary64 hi).toInt? = some hi') :
    inRange x lo hi = true ↔ lo' ≤ n ∧ n ≤ hi' := by
  rw [inRange, Bool.and_eq_true, FloatValue.le_iff_of_toInt? hlo hx,
    FloatValue.le_iff_of_toInt? hx hhi]

/-- `asInt64` on an integral real: one past the largest `Int64` gets through and wraps. -/
theorem asInt64_real {x : Double} {n : ℤ} (h : x.toInt? = some n) :
    (real x).asInt64 =
      if -2 ^ 63 ≤ n ∧ n < 2 ^ 63 then .ok n
      else if n = 2 ^ 63 then .ok (-2 ^ 63)
      else .error "double out of Int64 range" := by
  obtain ⟨hlo, hhi, -, -⟩ := toInt?_ofInt_limits
  have hrange := inRange_iff h hlo hhi
  rw [asInt64, toLargest, FloatValue.truncate_of_toInt? h]
  split
  · have hn := hrange.mp ‹_›
    split
    · rw [if_pos (by omega)]
    · rw [if_neg (by omega), if_pos (by omega)]
  · have hn : ¬ (-2 ^ 63 ≤ n ∧ n ≤ 2 ^ 63) := by rwa [← hrange]
    rw [if_neg (by omega), if_neg (by omega)]

/-- What is integral to JsonCpp is an integer in the range of `Json::Int64` or of `Json::UInt64`. -/
theorem isIntegral_iff {v : Value} :
    v.isIntegral = true ↔ ∃ n, v.integer? = some n ∧ -2 ^ 63 ≤ n ∧ n < 2 ^ 64 := by
  cases v with
  | int n =>
    obtain ⟨n, hn⟩ := n
    simp only [isIntegral, integer?, Option.some.injEq, true_iff]
    exact ⟨n, rfl, by omega⟩
  | uint n =>
    obtain ⟨n, hn⟩ := n
    simp only [isIntegral, integer?, Option.some.injEq, true_iff]
    exact ⟨n, rfl, by omega⟩
  | real x => simp [isIntegral, integer?, Option.any_eq_true]
  | _ => simp [isIntegral, integer?]

theorem lt_or_ge_of_not_isIntegral {v : Value} (h : v.isIntegral = false) {n : ℤ}
    (hn : v.integer? = some n) : n < -2 ^ 63 ∨ 2 ^ 64 ≤ n := by
  by_contra hrange
  have hintegral : v.isIntegral = true := isIntegral_iff.mpr ⟨n, hn, by omega⟩
  rw [h] at hintegral
  exact Bool.noConfusion hintegral

theorem isInt64_iff {v : Value} :
    v.isInt64 = true ↔ ∃ n, v.integer? = some n ∧ -2 ^ 63 ≤ n ∧ n < 2 ^ 63 := by
  cases v with
  | int n =>
    obtain ⟨n, hn⟩ := n
    simp only [isInt64, integer?, Option.some.injEq, true_iff]
    exact ⟨n, rfl, by omega⟩
  | uint n =>
    obtain ⟨n, hn⟩ := n
    simp only [isInt64, integer?, Option.some.injEq, decide_eq_true_eq]
    constructor
    · intro h
      exact ⟨n, rfl, by omega⟩
    · rintro ⟨_, rfl, h⟩
      omega
  | real x => simp [isInt64, integer?, Option.any_eq_true]
  | _ => simp [isInt64, integer?]

/-- On an integer below `2 ^ 63`, `asInt64` is that integer. -/
theorem asInt64_of_lt {v : Value} {n : ℤ} (h : v.integer? = some n) (hlo : -2 ^ 63 ≤ n)
    (hhi : n < 2 ^ 63) : v.asInt64 = .ok n := by
  cases v with
  | int m =>
    obtain rfl := Option.some_injective _ h
    rfl
  | uint m =>
    obtain rfl := Option.some_injective _ h
    rw [asInt64, if_pos (by omega)]
  | real x =>
    rw [asInt64_real h, if_pos ⟨hlo, hhi⟩]
  | _ => simp [integer?] at h

/-- The real `2 ^ 63`, which `asInt64` takes for an `Int64`. -/
def Wraps : Value → Prop
  | .real x => x.toInt? = some (2 ^ 63)
  | _ => False

theorem Wraps.integer? {v : Value} (h : v.Wraps) : v.integer? = some (2 ^ 63) := by
  cases v with
  | real x => exact h
  | _ => exact h.elim

theorem Wraps.eq {v : Value} {n : ℤ} (h : v.Wraps) (hn : v.integer? = some n) : n = 2 ^ 63 :=
  Option.some_injective _ (hn.symm.trans h.integer?)

theorem asInt64_of_wraps {v : Value} (h : v.Wraps) : v.asInt64 = .ok (-2 ^ 63) := by
  cases v with
  | real x => rw [asInt64_real h, if_neg (by decide), if_pos rfl]
  | _ => exact h.elim

/-- On any other integer from `2 ^ 63` on it throws, although the value is integral below
`2 ^ 64`. -/
theorem asInt64_of_ge {v : Value} {n : ℤ} (h : v.integer? = some n) (hge : 2 ^ 63 ≤ n)
    (hwraps : ¬ v.Wraps) : ∃ what, v.asInt64 = .error what := by
  cases v with
  | int m =>
    obtain rfl := Option.some_injective _ h
    have := m.property
    omega
  | uint m =>
    obtain rfl := Option.some_injective _ h
    exact ⟨_, by rw [asInt64, if_neg (by omega)]⟩
  | real x =>
    have hne : n ≠ 2 ^ 63 := by
      rintro rfl
      exact hwraps h
    refine ⟨"double out of Int64 range", ?_⟩
    rw [asInt64_real h, if_neg (by omega), if_neg hne]
  | _ => simp [integer?] at h

/-- On a natural number below `2 ^ 64`, `asUInt64` is that number. -/
theorem asUInt64_of_lt {v : Value} {n : ℤ} (h : v.integer? = some n) (hlo : 0 ≤ n)
    (hhi : n < 2 ^ 64) : v.asUInt64 = .ok n := by
  cases v with
  | int m =>
    obtain rfl := Option.some_injective _ h
    rw [asUInt64, if_pos hlo]
  | uint m =>
    obtain rfl := Option.some_injective _ h
    rfl
  | real x =>
    rw [integer?] at h
    obtain ⟨-, -, hzero, hlimit⟩ := toInt?_ofInt_limits
    rw [asUInt64, if_pos ((inRange_iff h hzero hlimit).mpr ⟨hlo, by omega⟩), toLargest,
      FloatValue.truncate_of_toInt? h, if_pos ⟨hlo, by omega⟩]
  | _ => simp [integer?] at h

/-- On a natural number below `2 ^ 32`, `asUInt` is that number. -/
theorem asUInt_of_lt {v : Value} {n : ℤ} (h : v.integer? = some n) (hlo : 0 ≤ n)
    (hhi : n < 2 ^ 32) : v.asUInt = .ok n := by
  cases v with
  | int m =>
    obtain rfl := Option.some_injective _ h
    rw [asUInt, if_pos ⟨hlo, by omega⟩]
  | uint m =>
    obtain rfl := Option.some_injective _ h
    rw [asUInt, if_pos (by omega)]
  | real x =>
    rw [integer?] at h
    obtain ⟨-, -, hzero, -⟩ := toInt?_ofInt_limits
    have hlimit : (FloatValue.ofInt .binary64 (2 ^ 32 - 1)).toInt? = some (2 ^ 32 - 1) := by
      decide +kernel
    rw [asUInt, if_pos ((inRange_iff h hzero hlimit).mpr ⟨hlo, by omega⟩),
      FloatValue.truncate_of_toInt? h]
  | _ => simp [integer?] at h

/-- What `asInt64` makes of the number: the integer it is, or, of the real that wraps, the least
`Int64`, which it is not. -/
def ConvertsToInt64 (v : Value) (n : ℤ) : Prop := v.integer? = some n ∨ v.Wraps ∧ n = -2 ^ 63

theorem convertsToInt64_iff {v : Value} {n : ℤ} (h : ¬ v.Wraps) :
    v.ConvertsToInt64 n ↔ v.integer? = some n :=
  or_iff_left fun hwraps ↦ h hwraps.1

/-- The real that wraps is no integer that an `Int64` can be. -/
theorem Wraps.integer?_ne {v : Value} {n : ℤ} (h : v.Wraps) (hn : n < 2 ^ 63) :
    v.integer? ≠ some n :=
  fun heq ↦ absurd (h.eq heq) (by omega)

theorem Wraps.convertsToInt64_iff {v : Value} {n : ℤ} (h : v.Wraps) (hn : n < 2 ^ 63) :
    v.ConvertsToInt64 n ↔ n = -2 ^ 63 := by
  rw [ConvertsToInt64, or_iff_right (h.integer?_ne hn), and_iff_right h]

/-- An integer that is integral to JsonCpp and on which `asInt64` throws. -/
def ExceedsInt64 (v : Value) : Prop :=
  ¬ v.Wraps ∧ ∃ n, v.integer? = some n ∧ 2 ^ 63 ≤ n ∧ n < 2 ^ 64

theorem not_exceedsInt64 {v : Value} (h : v.isIntegral = false) : ¬ v.ExceedsInt64 := by
  rintro ⟨-, n, hn, hlo, hhi⟩
  have hrange := lt_or_ge_of_not_isIntegral h hn
  omega

/-- What `asInt64` is called on after `isIntegral`: a `Json::Int64`, the real that wraps, or an
integer on which it throws. -/
theorem int64_cases (v : Value) : (∃ n, v.integer? = some n ∧ -2 ^ 63 ≤ n ∧ n < 2 ^ 63) ∨
    v.Wraps ∨ v.ExceedsInt64 ∨ v.isIntegral = false := by
  cases hintegral : v.isIntegral with
  | false => exact Or.inr (Or.inr (Or.inr rfl))
  | true =>
    obtain ⟨n, hn, hlo, hhi⟩ := isIntegral_iff.mp hintegral
    by_cases hlt : n < 2 ^ 63
    · exact Or.inl ⟨n, hn, hlo, hlt⟩
    · by_cases hwraps : v.Wraps
      · exact Or.inr (Or.inl hwraps)
      · exact Or.inr (Or.inr (Or.inl ⟨hwraps, n, hn, by omega, hhi⟩))

/-- A number from zero on that `asInt64` returns is the number itself. -/
theorem asInt64_eq_ok_of_nonneg {v : Value} {n : ℤ} (hintegral : v.isIntegral = true)
    (h : v.asInt64 = .ok n) (hn : 0 ≤ n) : v.integer? = some n := by
  rcases v.int64_cases with ⟨m, hm, hlo, hhi⟩ | hwraps | ⟨hnot, m, hm, hlo, -⟩ | hfalse
  · rw [asInt64_of_lt hm hlo hhi] at h
    rw [hm, Except.ok.inj h]
  · rw [asInt64_of_wraps hwraps] at h
    have heq := Except.ok.inj h
    omega
  · obtain ⟨what, hwhat⟩ := asInt64_of_ge hm hlo hnot
    rw [hwhat] at h
    exact nomatch h
  · rw [hintegral] at hfalse
    exact Bool.noConfusion hfalse

/-- What `asInt64` throws on after `isIntegral` exceeds it. -/
theorem exceedsInt64_of_asInt64_eq_error {v : Value} {what : Str} (hintegral : v.isIntegral = true)
    (h : v.asInt64 = .error what) : v.ExceedsInt64 := by
  rcases v.int64_cases with ⟨m, hm, hlo, hhi⟩ | hwraps | hexceeds | hfalse
  · rw [asInt64_of_lt hm hlo hhi] at h
    exact nomatch h
  · rw [asInt64_of_wraps hwraps] at h
    exact nomatch h
  · exact hexceeds
  · rw [hintegral] at hfalse
    exact Bool.noConfusion hfalse

end Value

/-! ## Reading -/

/-- The settings of a `Json::CharReaderBuilder`, at the defaults `setDefaults` gives them. -/
structure CharReaderBuilder where
  collectComments : Bool := true
  allowComments : Bool := true
  allowTrailingCommas : Bool := true
  strictRoot : Bool := false
  allowDroppedNullPlaceholders : Bool := false
  allowNumericKeys : Bool := false
  allowSingleQuotes : Bool := false
  stackLimit : ℕ := 1000
  failIfExtra : Bool := false
  rejectDupKeys : Bool := false
  allowSpecialFloats : Bool := false
  skipBom : Bool := true

/-- What `CharReader::parse` does: yield a value, report errors, or throw. -/
inductive ParseResult
  | value (v : Value)
  | errors (text : Str)
  | throws (what : Str)

end Json
