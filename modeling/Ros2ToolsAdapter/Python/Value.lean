import Mathlib.Data.Nat.Digits.Defs
import Mathlib.Data.String.Basic

/-!
# Python values

The values a JSON document becomes, and what a few builtins make of them: `==`, `bool`, `str` and
`set(d) == fields`. A string is the list of its code points, and these need not be characters: a
byte of a command line or of a file name that is not UTF-8 becomes half a surrogate pair.

What a float is worth, and how a value that is neither a string nor an integer is spelled, is left
to the `Interpreter`. Nothing that is proved depends on it.
-/

namespace Python

/-- A `str`: its code points. -/
abbrev Text := List ℕ

/-- The exceptions that are told apart. -/
inductive PyExn
  | valueError (message : Text)
  | jsonDecodeError
  | unicodeError
  | calledProcessError
  | recursionError
  | osError
  deriving DecidableEq

/-- An exception of the standard library goes through, as one of what ends a script. -/
def raising {ε α : Type} (ends : PyExn → ε) (x : Except PyExn α) : Except ε α := x.mapError ends

theorem raising_eq_ok {ε α : Type} {ends : PyExn → ε} {x : Except PyExn α} {a : α} :
    raising ends x = .ok a ↔ x = .ok a := by
  cases x <;> simp [raising, Except.mapError]

namespace Text

/-- The code points of a literal. -/
def ofString (s : String) : Text := s.toList.map Char.toNat

instance : Coe String Text := ⟨ofString⟩

/-- The decimal digits of a number. -/
def decimal (n : ℕ) : Text := if n = 0 then [0x30] else (Nat.digits 10 n).reverse.map (0x30 + ·)

/-- `str` of an integer, which is refused when it would be longer than 4300 digits. -/
def ofInt (n : ℤ) : Except PyExn Text :=
  if 4300 < (decimal n.natAbs).length then
    .error (.valueError ("Exceeds the limit (4300 digits) for integer string conversion; " ++
      "use sys.set_int_max_str_digits() to increase the limit" : String))
  else .ok (if n < 0 then 0x2D :: decimal n.natAbs else decimal n.natAbs)

/-- Half of a surrogate pair, the half that comes first. -/
def HighSurrogate (c : ℕ) : Prop := 0xD800 ≤ c ∧ c < 0xDC00

instance (c : ℕ) : Decidable (HighSurrogate c) := inferInstanceAs (Decidable (_ ∧ _))

/-- What `os.fsdecode` makes of the bytes of an argument or of a file name: a byte that is not UTF-8
becomes one of the second halves of surrogate pairs, and the first halves never appear. -/
def Decoded (t : Text) : Prop := ∀ c ∈ t, c < 0x110000 ∧ ¬HighSurrogate c

instance (t : Text) : Decidable t.Decoded := inferInstanceAs (Decidable (∀ c ∈ t, _))

end Text

/-- What `json.loads` returns. A float is known by the token it was read from. -/
inductive Value
  | none
  | bool (b : Bool)
  | int (n : ℤ)
  | float (token : Text)
  | str (s : Text)
  | list (items : List Value)
  | dict (entries : List (Text × Value))

/-- What is taken from the interpreter as it is. -/
structure Interpreter where
  /-- How deeply containers of a JSON document may be nested. -/
  recursionLimit : ℕ
  four_le_recursionLimit : 4 ≤ recursionLimit
  floatEq : Text → Text → Bool
  floatEqInt : Text → ℤ → Bool
  floatTruth : Text → Bool
  floatRepr : Text → Text
  /-- `str` of what is neither a string nor an integer. -/
  strOf : Value → Except PyExn Text
  repr : Value → Except PyExn Text
  /-- Whether a bracket expression of a file-name pattern takes a character. -/
  bracket : Text → ℕ → Bool

namespace Value

variable (python : Interpreter)

mutual

/-- `==` -/
def eq : Value → Value → Bool
  | .none, .none => true
  | .bool a, .bool b => a == b
  | .bool a, .int n => (a.toNat : ℤ) == n
  | .bool a, .float x => python.floatEqInt x a.toNat
  | .int m, .bool b => m == (b.toNat : ℤ)
  | .int m, .int n => m == n
  | .int m, .float x => python.floatEqInt x m
  | .float x, .bool b => python.floatEqInt x b.toNat
  | .float x, .int n => python.floatEqInt x n
  | .float x, .float y => python.floatEq x y
  | .str s, .str t => s == t
  | .list xs, .list ys => eqItems xs ys
  | .dict xs, .dict ys => xs.length == ys.length && eqEntries xs ys
  | _, _ => false

def eqItems : List Value → List Value → Bool
  | [], [] => true
  | x :: xs, y :: ys => eq x y && eqItems xs ys
  | _, _ => false

/-- Every entry of the first dictionary has its like in the second. -/
def eqEntries : List (Text × Value) → List (Text × Value) → Bool
  | [], _ => true
  | (key, x) :: xs, ys => (ys.lookup key).any (fun y ↦ eq x y) && eqEntries xs ys

end

/-- `bool` -/
def truth : Value → Bool
  | .none => false
  | .bool b => b
  | .int n => n != 0
  | .float x => python.floatTruth x
  | .str s => !s.isEmpty
  | .list items => !items.isEmpty
  | .dict entries => !entries.isEmpty

/-- `str` -/
def toStr : Value → Except PyExn Text
  | .str s => .ok s
  | .int n => Text.ofInt n
  | v => python.strOf v

theorem eq_dict_dict (xs ys : List (Text × Value)) :
    eq python (.dict xs) (.dict ys) = (xs.length == ys.length && eqEntries python xs ys) := by
  rw [eq]

/-- Only a string is equal to a string. -/
theorem eq_str_iff (v : Value) (t : Text) : eq python v (.str t) = true ↔ v = .str t := by
  cases v <;> simp [eq]

theorem str_eq_iff (s : Text) (v : Value) : eq python (.str s) v = true ↔ v = .str s := by
  cases v <;> simp [eq, eq_comm (a := s)]

end Value

/-! ## Dictionaries with exact fields -/

/-- `set(entries) == fields` -/
def SameKeys (entries : List (Text × Value)) (fields : List Text) : Prop :=
  (∀ entry ∈ entries, entry.1 ∈ fields) ∧ ∀ field ∈ fields, field ∈ entries.map Prod.fst

instance (entries : List (Text × Value)) (fields : List Text) :
    Decidable (SameKeys entries fields) := inferInstanceAs (Decidable (_ ∧ _))

theorem SameKeys.of_map_fst {entries : List (Text × Value)} {fields : List Text}
    (h : entries.map Prod.fst = fields) : SameKeys entries fields := by
  subst h
  exact ⟨fun entry hentry ↦ List.mem_map.mpr ⟨entry, hentry, rfl⟩, fun _ hfield ↦ hfield⟩

/-- A dictionary whose keys are exactly the fields. -/
def Record (fields : List Text) := { entries : List (Text × Value) // SameKeys entries fields }

section Lookup

variable {β : Type} {key : Text} {v : β} {entries : List (Text × β)}

theorem isSome_lookup_of_mem (h : key ∈ entries.map Prod.fst) : (entries.lookup key).isSome := by
  induction entries with
  | nil => cases h
  | cons entry entries ih =>
    obtain ⟨key', v⟩ := entry
    by_cases hkey : key = key'
    · simp [hkey]
    · have hmem : key ∈ entries.map Prod.fst := by simpa [hkey] using h
      simpa [List.lookup_cons, beq_false_of_ne hkey] using ih hmem

theorem lookup_eq_some_iff_mem (hnodup : (entries.map Prod.fst).Nodup) :
    entries.lookup key = some v ↔ (key, v) ∈ entries := by
  induction entries with
  | nil => simp
  | cons entry entries ih =>
    obtain ⟨key', v'⟩ := entry
    rw [List.map_cons, List.nodup_cons] at hnodup
    by_cases hkey : key = key'
    · subst hkey
      have hnot : (key, v) ∉ entries := fun h ↦ hnodup.1 (List.mem_map.mpr ⟨_, h, rfl⟩)
      simp [hnot, @eq_comm _ v']
    · simpa [List.lookup_cons, beq_false_of_ne hkey, hkey] using ih hnodup.2

end Lookup

namespace Record

variable {fields : List Text}

/-- `isinstance(v, dict) and set(v) == fields` -/
def ofValue? (fields : List Text) : Value → Option (Record fields)
  | .dict entries => if h : SameKeys entries fields then some ⟨entries, h⟩ else none
  | _ => none

def toValue (r : Record fields) : Value := .dict r.1

/-- `r[key]` -/
def get (r : Record fields) (key : Text) (hkey : key ∈ fields := by decide) : Value :=
  (r.1.lookup key).get (isSome_lookup_of_mem (r.2.2 key hkey))

theorem lookup_eq (r : Record fields) {key : Text} (hkey : key ∈ fields) :
    r.1.lookup key = some (r.get key hkey) :=
  (Option.some_get _).symm

theorem get_eq_of_mem (r : Record fields) (hnodup : (r.1.map Prod.fst).Nodup) {key : Text}
    (hkey : key ∈ fields) {v : Value} (h : (key, v) ∈ r.1) : r.get key hkey = v := by
  have hlookup := (lookup_eq_some_iff_mem hnodup).mpr h
  rw [r.lookup_eq hkey] at hlookup
  exact Option.some.inj hlookup

theorem ofValue?_eq_some_iff {v : Value} {r : Record fields} :
    ofValue? fields v = some r ↔ v = r.toValue := by
  constructor
  · intro h
    cases v with
    | dict entries =>
      rw [ofValue?] at h
      split at h
      · obtain rfl := Option.some.inj h
        rfl
      · cases h
    | _ => cases h
  · rintro rfl
    exact dif_pos r.2

end Record

end Python
