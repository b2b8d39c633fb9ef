import Ros2ToolsAdapter.Codec.Decode

/-!
# What the decoder does to a leaf

The decoder walks the table of members and the JSON value together and stops at the first thing it
does not like. Of each part of the walk three things are to be said: when it returns, what the field
holds afterwards, and what it can throw. `Does` says the three of one computation, and this module
says them of `assignScalar`.

What a leaf is to hold and what `assignScalar` puts into it are two relations, `Holds` and `Stores`.
They differ in one number at one type: an `int64` cannot hold the real `2 ^ 63`, and `assignScalar`
stores its least value for it.

Almost every exception is a permanent `ToolsError`. The one that is not comes from JsonCpp, at a
signed field whose JSON value is an integer too large for `Json::Int64`, because `isIntegral` holds
of it and `asInt64` throws. That is an overflow below, and the exception is blamed on it. The real
`2 ^ 63` is as large and does not throw.
-/

namespace Ros2ToolsAdapter

open Json
open Except (bind_eq_ok bind_eq_error)

/-! ## One computation -/

/-- How an exception is blamed: permanent, unless the walk overflowed, and then not a `ToolsError`
at all. -/
def Exn.Blames (overflows : Prop) (e : Exn) : Prop :=
  e.IsPermanent ∧ ¬ overflows ∨ (∃ what, e = .std what) ∧ overflows

/-- The computation returns exactly when the input fits, with a result that holds what the input
says, and the exception it throws otherwise is blamed on an overflow exactly when there is one. -/
structure Does {α : Type} (x : Except Exn α) (fits overflows : Prop) (holds : α → Prop) :
    Prop where
  returns : fits → ∃ a, x = .ok a
  sound : ∀ a, x = .ok a → fits ∧ holds a
  raises : Raises (Exn.Blames overflows) x
  disjoint : fits → ¬ overflows

namespace Does

variable {α β γ : Type} {x : Except Exn α} {y : Except Exn β} {F F' O O' : Prop}
  {H : α → Prop} {H' : β → Prop}

theorem congr {K : α → Prop} (h : Does x F O H) (hF : F ↔ F') (hO : O ↔ O')
    (hH : ∀ a, F → H a → K a) : Does x F' O' K where
  returns h' := h.returns (hF.mpr h')
  sound a ha := ⟨hF.mp (h.sound a ha).1, hH a (h.sound a ha).1 (h.sound a ha).2⟩
  raises := by
    rw [← propext hO]
    exact h.raises
  disjoint h' hO' := h.disjoint (hF.mpr h') (hO.mpr hO')

theorem pure {a : α} (h : H a) : Does (pure a) True False H where
  returns _ := ⟨a, rfl⟩
  sound a' ha' := by
    obtain rfl := Except.ok.inj ha'
    exact ⟨trivial, h⟩
  raises := Raises.ok a
  disjoint _ := id

/-- A permanent error. -/
theorem permanent (code : String) (message : Str) :
    Does (.error (permanentError code message) : Except Exn α) False False H where
  returns := False.elim
  sound _ ha := nomatch ha
  raises := Raises.error.mpr (Or.inl ⟨Exn.isPermanent_permanentError code message, id⟩)
  disjoint := False.elim

/-- An exception of a library. -/
theorem std (what : Str) : Does (.error (.std what) : Except Exn α) False True H where
  returns := False.elim
  sound _ ha := nomatch ha
  raises := Raises.error.mpr (Or.inr ⟨⟨what, rfl⟩, trivial⟩)
  disjoint := False.elim

/-- An overflow is thrown as an exception that is no `ToolsError`. -/
theorem throws (h : Does x F O H) (hO : O) : ∃ what, x = .error (.std what) := by
  cases hx : x with
  | ok a => exact absurd hO (h.disjoint (h.sound a hx).1)
  | error e =>
    rcases h.raises e hx with ⟨-, hnot⟩ | ⟨⟨what, rfl⟩, -⟩
    · exact absurd hO hnot
    · exact ⟨what, rfl⟩

/-- Without an overflow whatever is thrown is permanent. -/
theorem isPermanent (h : Does x F O H) (hO : ¬ O) : Raises Exn.IsPermanent x :=
  h.raises.mono fun _ he ↦ he.elim And.left fun he ↦ absurd he.2 hO

/-- A check before the computation. -/
theorem guard {g : Except Exn Unit} {c : Prop} (hok : g = .ok () ↔ c)
    (hraises : Raises Exn.IsPermanent g) (h : c → Does x F O H) :
    Does (do g; x) (c ∧ F) (c ∧ O) H := by
  by_cases hc : c
  · rw [hok.mpr hc]
    exact (h hc).congr (by simp [hc]) (by simp [hc]) fun _ _ ha ↦ ha
  · obtain ⟨e, he⟩ : ∃ e, g = .error e := by
      cases g with
      | error e => exact ⟨e, rfl⟩
      | ok u => exact absurd (hok.mp rfl) hc
    rw [he]
    exact {
      returns := fun h ↦ absurd h.1 hc
      sound := fun _ ha ↦ nomatch ha
      raises := Raises.error.mpr (Or.inl ⟨hraises e he, fun h ↦ hc h.1⟩)
      disjoint := fun h ↦ absurd h.1 hc }

theorem check {c : Prop} [Decidable c] (code : String) (message : Str) (h : ¬ c → Does x F O H) :
    Does (do throwIf c (permanentError code message); x) (¬ c ∧ F) (¬ c ∧ O) H :=
  guard throwIf_eq_ok (Raises.throwIf fun _ ↦ Exn.isPermanent_permanentError _ _) h

/-- Two computations in turn. The second is not reached unless the first returns, so an overflow is
one of the first, or one of the second where the input of the first fits. -/
theorem pair (f : α → β → γ) (hx : Does x F O H) (hy : Does y F' O' H') :
    Does (do let a ← x; let b ← y; Pure.pure (f a b)) (F ∧ F') (O ∨ F ∧ O')
      (fun c ↦ ∃ a b, H a ∧ H' b ∧ c = f a b) where
  returns := by
    rintro ⟨hF, hF'⟩
    obtain ⟨a, rfl⟩ := hx.returns hF
    obtain ⟨b, rfl⟩ := hy.returns hF'
    exact ⟨f a b, rfl⟩
  sound c hc := by
    obtain ⟨a, ha, hc⟩ := bind_eq_ok.mp hc
    obtain ⟨b, hb, hc⟩ := bind_eq_ok.mp hc
    obtain ⟨hF, hH⟩ := hx.sound a ha
    obtain ⟨hF', hH'⟩ := hy.sound b hb
    exact ⟨⟨hF, hF'⟩, a, b, hH, hH', (Except.ok.inj hc).symm⟩
  raises := by
    intro e he
    rcases bind_eq_error.mp he with hxe | ⟨a, ha, he⟩
    -- the first computation threw, so what the second would do does not count
    · have hF : ¬ F := by
        intro hF
        obtain ⟨a, ha⟩ := hx.returns hF
        rw [hxe] at ha
        exact nomatch ha
      simpa [hF] using hx.raises e hxe
    · have hF : F := (hx.sound a ha).1
      rcases bind_eq_error.mp he with hye | ⟨b, -, hc⟩
      · simpa [hF, hx.disjoint hF] using hy.raises e hye
      · exact nomatch hc
  disjoint := by
    rintro ⟨hF, hF'⟩ (hO | ⟨-, hO'⟩)
    · exact hx.disjoint hF hO
    · exact hy.disjoint hF' hO'

end Does

/-! ## Leaves -/

/-- The integer types the decoder reads through `asInt64`. -/
def ScalarType.isSigned : ScalarType → Bool
  | .int8 | .int16 | .int32 | .int64 => true
  | _ => false

/-- A number as a value of the format: its double is in range, and is converted. -/
def HoldsFloat (f : FloatFormat) (v : Value) (x : FloatValue f) : Prop :=
  v.isNumeric = true ∧ v.asDouble.isFinite = true ∧
    FloatValue.absGt v.asDouble (.convert .binary64 (.maxFinite f)) = false ∧
    x = .convert f v.asDouble

/-- What a JSON value has to do with the leaf of a message, for a field of this type with this
string bound. -/
abbrev LeafRelation := ℕ → (t : ScalarType) → Value → t.Val → Prop

/-- The leaf `x` is what the JSON value says, as a field of this type with this string bound. -/
def Holds (stringUpperBound : ℕ) : (t : ScalarType) → Value → t.Val → Prop
  | .bool, v, x => v = .boolean x
  | .float, v, x => HoldsFloat .binary32 v x
  | .double, v, x => HoldsFloat .binary64 v x
  | .longDouble, v, x => HoldsFloat .extended80 v x
  | .char, v, x | .octet, v, x | .uint8, v, x | .uint16, v, x | .uint32, v, x | .uint64, v, x
  | .int8, v, x | .int16, v, x | .int32, v, x | .int64, v, x => v.integer? = some x.val
  | .string, v, x => v = .string x ∧ (stringUpperBound ≠ 0 → x.length ≤ stringUpperBound)
  | .wstring, v, x => ∃ s, v = .string s ∧ (∀ character ∈ s, character ≤ 0x7f) ∧
      (stringUpperBound ≠ 0 → s.length ≤ stringUpperBound) ∧ x = s.map UInt8.toUInt16

/-- The leaf `x` is what `assignScalar` makes of the JSON value: what the value says, and in an
`int64` also what `asInt64` makes of the real that wraps. -/
def Stores (stringUpperBound : ℕ) : (t : ScalarType) → Value → t.Val → Prop
  | .int64, v, x => v.ConvertsToInt64 x.val
  | t, v, x => Holds stringUpperBound t v x

/-- Where the two relations differ. -/
def ScalarType.Wraps (t : ScalarType) (v : Value) : Prop := t = .int64 ∧ v.Wraps

section Relations

variable {bound : ℕ} {t : ScalarType} {v : Value} {x : t.Val}

theorem Holds.stores (h : Holds bound t v x) : Stores bound t v x := by
  cases t with
  | int64 => exact Or.inl h
  | _ => exact h

/-- What is stored is what the value says, unless it is the number that wraps. -/
theorem Stores.holds_iff (h : Stores bound t v x) : Holds bound t v x ↔ ¬ t.Wraps v := by
  cases t with
  | int64 =>
    rw [ScalarType.Wraps, and_iff_right rfl]
    constructor
    · intro hholds hwraps
      exact hwraps.integer?_ne (by have := x.property; omega) hholds
    · exact fun hnot ↦ (Value.convertsToInt64_iff hnot).mp h
  | _ => exact iff_of_true h fun hwraps ↦ by cases hwraps.1

/-- The number that wraps is stored in an `int64`, as its least value. -/
theorem ScalarType.Wraps.stores (h : t.Wraps v) : ∃ x, Stores bound t v x := by
  obtain ⟨rfl, hwraps⟩ := h
  exact ⟨⟨-2 ^ 63, by decide⟩, Or.inr ⟨hwraps, rfl⟩⟩

theorem exists_holds_iff : (∃ x, Holds bound t v x) ↔ (∃ x, Stores bound t v x) ∧ ¬ t.Wraps v := by
  constructor
  · rintro ⟨x, hx⟩
    exact ⟨⟨x, hx.stores⟩, hx.stores.holds_iff.mp hx⟩
  · rintro ⟨⟨x, hx⟩, hnot⟩
    exact ⟨x, hx.holds_iff.mpr hnot⟩

theorem exists_stores_iff : (∃ x, Stores bound t v x) ↔ (∃ x, Holds bound t v x) ∨ t.Wraps v := by
  rw [exists_holds_iff]
  constructor
  · exact fun h ↦ (em (t.Wraps v)).elim Or.inr fun hnot ↦ Or.inl ⟨h, hnot⟩
  · exact fun h ↦ h.elim And.left fun hwraps ↦ hwraps.stores

end Relations

section Integers

variable {v : Value} {lo hi n : ℤ} {path : Str}

/-- `assignSigned` on a value that is some `Json::Int64`. -/
theorem assignSigned_of_lt (hn : v.integer? = some n) (hlo : -2 ^ 63 ≤ n) (hhi : n < 2 ^ 63) :
    assignSigned lo hi v path = if h : lo ≤ n ∧ n ≤ hi then .ok ⟨n, h⟩
      else .error (permanentError "message_field_out_of_range" (path ++ " is out of range")) := by
  have hintegral : v.isIntegral = true := Value.isIntegral_iff.mpr ⟨n, hn, hlo, by omega⟩
  rw [assignSigned, hintegral, Value.asInt64_of_lt hn hlo hhi]
  rfl

/-- `assignSigned` on the real that wraps. -/
theorem assignSigned_of_wraps (h : v.Wraps) :
    assignSigned lo hi v path = if h : lo ≤ -2 ^ 63 ∧ -2 ^ 63 ≤ hi then .ok ⟨-2 ^ 63, h⟩
      else .error (permanentError "message_field_out_of_range" (path ++ " is out of range")) := by
  have hintegral : v.isIntegral = true :=
    Value.isIntegral_iff.mpr ⟨2 ^ 63, h.integer?, by decide, by decide⟩
  rw [assignSigned, hintegral, Value.asInt64_of_wraps h]
  rfl

private theorem assignSigned_of_not_isIntegral (h : v.isIntegral = false) :
    assignSigned lo hi v path =
      .error (permanentError "invalid_message_field" (path ++ " must be an integer")) := by
  rw [assignSigned, h]
  rfl

private theorem assignSigned_of_exceedsInt64 (h : v.ExceedsInt64) :
    ∃ what, assignSigned lo hi v path = .error (.std what) := by
  obtain ⟨hwraps, n, hn, hlo, hhi⟩ := h
  have hintegral : v.isIntegral = true := Value.isIntegral_iff.mpr ⟨n, hn, by omega, hhi⟩
  obtain ⟨what, hwhat⟩ := Value.asInt64_of_ge hn hlo hwraps
  refine ⟨what, ?_⟩
  rw [assignSigned, hintegral, hwhat]
  rfl

theorem assignSigned_eq_ok (hlo : -2 ^ 63 ≤ lo) (hhi : hi ≤ 2 ^ 63 - 1) {x : IntRange lo hi} :
    assignSigned lo hi v path = .ok x ↔ v.ConvertsToInt64 x.val := by
  have hx := x.property
  -- `asInt64` returns the number, wraps it, throws, or is not reached
  rcases v.int64_cases with ⟨n, hn, hnlo, hnhi⟩ | hwraps | hexceeds | hintegral
  · have hnot : ¬ v.Wraps := by
      intro hwraps
      have heq := hwraps.eq hn
      omega
    rw [assignSigned_of_lt hn hnlo hnhi, Value.convertsToInt64_iff hnot, hn, Option.some_inj]
    split
    · rw [Except.ok.injEq, Subtype.ext_iff]
    · simp only [reduceCtorEq, false_iff]
      omega
  · rw [assignSigned_of_wraps hwraps, hwraps.convertsToInt64_iff (by omega)]
    split
    · rw [Except.ok.injEq, Subtype.ext_iff, eq_comm]
    · simp only [reduceCtorEq, false_iff]
      omega
  · obtain ⟨what, hwhat⟩ : ∃ what, assignSigned lo hi v path = .error (.std what) :=
      assignSigned_of_exceedsInt64 hexceeds
    obtain ⟨hnot, n, hn, hnlo, -⟩ := hexceeds
    rw [hwhat, Value.convertsToInt64_iff hnot, hn, Option.some_inj]
    simp only [reduceCtorEq, false_iff]
    omega
  · rw [assignSigned_of_not_isIntegral hintegral]
    simp only [reduceCtorEq, false_iff]
    rintro (hn | ⟨hwraps, -⟩)
    · have hrange := Value.lt_or_ge_of_not_isIntegral hintegral hn
      omega
    · have hrange := Value.lt_or_ge_of_not_isIntegral hintegral hwraps.integer?
      omega

theorem assignSigned_raises :
    Raises (Exn.Blames v.ExceedsInt64) (assignSigned lo hi v path) := by
  rcases v.int64_cases with ⟨n, hn, hnlo, hnhi⟩ | hwraps | hexceeds | hintegral
  · rw [assignSigned_of_lt hn hnlo hnhi]
    split
    · exact Raises.ok _
    · refine Raises.error.mpr (Or.inl ⟨Exn.isPermanent_permanentError _ _, ?_⟩)
      rintro ⟨-, n', hn', hlo', -⟩
      obtain rfl := Option.some_injective _ (hn.symm.trans hn')
      omega
  · rw [assignSigned_of_wraps hwraps]
    split
    · exact Raises.ok _
    · refine Raises.error.mpr (Or.inl ⟨Exn.isPermanent_permanentError _ _, ?_⟩)
      exact fun hexceeds ↦ hexceeds.1 hwraps
  · obtain ⟨what, hwhat⟩ : ∃ what, assignSigned lo hi v path = .error (.std what) :=
      assignSigned_of_exceedsInt64 hexceeds
    rw [hwhat]
    exact Raises.error.mpr (Or.inr ⟨⟨what, rfl⟩, hexceeds⟩)
  · rw [assignSigned_of_not_isIntegral hintegral]
    exact Raises.error.mpr
      (Or.inl ⟨Exn.isPermanent_permanentError _ _, Value.not_exceedsInt64 hintegral⟩)

/-- The test for a negative number never throws: where it calls `asInt64`, `isInt64` holds. -/
theorem isNegativeInt64_eq (v : Value) : ∃ negative, isNegativeInt64 v = .ok negative ∧
    (negative = true ↔ ∃ n, v.integer? = some n ∧ -2 ^ 63 ≤ n ∧ n < 0) := by
  rw [isNegativeInt64]
  cases hint : v.isInt64 with
  | false =>
    refine ⟨false, rfl, ?_⟩
    simp only [Bool.false_eq_true, false_iff]
    rintro ⟨n, hn, hlo, hhi⟩
    have : v.isInt64 = true := Value.isInt64_iff.mpr ⟨n, hn, hlo, by omega⟩
    rw [hint] at this
    exact Bool.noConfusion this
  | true =>
    obtain ⟨n, hn, hlo, hhi⟩ := Value.isInt64_iff.mp hint
    refine ⟨decide (n < 0), ?_, ?_⟩
    · rw [if_pos rfl, Value.asInt64_of_lt hn hlo hhi]
      rfl
    · rw [decide_eq_true_iff]
      constructor
      · exact fun h ↦ ⟨n, hn, hlo, h⟩
      · rintro ⟨n', hn', -, h⟩
        obtain rfl := Option.some_injective _ (hn.symm.trans hn')
        exact h

/-- Reading an unsigned integer yields the integer, if it is a `Json::UInt64`, and otherwise throws
the error it was given: `asUInt64` is called only where it returns. -/
theorem readUnsigned_cases (v : Value) (e : Exn) :
    (∃ n, v.integer? = some n ∧ 0 ≤ n ∧ n < 2 ^ 64 ∧ readUnsigned v e = .ok n) ∨
      (¬ ∃ n, v.integer? = some n ∧ 0 ≤ n ∧ n < 2 ^ 64) ∧ readUnsigned v e = .error e := by
  obtain ⟨negative, hneg, hiff⟩ := isNegativeInt64_eq v
  cases hintegral : v.isIntegral with
  | false =>
    refine Or.inr ⟨?_, by rw [readUnsigned, hintegral]; rfl⟩
    rintro ⟨n, hn, hlo, hhi⟩
    have hrange := Value.lt_or_ge_of_not_isIntegral hintegral hn
    omega
  | true =>
    obtain ⟨n, hn, hlo, hhi⟩ := Value.isIntegral_iff.mp hintegral
    -- a number that is not negative is at most a `Json::UInt64`, and `asUInt64` takes it
    by_cases hpos : 0 ≤ n
    · have hfalse : negative = false := by
        rw [← Bool.not_eq_true, hiff]
        rintro ⟨n', hn', -, hlt⟩
        obtain rfl := Option.some_injective _ (hn.symm.trans hn')
        omega
      refine Or.inl ⟨n, hn, hpos, hhi, ?_⟩
      rw [readUnsigned, hintegral, hneg, hfalse, Value.asUInt64_of_lt hn hpos hhi]
      rfl
    · have htrue : negative = true := hiff.mpr ⟨n, hn, hlo, by omega⟩
      refine Or.inr ⟨?_, by rw [readUnsigned, hintegral, hneg, htrue]; rfl⟩
      rintro ⟨n', hn', hpos', -⟩
      obtain rfl := Option.some_injective _ (hn.symm.trans hn')
      exact hpos hpos'

theorem readUnsigned_eq_ok {e : Exn} :
    readUnsigned v e = .ok n ↔ v.integer? = some n ∧ 0 ≤ n ∧ n < 2 ^ 64 := by
  rcases readUnsigned_cases v e with ⟨m, hm, hlo, hhi, hread⟩ | ⟨hnot, hread⟩
  · rw [hread, hm, Except.ok.injEq, Option.some_inj]
    constructor
    · rintro rfl
      exact ⟨rfl, hlo, hhi⟩
    · exact fun h ↦ h.1
  · rw [hread]
    simp only [reduceCtorEq, false_iff]
    exact fun h ↦ hnot ⟨n, h⟩

theorem readUnsigned_raises {P : Exn → Prop} {e : Exn} (he : P e) :
    Raises P (readUnsigned v e) := by
  rcases readUnsigned_cases v e with ⟨m, -, -, -, hread⟩ | ⟨-, hread⟩
  · rw [hread]
    exact Raises.ok m
  · rw [hread]
    exact Raises.error.mpr he

theorem assignUnsigned_eq_ok (hhi : hi ≤ 2 ^ 64 - 1) {x : IntRange 0 hi} :
    assignUnsigned hi v path = .ok x ↔ v.integer? = some x.val := by
  have hx := x.property
  simp only [assignUnsigned, bind_eq_ok, readUnsigned_eq_ok]
  constructor
  · rintro ⟨n, ⟨hn, -, -⟩, hresult⟩
    split at hresult
    · rw [hn, ← Except.ok.inj hresult]
    · exact nomatch hresult
  · intro hn
    exact ⟨x.val, ⟨hn, by omega, by omega⟩, dif_pos hx⟩

theorem assignUnsigned_raises : Raises Exn.IsPermanent (assignUnsigned hi v path) := by
  refine Raises.bind (readUnsigned_raises (Exn.isPermanent_permanentError _ _)) ?_
  intro n _
  split
  · exact Raises.ok _
  · exact Raises.error.mpr (Exn.isPermanent_permanentError _ _)

end Integers

section Others

variable {v : Value} {path : Str}

theorem assignFloating_eq_ok {f : FloatFormat} {x : FloatValue f} :
    assignFloating f v path = .ok x ↔ HoldsFloat f v x := by
  rw [assignFloating, HoldsFloat]
  simp only [bind_eq_ok, throwIf_eq_ok, exists_const, not_or, Bool.not_eq_false,
    Bool.not_eq_true]
  constructor
  · rintro ⟨hnumeric, ⟨hfinite, hrange⟩, hx⟩
    exact ⟨hnumeric, hfinite, hrange, (Except.ok.inj hx).symm⟩
  · rintro ⟨hnumeric, hfinite, hrange, rfl⟩
    exact ⟨hnumeric, ⟨hfinite, hrange⟩, rfl⟩

theorem assignFloating_raises {f : FloatFormat} :
    Raises Exn.IsPermanent (assignFloating f v path) :=
  Raises.bind (Raises.throwIf fun _ ↦ Exn.isPermanent_permanentError _ _) fun _ _ ↦
    Raises.bind (Raises.throwIf fun _ ↦ Exn.isPermanent_permanentError _ _) fun _ _ ↦ Raises.ok _

theorem assignBool_eq_ok {b : Bool} : assignBool v path = .ok b ↔ v = .boolean b := by
  simp only [assignBool, bind_eq_ok, throwIf_eq_ok, exists_const, Bool.not_eq_false,
    Value.isBool_iff]
  constructor
  · rintro ⟨⟨b', rfl⟩, hb⟩
    rw [← Except.ok.inj hb, Value.asBool]
  · rintro rfl
    exact ⟨⟨b, rfl⟩, rfl⟩

theorem assignBool_raises : Raises Exn.IsPermanent (assignBool v path) :=
  Raises.bind (Raises.throwIf fun _ ↦ Exn.isPermanent_permanentError _ _) fun _ _ ↦ Raises.ok _

theorem assignString_eq_ok {bound : ℕ} {x : Str} :
    assignString bound v path = .ok x ↔ v = .string x ∧ (bound ≠ 0 → x.length ≤ bound) := by
  simp only [assignString, bind_eq_ok, throwIf_eq_ok, exists_const, Bool.not_eq_false,
    Value.isString_iff, not_and, not_lt]
  constructor
  · rintro ⟨⟨s, rfl⟩, hbound, hx⟩
    obtain rfl := Except.ok.inj hx
    exact ⟨rfl, hbound⟩
  · rintro ⟨rfl, hbound⟩
    exact ⟨⟨x, rfl⟩, hbound, rfl⟩

theorem assignString_raises {bound : ℕ} : Raises Exn.IsPermanent (assignString bound v path) :=
  Raises.bind (Raises.throwIf fun _ ↦ Exn.isPermanent_permanentError _ _) fun _ _ ↦
    Raises.bind (Raises.throwIf fun _ ↦ Exn.isPermanent_permanentError _ _) fun _ _ ↦ Raises.ok _

theorem assignWString_eq_ok {bound : ℕ} {x : WStr} :
    assignWString bound v path = .ok x ↔ ∃ s, v = .string s ∧ (∀ character ∈ s, character ≤ 0x7f) ∧
      (bound ≠ 0 → s.length ≤ bound) ∧ x = s.map UInt8.toUInt16 := by
  simp only [assignWString, bind_eq_ok, throwIf_eq_ok, exists_const, Bool.not_eq_false,
    Value.isString_iff, not_and, not_lt, not_exists, List.length_map, List.any_eq_true,
    decide_eq_true_eq]
  constructor
  · rintro ⟨⟨s, rfl⟩, hascii, hbound, hx⟩
    exact ⟨s, rfl, fun c hc ↦ UInt8.not_lt.mp (hascii c hc), hbound, (Except.ok.inj hx).symm⟩
  · rintro ⟨s, rfl, hascii, hbound, rfl⟩
    exact ⟨⟨s, rfl⟩, fun c hc ↦ UInt8.not_lt.mpr (hascii c hc), hbound, rfl⟩

theorem assignWString_raises {bound : ℕ} :
    Raises Exn.IsPermanent (assignWString bound v path) :=
  Raises.bind (Raises.throwIf fun _ ↦ Exn.isPermanent_permanentError _ _) fun _ _ ↦
    Raises.bind (Raises.throwIf fun _ ↦ Exn.isPermanent_permanentError _ _) fun _ _ ↦
      Raises.bind (Raises.throwIf fun _ ↦ Exn.isPermanent_permanentError _ _) fun _ _ ↦
        Raises.ok _

end Others

theorem assignScalar_eq_ok {bound : ℕ} {t : ScalarType} {v : Value} {path : Str} {x : t.Val} :
    assignScalar bound t v path = .ok x ↔ Stores bound t v x := by
  cases t with
  | bool => exact assignBool_eq_ok
  | float | double | longDouble => exact assignFloating_eq_ok
  | char | octet | uint8 | uint16 | uint32 | uint64 => exact assignUnsigned_eq_ok (by decide)
  | int64 => exact assignSigned_eq_ok (by decide) (by decide)
  -- on a narrower type the range check comes after the conversion, and the least `Int64` fails it
  | int8 | int16 | int32 =>
    refine (assignSigned_eq_ok (by decide) (by decide)).trans (or_iff_left ?_)
    rintro ⟨-, hx⟩
    have hrange := x.property
    omega
  | string => exact assignString_eq_ok
  | wstring => exact assignWString_eq_ok

/-- A signed field is the only leaf with an overflow. -/
theorem assignScalar_raises {bound : ℕ} {t : ScalarType} {v : Value} {path : Str} :
    Raises (Exn.Blames (t.isSigned = true ∧ v.ExceedsInt64)) (assignScalar bound t v path) := by
  have hunsigned : ∀ {α : Type} {x : Except Exn α}, t.isSigned = false →
      Raises Exn.IsPermanent x → Raises (Exn.Blames (t.isSigned = true ∧ v.ExceedsInt64)) x :=
    fun ht hx ↦ hx.mono fun e he ↦ Or.inl ⟨he, fun h ↦ by simp [ht] at h⟩
  have hsigned : ∀ {α : Type} {x : Except Exn α}, t.isSigned = true →
      Raises (Exn.Blames v.ExceedsInt64) x →
      Raises (Exn.Blames (t.isSigned = true ∧ v.ExceedsInt64)) x := by
    intro α x ht hx
    simpa [ht] using hx
  cases t with
  | bool => exact hunsigned rfl assignBool_raises
  | float | double | longDouble => exact hunsigned rfl assignFloating_raises
  | char | octet | uint8 | uint16 | uint32 | uint64 => exact hunsigned rfl assignUnsigned_raises
  | int8 | int16 | int32 | int64 => exact hsigned rfl assignSigned_raises
  | string => exact hunsigned rfl assignString_raises
  | wstring => exact hunsigned rfl assignWString_raises

/-- What is stored in a field of a signed type, `asInt64` has returned. -/
theorem Stores.not_exceedsInt64 {bound : ℕ} {t : ScalarType} {v : Value} {x : t.Val}
    (h : Stores bound t v x) (ht : t.isSigned = true) : ¬ v.ExceedsInt64 := by
  rintro ⟨hnot, n, hn, hlo, -⟩
  -- the bound of the field's own type is what keeps the number out of the overflow
  have key : ∀ m : ℤ, v.integer? = some m → m < 2 ^ 63 → False := by
    intro m hm hlt
    obtain rfl := Option.some_injective _ (hn.symm.trans hm)
    omega
  cases t with
  | int8 | int16 | int32 => exact key _ h (by have := x.property; omega)
  | int64 => exact key _ ((Value.convertsToInt64_iff hnot).mp h) (by have := x.property; omega)
  | _ => simp [ScalarType.isSigned] at ht

theorem assignScalar_does (bound : ℕ) (t : ScalarType) (v : Value) (path : Str) :
    Does (assignScalar bound t v path) (∃ x, Stores bound t v x)
      (t.isSigned = true ∧ v.ExceedsInt64) (Stores bound t v) where
  returns := fun ⟨x, hx⟩ ↦ ⟨x, assignScalar_eq_ok.mpr hx⟩
  sound x hx := ⟨⟨x, assignScalar_eq_ok.mp hx⟩, assignScalar_eq_ok.mp hx⟩
  raises := assignScalar_raises
  disjoint := fun ⟨_, hx⟩ ⟨ht, hexceeds⟩ ↦ hx.not_exceedsInt64 ht hexceeds

theorem assignUntyped_does (why : Untyped) (path : Str) {H : Unit → Prop} :
    Does (assignUntyped why path) False False H := by
  cases why <;> exact Does.permanent _ _

/-! ## Signed fields

A signed field is to store a number exactly when the number is an integer of its type, and then that
integer. The one number for which this fails is the real `2 ^ 63`, and the one type `int64`: on a
narrower type the range check, which comes after the conversion, still catches it. -/

/-- The types `assignSigned` is instantiated at. -/
inductive SignedType
  | int8
  | int16
  | int32
  | int64
  deriving DecidableEq

namespace SignedType

@[reducible] def scalar : SignedType → ScalarType
  | .int8 => .int8
  | .int16 => .int16
  | .int32 => .int32
  | .int64 => .int64

def bits : SignedType → ℕ
  | .int8 => 8
  | .int16 => 16
  | .int32 => 32
  | .int64 => 64

/-- `std::numeric_limits<T>::min()`. -/
def min (t : SignedType) : ℤ := -2 ^ (t.bits - 1)

/-- `std::numeric_limits<T>::max()`. -/
def max (t : SignedType) : ℤ := 2 ^ (t.bits - 1) - 1

/-- The integer in a field. -/
def value : (t : SignedType) → t.scalar.Val → ℤ
  | .int8, x | .int16, x | .int32, x | .int64, x => x.val

end SignedType

/-- The field stores the number exactly when it is an integer of the type, and then that integer. -/
structure StoresExactly (t : SignedType) (v : Value) (store : Except Exn t.scalar.Val) : Prop where
  stores : (∃ x, store = .ok x) ↔ ∃ n, v.integer? = some n ∧ t.min ≤ n ∧ n ≤ t.max
  exact : ∀ x, store = .ok x → v.integer? = some (t.value x)

section Signed

variable {v : Value} {lo hi : ℤ} {path : Str}

/-- A number that does not wrap is stored exactly when it is in range. -/
theorem assignSigned_stores_iff (hlo : -2 ^ 63 ≤ lo) (hhi : hi ≤ 2 ^ 63 - 1) (hv : ¬ v.Wraps) :
    (∃ x, assignSigned lo hi v path = .ok x) ↔ ∃ n, v.integer? = some n ∧ lo ≤ n ∧ n ≤ hi := by
  simp only [assignSigned_eq_ok hlo hhi, Value.convertsToInt64_iff hv]
  constructor
  · rintro ⟨x, hx⟩
    exact ⟨x.val, hx, x.property⟩
  · rintro ⟨n, hn, hrange⟩
    exact ⟨⟨n, hrange⟩, hn⟩

/-- The real that wraps is stored by a type that has the least `Json::Int64`. -/
theorem assignSigned_wraps_iff (hlo : -2 ^ 63 ≤ lo) (hle : lo ≤ hi) (hhi : hi ≤ 2 ^ 63 - 1)
    (hv : v.Wraps) : (∃ x, assignSigned lo hi v path = .ok x) ↔ lo = -2 ^ 63 := by
  constructor
  · rintro ⟨x, hx⟩
    have hbounds := x.property
    have hread := (assignSigned_eq_ok hlo hhi).mp hx
    rw [hv.convertsToInt64_iff (by omega)] at hread
    omega
  · rintro rfl
    exact ⟨⟨-2 ^ 63, le_refl _, hle⟩, (assignSigned_eq_ok hlo hhi).mpr (Or.inr ⟨hv, rfl⟩)⟩

/-- The two parts of `StoresExactly`, for the type with these limits. -/
theorem assignSigned_exactly_iff (hlo : -2 ^ 63 ≤ lo) (hle : lo ≤ hi) (hhi : hi ≤ 2 ^ 63 - 1) :
    (((∃ x, assignSigned lo hi v path = .ok x) ↔ ∃ n, v.integer? = some n ∧ lo ≤ n ∧ n ≤ hi) ∧
        ∀ x, assignSigned lo hi v path = .ok x → v.integer? = some x.val) ↔
      ¬ (lo = -2 ^ 63 ∧ v.Wraps) := by
  by_cases hv : v.Wraps
  · have hout : ¬ ∃ n, v.integer? = some n ∧ lo ≤ n ∧ n ≤ hi := by
      rintro ⟨n, hn, -, hmax⟩
      have heq := hv.eq hn
      omega
    rw [assignSigned_wraps_iff hlo hle hhi hv, iff_false_right hout, and_iff_left hv]
    refine and_iff_left_of_imp ?_
    -- out of range and not stored, so there is nothing to be exact about
    intro hne x hx
    exact absurd ((assignSigned_wraps_iff hlo hle hhi hv).mp ⟨x, hx⟩) hne
  · refine iff_of_true ⟨assignSigned_stores_iff hlo hhi hv, ?_⟩ fun h ↦ hv h.2
    intro x hx
    exact (Value.convertsToInt64_iff hv).mp ((assignSigned_eq_ok hlo hhi).mp hx)

end Signed

private theorem assignScalar_storesExactly_iff (t : SignedType) (bound : ℕ) (v : Value)
    (path : Str) :
    StoresExactly t v (assignScalar bound t.scalar v path) ↔ ¬ (t = .int64 ∧ v.Wraps) := by
  have hparts : ∀ store : Except Exn t.scalar.Val, StoresExactly t v store ↔
      ((∃ x, store = .ok x) ↔ ∃ n, v.integer? = some n ∧ t.min ≤ n ∧ n ≤ t.max) ∧
        ∀ x, store = .ok x → v.integer? = some (t.value x) :=
    fun _ ↦ ⟨fun h ↦ ⟨h.stores, h.exact⟩, fun h ↦ ⟨h.1, h.2⟩⟩
  rw [hparts]
  cases t with
  | int8 | int16 | int32 | int64 =>
    exact (assignSigned_exactly_iff (by decide) (by decide) (by decide)).trans (by simp)

/-- **A signed field stores integers of its type and nothing else**, as a scalar and as an item of
an array, except that an `int64` stores the real `2 ^ 63` as its least value. -/
theorem signed_field_exact_iff (t : SignedType) (bound : ℕ) (v : Value) (path : Str) :
    (StoresExactly t v (assignScalar bound t.scalar v path) ↔ ¬ (t = .int64 ∧ v.Wraps)) ∧
      ∀ (a : ArrayMember) (cell : t.scalar.Val), a.getFunction = true →
        (StoresExactly t v (assignItem a t.scalar.packed
            (fun w _ p ↦ assignScalar bound t.scalar w p) v cell path) ↔
          ¬ (t = .int64 ∧ v.Wraps)) := by
  refine ⟨assignScalar_storesExactly_iff t bound v path, ?_⟩
  intro a cell hget
  unfold assignItem
  rw [if_pos hget]
  exact assignScalar_storesExactly_iff t bound v path

/-- `9223372036854775808.0` -/
def wrappingNumber : Value := .real (.ofInt _ (2 ^ 63))

theorem wrappingNumber_wraps : wrappingNumber.Wraps :=
  show (FloatValue.ofInt .binary64 (2 ^ 63)).toInt? = some (2 ^ 63) by decide +kernel

/-- One past the largest `int64` is stored as the least. -/
theorem wrappingNumber_stored : wrappingNumber.integer? = some (2 ^ 63) ∧
    assignScalar 0 .int64 wrappingNumber "message.data" = .ok ⟨-2 ^ 63, by decide⟩ ∧
    ¬ StoresExactly .int64 wrappingNumber
      (assignScalar 0 .int64 wrappingNumber "message.data") := by
  refine ⟨wrappingNumber_wraps.integer?, ?_, ?_⟩
  · rw [assignScalar, assignSigned_of_wraps wrappingNumber_wraps, dif_pos (by decide)]
  · rw [assignScalar_storesExactly_iff .int64]
    exact fun h ↦ h ⟨rfl, wrappingNumber_wraps⟩

/-- An array of `int64` with references to its items. -/
theorem signed_field_exact_iff_item :
    StoresExactly .int64 wrappingNumber (assignItem ⟨0, false, true, true, true, true, true, true⟩
        none (fun w _ p ↦ assignScalar 0 .int64 w p) wrappingNumber ⟨0, by decide⟩
        "message.data[0]") ↔ ¬ (SignedType.int64 = .int64 ∧ wrappingNumber.Wraps) :=
  (signed_field_exact_iff .int64 0 wrappingNumber "message.data[0]").2
    ⟨0, false, true, true, true, true, true, true⟩ ⟨0, by decide⟩ rfl

/-! ## Unsigned fields

An unsigned field has no such exception. A value that `isIntegral` holds of and that is not a
negative `Json::Int64` is at most a `Json::UInt64`, whichever of the three representations it has,
so `asUInt64` returns, and the range check decides. -/

/-- The types `assignUnsigned` is instantiated at. -/
inductive UnsignedType
  | char
  | octet
  | uint8
  | uint16
  | uint32
  | uint64
  deriving DecidableEq

namespace UnsignedType

@[reducible] def scalar : UnsignedType → ScalarType
  | .char => .char
  | .octet => .octet
  | .uint8 => .uint8
  | .uint16 => .uint16
  | .uint32 => .uint32
  | .uint64 => .uint64

def bits : UnsignedType → ℕ
  | .char | .octet | .uint8 => 8
  | .uint16 => 16
  | .uint32 => 32
  | .uint64 => 64

/-- `std::numeric_limits<T>::max()`. -/
def max (t : UnsignedType) : ℤ := 2 ^ t.bits - 1

/-- The integer in a field. -/
def value : (t : UnsignedType) → t.scalar.Val → ℤ
  | .char, x | .octet, x | .uint8, x | .uint16, x | .uint32, x | .uint64, x => x.val

theorem max_le (t : UnsignedType) : t.max ≤ 2 ^ 64 - 1 := by
  cases t <;> decide

end UnsignedType

/-- An integer between the bounds is read as that integer; anything else is a permanent error. -/
structure ReadsExactly {α : Type} (value : α → ℤ) (integer : Option ℤ) (lo hi : ℤ)
    (read : Except Exn α) : Prop where
  returns : (∃ x, read = .ok x) ↔ ∃ n, integer = some n ∧ lo ≤ n ∧ n ≤ hi
  exact : ∀ x, read = .ok x → integer = some (value x)
  raises : Raises Exn.IsPermanent read

theorem assignUnsigned_readsExactly {hi : ℤ} (hhi : hi ≤ 2 ^ 64 - 1) (v : Value) (path : Str) :
    ReadsExactly Subtype.val v.integer? 0 hi (assignUnsigned hi v path) where
  returns := by
    simp only [assignUnsigned_eq_ok hhi]
    constructor
    · rintro ⟨x, hx⟩
      exact ⟨x.val, hx, x.property⟩
    · rintro ⟨n, hn, hrange⟩
      exact ⟨⟨n, hrange⟩, hn⟩
  exact x hx := (assignUnsigned_eq_ok hhi).mp hx
  raises := assignUnsigned_raises

theorem assignScalar_readsExactly (t : UnsignedType) (bound : ℕ) (v : Value) (path : Str) :
    ReadsExactly t.value v.integer? 0 t.max (assignScalar bound t.scalar v path) := by
  have hread := assignUnsigned_readsExactly t.max_le v path
  cases t with
  | char | octet | uint8 | uint16 | uint32 | uint64 =>
    exact ⟨hread.returns, hread.exact, hread.raises⟩

end Ros2ToolsAdapter
