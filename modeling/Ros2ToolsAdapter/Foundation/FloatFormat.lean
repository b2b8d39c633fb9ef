import Mathlib.Algebra.Order.Field.Rat
import Mathlib.Algebra.Order.Field.Power
import Mathlib.Data.Nat.Log
import Mathlib.Tactic.FieldSimp
import Mathlib.Tactic.Linarith
import Mathlib.Tactic.Ring

/-!
# Binary floating-point formats

A format is a precision and an exponent range; a value is a NaN, a signed infinity, or a signed
`mantissa · 2 ^ exponent` in canonical form, so that equal values are equal terms. The three C
types are three formats, and the conversion between any two of them is one function: round to
nearest, ties to even, overflow to infinity.

The development is about one question — when a conversion loses nothing. Widening keeps the value
and only respells it, with a longer mantissa and a smaller exponent (`round_widening`); rounding a
respelled canonical value gives it back (`round_respelled`); so narrowing after widening is the
identity (`convert_convert`). No rounding error appears anywhere. Where a narrowing does lose
something, it stays finite on what is in the range of the narrower format
(`isFinite_convert_of_absGt`).
-/

/-- A binary format: the bits of the significand, and the exponents of the last place of the
subnormal and of the largest finite values. -/
structure FloatFormat where
  precision : ℕ
  minExponent : ℤ
  maxExponent : ℤ
  precision_pos : 0 < precision
  exponent_le : minExponent ≤ maxExponent

namespace FloatFormat

/-- IEEE 754 `binary32`, the C `float`. -/
def binary32 : FloatFormat := ⟨24, -149, 104, by decide, by decide⟩

/-- IEEE 754 `binary64`, the C `double`. -/
def binary64 : FloatFormat := ⟨53, -1074, 971, by decide, by decide⟩

/-- The 80-bit extended format, the C `long double` of x86-64. -/
def extended80 : FloatFormat := ⟨64, -16445, 16320, by decide, by decide⟩

/-- The significand fits, the exponent is in range, and the value is normal or has the exponent of
the subnormals. -/
def Canonical (f : FloatFormat) (m : ℕ) (e : ℤ) : Prop :=
  m < 2 ^ f.precision ∧ f.minExponent ≤ e ∧ e ≤ f.maxExponent ∧
    (e = f.minExponent ∨ 2 ^ (f.precision - 1) ≤ m)

instance (f : FloatFormat) (m : ℕ) (e : ℤ) : Decidable (f.Canonical m e) :=
  inferInstanceAs (Decidable (_ ∧ _))

/-- Every value of `f` is a value of `g`. -/
def NarrowerThan (f g : FloatFormat) : Prop :=
  f.precision ≤ g.precision ∧ g.minExponent ≤ f.minExponent ∧
    f.maxExponent + f.precision ≤ g.maxExponent + g.precision

instance (f g : FloatFormat) : Decidable (f.NarrowerThan g) :=
  inferInstanceAs (Decidable (_ ∧ _))

end FloatFormat

/-- A value of the format. The sign of a zero is kept; a NaN carries no payload. -/
inductive FloatValue (f : FloatFormat)
  | nan
  | infinity (negative : Bool)
  | finite (negative : Bool) (mantissa : ℕ) (exponent : ℤ)
      (canonical : f.Canonical mantissa exponent)
  deriving DecidableEq

namespace FloatValue

open FloatFormat

variable {f g : FloatFormat}

/-! ## Rounding -/

/-- `m / 2 ^ k` to the nearest integer, ties to even. -/
def shiftRound (m k : ℕ) : ℕ :=
  if 2 ^ k < 2 * (m % 2 ^ k) ∨ 2 * (m % 2 ^ k) = 2 ^ k ∧ m / 2 ^ k % 2 = 1 then m / 2 ^ k + 1
  else m / 2 ^ k

@[simp] theorem shiftRound_mul_two_pow (m k : ℕ) : shiftRound (m * 2 ^ k) k = m := by
  have hpos : 0 < 2 ^ k := Nat.two_pow_pos k
  rw [shiftRound, Nat.mul_mod_left, Nat.mul_div_cancel m hpos, if_neg (by omega)]

/-- The exponent of the last place of `m · 2 ^ e` in the format. -/
def targetExponent (f : FloatFormat) (m : ℕ) (e : ℤ) : ℤ :=
  if m = 0 then f.minExponent else max f.minExponent (e + m.log2 + 1 - f.precision)

/-- The significand of `m · 2 ^ e` at the exponent `e'`. -/
def significandAt (m : ℕ) (e e' : ℤ) : ℕ :=
  if e' ≤ e then m * 2 ^ (e - e').toNat else shiftRound m (e' - e).toNat

/-- `± m · 2 ^ e` in the format, to the nearest, ties to even. The second case is a significand
that rounding carried up to a power of two; past the largest exponent the result is infinite. -/
def round (f : FloatFormat) (negative : Bool) (m : ℕ) (e : ℤ) : FloatValue f :=
  let e' := targetExponent f m e
  let q := significandAt m e e'
  if h : f.Canonical q e' then .finite negative q e' h
  else if h : f.Canonical (q / 2) (e' + 1) then .finite negative (q / 2) (e' + 1) h
  else .infinity negative

/-- Conversion between formats. -/
def convert (g : FloatFormat) : FloatValue f → FloatValue g
  | .nan => .nan
  | .infinity negative => .infinity negative
  | .finite negative m e _ => round g negative m e

/-- Conversion from an integer. -/
def ofInt (f : FloatFormat) (n : ℤ) : FloatValue f := round f (decide (n < 0)) n.natAbs 0

/-- `std::isfinite`. -/
def isFinite : FloatValue f → Bool
  | .finite .. => true
  | _ => false

theorem canonical_max (f : FloatFormat) : f.Canonical (2 ^ f.precision - 1) f.maxExponent := by
  have hpow : 2 ^ f.precision = 2 ^ (f.precision - 1) * 2 := by
    rw [← pow_succ, Nat.sub_add_cancel f.precision_pos]
  have hpos : 0 < 2 ^ (f.precision - 1) := Nat.two_pow_pos _
  exact ⟨by omega, f.exponent_le, le_refl _, Or.inr (by omega)⟩

/-- The largest finite value, `std::numeric_limits<T>::max()`. -/
def maxFinite (f : FloatFormat) : FloatValue f :=
  .finite false (2 ^ f.precision - 1) f.maxExponent (canonical_max f)

/-- `m₁ · 2 ^ e₁ ≤ m₂ · 2 ^ e₂`, with both sides brought to the smaller exponent. -/
def scaledLe (m₁ : ℕ) (e₁ : ℤ) (m₂ : ℕ) (e₂ : ℤ) : Bool :=
  decide (m₁ * 2 ^ (e₁ - e₂).toNat ≤ m₂ * 2 ^ (e₂ - e₁).toNat)

/-- `std::fabs(x) > limit` for a limit that is not negative. -/
def absGt : FloatValue f → FloatValue f → Bool
  | .nan, _ | _, .nan => false
  | _, .infinity _ => false
  | .infinity _, .finite .. => true
  | .finite _ m₁ e₁ _, .finite _ m₂ e₂ _ => !scaledLe m₁ e₁ m₂ e₂

/-- A sign applied to a magnitude. -/
def signed (negative : Bool) (n : ℕ) : ℤ := if negative then -n else n

/-- `x <= y`, which is false of a NaN. -/
def le : FloatValue f → FloatValue f → Bool
  | .nan, _ | _, .nan => false
  | .infinity true, _ | _, .infinity false => true
  | .infinity false, _ | _, .infinity true => false
  | .finite n₁ m₁ e₁ _, .finite n₂ m₂ e₂ _ =>
    decide (signed n₁ (m₁ * 2 ^ (e₁ - e₂).toNat) ≤ signed n₂ (m₂ * 2 ^ (e₂ - e₁).toNat))

/-- The integer a value is equal to, if it is equal to one. -/
def toInt? : FloatValue f → Option ℤ
  | .finite negative m e _ =>
    if 0 ≤ e then some (signed negative (m * 2 ^ e.toNat))
    else if 2 ^ (-e).toNat ∣ m then some (signed negative (m / 2 ^ (-e).toNat))
    else none
  | _ => none

/-- The integer part of a finite value, toward zero. -/
def truncate : FloatValue f → ℤ
  | .finite negative m e _ =>
    if 0 ≤ e then signed negative (m * 2 ^ e.toNat) else signed negative (m / 2 ^ (-e).toNat)
  | _ => 0

/-- The number a finite value is. -/
def toRat? : FloatValue f → Option ℚ
  | .finite negative m e _ => some (if negative then -(m * 2 ^ e) else m * 2 ^ e)
  | _ => none

theorem toRat?_of_toInt? {x : FloatValue f} {n : ℤ} (h : x.toInt? = some n) :
    x.toRat? = some (n : ℚ) := by
  cases x with
  | nan => simp [toInt?] at h
  | infinity => simp [toInt?] at h
  | finite negative m e canonical =>
    -- either way the magnitude is a natural number, and the sign is applied last
    have hmagnitude : ∃ k : ℕ, n = signed negative k ∧ (k : ℚ) = m * 2 ^ e := by
      rw [toInt?] at h
      split at h
      · rename_i he
        refine ⟨m * 2 ^ e.toNat, (Option.some_injective _ h).symm, ?_⟩
        rw [← Int.toNat_of_nonneg he, zpow_natCast, Int.toNat_natCast]
        push_cast
        rfl
      · rename_i he
        split at h
        · rename_i hdvd
          obtain ⟨k, rfl⟩ := hdvd
          refine ⟨k, ?_, ?_⟩
          · rw [← Option.some_injective _ h, Nat.mul_div_cancel_left k (Nat.two_pow_pos _)]
          · have hexp : e = -((-e).toNat : ℤ) := by omega
            rw [hexp, zpow_neg, zpow_natCast, neg_neg, Int.toNat_natCast]
            push_cast
            field_simp
        · simp at h
    obtain ⟨k, rfl, hk⟩ := hmagnitude
    rw [toRat?, ← hk, signed]
    cases negative <;> simp

theorem truncate_of_toInt? {x : FloatValue f} {n : ℤ} (h : x.toInt? = some n) :
    x.truncate = n := by
  cases x with
  | nan => simp [toInt?] at h
  | infinity => simp [toInt?] at h
  | finite negative m e canonical =>
    rw [toInt?] at h
    rw [truncate]
    split at h
    · rw [if_pos ‹_›]
      exact Option.some_injective _ h
    · rw [if_neg ‹_›]
      split at h
      · exact Option.some_injective _ h
      · simp at h

/-! ## Respelling -/

private theorem log2_mul_two_pow {m : ℕ} (hm : m ≠ 0) (j : ℕ) : (m * 2 ^ j).log2 = m.log2 + j := by
  rw [Nat.log2_eq_iff (Nat.mul_ne_zero hm (Nat.two_pow_pos j).ne')]
  have hlow : 2 ^ m.log2 ≤ m := Nat.log2_self_le hm
  have hhigh : m < 2 ^ (m.log2 + 1) := Nat.lt_log2_self
  constructor
  · rw [pow_add]
    exact Nat.mul_le_mul_right _ hlow
  · rw [show m.log2 + j + 1 = m.log2 + 1 + j by omega, pow_add]
    exact Nat.mul_lt_mul_of_pos_right hhigh (Nat.two_pow_pos j)

/-- A canonical value spelled with `j` more bits below its last place rounds to itself. -/
theorem round_respelled {m : ℕ} {e : ℤ} (h : f.Canonical m e) (negative : Bool) (j : ℕ) :
    round f negative (m * 2 ^ j) (e - j) = .finite negative m e h := by
  obtain ⟨hlt, hmin, hmax, hnormal⟩ := h
  -- the exponent depends only on where the leading bit is, and that has not moved
  have htarget : targetExponent f (m * 2 ^ j) (e - j) = e := by
    by_cases hm : m = 0
    · have hpow : 0 < 2 ^ (f.precision - 1) := Nat.two_pow_pos _
      rw [hm, zero_mul, targetExponent, if_pos rfl]
      omega
    · have hbits : m.log2 < f.precision := (Nat.log2_lt hm).mpr hlt
      rw [targetExponent, if_neg (Nat.mul_ne_zero hm (Nat.two_pow_pos j).ne'),
        log2_mul_two_pow hm]
      rcases hnormal with hsub | hnorm
      · push_cast
        omega
      · have hfull : f.precision - 1 ≤ m.log2 := (Nat.le_log2 hm).mpr hnorm
        push_cast
        omega
  have hsignificand : significandAt (m * 2 ^ j) (e - j) e = m := by
    rw [significandAt]
    split
    · have hj : j = 0 := by omega
      simp [hj]
    · rw [show (e - (e - (j : ℤ))).toNat = j by omega, shiftRound_mul_two_pow]
  rw [round, htarget, hsignificand, dif_pos ⟨hlt, hmin, hmax, hnormal⟩]

/-- Widening respells a canonical value without rounding it. -/
theorem round_widening (hfg : f.NarrowerThan g) {m : ℕ} {e : ℤ} (h : f.Canonical m e)
    (negative : Bool) : ∃ (j : ℕ) (hg : g.Canonical (m * 2 ^ j) (e - j)),
      round g negative m e = .finite negative (m * 2 ^ j) (e - j) hg := by
  obtain ⟨hprec, hmin, hrange⟩ := hfg
  obtain ⟨hlt, hmine, hmaxe, -⟩ := h
  have htarget : targetExponent g m e ≤ e := by
    rw [targetExponent]
    split
    · omega
    · have hbits : m.log2 < f.precision := (Nat.log2_lt ‹_›).mpr hlt
      omega
  -- the significand grows by the bits the exponent gives up, and `g` has room for them
  have hcanonical : g.Canonical (m * 2 ^ (e - targetExponent g m e).toNat)
      (targetExponent g m e) := by
    by_cases hm : m = 0
    · rw [targetExponent, if_pos hm, hm, zero_mul]
      exact ⟨Nat.two_pow_pos _, le_refl _, g.exponent_le, Or.inl rfl⟩
    · have hbits : m.log2 < f.precision := (Nat.log2_lt hm).mpr hlt
      have hlow : 2 ^ m.log2 ≤ m := Nat.log2_self_le hm
      have hhigh : m < 2 ^ (m.log2 + 1) := Nat.lt_log2_self
      have heq : targetExponent g m e = max g.minExponent (e + m.log2 + 1 - g.precision) := by
        rw [targetExponent, if_neg hm]
      have hgmax := g.exponent_le
      refine ⟨?_, by omega, by omega, ?_⟩
      · calc m * 2 ^ (e - targetExponent g m e).toNat
            < 2 ^ (m.log2 + 1) * 2 ^ (e - targetExponent g m e).toNat :=
              Nat.mul_lt_mul_of_pos_right hhigh (Nat.two_pow_pos _)
          _ = 2 ^ (m.log2 + 1 + (e - targetExponent g m e).toNat) := (pow_add _ _ _).symm
          _ ≤ 2 ^ g.precision := Nat.pow_le_pow_right (by decide) (by omega)
      · by_cases hsub : targetExponent g m e = g.minExponent
        · exact Or.inl hsub
        · right
          calc 2 ^ (g.precision - 1)
              = 2 ^ (m.log2 + (e - targetExponent g m e).toNat) := by
                congr 1
                omega
            _ = 2 ^ m.log2 * 2 ^ (e - targetExponent g m e).toNat := pow_add _ _ _
            _ ≤ m * 2 ^ (e - targetExponent g m e).toNat := Nat.mul_le_mul_right _ hlow
  refine ⟨(e - targetExponent g m e).toNat, ?_, ?_⟩
  · rwa [show e - ((e - targetExponent g m e).toNat : ℤ) = targetExponent g m e by omega]
  · have hsignificand : significandAt m e (targetExponent g m e)
        = m * 2 ^ (e - targetExponent g m e).toNat := by
      rw [significandAt, if_pos htarget]
    simp only [round, hsignificand, dif_pos hcanonical]
    congr 1
    omega

/-- **Narrowing undoes widening.** -/
theorem convert_convert (hfg : f.NarrowerThan g) (x : FloatValue f) :
    convert f (convert g x) = x := by
  cases x with
  | nan => rfl
  | infinity negative => rfl
  | finite negative m e h =>
    obtain ⟨j, hg, hround⟩ := round_widening hfg h negative
    rw [convert, hround, convert, round_respelled h]

theorem convert_self (x : FloatValue f) : convert f x = x := by
  cases x with
  | nan => rfl
  | infinity negative => rfl
  | finite negative m e h => simpa [convert] using round_respelled h negative 0

theorem isFinite_convert (hfg : f.NarrowerThan g) {x : FloatValue f} (hx : x.isFinite = true) :
    (convert g x).isFinite = true := by
  cases x with
  | nan => simp [isFinite] at hx
  | infinity negative => simp [isFinite] at hx
  | finite negative m e h =>
    obtain ⟨j, hg, hround⟩ := round_widening hfg h negative
    rw [convert, hround, isFinite]

/-! ## Comparing magnitudes -/

/-- Two numbers compare as their mantissas do once both are brought to the smaller exponent. -/
theorem scaled_le_iff (a : ℤ) (e₁ : ℤ) (b : ℤ) (e₂ : ℤ) :
    a * 2 ^ (e₁ - e₂).toNat ≤ b * 2 ^ (e₂ - e₁).toNat ↔ (a : ℚ) * 2 ^ e₁ ≤ b * 2 ^ e₂ := by
  -- both sides are multiples of the power at the smaller exponent
  have hsplit : ∀ a b : ℤ, (2 : ℚ) ^ a = 2 ^ (a - b).toNat * 2 ^ min a b := by
    intro a b
    rw [← zpow_natCast, ← zpow_add₀ (by norm_num : (2 : ℚ) ≠ 0)]
    congr 1
    omega
  have hpos : (0 : ℚ) < 2 ^ min e₁ e₂ := zpow_pos (by norm_num) _
  rw [hsplit e₁ e₂, hsplit e₂ e₁, min_comm e₂ e₁, ← mul_assoc, ← mul_assoc,
    mul_le_mul_iff_left₀ hpos]
  exact_mod_cast Iff.rfl

private theorem scaledLe_iff (m₁ : ℕ) (e₁ : ℤ) (m₂ : ℕ) (e₂ : ℤ) :
    scaledLe m₁ e₁ m₂ e₂ = true ↔ (m₁ : ℚ) * 2 ^ e₁ ≤ m₂ * 2 ^ e₂ := by
  have hscaled := scaled_le_iff m₁ e₁ m₂ e₂
  rw [Int.cast_natCast, Int.cast_natCast] at hscaled
  rw [scaledLe, decide_eq_true_iff, ← hscaled]
  exact_mod_cast Iff.rfl

private theorem signed_mul (negative : Bool) (m k : ℕ) :
    signed negative (m * k) = signed negative m * k := by
  cases negative <;> simp [signed]

private theorem toRat?_finite (negative : Bool) (m : ℕ) (e : ℤ) (h : f.Canonical m e) :
    (FloatValue.finite negative m e h).toRat? = some ((signed negative m : ℤ) * 2 ^ e : ℚ) := by
  rw [toRat?, signed]
  cases negative <;> simp

/-- The comparison of two numbers is that of the rationals they are. -/
theorem le_iff {x y : FloatValue f} {a b : ℚ} (hx : x.toRat? = some a) (hy : y.toRat? = some b) :
    le x y = true ↔ a ≤ b := by
  cases x with
  | nan => simp [toRat?] at hx
  | infinity => simp [toRat?] at hx
  | finite n₁ m₁ e₁ h₁ =>
    cases y with
    | nan => simp [toRat?] at hy
    | infinity => simp [toRat?] at hy
    | finite n₂ m₂ e₂ h₂ =>
      rw [toRat?_finite, Option.some_inj] at hx hy
      rw [le, decide_eq_true_iff, ← hx, ← hy, ← scaled_le_iff, signed_mul, signed_mul]
      push_cast
      exact Iff.rfl

/-- On two integers it is the comparison of the integers. -/
theorem le_iff_of_toInt? {x y : FloatValue f} {a b : ℤ} (hx : x.toInt? = some a)
    (hy : y.toInt? = some b) : le x y = true ↔ a ≤ b := by
  rw [le_iff (toRat?_of_toInt? hx) (toRat?_of_toInt? hy)]
  exact Int.cast_le

/-- A canonical value is at most the largest finite one. -/
theorem le_maxFinite {m : ℕ} {e : ℤ} (h : f.Canonical m e) :
    (m : ℚ) * 2 ^ e ≤ ((2 ^ f.precision - 1 : ℕ) : ℚ) * 2 ^ f.maxExponent := by
  have hm : m ≤ 2 ^ f.precision - 1 := Nat.le_sub_one_of_lt h.1
  have he : (2 : ℚ) ^ e ≤ 2 ^ f.maxExponent := zpow_le_zpow_right₀ (by norm_num) h.2.2.1
  exact mul_le_mul (by exact_mod_cast hm) he (by positivity) (by positivity)

private theorem respelled_value (m : ℕ) (e : ℤ) (j : ℕ) :
    ((m * 2 ^ j : ℕ) : ℚ) * 2 ^ (e - j) = m * 2 ^ e := by
  rw [zpow_sub₀ (by norm_num), zpow_natCast]
  push_cast
  field_simp

/-- A widened finite value is not above the widened largest one. -/
theorem absGt_convert_maxFinite (hfg : f.NarrowerThan g) {x : FloatValue f}
    (hx : x.isFinite = true) : absGt (convert g x) (convert g (maxFinite f)) = false := by
  cases x with
  | nan => simp [isFinite] at hx
  | infinity negative => simp [isFinite] at hx
  | finite negative m e h =>
    obtain ⟨j, hg, hround⟩ := round_widening hfg h negative
    obtain ⟨i, hgmax, hroundmax⟩ := round_widening hfg (canonical_max f) false
    simp only [maxFinite, convert]
    rw [hround, hroundmax, absGt, Bool.not_eq_false', scaledLe_iff, respelled_value,
      respelled_value]
    exact le_maxFinite h

/-! ## Narrowing in range

A conversion overflows only past the largest finite value, because rounding never crosses a number
the format has. -/

private theorem shiftRound_le {m n k : ℕ} (h : m ≤ n * 2 ^ k) : shiftRound m k ≤ n := by
  have hpos : 0 < 2 ^ k := Nat.two_pow_pos k
  have hsplit := Nat.div_add_mod' m (2 ^ k)
  have hle : m / 2 ^ k ≤ n := (Nat.div_le_iff_le_mul_add_pred hpos).mpr (by
    rw [mul_comm]
    omega)
  rw [shiftRound]
  split
  · -- rounded up, so there is a remainder, and the quotient was not yet `n`
    refine Nat.lt_of_le_of_ne hle ?_
    rintro rfl
    omega
  · exact hle

private theorem le_shiftRound {m n k : ℕ} (h : n * 2 ^ k ≤ m) : n ≤ shiftRound m k := by
  have hle : n ≤ m / 2 ^ k := (Nat.le_div_iff_mul_le (Nat.two_pow_pos k)).mpr h
  rw [shiftRound]
  split <;> omega

private theorem scaled_natCast_le_iff (m₁ : ℕ) (e₁ : ℤ) (m₂ : ℕ) (e₂ : ℤ) :
    (m₁ : ℚ) * 2 ^ e₁ ≤ m₂ * 2 ^ e₂ ↔
      m₁ * 2 ^ (e₁ - e₂).toNat ≤ m₂ * 2 ^ (e₂ - e₁).toNat := by
  rw [← scaledLe_iff, scaledLe, decide_eq_true_iff]

/-- The significand at an exponent is at most every multiple of its last place from the number
on. -/
theorem significandAt_le {m n : ℕ} {e e' : ℤ} (h : (m : ℚ) * 2 ^ e ≤ n * 2 ^ e') :
    significandAt m e e' ≤ n := by
  rw [scaled_natCast_le_iff] at h
  rw [significandAt]
  split
  · simpa [show (e' - e).toNat = 0 by omega] using h
  · refine shiftRound_le ?_
    simpa [show (e - e').toNat = 0 by omega] using h

private theorem le_significandAt {m n : ℕ} {e e' : ℤ} (h : (n : ℚ) * 2 ^ e' ≤ m * 2 ^ e) :
    n ≤ significandAt m e e' := by
  rw [scaled_natCast_le_iff] at h
  rw [significandAt]
  split
  · simpa [show (e' - e).toNat = 0 by omega] using h
  · refine le_shiftRound ?_
    simpa [show (e - e').toNat = 0 by omega] using h

private theorem natCast_two_pow_mul (a : ℕ) (b : ℤ) :
    ((2 ^ a : ℕ) : ℚ) * 2 ^ b = 2 ^ ((a : ℤ) + b) := by
  rw [zpow_add₀ (by norm_num), zpow_natCast, Nat.cast_pow, Nat.cast_ofNat]

/-- The place of the leading bit of a number that is not zero. -/
private theorem leading_bit {m : ℕ} (hm : m ≠ 0) (e : ℤ) :
    (2 : ℚ) ^ ((m.log2 : ℤ) + e) ≤ m * 2 ^ e ∧ (m : ℚ) * 2 ^ e ≤ 2 ^ ((m.log2 : ℤ) + 1 + e) := by
  have hlow : ((2 ^ m.log2 : ℕ) : ℚ) ≤ m := by exact_mod_cast Nat.log2_self_le hm
  have hhigh : (m : ℚ) ≤ ((2 ^ (m.log2 + 1) : ℕ) : ℚ) := by
    exact_mod_cast (Nat.lt_log2_self (n := m)).le
  constructor
  · rw [← natCast_two_pow_mul]
    gcongr
  · have hsucc := natCast_two_pow_mul (m.log2 + 1) e
    push_cast at hsucc
    rw [← hsucc]
    push_cast at hhigh
    gcongr

private theorem targetExponent_of_ne_zero {m : ℕ} (hm : m ≠ 0) (e : ℤ) :
    targetExponent f m e = max f.minExponent (e + m.log2 + 1 - f.precision) := by
  rw [targetExponent, if_neg hm]

/-- The significand fits, or is the power of two that rounding carries up to. -/
theorem significandAt_targetExponent_le (m : ℕ) (e : ℤ) :
    significandAt m e (targetExponent f m e) ≤ 2 ^ f.precision := by
  by_cases hm : m = 0
  · refine significandAt_le ?_
    rw [hm, Nat.cast_zero, zero_mul]
    positivity
  · have htarget := targetExponent_of_ne_zero (f := f) hm e
    refine significandAt_le ?_
    calc (m : ℚ) * 2 ^ e ≤ 2 ^ ((m.log2 : ℤ) + 1 + e) := (leading_bit hm e).2
      _ ≤ 2 ^ ((f.precision : ℤ) + targetExponent f m e) :=
        zpow_le_zpow_right₀ (by norm_num) (by omega)
      _ = ((2 ^ f.precision : ℕ) : ℚ) * 2 ^ targetExponent f m e := (natCast_two_pow_mul _ _).symm

/-- Above the subnormals the significand has its leading bit. -/
theorem targetExponent_normal (m : ℕ) (e : ℤ) : targetExponent f m e = f.minExponent ∨
    2 ^ (f.precision - 1) ≤ significandAt m e (targetExponent f m e) := by
  by_cases hsub : targetExponent f m e = f.minExponent
  · exact Or.inl hsub
  · have hm : m ≠ 0 := by
      rintro rfl
      exact hsub (if_pos rfl)
    have htarget := targetExponent_of_ne_zero (f := f) hm e
    have hprec := f.precision_pos
    refine Or.inr (le_significandAt ?_)
    rw [natCast_two_pow_mul,
      show ((f.precision - 1 : ℕ) : ℤ) + targetExponent f m e = (m.log2 : ℤ) + e by omega]
    exact (leading_bit hm e).1

section InRange

variable {m : ℕ} {e : ℤ}

private theorem targetExponent_le_maxExponent
    (h : (m : ℚ) * 2 ^ e ≤ ((2 ^ f.precision - 1 : ℕ) : ℚ) * 2 ^ f.maxExponent) :
    targetExponent f m e ≤ f.maxExponent := by
  have hexp := f.exponent_le
  by_cases hm : m = 0
  · rwa [targetExponent, if_pos hm]
  · -- the leading bit is below the one past the largest value
    have hlt : (2 : ℚ) ^ ((m.log2 : ℤ) + e) < 2 ^ ((f.precision : ℤ) + f.maxExponent) := by
      calc (2 : ℚ) ^ ((m.log2 : ℤ) + e) ≤ m * 2 ^ e := (leading_bit hm e).1
        _ ≤ ((2 ^ f.precision - 1 : ℕ) : ℚ) * 2 ^ f.maxExponent := h
        _ < ((2 ^ f.precision : ℕ) : ℚ) * 2 ^ f.maxExponent := by
          gcongr
          exact Nat.sub_lt (Nat.two_pow_pos _) (by decide)
        _ = 2 ^ ((f.precision : ℤ) + f.maxExponent) := natCast_two_pow_mul _ _
    have hexponent := (zpow_lt_zpow_iff_right₀ (by norm_num : (1 : ℚ) < 2)).mp hlt
    rw [targetExponent_of_ne_zero hm]
    omega

/-- What is at most the largest finite value does not round to infinity. -/
theorem isFinite_round (negative : Bool)
    (h : (m : ℚ) * 2 ^ e ≤ ((2 ^ f.precision - 1 : ℕ) : ℚ) * 2 ^ f.maxExponent) :
    (round f negative m e).isFinite = true := by
  have hpow : 2 ^ f.precision = 2 ^ (f.precision - 1) * 2 := by
    rw [← pow_succ, Nat.sub_add_cancel f.precision_pos]
  have hpos : 0 < 2 ^ (f.precision - 1) := Nat.two_pow_pos _
  have hmin : f.minExponent ≤ targetExponent f m e := by
    rw [targetExponent]
    split <;> omega
  have hmax := targetExponent_le_maxExponent h
  have hle := significandAt_targetExponent_le (f := f) m e
  rw [round]
  by_cases hlt : significandAt m e (targetExponent f m e) < 2 ^ f.precision
  · rw [dif_pos ⟨hlt, hmin, hmax, targetExponent_normal m e⟩]
    rfl
  · -- carried up, which the bound rules out at the largest exponent
    have hne : targetExponent f m e ≠ f.maxExponent := by
      intro heq
      rw [← heq] at h
      have hbound := significandAt_le h
      omega
    have hcarry : f.Canonical (significandAt m e (targetExponent f m e) / 2)
        (targetExponent f m e + 1) := ⟨by omega, by omega, by omega, Or.inr (by omega)⟩
    rw [dif_neg fun hcanonical ↦ hlt hcanonical.1, dif_pos hcarry]
    rfl

end InRange

/-- **Narrowing in range is finite**: so is what is not above the widened largest value. -/
theorem isFinite_convert_of_absGt (hfg : f.NarrowerThan g) {x : FloatValue g}
    (hx : x.isFinite = true) (hle : absGt x (convert g (maxFinite f)) = false) :
    (convert f x).isFinite = true := by
  cases x with
  | nan => simp [isFinite] at hx
  | infinity negative => simp [isFinite] at hx
  | finite negative m e h =>
    obtain ⟨i, hgmax, hroundmax⟩ := round_widening hfg (canonical_max f) false
    simp only [maxFinite, convert] at hle
    rw [hroundmax, absGt, Bool.not_eq_false', scaledLe_iff, respelled_value] at hle
    exact isFinite_round negative hle

end FloatValue
