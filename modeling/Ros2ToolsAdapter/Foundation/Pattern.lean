import Mathlib.Computability.RegularExpressions
import Ros2ToolsAdapter.Foundation.Text

/-!
# Patterns

Regular expressions as programs write them have two things Mathlib's do not, character classes and
literal strings. Both are sugar: a class is the sum of its characters and a literal the product of
them. A pattern is then a `RegularExpression` like any other, with `rmatch` to run it and `matches'`
to reason about it, and these are the lemmas that say what the sugar matches.

A pattern here is anchored at both ends.
-/

namespace RegularExpression

variable {α : Type*}

/-- A character class. -/
def oneOf : List α → RegularExpression α
  | [] => 0
  | a :: as => char a + oneOf as

/-- A literal string. -/
def literal : List α → RegularExpression α
  | [] => 1
  | a :: as => char a * literal as

theorem mem_oneOf {as w : List α} : w ∈ (oneOf as).matches' ↔ ∃ a ∈ as, w = [a] := by
  induction as with
  | nil => simp [oneOf]
  | cons a as ih =>
    rw [oneOf, matches'_add, Language.mem_add, ih, matches'_char]
    simp only [List.mem_cons, exists_eq_or_imp]
    exact Iff.rfl

theorem mem_literal {as w : List α} : w ∈ (literal as).matches' ↔ w = as := by
  induction as generalizing w with
  | nil =>
    rw [literal, matches'_epsilon]
    exact Language.mem_one w
  | cons a as ih =>
    rw [literal, matches'_mul, Language.mem_mul]
    constructor
    · rintro ⟨u, hu, v, hv, rfl⟩
      rw [ih.mp hv, show u = [a] from hu]
      rfl
    · rintro rfl
      exact ⟨[a], rfl, as, ih.mpr rfl, rfl⟩

/-- A class repeated matches the strings over the class. -/
theorem mem_star_oneOf {as w : List α} : w ∈ (oneOf as).star.matches' ↔ ∀ a ∈ w, a ∈ as := by
  rw [matches'_star, Language.mem_kstar]
  constructor
  · rintro ⟨words, rfl, hwords⟩ a ha
    obtain ⟨word, hword, haword⟩ := List.mem_flatten.mp ha
    obtain ⟨b, hb, rfl⟩ := mem_oneOf.mp (hwords word hword)
    rwa [List.mem_singleton.mp haword]
  · intro hw
    refine ⟨w.map fun a ↦ [a], ?_, fun word hword ↦ ?_⟩
    · induction w with
      | nil => rfl
      | cons a w ih => simpa using ih fun b hb ↦ hw b (List.mem_cons_of_mem a hb)
    · obtain ⟨a, ha, rfl⟩ := List.mem_map.mp hword
      exact mem_oneOf.mpr ⟨a, hw a ha, rfl⟩

/-- A class repeated `n` times matches the strings of length `n` over the class. -/
theorem mem_oneOf_pow {as w : List α} {n : ℕ} :
    w ∈ (oneOf as ^ n).matches' ↔ w.length = n ∧ ∀ a ∈ w, a ∈ as := by
  rw [matches'_pow]
  induction n generalizing w with
  | zero =>
    rw [pow_zero, Language.mem_one, List.length_eq_zero_iff]
    refine (and_iff_left_of_imp ?_).symm
    rintro rfl
    simp
  | succ n ih =>
    rw [pow_succ', Language.mem_mul]
    constructor
    · rintro ⟨u, hu, v, hv, rfl⟩
      obtain ⟨a, ha, rfl⟩ := mem_oneOf.mp hu
      obtain ⟨hlength, hmem⟩ := ih.mp hv
      simpa [hlength] using ⟨ha, hmem⟩
    · rintro ⟨hlength, hmem⟩
      obtain _ | ⟨a, w⟩ := w
      · simp at hlength
      · rw [List.forall_mem_cons] at hmem
        exact ⟨[a], mem_oneOf.mpr ⟨a, hmem.1, rfl⟩, w, ih.mpr ⟨by simpa using hlength, hmem.2⟩, rfl⟩

/-- Every character a pattern mentions satisfies `p`. -/
def Over (p : α → Prop) : RegularExpression α → Prop
  | zero | epsilon => True
  | char a => p a
  | plus P Q | comp P Q => P.Over p ∧ Q.Over p
  | star P => P.Over p

theorem over_oneOf {p : α → Prop} {as : List α} (h : ∀ a ∈ as, p a) : (oneOf as).Over p := by
  induction as with
  | nil => trivial
  | cons a as ih =>
    exact ⟨h a List.mem_cons_self, ih fun b hb ↦ h b (List.mem_cons_of_mem a hb)⟩

theorem over_literal {p : α → Prop} {as : List α} (h : ∀ a ∈ as, p a) : (literal as).Over p := by
  induction as with
  | nil => trivial
  | cons a as ih =>
    exact ⟨h a List.mem_cons_self, ih fun b hb ↦ h b (List.mem_cons_of_mem a hb)⟩

/-- A string that is matched has no character the pattern does not mention. -/
theorem Over.forall_mem {p : α → Prop} {P : RegularExpression α} (hP : P.Over p) {w : List α}
    (hw : w ∈ P.matches') : ∀ a ∈ w, p a := by
  induction P generalizing w with
  | zero => exact hw.elim
  | epsilon =>
    rw [(Language.mem_one w).mp hw]
    simp
  | char a =>
    rw [show w = [a] from hw]
    intro b hb
    rw [List.mem_singleton.mp hb]
    exact hP
  | plus P Q ihP ihQ => exact hw.elim (ihP hP.1) (ihQ hP.2)
  | comp P Q ihP ihQ =>
    obtain ⟨u, hu, v, hv, rfl⟩ := Language.mem_mul.mp hw
    intro a ha
    exact (List.mem_append.mp ha).elim (ihP hP.1 hu a) (ihQ hP.2 hv a)
  | star P ih =>
    obtain ⟨words, rfl, hwords⟩ := Language.mem_kstar.mp hw
    intro a ha
    obtain ⟨word, hword, haword⟩ := List.mem_flatten.mp ha
    exact ih hP (hwords word hword) a haword

end RegularExpression

namespace Str

/-! ## Character classes -/

/-- The bytes from `lo` to `hi`. -/
def byteRange (lo hi : UInt8) : List UInt8 :=
  (List.range' lo.toNat (hi.toNat + 1 - lo.toNat)).map UInt8.ofNat

/-- `[A-Za-z]` -/
def letters : List UInt8 := byteRange 0x41 0x5A ++ byteRange 0x61 0x7A

/-- `[0-9]` -/
def digits : List UInt8 := byteRange 0x30 0x39

/-- `[A-Za-z_]` -/
def nameStart : List UInt8 := letters ++ ofString "_"

/-- `[A-Za-z0-9_]` -/
def nameBytes : List UInt8 := letters ++ digits ++ ofString "_"

/-- `[0-9a-f]` -/
def hexDigits : List UInt8 := digits ++ byteRange 0x61 0x66

end Str
