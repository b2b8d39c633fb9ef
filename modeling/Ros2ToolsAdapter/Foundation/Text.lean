import Mathlib.Data.List.TakeWhile
import Mathlib.Data.String.Basic

/-!
# Byte strings

A `std::string` is a counted sequence of bytes, not a sequence of characters: nothing in it need be
valid UTF-8, and a zero byte is an ordinary element. Three views of one such string matter below —
the whole sequence, the prefix a NUL-terminated interface sees, and the number of characters a
UTF-8 reader counts — and they differ, so the type is the list of bytes and each view is a function
on it.

String literals enter through `Str.ofString`, which is injective, so that two literals are compared
as literals.
-/

/-- The bytes of a `std::string`. -/
abbrev Str := List UInt8

namespace Str

/-- The bytes of a string literal. -/
def ofString (s : String) : Str := s.toUTF8.data.toList

instance : Coe String Str := ⟨ofString⟩

@[simp] theorem ofString_inj {a b : String} : ofString a = ofString b ↔ a = b := by
  constructor
  · intro h
    exact String.toByteArray_inj.mp (ByteArray.ext (Array.toList_inj.mp h))
  · rintro rfl
    rfl

/-- What a computation finds to hold of every byte holds of every byte. -/
theorem forall_of_all {p : UInt8 → Prop} [DecidablePred p] {s : Str}
    (h : (s.all fun b ↦ decide (p b)) = true) : ∀ b ∈ s, p b :=
  fun b hb ↦ of_decide_eq_true (List.all_eq_true.mp h b hb)

/-- The string a C interface reads through `c_str()`: everything before the first NUL. -/
def cString (s : Str) : Str := s.takeWhile (· ≠ 0)

theorem cString_eq_self {s : Str} : cString s = s ↔ 0 ∉ s := by
  rw [cString, List.takeWhile_eq_self_iff]
  constructor
  · intro h hmem
    simpa using h 0 hmem
  · intro h b hb
    have hne : b ≠ 0 := fun hzero ↦ h (by rwa [← hzero])
    simpa using hne

theorem zero_notMem_cString (s : Str) : 0 ∉ cString s := by
  intro h
  simpa using List.mem_takeWhile_imp h

/-- A UTF-8 continuation byte, `10xxxxxx`. -/
def isContinuation (b : UInt8) : Bool := 0x80 ≤ b && b < 0xC0

/-- The number of characters of a UTF-8 string: its bytes less the continuation bytes. -/
def characters (s : Str) : ℕ := s.countP fun b ↦ !isContinuation b

theorem characters_eq_length {s : Str} (h : ∀ b ∈ s, b < 0x80) : characters s = s.length := by
  rw [characters, List.countP_eq_length]
  intro b hb
  have hlt : ¬ 0x80 ≤ b := by simpa using h b hb
  simp [isContinuation, hlt]

/-- `std::to_string` of an unsigned integer: its decimal digits. -/
def ofNat (n : ℕ) : Str := ofString (toString n)

theorem ofNat_injective : Function.Injective ofNat := by
  intro m n h
  have hrepr : Nat.repr m = Nat.repr n := ofString_inj.mp h
  have hdigits : Nat.toDigits 10 m = Nat.toDigits 10 n := by
    rw [← Nat.toList_repr, ← Nat.toList_repr, hrepr]
  rw [← Nat.ofDigitChars_ten_toDigits (n := m), hdigits, Nat.ofDigitChars_ten_toDigits]

/-- The bytes of the characters, one character after the other. -/
theorem ofString_ofList (chars : List Char) :
    ofString (String.ofList chars) = chars.flatMap String.utf8EncodeChar := by
  simp [ofString, String.toByteArray_ofList, List.utf8Encode]

/-- A character of ASCII is one byte. -/
theorem utf8EncodeChar_of_lt {c : Char} (hc : c.toNat < 0x80) :
    String.utf8EncodeChar c = [c.toNat.toUInt8] := by
  have hsize : c.utf8Size = 1 := by
    have hval : c.val.toNat < 0x80 := hc
    rw [Char.utf8Size, if_pos]
    exact UInt32.le_iff_toNat_le.mpr (Nat.le_of_lt_succ hval)
  rw [String.utf8EncodeChar_eq_singleton hsize]
  rfl

/-- The digits of a number are digits. -/
theorem mem_ofNat {n : ℕ} {b : UInt8} (h : b ∈ ofNat n) : 0x30 ≤ b ∧ b ≤ 0x39 := by
  have hbytes : ofNat n = (Nat.toDigits 10 n).flatMap String.utf8EncodeChar := by
    rw [ofNat, ← ofString_ofList]
    rfl
  rw [hbytes, List.mem_flatMap] at h
  obtain ⟨c, hc, hb⟩ := h
  have hdigit : c.isDigit = true := Nat.isDigit_of_mem_toDigits (by decide) (by decide) hc
  simp only [Char.isDigit, Bool.and_eq_true, decide_eq_true_eq, ge_iff_le,
    UInt32.le_iff_toNat_le] at hdigit
  have hlo : 48 ≤ c.toNat := hdigit.1
  have hhi : c.toNat ≤ 57 := hdigit.2
  rw [utf8EncodeChar_of_lt (by omega), List.mem_singleton] at hb
  subst hb
  simp only [UInt8.le_iff_toNat_le, UInt8.toNat_ofNat', Nat.toUInt8]
  constructor <;> simp <;> omega

theorem cString_ofNat (n : ℕ) : cString (ofNat n) = ofNat n :=
  cString_eq_self.mpr fun h ↦ absurd (mem_ofNat h).1 (by decide)

theorem ofNat_ne_nil (n : ℕ) : ofNat n ≠ [] := by
  have hempty : ([] : Str) = ofString "" := rfl
  rw [ofNat, hempty, ne_eq, ofString_inj]
  exact Nat.repr_ne_empty

end Str
