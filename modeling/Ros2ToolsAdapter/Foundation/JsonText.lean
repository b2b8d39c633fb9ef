import Ros2ToolsAdapter.Foundation.Pattern

/-!
# JSON texts

The grammar of JSON over bytes, as it is written by someone who wants no surprises: no comments, no
trailing commas, no name twice in one object. `Denotes` derives a text together with the number of
levels it may still be nested, and keeps the decoded names of an object's members, since two names
are the same when they decode to the same string.

An object or array is self-delimiting: a reader that counts brackets outside strings comes back to
where it started at the last byte of it and not before (`Document.eq_of_append_eq`). `scan` is that
reader, and `Keeps` says of a text that it leaves the count as it found it and never goes below.
-/

namespace JsonText

open RegularExpression Str

/-! ## Tokens -/

/-- Space, tab, line feed and carriage return. -/
def blanks : List UInt8 := [0x20, 0x09, 0x0A, 0x0D]

def Blank (s : Str) : Prop := ∀ b ∈ s, b ∈ blanks

theorem blank_nil : Blank [] := by simp [Blank]

/-- `-?(0|[1-9][0-9]*)(\.[0-9]+)?([eE][+-]?[0-9]+)?` -/
def number : RegularExpression UInt8 :=
  (1 + literal "-") * (literal "0" + oneOf (byteRange 0x31 0x39) * (oneOf digits).star) *
    (1 + literal "." * (oneOf digits * (oneOf digits).star)) *
    (1 + oneOf "eE" * (1 + oneOf "+-") * (oneOf digits * (oneOf digits).star))

def words : List Str := ["null", "true", "false"]

/-- What follows a backslash, and what it stands for. -/
def escapes : List (UInt8 × UInt8) :=
  [(0x22, 0x22), (0x5C, 0x5C), (0x2F, 0x2F), (0x62, 0x08), (0x66, 0x0C), (0x6E, 0x0A), (0x72, 0x0D),
    (0x74, 0x09)]

/-- The hexadecimal digits, in either case. -/
def hexadecimals : List UInt8 := digits ++ byteRange 0x61 0x66 ++ byteRange 0x41 0x46

/-- The value of a hexadecimal digit. -/
def hexadecimal (b : UInt8) : ℕ :=
  if b ≤ 0x39 then b.toNat - 0x30 else if b ≤ 0x46 then b.toNat - 0x37 else b.toNat - 0x57

/-- Four hexadecimal digits, and what they spell. -/
def Spells (h : Str) (n : ℕ) : Prop :=
  h.length = 4 ∧ (∀ b ∈ h, b ∈ hexadecimals) ∧ n = h.foldl (fun n b ↦ 16 * n + hexadecimal b) 0

/-- The UTF-8 encoding of a code point. -/
def utf8 (n : ℕ) : Str :=
  if n < 0x80 then [.ofNat n]
  else if n < 0x800 then [.ofNat (0xC0 + n / 64), .ofNat (0x80 + n % 64)]
  else if n < 0x10000 then
    [.ofNat (0xE0 + n / 4096), .ofNat (0x80 + n / 64 % 64), .ofNat (0x80 + n % 64)]
  else [.ofNat (0xF0 + n / 262144), .ofNat (0x80 + n / 4096 % 64), .ofNat (0x80 + n / 64 % 64),
    .ofNat (0x80 + n % 64)]

/-- What stands between the quotes of a string, and the string it decodes to. -/
inductive Chars : Str → Str → Prop
  | nil : Chars [] []
  | plain {b : UInt8} {s v : Str} : 0x20 ≤ b → b ≠ 0x22 → b ≠ 0x5C → Chars s v →
      Chars (b :: s) (b :: v)
  | escape {b c : UInt8} {s v : Str} : (b, c) ∈ escapes → Chars s v →
      Chars (0x5C :: b :: s) (c :: v)
  | unicode {h : Str} {n : ℕ} {s v : Str} : Spells h n → (n < 0xD800 ∨ 0xDC00 ≤ n) → Chars s v →
      Chars (0x5C :: 0x75 :: (h ++ s)) (utf8 n ++ v)
  | surrogates {h l : Str} {m n : ℕ} {s v : Str} : Spells h m → 0xD800 ≤ m → m < 0xDC00 →
      Spells l n → 0xDC00 ≤ n → n < 0xE000 → Chars s v →
      Chars (0x5C :: 0x75 :: (h ++ 0x5C :: 0x75 :: (l ++ s)))
        (utf8 (0x10000 + 1024 * (m - 0xD800) + (n - 0xDC00)) ++ v)

/-- A string token. -/
def quoted (body : Str) : Str := 0x22 :: (body ++ [0x22])

/-! ## Values -/

/-- What a text can be. -/
inductive Phrase
  /-- An object or an array. -/
  | container
  | value
  /-- A value with blanks around it. -/
  | item
  /-- Items with commas between them. -/
  | elements
  | member (name : Str)
  /-- Members with commas between them. -/
  | members (names : List Str)

/-- The text is a phrase of its kind with at most `d` levels of nesting. -/
inductive Denotes : ℕ → Phrase → Str → Prop
  | word {d : ℕ} {s : Str} : s ∈ words → Denotes (d + 1) .value s
  | number {d : ℕ} {s : Str} : s ∈ number.matches' → Denotes (d + 1) .value s
  | string {d : ℕ} {body v : Str} : Chars body v → Denotes (d + 1) .value (quoted body)
  | nested {d : ℕ} {s : Str} : Denotes d .container s → Denotes d .value s
  | emptyArray {d : ℕ} {s : Str} : Blank s → Denotes (d + 1) .container (0x5B :: (s ++ [0x5D]))
  | array {d : ℕ} {s : Str} : Denotes d .elements s →
      Denotes (d + 1) .container (0x5B :: (s ++ [0x5D]))
  | emptyObject {d : ℕ} {s : Str} : Blank s → Denotes (d + 1) .container (0x7B :: (s ++ [0x7D]))
  | object {d : ℕ} {names : List Str} {s : Str} : Denotes d (.members names) s → names.Nodup →
      Denotes (d + 1) .container (0x7B :: (s ++ [0x7D]))
  | item {d : ℕ} {before s after : Str} : Blank before → Denotes d .value s → Blank after →
      Denotes d .item (before ++ s ++ after)
  | lastElement {d : ℕ} {s : Str} : Denotes d .item s → Denotes d .elements s
  | element {d : ℕ} {s t : Str} : Denotes d .item s → Denotes d .elements t →
      Denotes d .elements (s ++ 0x2C :: t)
  | member {d : ℕ} {before body name after s : Str} : Blank before → Chars body name →
      Blank after → Denotes d .item s →
      Denotes d (.member name) (before ++ quoted body ++ after ++ 0x3A :: s)
  | lastMember {d : ℕ} {name s : Str} : Denotes d (.member name) s → Denotes d (.members [name]) s
  | moreMembers {d : ℕ} {name : Str} {names : List Str} {s t : Str} : Denotes d (.member name) s →
      Denotes d (.members names) t → Denotes d (.members (name :: names)) (s ++ 0x2C :: t)

/-- A JSON document whose root is an object or an array. -/
abbrev Document (d : ℕ) (s : Str) : Prop := Denotes d .container s

/-! ## Counting brackets -/

/-- Where a reader that only looks for brackets and quotes is. -/
inductive Scan
  | outside (depth : ℕ)
  | inString (depth : ℕ)
  | escaped (depth : ℕ)

namespace Scan

def depth : Scan → ℕ
  | .outside d | .inString d | .escaped d => d

def step : Scan → UInt8 → Scan
  | .outside d, b =>
    if b = 0x22 then .inString d
    else if b = 0x5B ∨ b = 0x7B then .outside (d + 1)
    else if b = 0x5D ∨ b = 0x7D then .outside (d - 1)
    else .outside d
  | .inString d, b =>
    if b = 0x5C then .escaped d else if b = 0x22 then .outside d else .inString d
  | .escaped d, _ => .inString d

end Scan

/-- Where the reader is after a text. -/
def scan (state : Scan) (s : Str) : Scan := s.foldl Scan.step state

@[simp] theorem scan_nil (state : Scan) : scan state [] = state := rfl

@[simp] theorem scan_cons (state : Scan) (b : UInt8) (s : Str) :
    scan state (b :: s) = scan (state.step b) s := rfl

private theorem scan_append (state : Scan) (s t : Str) :
    scan state (s ++ t) = scan (scan state s) t :=
  List.foldl_append

/-- The text takes the reader from one state to another, and on the way never above the depth it
started at. -/
structure Keeps (start stop : Scan) (s : Str) : Prop where
  scan_eq : scan start s = stop
  le_depth : ∀ p, p <+: s → start.depth ≤ (scan start p).depth

theorem Keeps.nil (start : Scan) : Keeps start start [] := by
  refine ⟨rfl, fun p hp ↦ ?_⟩
  rw [List.prefix_nil.mp hp]
  exact Nat.le_refl _

private theorem Keeps.depth_le {start stop : Scan} {s : Str} (h : Keeps start stop s) :
    start.depth ≤ stop.depth := by
  rw [← h.scan_eq]
  exact h.le_depth s (List.prefix_refl s)

theorem Keeps.cons {start next stop : Scan} {b : UInt8} {s : Str} (hb : start.step b = next)
    (hdepth : start.depth ≤ next.depth) (hs : Keeps next stop s) : Keeps start stop (b :: s) := by
  subst hb
  refine ⟨hs.scan_eq, fun p hp ↦ ?_⟩
  cases p with
  | nil => exact Nat.le_refl _
  | cons b' p =>
    obtain ⟨rfl, hp'⟩ := List.cons_prefix_cons.mp hp
    exact hdepth.trans (hs.le_depth p hp')

theorem Keeps.append {start middle stop : Scan} {s t : Str} (hs : Keeps start middle s)
    (ht : Keeps middle stop t) : Keeps start stop (s ++ t) := by
  refine ⟨by rw [scan_append, hs.scan_eq, ht.scan_eq], fun p hp ↦ ?_⟩
  -- a prefix ends in the first text, or is all of it and some of the second
  obtain ⟨r, hr⟩ := hp
  rcases List.append_eq_append_iff.mp hr with ⟨rest, rfl, -⟩ | ⟨p', rfl, rfl⟩
  · exact hs.le_depth p (List.prefix_append p rest)
  · rw [scan_append, hs.scan_eq]
    exact hs.depth_le.trans (ht.le_depth p' (List.prefix_append p' r))

/-! ## Every phrase keeps the depth -/

/-- Outside a string the reader takes no notice of the byte. -/
def Plain (b : UInt8) : Prop := b ≠ 0x22 ∧ b ≠ 0x5B ∧ b ≠ 0x7B ∧ b ≠ 0x5D ∧ b ≠ 0x7D

instance (b : UInt8) : Decidable (Plain b) := inferInstanceAs (Decidable (_ ∧ _))

private theorem step_plain {b : UInt8} (hb : Plain b) (d : ℕ) :
    (Scan.outside d).step b = .outside d := by
  obtain ⟨hquote, hopen, hopen', hclose, hclose'⟩ := hb
  simp [Scan.step, *]

private theorem keeps_plain {s : Str} (hs : ∀ b ∈ s, Plain b) (d : ℕ) :
    Keeps (.outside d) (.outside d) s := by
  induction s with
  | nil => exact .nil _
  | cons b s ih =>
    rw [List.forall_mem_cons] at hs
    exact .cons (step_plain hs.1 d) (Nat.le_refl d) (ih hs.2)

/-- Inside a string the reader takes no notice of the byte. -/
def PlainInside (b : UInt8) : Prop := b ≠ 0x22 ∧ b ≠ 0x5C

private theorem step_plainInside {b : UInt8} (hb : PlainInside b) (d : ℕ) :
    (Scan.inString d).step b = .inString d := by
  simp [Scan.step, hb.1, hb.2]

private theorem keeps_plainInside {s : Str} (hs : ∀ b ∈ s, PlainInside b) (d : ℕ) :
    Keeps (.inString d) (.inString d) s := by
  induction s with
  | nil => exact .nil _
  | cons b s ih =>
    rw [List.forall_mem_cons] at hs
    exact .cons (step_plainInside hs.1 d) (Nat.le_refl d) (ih hs.2)

private theorem Spells.plainInside {h : Str} {n : ℕ} (hspells : Spells h n) :
    ∀ b ∈ h, PlainInside b := by
  have hplain : ∀ b ∈ hexadecimals, b ≠ 0x22 ∧ b ≠ 0x5C := forall_of_all (by decide)
  exact fun b hb ↦ hplain b (hspells.2.1 b hb)

private theorem keeps_escape {c : UInt8} {s : Str} {d : ℕ}
    (hs : Keeps (.inString d) (.inString d) s) :
    Keeps (.inString d) (.inString d) (0x5C :: c :: s) :=
  .cons rfl (Nat.le_refl d) (.cons rfl (Nat.le_refl d) hs)

theorem Chars.keeps {body v : Str} (h : Chars body v) (d : ℕ) :
    Keeps (.inString d) (.inString d) body := by
  induction h with
  | nil => exact .nil _
  | plain _ hquote hbackslash _ ih =>
    exact .cons (step_plainInside ⟨hquote, hbackslash⟩ d) (Nat.le_refl d) ih
  | escape _ _ ih => exact keeps_escape ih
  | unicode hh _ _ ih => exact keeps_escape ((keeps_plainInside hh.plainInside d).append ih)
  | surrogates hh _ _ hl _ _ _ ih =>
    exact keeps_escape ((keeps_plainInside hh.plainInside d).append
      (keeps_escape ((keeps_plainInside hl.plainInside d).append ih)))

private theorem keeps_quoted {body v : Str} (h : Chars body v) (d : ℕ) :
    Keeps (.outside d) (.outside d) (quoted body) :=
  .cons rfl (Nat.le_refl d) ((h.keeps d).append (.cons rfl (Nat.le_refl d) (.nil _)))

private theorem keeps_blank {s : Str} (hs : Blank s) (d : ℕ) :
    Keeps (.outside d) (.outside d) s := by
  have hplain : ∀ b ∈ blanks, Plain b := forall_of_all (by decide)
  exact keeps_plain (fun b hb ↦ hplain b (hs b hb)) d

private theorem keeps_number {s : Str} (hs : s ∈ number.matches') (d : ℕ) :
    Keeps (.outside d) (.outside d) s := by
  have hliteral : ∀ {s : Str}, (s.all fun b ↦ decide (Plain b)) = true → (literal s).Over Plain :=
    fun hs ↦ over_literal (forall_of_all hs)
  have hclass : ∀ {s : Str}, (s.all fun b ↦ decide (Plain b)) = true → (oneOf s).Over Plain :=
    fun hs ↦ over_oneOf (forall_of_all hs)
  have hdigits : (oneOf digits).Over Plain := hclass (by decide)
  have hover : number.Over Plain := by
    refine ⟨⟨⟨⟨trivial, hliteral (by decide)⟩, hliteral (by decide), hclass (by decide), hdigits⟩,
      trivial, hliteral (by decide), hdigits, hdigits⟩, trivial, ⟨hclass (by decide), trivial,
      hclass (by decide)⟩, hdigits, hdigits⟩
  exact keeps_plain (hover.forall_mem hs) d

private theorem keeps_bracketed {opening closing : UInt8} {s : Str} {d : ℕ}
    (hopening : (Scan.outside d).step opening = .outside (d + 1))
    (hclosing : (Scan.outside (d + 1)).step closing = .outside d)
    (hs : Keeps (.outside (d + 1)) (.outside (d + 1)) s) :
    Keeps (.outside d) (.outside d) (opening :: (s ++ [closing])) := by
  refine ⟨?_, fun p hp ↦ ?_⟩
  · rw [scan_cons, hopening, scan_append, hs.scan_eq, scan_cons, hclosing, scan_nil]
  · cases p with
    | nil => exact Nat.le_refl _
    | cons b p =>
      obtain ⟨rfl, hp'⟩ := List.cons_prefix_cons.mp hp
      rw [scan_cons, hopening]
      rcases List.prefix_concat_iff.mp hp' with rfl | hp'
      · rw [scan_append, hs.scan_eq, scan_cons, hclosing, scan_nil]
      · exact (Nat.le_succ d).trans (hs.le_depth p hp')

private theorem keeps_separator {b : UInt8} {s : Str} {d : ℕ} (hb : Plain b)
    (hs : Keeps (.outside d) (.outside d) s) : Keeps (.outside d) (.outside d) (b :: s) :=
  .cons (step_plain hb d) (Nat.le_refl d) hs

/-- What is inside the brackets keeps the depth, so the brackets do. -/
theorem Denotes.keeps {d : ℕ} {phrase : Phrase} {s : Str} (h : Denotes d phrase s) (n : ℕ) :
    Keeps (.outside n) (.outside n) s := by
  induction h generalizing n with
  | word hs =>
    have hwords : (words.all fun w ↦ w.all fun b ↦ decide (Plain b)) = true := by decide
    exact keeps_plain (forall_of_all (List.all_eq_true.mp hwords _ hs)) n
  | number hs => exact keeps_number hs n
  | string hs => exact keeps_quoted hs n
  | nested _ ih => exact ih n
  | emptyArray hs => exact keeps_bracketed rfl rfl (keeps_blank hs _)
  | array _ ih => exact keeps_bracketed rfl rfl (ih _)
  | emptyObject hs => exact keeps_bracketed rfl rfl (keeps_blank hs _)
  | object _ _ ih => exact keeps_bracketed rfl rfl (ih _)
  | item hbefore _ hafter ih =>
    exact ((keeps_blank hbefore n).append (ih n)).append (keeps_blank hafter n)
  | lastElement _ ih => exact ih n
  | element _ _ ihs iht => exact (ihs n).append (keeps_separator (by decide) (iht n))
  | member hbefore hname hafter _ ih =>
    have hhead := ((keeps_blank hbefore n).append (keeps_quoted hname n)).append
      (keeps_blank hafter n)
    exact hhead.append (keeps_separator (by decide) (ih n))
  | lastMember _ ih => exact ih n
  | moreMembers _ _ ihs iht => exact (ihs n).append (keeps_separator (by decide) (iht n))

/-! ## Documents delimit themselves -/

/-- A document is a bracket, a text that keeps the depth, and a bracket. -/
theorem Document.bracketed {d : ℕ} {s : Str} (h : Document d s) :
    ∃ opening inner closing, s = opening :: (inner ++ [closing]) ∧
      (opening = 0x5B ∨ opening = 0x7B) ∧
        ∀ n, Keeps (.outside n) (.outside n) inner := by
  cases h with
  | emptyArray hs => exact ⟨_, _, _, rfl, Or.inl rfl, keeps_blank hs⟩
  | array hs => exact ⟨_, _, _, rfl, Or.inl rfl, hs.keeps⟩
  | emptyObject hs => exact ⟨_, _, _, rfl, Or.inr rfl, keeps_blank hs⟩
  | object hs _ => exact ⟨_, _, _, rfl, Or.inr rfl, hs.keeps⟩

/-- Before its last byte, the reader of a document is inside it. -/
theorem Document.depth_pos {d : ℕ} {s p : Str} (h : Document d s) (hp : p <+: s) (hne : p ≠ [])
    (hproper : p ≠ s) : 1 ≤ (scan (.outside 0) p).depth := by
  obtain ⟨opening, inner, closing, rfl, hopening, hinner⟩ := h.bracketed
  cases p with
  | nil => exact absurd rfl hne
  | cons b p =>
    obtain ⟨rfl, hp'⟩ := List.cons_prefix_cons.mp hp
    have hstep : (Scan.outside 0).step b = .outside 1 := by
      rcases hopening with rfl | rfl <;> rfl
    rw [scan_cons, hstep]
    rcases List.prefix_concat_iff.mp hp' with rfl | hp'
    · exact absurd rfl hproper
    · exact (hinner 1).le_depth p hp'

private theorem Document.head_notMem_blanks {d : ℕ} {s : Str} (h : Document d s) :
    ∃ opening rest, s = opening :: rest ∧ opening ∉ blanks := by
  obtain ⟨opening, inner, closing, rfl, hopening, -⟩ := h.bracketed
  refine ⟨opening, _, rfl, ?_⟩
  rcases hopening with rfl | rfl <;> decide

theorem Document.ne_nil {d : ℕ} {s : Str} (h : Document d s) : s ≠ [] := by
  obtain ⟨opening, inner, closing, rfl, -⟩ := h.bracketed
  exact List.cons_ne_nil _ _

/-- A document is not the beginning of another. -/
theorem Document.eq_of_prefix {d d' : ℕ} {s t : Str} (hs : Document d s) (ht : Document d' t)
    (hbegins : s <+: t) : s = t := by
  by_contra hne
  have hinside := ht.depth_pos hbegins hs.ne_nil hne
  rw [(hs.keeps 0).scan_eq] at hinside
  exact absurd hinside (by decide)

/-- **A document delimits itself**: a text begins with one document at most. -/
theorem Document.eq_of_append_eq {d d' : ℕ} {s t r r' : Str} (hs : Document d s)
    (ht : Document d' t) (h : s ++ r = t ++ r') : s = t := by
  rcases List.append_eq_append_iff.mp h with ⟨rest, rfl, -⟩ | ⟨rest, rfl, -⟩
  · exact hs.eq_of_prefix ht (List.prefix_append s rest)
  · exact (ht.eq_of_prefix hs (List.prefix_append t rest)).symm

/-- And so it does after blanks. -/
theorem Document.eq_of_blank_append_eq {d d' : ℕ} {a b s t r r' : Str} (ha : Blank a)
    (hb : Blank b) (hs : Document d s) (ht : Document d' t) (h : a ++ s ++ r = b ++ t ++ r') :
    a = b ∧ s = t ∧ r = r' := by
  induction a generalizing b with
  | nil =>
    cases b with
    | nil =>
      rw [List.nil_append, List.nil_append] at h
      obtain rfl := hs.eq_of_append_eq ht h
      exact ⟨rfl, rfl, List.append_cancel_left h⟩
    | cons c b =>
      obtain ⟨opening, rest, rfl, hopening⟩ := hs.head_notMem_blanks
      obtain ⟨rfl, -⟩ := List.cons.inj h
      exact absurd (hb opening List.mem_cons_self) hopening
  | cons c a ih =>
    cases b with
    | nil =>
      obtain ⟨opening, rest, rfl, hopening⟩ := ht.head_notMem_blanks
      obtain ⟨rfl, -⟩ := List.cons.inj h
      exact absurd (ha c List.mem_cons_self) hopening
    | cons c' b =>
      obtain ⟨rfl, htail⟩ := List.cons.inj h
      obtain ⟨rfl, hst, hr⟩ := ih (fun x hx ↦ ha x (List.mem_cons_of_mem c hx))
        (fun x hx ↦ hb x (List.mem_cons_of_mem c hx)) htail
      exact ⟨rfl, hst, hr⟩

end JsonText
