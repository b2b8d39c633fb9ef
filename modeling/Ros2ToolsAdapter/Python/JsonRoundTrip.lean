import Mathlib.Data.List.TakeWhile
import Mathlib.Data.Nat.Digits.Lemmas
import Ros2ToolsAdapter.Python.Json

/-!
# What json.dumps writes, json.loads reads

`loads (dumps v)` is `v` with the entries of its dictionaries in the order they were written in
(`loads_dumps`), for a value without floats whose strings, if they are written in ASCII, have no
first half of a surrogate pair in them. Such a half would meet a second half and make one character.

A text that reads as a value does so in front of anything that cannot continue a number (`Reads`),
and the loops over the items of a container are read off from that.
-/

namespace Python

namespace Json

/-! ## Strings -/

private theorem hexValue_hexDigit {d : ℕ} (h : d < 16) : hexValue (hexDigit d) = some d := by
  have hall : ∀ d < 16, hexValue (hexDigit d) = some d := by decide
  exact hall d h

private theorem scanPieces_escapeUnit {u : ℕ} (h : u < 0x10000) (s : Text) :
    scanPieces .plain (escapeUnit u ++ s) = (scanPieces .plain s).map (Piece.push (.unit u)) := by
  have hlt (n : ℕ) : n % 16 < 16 := Nat.mod_lt _ (by decide)
  have hvalue : 16 * (16 * (16 * (16 * 0 + u / 4096 % 16) + u / 256 % 16) + u / 16 % 16) + u % 16 =
      u := by omega
  simp only [escapeUnit, List.cons_append, List.nil_append, scanPieces, hexValue_hexDigit (hlt _),
    hvalue]
  rfl

/-- The pieces a character is read back in. -/
def piecesOf (c : ℕ) : List Piece :=
  if (escapes.lookup c).isSome ∨ 0x20 ≤ c ∧ c ≤ 0x7E then [.char c]
  else if c < 0x10000 then [.unit c]
  else [.unit (0xD800 + (c - 0x10000) / 1024), .unit (0xDC00 + (c - 0x10000) % 1024)]

private theorem unescapes_of_escapes {c letter : ℕ} (h : escapes.lookup c = some letter) :
    letter ≠ 0x75 ∧ unescapes.lookup letter = some c := by
  have hall : ∀ e ∈ escapes, e.2 ≠ 0x75 ∧ unescapes.lookup e.2 = some e.1 := by decide
  have hnodup : (escapes.map Prod.fst).Nodup := by decide
  have hmem : (c, letter) ∈ escapes := by
    obtain ⟨l₁, l₂, heq, -⟩ := List.lookup_eq_some_iff.mp h
    simp [heq]
  exact hall _ hmem

private theorem plain_of_lookup_escapes {c : ℕ} (h : escapes.lookup c = none) :
    c ≠ 0x22 ∧ c ≠ 0x5C := by
  constructor <;> rintro rfl <;> simp [escapes] at h

private theorem scanPieces_escapeChar {c : ℕ} (hc : c < 0x110000) (s : Text) :
    scanPieces .plain (escapeChar c ++ s) =
      (scanPieces .plain s).map fun p ↦ (piecesOf c ++ p.1, p.2) := by
  cases hescape : escapes.lookup c with
  | some letter =>
    obtain ⟨hu, hback⟩ := unescapes_of_escapes hescape
    have htext : escapeChar c ++ s = 0x5C :: letter :: s := by rw [escapeChar, hescape]; rfl
    have hpieces : piecesOf c = [.char c] := by rw [piecesOf, if_pos (by simp [hescape])]
    rw [htext, hpieces]
    simp [scanPieces, hu, hback]
    rfl
  | none =>
    obtain ⟨hquote, hbackslash⟩ := plain_of_lookup_escapes hescape
    rw [escapeChar, hescape, piecesOf, hescape]
    by_cases hplain : 0x20 ≤ c ∧ c ≤ 0x7E
    · have hcontrol : ¬c < 0x20 := by omega
      simp [hplain, scanPieces, hquote, hbackslash, hcontrol]
      rfl
    · by_cases hunit : c < 0x10000
      · simp [hplain, hunit, scanPieces_escapeUnit hunit]
        rfl
      · have hhigh : 0xD800 + (c - 0x10000) / 1024 < 0x10000 := by omega
        have hlow : 0xDC00 + (c - 0x10000) % 1024 < 0x10000 := by omega
        simp only [hplain, hunit, if_false, List.append_assoc, scanPieces_escapeUnit hhigh,
          scanPieces_escapeUnit hlow, Option.isSome_none, Bool.false_eq_true, or_self]
        cases scanPieces .plain s <;> rfl

private theorem joinPieces_piecesOf {c : ℕ} (hc : c < 0x110000) (hhigh : ¬Text.HighSurrogate c)
    (pieces : List Piece) : joinPieces (piecesOf c ++ pieces) = c :: joinPieces pieces := by
  rw [piecesOf]
  split
  · rfl
  · split
    · cases pieces with
      | nil => rfl
      | cons p pieces =>
        cases p with
        | char d => rfl
        | unit l => simp [joinPieces, hhigh]
    · have hfirst : Text.HighSurrogate (0xD800 + (c - 0x10000) / 1024) := by
        constructor <;> omega
      have hsecond : 0xDC00 ≤ 0xDC00 + (c - 0x10000) % 1024 ∧
          0xDC00 + (c - 0x10000) % 1024 < 0xE000 := by omega
      have hvalue : 0x10000 + (0xD800 + (c - 0x10000) / 1024 - 0xD800) * 1024 +
          (0xDC00 + (c - 0x10000) % 1024 - 0xDC00) = c := by omega
      simp only [List.cons_append, List.nil_append, joinPieces, if_pos (And.intro hfirst hsecond),
        hvalue]

private theorem scanPieces_rawChar (c : ℕ) (s : Text) : ∃ piece : Piece, (piece = .char c ∨
    piece = .unit c ∧ c < 0x20) ∧
      scanPieces .plain (rawChar c ++ s) = (scanPieces .plain s).map piece.push := by
  rw [rawChar]
  cases hc : escapes.lookup c with
  | some letter =>
    obtain ⟨hletter, hunescape⟩ := unescapes_of_escapes hc
    refine ⟨.char c, Or.inl rfl, ?_⟩
    simp [scanPieces, hletter, hunescape]
  | none =>
    obtain ⟨hquote, hbackslash⟩ := plain_of_lookup_escapes hc
    by_cases hcontrol : c < 0x20
    · refine ⟨.unit c, Or.inr ⟨rfl, hcontrol⟩, ?_⟩
      dsimp only
      rw [if_pos hcontrol, scanPieces_escapeUnit (by omega)]
    · refine ⟨.char c, Or.inl rfl, ?_⟩
      dsimp only
      rw [if_neg hcontrol, List.singleton_append, scanPieces, if_neg hquote, if_neg hbackslash,
        if_neg hcontrol]

private theorem joinPieces_cons {piece : Piece} {c : ℕ}
    (h : piece = .char c ∨ piece = .unit c ∧ c < 0x20) (pieces : List Piece) :
    joinPieces (piece :: pieces) = c :: joinPieces pieces := by
  rcases h with rfl | ⟨rfl, hcontrol⟩
  · rw [joinPieces]
  · have hlow : ¬Text.HighSurrogate c := fun hhigh ↦ absurd hhigh.1 (by omega)
    cases pieces with
    | nil => simp [joinPieces]
    | cons piece pieces => cases piece <;> simp [joinPieces, hlow]

/-- The characters that come back as they were. -/
def Style.Keeps (style : Style) (c : ℕ) : Prop :=
  style.ensure_ascii = true → c < 0x110000 ∧ ¬Text.HighSurrogate c

theorem Style.keeps_of_raw {style : Style} (h : style.ensure_ascii = false) (c : ℕ) :
    style.Keeps c := by
  simp [Keeps, h]

/-- A character of a decoded text. -/
def decodedChar (c : ℕ) : Bool := decide (c < 0x110000 ∧ ¬Text.HighSurrogate c)

theorem all_decodedChar {t : Text} (ht : t.Decoded) : t.all decodedChar = true :=
  List.all_eq_true.mpr fun c hc ↦ decide_eq_true (ht c hc)

theorem Style.keeps_of_decodedChar (style : Style) (c : ℕ) (hc : decodedChar c = true) :
    style.Keeps c := fun _ ↦ of_decide_eq_true hc

private theorem scanPieces_char {style : Style} {c : ℕ} (hc : style.Keeps c) (s : Text) :
    ∃ pieces, scanPieces .plain (style.char c ++ s) =
        (scanPieces .plain s).map (fun p ↦ (pieces ++ p.1, p.2)) ∧
      ∀ rest, joinPieces (pieces ++ rest) = c :: joinPieces rest := by
  rw [Style.char]
  split
  · rename_i hascii
    obtain ⟨hlt, hhigh⟩ := hc hascii
    exact ⟨piecesOf c, scanPieces_escapeChar hlt s, joinPieces_piecesOf hlt hhigh⟩
  · obtain ⟨piece, hpiece, hscan⟩ := scanPieces_rawChar c s
    exact ⟨[piece], hscan, joinPieces_cons hpiece⟩

private theorem scanString_quote {style : Style} {s : Text} (hs : ∀ c ∈ s, style.Keeps c)
    (rest : Text) : scanString (s.flatMap style.char ++ 0x22 :: rest) = .ok (s, rest) := by
  have hpieces : ∃ pieces, scanPieces .plain (s.flatMap style.char ++ 0x22 :: rest) =
      .ok (pieces, rest) ∧ joinPieces pieces = s := by
    induction s with
    | nil => exact ⟨[], by simp [scanPieces], rfl⟩
    | cons c s ih =>
      rw [List.forall_mem_cons] at hs
      obtain ⟨pieces, hscan, hjoin⟩ := ih hs.2
      obtain ⟨first, hc, hfirst⟩ :=
        scanPieces_char hs.1 (s.flatMap style.char ++ 0x22 :: rest)
      refine ⟨first ++ pieces, ?_, by rw [hfirst, hjoin]⟩
      rw [List.flatMap_cons, List.append_assoc, hc, hscan]
      rfl
  obtain ⟨pieces, hscan, hjoin⟩ := hpieces
  rw [scanString, hscan, ← hjoin]
  rfl

/-! ## Numbers -/

theorem isDigit_of_mem_decimal {n c : ℕ} (h : c ∈ Text.decimal n) : isDigit c = true := by
  rw [Text.decimal] at h
  split at h
  · obtain rfl := List.mem_singleton.mp h
    rfl
  · obtain ⟨d, hd, rfl⟩ := List.mem_map.mp h
    have hlt : d < 10 := Nat.digits_lt_base (by decide) (List.mem_reverse.mp hd)
    simp only [isDigit, Bool.and_eq_true, decide_eq_true_eq]
    omega

theorem decimal_ne_nil (n : ℕ) : Text.decimal n ≠ [] := by
  rw [Text.decimal]
  split
  · simp
  · rename_i hn
    simpa [Nat.digits_eq_nil_iff_eq_zero] using hn

/-- No zeros in front. -/
theorem decimal_of_head_zero {n : ℕ} (h : (Text.decimal n).head? = some 0x30) : n = 0 := by
  by_contra hn
  rw [Text.decimal, if_neg hn, List.head?_map, List.head?_reverse,
    List.getLast?_eq_some_getLast (Nat.digits_ne_nil_iff_ne_zero.mpr hn)] at h
  have hlast := Nat.getLast_digit_ne_zero 10 hn
  simp only [Option.map_some, Option.some.injEq] at h
  omega

theorem ofDecimal_decimal (n : ℕ) : ofDecimal (Text.decimal n) = n := by
  rw [Text.decimal]
  split
  · rename_i hn
    rw [hn]
    rfl
  · simp [ofDecimal, Function.comp_def, Nat.ofDigits_digits]

/-- What comes after a number and is no part of it. -/
def Stops (rest : Text) : Prop :=
  ∀ c ∈ rest.head?, isDigit c = false ∧ c ≠ 0x2E ∧ c ≠ 0x65 ∧ c ≠ 0x45

private theorem Stops.digits_eq_nil {rest : Text} (h : Stops rest) : digits rest = [] := by
  cases rest with
  | nil => rfl
  | cons c rest => rw [digits, List.takeWhile_cons, (h c rfl).1]; rfl

private theorem Stops.fractionPart_eq_nil {rest : Text} (h : Stops rest) :
    fractionPart rest = [] := by
  rw [fractionPart, if_neg]
  rintro ⟨hhead, -⟩
  exact (h 0x2E hhead).2.1 rfl

private theorem Stops.exponentPart_eq_nil {rest : Text} (h : Stops rest) :
    exponentPart rest = [] := by
  cases rest with
  | nil => rfl
  | cons c rest =>
    have hc := h c rfl
    simp [exponentPart, hc.2.2.1, hc.2.2.2]

private theorem integerPart_decimal (n : ℕ) {rest : Text} (h : Stops rest) :
    integerPart (Text.decimal n ++ rest) = Text.decimal n := by
  have hhead : (Text.decimal n ++ rest).head? = (Text.decimal n).head? :=
    List.head?_append_of_ne_nil _ (decimal_ne_nil n)
  rw [integerPart, hhead]
  split
  · rename_i hzero
    rw [decimal_of_head_zero hzero]
    rfl
  · rw [digits, List.takeWhile_append_of_pos fun c hc ↦ isDigit_of_mem_decimal hc, ← digits,
      h.digits_eq_nil, List.append_nil]

private theorem scanNumber_ofInt {n : ℤ} {t : Text} (ht : Text.ofInt n = .ok t) {rest : Text}
    (h : Stops rest) : scanNumber (t ++ rest) = .ok (.int n, rest) := by
  rw [Text.ofInt] at ht
  split at ht
  · cases ht
  · rename_i hlength
    obtain rfl := Except.ok.inj ht
    have hwhole := integerPart_decimal n.natAbs h
    have hne := decimal_ne_nil n.natAbs
    by_cases hneg : n < 0
    · simp [scanNumber, hneg, hwhole, hne, h.fractionPart_eq_nil, h.exponentPart_eq_nil, intOf,
        hlength, ofDecimal_decimal, abs_of_neg hneg, Except.map]
    · have hminus : (Text.decimal n.natAbs ++ rest).head? ≠ some 0x2D := by
        rw [List.head?_append_of_ne_nil _ hne]
        intro hhead
        have hmem : 0x2D ∈ Text.decimal n.natAbs := List.mem_of_mem_head? hhead
        exact absurd (isDigit_of_mem_decimal hmem) (by decide)
      rw [if_neg hneg, scanNumber, if_neg hminus]
      simp [hwhole, hne, h.fractionPart_eq_nil, h.exponentPart_eq_nil, intOf, hlength,
        ofDecimal_decimal, abs_of_nonneg (not_lt.mp hneg), Except.map]

/-! ## Values without items -/

/-- How the text of a value starts. -/
def Opens (t : Text) : Prop := ∃ c ∈ t.head?, c < 0x80 ∧ c ∉ blanks ∧ c ≠ 0x5D ∧ c ≠ 0x7D

/-- In front of anything that cannot continue a number, the text is read as `x`. -/
def Reads {α : Type} (scan : Text → Except PyExn (α × Text)) (t : Text) (x : α) : Prop :=
  ∀ rest, Stops rest → scan (t ++ rest) = .ok (x, rest)

private theorem scanScalar_quote {style : Style} {s : Text} (hs : ∀ c ∈ s, style.Keeps c) :
    Reads scanScalar (style.quote s) (.str s) := by
  intro rest _
  simp [scanScalar, Style.quote, scanString_quote hs rest]

private theorem scanScalar_none : Reads scanScalar "null" .none := by
  intro rest _
  rfl

private theorem scanScalar_bool (b : Bool) :
    Reads scanScalar (if b then "true" else "false" : String) (.bool b) := by
  intro rest _
  cases b <;> rfl

/-- An integer starts with a digit, or with a minus sign and a digit. -/
theorem ofInt_eq {n : ℤ} {t : Text} (ht : Text.ofInt n = .ok t) :
    ∃ d s, isDigit d = true ∧ (t = d :: s ∨ t = 0x2D :: d :: s) := by
  rw [Text.ofInt] at ht
  split at ht
  · cases ht
  · obtain ⟨d, s, hds⟩ := List.exists_cons_of_ne_nil (decimal_ne_nil n.natAbs)
    have hd : isDigit d = true := isDigit_of_mem_decimal (n := n.natAbs) (by simp [hds])
    refine ⟨d, s, hd, ?_⟩
    rw [← hds, ← Except.ok.inj ht]
    by_cases hneg : n < 0 <;> simp [hneg]

/-- It starts like none of the words. -/
theorem find_words_ofInt {n : ℤ} {t : Text} (ht : Text.ofInt n = .ok t) (rest : Text) :
    words.find? (fun word ↦ word.1.isPrefixOf (t ++ rest)) = none := by
  obtain ⟨d, s, hd, hshape⟩ := ofInt_eq ht
  simp only [isDigit, Bool.and_eq_true, decide_eq_true_eq] at hd
  obtain ⟨hle, hge⟩ := hd
  obtain rfl | rfl := hshape <;> interval_cases d <;> rfl

private theorem opens_ofInt {n : ℤ} {t : Text} (ht : Text.ofInt n = .ok t) : Opens t := by
  obtain ⟨d, s, hd, hshape⟩ := ofInt_eq ht
  simp only [isDigit, Bool.and_eq_true, decide_eq_true_eq] at hd
  rcases hshape with rfl | rfl
  · refine ⟨d, rfl, by omega, ?_, by omega, by omega⟩
    simp only [blanks, List.mem_cons, List.not_mem_nil, or_false]
    omega
  · exact ⟨0x2D, rfl, by decide⟩

private theorem scanScalar_ofInt {n : ℤ} {t : Text} (ht : Text.ofInt n = .ok t) :
    Reads scanScalar t (.int n) := by
  intro rest hrest
  obtain ⟨d, s, hd, hshape⟩ := ofInt_eq ht
  have hquote : (t ++ rest).head? ≠ some 0x22 := by
    rcases hshape with rfl | rfl
    · rintro heq
      obtain rfl := Option.some.inj heq
      cases hd
    · simp
  rw [scanScalar, if_neg hquote, find_words_ofInt ht]
  exact scanNumber_ofInt ht hrest

/-! ## Items -/

private theorem skip_eq_self {s : Text} (h : ∃ c ∈ s.head?, c ∉ blanks) : skip s = s := by
  cases s with
  | nil => rfl
  | cons c s =>
    obtain ⟨c', hc', hblank⟩ := h
    obtain rfl := Option.some.inj hc'
    rw [skip, List.dropWhile_cons, if_neg (by simpa using hblank)]

/-- What may stand between the items of a container and its brackets and commas. -/
def Blank (t : Text) : Prop := ∀ c ∈ t, c ∈ blanks

instance (t : Text) : Decidable (Blank t) := inferInstanceAs (Decidable (∀ c ∈ t, _))

private theorem blank_newline (level : ℕ) : Blank (newline level) := by
  intro c hc
  rcases List.mem_cons.mp hc with rfl | hc
  · decide
  · rw [List.eq_of_mem_replicate hc]
    decide

private theorem skip_blank {t s : Text} (ht : Blank t) (h : ∃ c ∈ s.head?, c ∉ blanks) :
    skip (t ++ s) = s := by
  have hblank : ∀ c ∈ t, decide (c ∈ blanks) = true := fun c hc ↦ decide_eq_true (ht c hc)
  rw [skip, List.dropWhile_append_of_pos hblank]
  exact skip_eq_self h

theorem Opens.head? {t : Text} (h : Opens t) (rest : Text) :
    ∃ c ∈ (t ++ rest).head?, c ∉ blanks := by
  cases t with
  | nil => simp [Opens] at h
  | cons c t =>
    obtain ⟨c', hc', -, hblank, -⟩ := h
    exact ⟨c', hc', hblank⟩

private theorem Opens.head?_ne {t : Text} (h : Opens t) (rest : Text) {stop : ℕ}
    (hstop : stop = 0x5D ∨ stop = 0x7D) : (t ++ rest).head? ≠ some stop := by
  cases t with
  | nil => simp [Opens] at h
  | cons c t =>
    obtain ⟨c', hc', -, -, hbracket, hbrace⟩ := h
    obtain rfl := Option.some.inj hc'
    rintro heq
    obtain rfl := Option.some.inj heq
    exact hstop.elim hbracket hbrace

private theorem stops_of_blank {t s : Text} (ht : Blank t) (hs : Stops s) : Stops (t ++ s) := by
  cases t with
  | nil => exact hs
  | cons d t =>
    intro c hc
    obtain rfl := Option.some.inj hc
    have hblank := ht d List.mem_cons_self
    simp only [blanks, List.mem_cons, List.not_mem_nil, or_false] at hblank
    rcases hblank with rfl | rfl | rfl | rfl <;> decide

section Items

variable {α : Type} {item : Text → Except PyExn (α × Text)} {stop : ℕ}

private theorem intercalate_map_cons (sep : Text) (z : Text × α) (zs : List (Text × α)) :
    ∃ s, List.intercalate sep ((z :: zs).map Prod.fst) = z.1 ++ s := by
  cases zs with
  | nil => exact ⟨[], by simp⟩
  | cons z' zs =>
    refine ⟨sep ++ List.intercalate sep ((z' :: zs).map Prod.fst), ?_⟩
    simp [List.intercalate_cons_cons]

private theorem scanSeparated_intercalate (hstop : stop = 0x5D ∨ stop = 0x7D) {between after : Text}
    (hbetween : Blank between) (hafter : Blank after) {zs : List (Text × α)} (hne : zs ≠ [])
    (hreads : ∀ z ∈ zs, Opens z.1 ∧ Reads item z.1 z.2) (rest : Text) {rounds : ℕ}
    (hrounds : zs.length ≤ rounds) :
    scanSeparated item stop rounds
        (List.intercalate (0x2C :: between) (zs.map Prod.fst) ++ after ++ stop :: rest) =
      .ok (zs.map Prod.snd, rest) := by
  have hhead : ∃ c ∈ (stop :: rest).head?, c ∉ blanks := by
    refine ⟨stop, rfl, ?_⟩
    rcases hstop with rfl | rfl <;> decide
  have hstops : Stops (stop :: rest) := by
    rintro c ⟨rfl⟩
    rcases hstop with rfl | rfl <;> decide
  induction zs generalizing rounds with
  | nil => exact absurd rfl hne
  | cons z zs ih =>
    obtain ⟨rounds, rfl⟩ : ∃ n, rounds = n + 1 := ⟨rounds - 1, by simp at hrounds; omega⟩
    obtain ⟨hopens, hitem⟩ := hreads z List.mem_cons_self
    cases zs with
    | nil =>
      have hz := hitem (after ++ stop :: rest) (stops_of_blank hafter hstops)
      rw [List.map_cons, List.map_nil, List.intercalate_singleton, List.append_assoc, scanSeparated,
        hz]
      simp only [bind, Except.bind, skip_blank hafter hhead, List.head?_cons, if_true]
      rfl
    | cons z' zs =>
      set tail := List.intercalate (0x2C :: between) ((z' :: zs).map Prod.fst) ++
        after ++ stop :: rest with htail
      have hih : scanSeparated item stop rounds tail = .ok ((z' :: zs).map Prod.snd, rest) :=
        ih (by simp) (fun y hy ↦ hreads y (List.mem_cons_of_mem z hy))
          (Nat.le_of_succ_le_succ hrounds)
      have hz := hitem (0x2C :: (between ++ tail)) (by rintro c ⟨rfl⟩; decide)
      have htext : List.intercalate (0x2C :: between) ((z :: z' :: zs).map Prod.fst) ++
          after ++ stop :: rest = z.1 ++ 0x2C :: (between ++ tail) := by
        simp [htail, List.intercalate_cons_cons]
      have hcomma : skip (0x2C :: (between ++ tail)) = 0x2C :: (between ++ tail) :=
        skip_eq_self ⟨0x2C, rfl, by decide⟩
      have hskip : skip (between ++ tail) = tail := by
        obtain ⟨s, hs⟩ := intercalate_map_cons (0x2C :: between) z' zs
        rw [htail, hs, List.append_assoc, List.append_assoc]
        exact skip_blank hbetween ((hreads z' (by simp)).1.head? _)
      have hclose : ¬some 0x2C = some stop := by rcases hstop with rfl | rfl <;> decide
      rw [htext, scanSeparated, hz]
      simp only [bind, Except.bind, hcomma, List.head?_cons, hclose, if_false, expect, if_true,
        List.tail_cons, hskip, hih]
      rfl

private theorem length_le_length_intercalate (sep : Text) {zs : List (Text × α)}
    (hopens : ∀ z ∈ zs, Opens z.1) :
    zs.length ≤ (List.intercalate sep (zs.map Prod.fst)).length := by
  induction zs with
  | nil => simp
  | cons z zs ih =>
    have hpos : 0 < z.1.length := by
      obtain ⟨c, hc, -⟩ := hopens z List.mem_cons_self
      exact List.length_pos_of_mem (List.mem_of_mem_head? hc)
    have hrest := ih fun y hy ↦ hopens y (List.mem_cons_of_mem z hy)
    cases zs with
    | nil =>
      rw [List.map_singleton, List.intercalate_singleton]
      exact hpos
    | cons z' zs =>
      simp only [List.map_cons, List.intercalate_cons_cons, List.length_append,
        List.length_cons] at hrest ⊢
      omega

/-- The text of a container with the texts of its items. -/
def Encloses (start stop : ℕ) (items : List Text) (t : Text) : Prop :=
  if items = [] then t = [start, stop]
  else ∃ between after, Blank between ∧ Blank after ∧
    t = start :: (between ++ List.intercalate (0x2C :: between) items ++ after ++ [stop])

private theorem Style.encloses_block (style : Style) (start stop level : ℕ) (items : List Text) :
    Encloses start stop items (style.block start stop level items) := by
  have hblank (level : ℕ) : Blank (style.gap level) := by
    rw [Style.gap]
    split
    · exact blank_newline level
    · exact List.forall_mem_nil _
  rw [Encloses, Style.block]
  split
  · rfl
  · exact ⟨_, _, hblank (level + 1), hblank level, rfl⟩

/-- The text of a container, read from after its opening bracket on. -/
theorem scanItems_of_encloses (hstop : stop = 0x5D ∨ stop = 0x7D) {start : ℕ}
    {zs : List (Text × α)} {t : Text} (ht : Encloses start stop (zs.map Prod.fst) t)
    (hreads : ∀ z ∈ zs, Opens z.1 ∧ Reads item z.1 z.2) :
    ∃ body, t = start :: body ∧
      ∀ rest, scanItems item stop (body ++ rest) = .ok (zs.map Prod.snd, rest) := by
  cases zs with
  | nil =>
    refine ⟨[stop], ht, fun rest ↦ ?_⟩
    have hskip : skip (stop :: rest) = stop :: rest :=
      skip_eq_self ⟨stop, rfl, by rcases hstop with rfl | rfl <;> decide⟩
    rw [List.singleton_append, scanItems, hskip]
    exact if_pos rfl
  | cons z zs =>
    rw [Encloses, if_neg (by simp)] at ht
    obtain ⟨between, after, hbetween, hafter, ht⟩ := ht
    set items := List.intercalate (0x2C :: between) ((z :: zs).map Prod.fst) with hitems
    refine ⟨between ++ items ++ after ++ [stop], ht, fun rest ↦ ?_⟩
    obtain ⟨hopens, -⟩ := hreads z List.mem_cons_self
    obtain ⟨s, hs⟩ := intercalate_map_cons (0x2C :: between) z zs
    have htext : between ++ items ++ after ++ [stop] ++ rest =
        between ++ (items ++ after ++ stop :: rest) := by simp
    have hfront : items ++ after ++ stop :: rest = z.1 ++ (s ++ after ++ stop :: rest) := by
      rw [hitems, hs]
      simp
    have hskip : skip (between ++ (items ++ after ++ stop :: rest)) =
        items ++ after ++ stop :: rest := by
      refine skip_blank hbetween ?_
      rw [hfront]
      exact hopens.head? _
    have hmore : (items ++ after ++ stop :: rest).head? ≠ some stop := by
      rw [hfront]
      exact hopens.head?_ne _ hstop
    have hrounds : (z :: zs).length ≤ (items ++ after ++ stop :: rest).length := by
      have h := length_le_length_intercalate (0x2C :: between) fun y hy ↦ (hreads y hy).1
      rw [← hitems] at h
      simp only [List.length_append]
      omega
    rw [htext, scanItems, hskip, if_neg hmore]
    exact scanSeparated_intercalate hstop hbetween hafter (by simp) hreads rest hrounds

end Items

/-! ## Dictionaries -/

private theorem Style.opens_quote (style : Style) (s rest : Text) : Opens (style.quote s ++ rest) :=
  ⟨0x22, rfl, by decide⟩

/-- A member of a dictionary: a text that is read as its key, a colon and the text of its value. -/
theorem scanMember_of_key {scan : Text → Except PyExn (Value × Text)} {quoted key t : Text}
    {v : Value} (hkey : ∀ rest, scanString (quoted ++ 0x22 :: rest) = .ok (key, rest))
    {blank : Text} (hblank : Blank blank) (hopens : Opens t) (ht : Reads scan t v) :
    Reads (scanMember scan) (0x22 :: (quoted ++ [0x22]) ++ 0x3A :: (blank ++ t)) (key, v) := by
  intro rest hrest
  have htext : 0x22 :: (quoted ++ [0x22]) ++ 0x3A :: (blank ++ t) ++ rest =
      0x22 :: (quoted ++ 0x22 :: 0x3A :: (blank ++ (t ++ rest))) := by simp
  have hcolon : skip (0x3A :: (blank ++ (t ++ rest))) = 0x3A :: (blank ++ (t ++ rest)) :=
    skip_eq_self ⟨0x3A, rfl, by decide⟩
  have hskip : skip (blank ++ (t ++ rest)) = t ++ rest := skip_blank hblank (hopens.head? rest)
  rw [htext, scanMember]
  simp only [bind, Except.bind, expect, List.head?_cons, if_true, List.tail_cons, hkey, hcolon,
    hskip, ht rest hrest]
  rfl

private theorem Style.scanMember_member (style : Style) {scan : Text → Except PyExn (Value × Text)}
    {key t : Text} {v : Value} (hkey : ∀ c ∈ key, style.Keeps c) (hopens : Opens t)
    (ht : Reads scan t v) : Reads (scanMember scan) (style.member (key, t)) (key, v) := by
  refine scanMember_of_key (scanString_quote hkey) ?_ hopens ht
  split <;> decide

private theorem foldl_setItem {entries pairs : List (Text × Value)}
    (hnodup : ((entries ++ pairs).map Prod.fst).Nodup) :
    pairs.foldl (fun entries pair ↦ setItem entries pair.1 pair.2) entries = entries ++ pairs := by
  induction pairs generalizing entries with
  | nil => simp
  | cons pair pairs ih =>
    have hnew : pair.1 ∉ entries.map Prod.fst := by
      intro hmem
      rw [List.map_append, List.map_cons] at hnodup
      exact (List.nodup_append.mp hnodup).2.2 _ hmem _ List.mem_cons_self rfl
    rw [List.foldl_cons, setItem, if_neg hnew, ih (by simpa using hnodup)]
    simp

private theorem dictOf_eq_self {pairs : List (Text × Value)} (hnodup : (pairs.map Prod.fst).Nodup) :
    dictOf pairs = pairs := by
  have h : dictOf pairs = [] ++ pairs := foldl_setItem hnodup
  exact h

end Json

namespace Value

/-! ## Values -/

mutual

/-- Every dictionary has each of its keys once. -/
def Keyed : Value → Prop
  | .list items => KeyedItems items
  | .dict entries => (entries.map Prod.fst).Nodup ∧ KeyedEntries entries
  | _ => True

def KeyedItems : List Value → Prop
  | [] => True
  | v :: items => v.Keyed ∧ KeyedItems items

def KeyedEntries : List (Text × Value) → Prop
  | [] => True
  | (_, v) :: entries => v.Keyed ∧ KeyedEntries entries

end

mutual

/-- There are no floats, and every character of a string, keys included, and every integer is one
that may be there. -/
def all (p : ℕ → Bool) (q : ℤ → Bool) : Value → Bool
  | .float _ => false
  | .int n => q n
  | .str s => s.all p
  | .list items => allItems p q items
  | .dict entries => allEntries p q entries
  | _ => true

def allItems (p : ℕ → Bool) (q : ℤ → Bool) : List Value → Bool
  | [] => true
  | v :: items => v.all p q && allItems p q items

def allEntries (p : ℕ → Bool) (q : ℤ → Bool) : List (Text × Value) → Bool
  | [] => true
  | (key, v) :: entries => key.all p && v.all p q && allEntries p q entries

end

mutual

/-- How deeply containers are nested. -/
def depth : Value → ℕ
  | .list items => depthItems items + 1
  | .dict entries => depthEntries entries + 1
  | _ => 0

def depthItems : List Value → ℕ
  | [] => 0
  | v :: items => max v.depth (depthItems items)

def depthEntries : List (Text × Value) → ℕ
  | [] => 0
  | (_, v) :: entries => max v.depth (depthEntries entries)

end

def sortByKey (entries : List (Text × Value)) : List (Text × Value) :=
  entries.mergeSort fun a b ↦ a.1 ≤ b.1

/-- There is one order of the entries of a dictionary in which the keys go up. -/
theorem sortByKey_eq {entries sorted : List (Text × Value)} (hperm : entries.Perm sorted)
    (hkeys : (sorted.map Prod.fst).Pairwise (· < ·)) : sortByKey entries = sorted := by
  have hsort : (sortByKey entries).Pairwise fun a b ↦ decide (a.1 ≤ b.1) = true :=
    List.pairwise_mergeSort (fun a b c hab hbc ↦ decide_eq_true
      ((of_decide_eq_true hab).trans (of_decide_eq_true hbc)))
      (fun a b ↦ by simpa using le_total a.1 b.1) entries
  have hsame : (sortByKey entries).Perm sorted := (List.mergeSort_perm _ _).trans hperm
  refine List.Perm.eq_of_pairwise ?_ hsort ?_ hsame
  · intro a b ha hb hab hba
    refine List.inj_on_of_nodup_map (hkeys.imp fun h ↦ h.ne) (hsame.subset ha) hb ?_
    exact le_antisymm (of_decide_eq_true hab) (of_decide_eq_true hba)
  · exact (List.pairwise_map.mp hkeys).imp fun h ↦ decide_eq_true h.le

mutual

/-- The value with the entries of its dictionaries in the order of their keys. -/
def sorted : Value → Value
  | .list items => .list (sortedItems items)
  | .dict entries => .dict (sortByKey (sortedEntries entries))
  | v => v

def sortedItems : List Value → List Value
  | [] => []
  | v :: items => v.sorted :: sortedItems items

def sortedEntries : List (Text × Value) → List (Text × Value)
  | [] => []
  | (key, v) :: entries => (key, v.sorted) :: sortedEntries entries

end

private theorem map_fst_sortedEntries (entries : List (Text × Value)) :
    (sortedEntries entries).map Prod.fst = entries.map Prod.fst := by
  induction entries with
  | nil => rfl
  | cons entry entries ih => rw [sortedEntries, List.map_cons, List.map_cons, ih]

theorem perm_keys_sorted (entries : List (Text × Value)) :
    ((sortByKey (sortedEntries entries)).map Prod.fst).Perm (entries.map Prod.fst) := by
  rw [← map_fst_sortedEntries entries]
  exact (List.mergeSort_perm _ _).map Prod.fst

private theorem mem_sortedEntries {entries : List (Text × Value)} {key : Text} {v : Value}
    (h : (key, v) ∈ entries) : (key, v.sorted) ∈ sortedEntries entries := by
  induction entries with
  | nil => cases h
  | cons entry entries ih =>
    rw [sortedEntries]
    rcases List.mem_cons.mp h with rfl | h
    · exact List.mem_cons_self
    · exact List.mem_cons_of_mem _ (ih h)

theorem sameKeys_sorted {entries : List (Text × Value)} {fields : List Text}
    (h : SameKeys entries fields) : SameKeys (sortByKey (sortedEntries entries)) fields := by
  have hperm := perm_keys_sorted entries
  refine ⟨fun entry hentry ↦ ?_, fun field hfield ↦ hperm.mem_iff.mpr (h.2 field hfield)⟩
  have hmem := hperm.mem_iff.mp (List.mem_map.mpr ⟨entry, hentry, rfl⟩)
  obtain ⟨entry', hentry', heq⟩ := List.mem_map.mp hmem
  rw [← heq]
  exact h.1 entry' hentry'

end Value

namespace Record

variable {fields : List Text}

/-- The dictionary as it is read back. -/
def sorted (r : Record fields) : Record fields :=
  ⟨Value.sortByKey (Value.sortedEntries r.1), Value.sameKeys_sorted r.2⟩

theorem toValue_sorted (r : Record fields) : r.sorted.toValue = r.toValue.sorted := by
  rw [toValue, toValue, Value.sorted]
  rfl

private theorem get_sorted (r : Record fields) (hnodup : (r.1.map Prod.fst).Nodup) {key : Text}
    (hkey : key ∈ fields) : r.sorted.get key hkey = (r.get key hkey).sorted := by
  have hmem := (lookup_eq_some_iff_mem hnodup).mp (r.lookup_eq hkey)
  refine r.sorted.get_eq_of_mem ((Value.perm_keys_sorted r.1).nodup_iff.mpr hnodup) hkey ?_
  exact List.mem_mergeSort.mpr (Value.mem_sortedEntries hmem)

/-- What is under a key of a dictionary that was written field by field. -/
theorem get_sorted_of_mem (r : Record fields) (hkeys : r.1.map Prod.fst = fields)
    (hnodup : fields.Nodup) {key : Text} (hkey : key ∈ fields) {v : Value} (h : (key, v) ∈ r.1) :
    r.sorted.get key hkey = v.sorted := by
  rw [← hkeys] at hnodup
  rw [r.get_sorted hnodup, r.get_eq_of_mem hnodup hkey h]

theorem get_sorted_str (r : Record fields) (hkeys : r.1.map Prod.fst = fields)
    (hnodup : fields.Nodup) {key : Text} (hkey : key ∈ fields) {s : Text}
    (h : (key, .str s) ∈ r.1) : r.sorted.get key hkey = .str s :=
  r.get_sorted_of_mem hkeys hnodup hkey h

end Record

namespace Json

open Value

private theorem scanOnce_of_scalar {t : Text} {v : Value} (hopens : Opens t)
    (ht : Reads scanScalar t v) (hbracket : t.head? ≠ some 0x5B) (hbrace : t.head? ≠ some 0x7B)
    (d : ℕ) :
    Reads (scanOnce d) t v := by
  intro rest hrest
  have hhead : (t ++ rest).head? = t.head? := by
    cases t with
    | nil => simp [Opens] at hopens
    | cons c t => rfl
  cases d with
  | zero => rw [scanOnce, hhead, if_neg (by simp [hbracket, hbrace]), ht rest hrest]
  | succ d => rw [scanOnce, hhead, if_neg hbracket, if_neg hbrace, ht rest hrest]

private theorem opens_of_encloses {start stop : ℕ} (hstart : start = 0x5B ∨ start = 0x7B)
    {items : List Text} {t : Text} (ht : Encloses start stop items t) : Opens t := by
  have hhead : t.head? = some start := by
    rw [Encloses] at ht
    split at ht
    · rw [ht]
      rfl
    · obtain ⟨_, _, -, -, rfl⟩ := ht
      rfl
  refine ⟨start, hhead, ?_⟩
  rcases hstart with rfl | rfl <;> decide

/-- A list of items that are read is read. -/
theorem reads_list {d : ℕ} {zs : List (Text × Value)} {t : Text}
    (ht : Encloses 0x5B 0x5D (zs.map Prod.fst) t)
    (hreads : ∀ z ∈ zs, Opens z.1 ∧ Reads (scanOnce d) z.1 z.2) :
    Reads (scanOnce (d + 1)) t (.list (zs.map Prod.snd)) := by
  intro rest _
  obtain ⟨body, rfl, hbody⟩ := scanItems_of_encloses (Or.inl rfl) ht hreads
  rw [List.cons_append, scanOnce, List.head?_cons, if_pos rfl, List.tail_cons, hbody rest]
  rfl

/-- A dictionary whose members are read is read. -/
theorem reads_dict {d : ℕ} {zs : List (Text × Text × Value)} (hnodup : (zs.map Prod.fst).Nodup)
    {write : Text × Text → Text} {t : Text}
    (ht : Encloses 0x7B 0x7D (zs.map fun z ↦ write (z.1, z.2.1)) t)
    (hreads : ∀ z ∈ zs, Opens (write (z.1, z.2.1)) ∧
      Reads (scanMember (scanOnce d)) (write (z.1, z.2.1)) (z.1, z.2.2)) :
    Reads (scanOnce (d + 1)) t (.dict (zs.map fun z ↦ (z.1, z.2.2))) := by
  intro rest _
  -- a member is an item with its own text and value
  have hmembers : ∀ y ∈ zs.map (fun z ↦ (write (z.1, z.2.1), (z.1, z.2.2))),
      Opens y.1 ∧ Reads (scanMember (scanOnce d)) y.1 y.2 := by
    intro y hy
    obtain ⟨z, hz, rfl⟩ := List.mem_map.mp hy
    exact hreads z hz
  have htexts : zs.map (fun z ↦ write (z.1, z.2.1)) =
      (zs.map fun z ↦ (write (z.1, z.2.1), (z.1, z.2.2))).map Prod.fst := by
    rw [List.map_map]
    rfl
  rw [htexts] at ht
  obtain ⟨body, rfl, hbody⟩ := scanItems_of_encloses (Or.inr rfl) ht hmembers
  rw [List.map_map] at hbody
  have hpairs : dictOf (zs.map (Prod.snd ∘ fun z ↦ (write (z.1, z.2.1), (z.1, z.2.2)))) =
      zs.map fun z ↦ (z.1, z.2.2) :=
    dictOf_eq_self (by simpa [Function.comp_def] using hnodup)
  have hbrace : ¬some 0x7B = some 0x5B := by decide
  rw [List.cons_append, scanOnce, List.head?_cons, if_neg hbrace, if_pos rfl,
    List.tail_cons, hbody rest, ← hpairs]
  rfl

theorem mergeSort_map_snd {β γ : Type} (zs : List (Text × β)) (f : β → γ) :
    ((zs.map fun z ↦ (z.1, f z.2)).mergeSort fun a b ↦ a.1 ≤ b.1) =
      (zs.mergeSort fun a b ↦ a.1 ≤ b.1).map fun z ↦ (z.1, f z.2) := by
  refine (List.map_mergeSort ?_).symm
  intro a _ b _
  rfl

/-! ## What is written is read -/

namespace Style

variable (python : Interpreter) (style : Style) {p : ℕ → Bool} {q : ℤ → Bool}

mutual

/-- The value with the entries of its dictionaries in the order they are written in. -/
def arrange : Value → Value
  | .list items => .list (arrangeItems items)
  | .dict entries => .dict (style.order (arrangeEntries entries))
  | v => v

def arrangeItems : List Value → List Value
  | [] => []
  | v :: items => arrange v :: arrangeItems items

def arrangeEntries : List (Text × Value) → List (Text × Value)
  | [] => []
  | (key, v) :: entries => (key, arrange v) :: arrangeEntries entries

end

theorem order_map {β γ : Type} (zs : List (Text × β)) (f : β → γ) :
    style.order (zs.map fun z ↦ (z.1, f z.2)) = (style.order zs).map fun z ↦ (z.1, f z.2) := by
  rw [order, order]
  split
  · exact mergeSort_map_snd zs f
  · rfl

theorem order_perm {β : Type} (zs : List (Text × β)) : (style.order zs).Perm zs := by
  rw [order]
  split
  · exact List.mergeSort_perm _ _
  · exact List.Perm.refl zs

private theorem map_fst_arrangeEntries (entries : List (Text × Value)) :
    (style.arrangeEntries entries).map Prod.fst = entries.map Prod.fst := by
  induction entries with
  | nil => rfl
  | cons entry entries ih => rw [arrangeEntries, List.map_cons, List.map_cons, ih]

mutual

private theorem dumpsAt_reads (hp : ∀ c, p c = true → style.Keeps c) (v : Value) (hkeyed : v.Keyed)
    (hall : v.all p q = true) {level : ℕ} {t : Text} (ht : style.dumpsAt python level v = .ok t) :
    Opens t ∧ ∀ d, v.depth ≤ d → Reads (scanOnce d) t (style.arrange v) := by
  cases v with
  | none =>
    obtain rfl := Except.ok.inj ht
    exact ⟨⟨0x6E, rfl, by decide⟩, fun d _ ↦
      scanOnce_of_scalar ⟨0x6E, rfl, by decide⟩ scanScalar_none (by decide) (by decide) d⟩
  | bool b =>
    obtain rfl := Except.ok.inj ht
    have hopens : Opens (if b then "true" else "false" : String) := by
      cases b
      · exact ⟨0x66, rfl, by decide⟩
      · exact ⟨0x74, rfl, by decide⟩
    exact ⟨hopens, fun d _ ↦ scanOnce_of_scalar hopens (scanScalar_bool b)
      (by cases b <;> decide) (by cases b <;> decide) d⟩
  | int n =>
    have hopens := opens_ofInt ht
    obtain ⟨c, s, hc, hshape⟩ := ofInt_eq ht
    have hstart (stop : ℕ) (hstop : isDigit stop = false ∧ stop ≠ 0x2D) : t.head? ≠ some stop := by
      rcases hshape with rfl | rfl
      · rintro ⟨rfl⟩
        simp [hc] at hstop
      · rintro ⟨rfl⟩
        exact hstop.2 rfl
    exact ⟨hopens, fun d _ ↦ scanOnce_of_scalar hopens (scanScalar_ofInt ht)
      (hstart 0x5B (by decide)) (hstart 0x7B (by decide)) d⟩
  | float x => cases hall
  | str s =>
    obtain rfl := Except.ok.inj ht
    have hkept : ∀ c ∈ s, style.Keeps c := fun c hc ↦ hp c (List.all_eq_true.mp hall c hc)
    have hopens : Opens (style.quote s) := ⟨0x22, rfl, by decide⟩
    exact ⟨hopens, fun d _ ↦ scanOnce_of_scalar hopens (scanScalar_quote hkept)
      (by simp [quote]) (by simp [quote]) d⟩
  | list items =>
    obtain ⟨texts, htexts, hblock⟩ := Except.bind_eq_ok.mp ht
    obtain rfl := Except.ok.inj hblock
    obtain ⟨zs, rfl, hvalues, hzs⟩ := dumpsItems_reads hp items hkeyed hall htexts
    have hblock := style.encloses_block 0x5B 0x5D level (zs.map Prod.fst)
    refine ⟨opens_of_encloses (Or.inl rfl) hblock, fun d hd ↦ ?_⟩
    obtain ⟨d, rfl⟩ : ∃ n, d = n + 1 := ⟨d - 1, by rw [Value.depth] at hd; omega⟩
    rw [arrange, ← hvalues]
    exact reads_list hblock fun z hz ↦
      ⟨(hzs z hz).1, (hzs z hz).2 d (Nat.le_of_succ_le_succ hd)⟩
  | dict entries =>
    obtain ⟨texts, htexts, hblock⟩ := Except.bind_eq_ok.mp ht
    obtain rfl := Except.ok.inj hblock
    obtain ⟨zs, rfl, hvalues, hzs⟩ := dumpsEntries_reads hp entries hkeyed.2 hall htexts
    refine ⟨opens_of_encloses (Or.inr rfl) (style.encloses_block _ _ _ _), fun d hd ↦ ?_⟩
    obtain ⟨d, rfl⟩ : ∃ n, d = n + 1 := ⟨d - 1, by rw [Value.depth] at hd; omega⟩
    -- texts and values are put in the same order
    have hperm := style.order_perm zs
    have hnodup : ((style.order zs).map Prod.fst).Nodup := by
      have hkeys : zs.map Prod.fst = entries.map Prod.fst := by
        rw [← style.map_fst_arrangeEntries, ← hvalues, List.map_map]
        rfl
      rw [(hperm.map Prod.fst).nodup_iff, hkeys]
      exact hkeyed.1
    rw [arrange, ← hvalues, style.order_map zs Prod.snd, style.order_map zs Prod.fst, List.map_map]
    refine reads_dict hnodup (style.encloses_block _ _ _ _) fun z hz ↦ ?_
    obtain ⟨hkey, hopens, hread⟩ := hzs z (hperm.mem_iff.mp hz)
    exact ⟨style.opens_quote _ _,
      style.scanMember_member hkey hopens (hread d (Nat.le_of_succ_le_succ hd))⟩

private theorem dumpsItems_reads (hp : ∀ c, p c = true → style.Keeps c) (items : List Value)
    (hkeyed : Value.KeyedItems items) (hall : Value.allItems p q items = true) {level : ℕ}
    {texts : List Text} (ht : style.dumpsItems python level items = .ok texts) :
    ∃ zs : List (Text × Value), zs.map Prod.fst = texts ∧
      zs.map Prod.snd = style.arrangeItems items ∧
      ∀ z ∈ zs, Opens z.1 ∧ ∀ d, Value.depthItems items ≤ d → Reads (scanOnce d) z.1 z.2 := by
  cases items with
  | nil =>
    obtain rfl := Except.ok.inj ht
    exact ⟨[], rfl, rfl, by simp⟩
  | cons v items =>
    obtain ⟨t, hv, hrest⟩ := Except.bind_eq_ok.mp ht
    obtain ⟨texts', htexts, heq⟩ := Except.bind_eq_ok.mp hrest
    obtain rfl := Except.ok.inj heq
    rw [Value.allItems, Bool.and_eq_true] at hall
    obtain ⟨hopens, hread⟩ := dumpsAt_reads hp v hkeyed.1 hall.1 hv
    obtain ⟨zs, rfl, hvalues, hzs⟩ := dumpsItems_reads hp items hkeyed.2 hall.2 htexts
    refine ⟨(t, style.arrange v) :: zs, rfl, by rw [arrangeItems, ← hvalues]; rfl, ?_⟩
    rw [List.forall_mem_cons]
    refine ⟨⟨hopens, fun d hd ↦ hread d ((le_max_left _ _).trans hd)⟩, fun z hz ↦ ?_⟩
    exact ⟨(hzs z hz).1, fun d hd ↦ (hzs z hz).2 d ((le_max_right _ _).trans hd)⟩

private theorem dumpsEntries_reads (hp : ∀ c, p c = true → style.Keeps c)
    (entries : List (Text × Value)) (hkeyed : Value.KeyedEntries entries)
    (hall : Value.allEntries p q entries = true) {level : ℕ}
    {texts : List (Text × Text)} (ht : style.dumpsEntries python level entries = .ok texts) :
    ∃ zs : List (Text × Text × Value), zs.map (fun z ↦ (z.1, z.2.1)) = texts ∧
      zs.map (fun z ↦ (z.1, z.2.2)) = style.arrangeEntries entries ∧
      ∀ z ∈ zs, (∀ c ∈ z.1, style.Keeps c) ∧ Opens z.2.1 ∧
        ∀ d, Value.depthEntries entries ≤ d → Reads (scanOnce d) z.2.1 z.2.2 := by
  cases entries with
  | nil =>
    obtain rfl := Except.ok.inj ht
    exact ⟨[], rfl, rfl, by simp⟩
  | cons entry entries =>
    obtain ⟨key, v⟩ := entry
    obtain ⟨t, hv, hrest⟩ := Except.bind_eq_ok.mp ht
    obtain ⟨texts', htexts, heq⟩ := Except.bind_eq_ok.mp hrest
    obtain rfl := Except.ok.inj heq
    rw [Value.allEntries, Bool.and_eq_true, Bool.and_eq_true] at hall
    obtain ⟨hopens, hread⟩ := dumpsAt_reads hp v hkeyed.1 hall.1.2 hv
    obtain ⟨zs, rfl, hvalues, hzs⟩ := dumpsEntries_reads hp entries hkeyed.2 hall.2 htexts
    refine ⟨(key, t, style.arrange v) :: zs, rfl, by rw [arrangeEntries, ← hvalues]; rfl, ?_⟩
    have hkey : ∀ c ∈ key, style.Keeps c := fun c hc ↦ hp c (List.all_eq_true.mp hall.1.1 c hc)
    rw [List.forall_mem_cons]
    refine ⟨⟨hkey, hopens, fun d hd ↦ hread d ((le_max_left _ _).trans hd)⟩, fun z hz ↦ ?_⟩
    exact ⟨(hzs z hz).1, (hzs z hz).2.1,
      fun d hd ↦ (hzs z hz).2.2 d ((le_max_right _ _).trans hd)⟩

end

mutual

theorem arrange_of_unsorted (h : style.sort_keys = false) (v : Value) : style.arrange v = v := by
  cases v with
  | list items => rw [arrange, arrangeItems_of_unsorted h items]
  | dict entries =>
    rw [arrange, arrangeEntries_of_unsorted h entries, order, if_neg (by simp [h])]
  | _ => simp only [arrange]

private theorem arrangeItems_of_unsorted (h : style.sort_keys = false) (items : List Value) :
    style.arrangeItems items = items := by
  cases items with
  | nil => rfl
  | cons v items =>
    rw [arrangeItems, arrange_of_unsorted h v, arrangeItems_of_unsorted h items]

private theorem arrangeEntries_of_unsorted (h : style.sort_keys = false)
    (entries : List (Text × Value)) : style.arrangeEntries entries = entries := by
  cases entries with
  | nil => rfl
  | cons entry entries =>
    rw [arrangeEntries, arrange_of_unsorted h entry.2, arrangeEntries_of_unsorted h entries]

end

mutual

theorem arrange_of_sorted (h : style.sort_keys = true) (v : Value) :
    style.arrange v = v.sorted := by
  cases v with
  | list items => rw [arrange, Value.sorted, arrangeItems_of_sorted h items]
  | dict entries =>
    rw [arrange, Value.sorted, arrangeEntries_of_sorted h entries, order, if_pos h]
    rfl
  | _ => simp only [arrange, Value.sorted]

private theorem arrangeItems_of_sorted (h : style.sort_keys = true) (items : List Value) :
    style.arrangeItems items = Value.sortedItems items := by
  cases items with
  | nil => rfl
  | cons v items =>
    rw [arrangeItems, Value.sortedItems, arrange_of_sorted h v, arrangeItems_of_sorted h items]

private theorem arrangeEntries_of_sorted (h : style.sort_keys = true)
    (entries : List (Text × Value)) :
    style.arrangeEntries entries = Value.sortedEntries entries := by
  cases entries with
  | nil => rfl
  | cons entry entries =>
    rw [arrangeEntries, Value.sortedEntries, arrange_of_sorted h entry.2,
      arrangeEntries_of_sorted h entries]

end

end Style

/-- A text that reads as a value is one document, with blanks after it or without. -/
theorem loads_of_reads (python : Interpreter) {v : Value} {t tail : Text} (hopens : Opens t)
    (htail : Blank tail) (hread : Reads (scanOnce python.recursionLimit) t v) :
    loads python (t ++ tail) = .ok v := by
  have hscan := hread tail (by simpa using stops_of_blank htail (s := []) nofun)
  have hmark : (t ++ tail).head? ≠ some 0xFEFF := by
    cases t with
    | nil => simp [Opens] at hopens
    | cons c t =>
      obtain ⟨c', hc', hlt, -⟩ := hopens
      rintro ⟨rfl⟩
      obtain rfl := Option.some.inj hc'
      exact absurd hlt (by decide)
  have hrest : skip tail = [] := List.dropWhile_eq_nil_iff.mpr fun c hc ↦
    decide_eq_true (htail c hc)
  rw [loads, if_neg hmark, skip_eq_self (hopens.head? tail)]
  simp only [bind, Except.bind, pure, Except.pure, hscan, hrest]
  rfl

/-- What `json.dumps` writes, `json.loads` reads, with the entries as they are arranged. -/
theorem Style.loads_dumps (python : Interpreter) (style : Style) {p : ℕ → Bool} {q : ℤ → Bool}
    (hp : ∀ c, p c = true → style.Keeps c) {v : Value} (hkeyed : v.Keyed) (hall : v.all p q = true)
    (hdepth : v.depth ≤ python.recursionLimit) {t tail : Text} (htail : Blank tail)
    (ht : style.dumps python v = .ok t) :
    loads python (t ++ tail) = .ok (style.arrange v) := by
  obtain ⟨hopens, hread⟩ := dumpsAt_reads python style hp v hkeyed hall ht
  exact loads_of_reads python hopens htail (hread python.recursionLimit hdepth)

end Json

end Python
