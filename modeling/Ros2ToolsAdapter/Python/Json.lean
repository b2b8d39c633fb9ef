import Mathlib.Data.List.Sort
import Ros2ToolsAdapter.Foundation.Except
import Ros2ToolsAdapter.Python.Value

/-!
# The json module

`json.dumps` with the arguments that are passed to it here (`Style`), and `json.loads(s)` with the
defaults of everything: the reader takes `NaN` and the infinities, keeps the last of two members of
one name, and reads half a surrogate pair as it stands.

The loops over the items of a container run on a number of rounds, which is the length of the text.
-/

namespace Python.Json

/-! ## Writing -/

/-- A hexadecimal digit, in lower case. -/
def hexDigit (d : ℕ) : ℕ := if d < 10 then 0x30 + d else 0x57 + d

/-- `\uXXXX` -/
def escapeUnit (u : ℕ) : Text :=
  [0x5C, 0x75, hexDigit (u / 4096 % 16), hexDigit (u / 256 % 16), hexDigit (u / 16 % 16),
    hexDigit (u % 16)]

/-- The characters with an escape of their own, and the letter of it. -/
def escapes : List (ℕ × ℕ) :=
  [(0x22, 0x22), (0x5C, 0x5C), (0x08, 0x62), (0x0C, 0x66), (0x0A, 0x6E), (0x0D, 0x72), (0x09, 0x74)]

/-- A character of a string with `ensure_ascii=True`. -/
def escapeChar (c : ℕ) : Text :=
  match escapes.lookup c with
  | some letter => [0x5C, letter]
  | none =>
    if 0x20 ≤ c ∧ c ≤ 0x7E then [c]
    else if c < 0x10000 then escapeUnit c
    else escapeUnit (0xD800 + (c - 0x10000) / 1024) ++ escapeUnit (0xDC00 + (c - 0x10000) % 1024)

/-- A character of a string with `ensure_ascii=False`. -/
def rawChar (c : ℕ) : Text :=
  match escapes.lookup c with
  | some letter => [0x5C, letter]
  | none => if c < 0x20 then escapeUnit c else [c]

/-- A line break and the indentation of the line after it. -/
def newline (level : ℕ) : Text := 0x0A :: List.replicate (2 * level) 0x20

/-- The arguments of `json.dumps`. -/
structure Style where
  ensure_ascii : Bool
  sort_keys : Bool
  /-- `indent=2`; otherwise `separators=(",", ":")`. -/
  indent : Bool

namespace Style

variable (python : Interpreter) (style : Style)

def char (c : ℕ) : Text := if style.ensure_ascii then escapeChar c else rawChar c

def quote (s : Text) : Text := 0x22 :: (s.flatMap style.char ++ [0x22])

/-- What is between an item and the bracket or the comma before it. -/
def gap (level : ℕ) : Text := if style.indent then newline level else []

/-- The items of a container, each on a line of its own where lines are broken. -/
def block (start stop level : ℕ) (items : List Text) : Text :=
  if items = [] then [start, stop]
  else start :: (style.gap (level + 1) ++
    List.intercalate (0x2C :: style.gap (level + 1)) items ++ style.gap level ++ [stop])

def member (entry : Text × Text) : Text :=
  style.quote entry.1 ++ 0x3A :: ((if style.indent then [0x20] else []) ++ entry.2)

/-- The entries of a dictionary in the order they are written in. -/
def order {β : Type} (entries : List (Text × β)) : List (Text × β) :=
  if style.sort_keys then entries.mergeSort fun a b ↦ a.1 ≤ b.1 else entries

mutual

/-- The text of a value on the given level of indentation. -/
def dumpsAt (level : ℕ) : Value → Except PyExn Text
  | .none => .ok "null"
  | .bool b => .ok (if b then "true" else "false" : String)
  | .int n => Text.ofInt n
  | .float x => .ok (python.floatRepr x)
  | .str s => .ok (style.quote s)
  | .list items => do return style.block 0x5B 0x5D level (← dumpsItems (level + 1) items)
  | .dict entries => do
    let entries ← dumpsEntries (level + 1) entries
    return style.block 0x7B 0x7D level ((style.order entries).map style.member)

def dumpsItems (level : ℕ) : List Value → Except PyExn (List Text)
  | [] => .ok []
  | v :: items => do return (← dumpsAt level v) :: (← dumpsItems level items)

def dumpsEntries (level : ℕ) : List (Text × Value) → Except PyExn (List (Text × Text))
  | [] => .ok []
  | (key, v) :: entries => do return (key, ← dumpsAt level v) :: (← dumpsEntries level entries)

end

/-- `json.dumps(v, …)` -/
def dumps (v : Value) : Except PyExn Text := style.dumpsAt python 0 v

end Style

/-! ## Reading -/

variable (python : Interpreter)

/-- Space, tab, line feed and carriage return. -/
def blanks : List ℕ := [0x20, 0x09, 0x0A, 0x0D]

def skip (s : Text) : Text := s.dropWhile (· ∈ blanks)

/-- One character that must be there. -/
def expect (c : ℕ) (s : Text) : Except PyExn Text :=
  if s.head? = some c then .ok s.tail else .error .jsonDecodeError

/-- A piece of a string: a character, or a unit of UTF-16 spelled by an escape. -/
inductive Piece
  | char (c : ℕ)
  | unit (u : ℕ)

def hexValue (c : ℕ) : Option ℕ :=
  if 0x30 ≤ c ∧ c ≤ 0x39 then some (c - 0x30)
  else if 0x61 ≤ c ∧ c ≤ 0x66 then some (c - 0x57)
  else if 0x41 ≤ c ∧ c ≤ 0x46 then some (c - 0x37)
  else none

/-- What follows a backslash, and what it stands for. -/
def unescapes : List (ℕ × ℕ) :=
  [(0x22, 0x22), (0x5C, 0x5C), (0x2F, 0x2F), (0x62, 0x08), (0x66, 0x0C), (0x6E, 0x0A), (0x72, 0x0D),
    (0x74, 0x09)]

def Piece.push (p : Piece) : List Piece × Text → List Piece × Text
  | (pieces, rest) => (p :: pieces, rest)

/-- Where a reader of a string is. -/
inductive Scan
  | plain
  | escape
  /-- In an escape with as many digits to come after the next one, and the value of those before. -/
  | hex (left value : ℕ)

/-- The pieces of a string up to its closing quote. -/
def scanPieces : Scan → Text → Except PyExn (List Piece × Text)
  | _, [] => .error .jsonDecodeError
  | .plain, c :: s =>
    if c = 0x22 then .ok ([], s)
    else if c = 0x5C then scanPieces .escape s
    -- control characters are not taken as they are
    else if c < 0x20 then .error .jsonDecodeError
    else (scanPieces .plain s).map (Piece.push (.char c))
  | .escape, c :: s =>
    if c = 0x75 then scanPieces (.hex 3 0) s
    else
      match unescapes.lookup c with
      | some d => (scanPieces .plain s).map (Piece.push (.char d))
      | none => .error .jsonDecodeError
  | .hex left value, c :: s =>
    match hexValue c with
    | none => .error .jsonDecodeError
    | some d =>
      match left with
      | 0 => (scanPieces .plain s).map (Piece.push (.unit (16 * value + d)))
      | left + 1 => scanPieces (.hex left (16 * value + d)) s

/-- Two escapes that are the halves of a pair make one character. -/
def joinPieces : List Piece → Text
  | [] => []
  | .char c :: pieces => c :: joinPieces pieces
  | .unit u :: .unit l :: pieces =>
    if Text.HighSurrogate u ∧ 0xDC00 ≤ l ∧ l < 0xE000 then
      (0x10000 + (u - 0xD800) * 1024 + (l - 0xDC00)) :: joinPieces pieces
    else u :: joinPieces (.unit l :: pieces)
  | .unit u :: pieces => u :: joinPieces pieces

/-- A string after its opening quote. -/
def scanString (s : Text) : Except PyExn (Text × Text) := do
  let (pieces, rest) ← scanPieces .plain s
  return (joinPieces pieces, rest)

def isDigit (c : ℕ) : Bool := 0x30 ≤ c && c ≤ 0x39

def digits (s : Text) : Text := s.takeWhile isDigit

def integerPart (s : Text) : Text := if s.head? = some 0x30 then [0x30] else digits s

def fractionPart (s : Text) : Text :=
  if s.head? = some 0x2E ∧ digits s.tail ≠ [] then 0x2E :: digits s.tail else []

def exponentPart : Text → Text
  | [] => []
  | e :: s =>
    let sign := if s.head? = some 0x2B ∨ s.head? = some 0x2D then s.take 1 else []
    let power := digits (s.drop sign.length)
    if (e = 0x65 ∨ e = 0x45) ∧ power ≠ [] then e :: (sign ++ power) else []

/-- The number a sequence of digits spells. -/
def ofDecimal (s : Text) : ℕ := Nat.ofDigits 10 (s.reverse.map (· - 0x30))

/-- `int` of a sequence of digits. -/
def intOf (negative : Bool) (s : Text) : Except PyExn Value :=
  if 4300 < s.length then
    .error (.valueError (("Exceeds the limit (4300 digits) for integer string conversion: " ++
      "value has " : String) ++ Text.decimal s.length ++
      (" digits; use sys.set_int_max_str_digits() to increase the limit" : String)))
  else .ok (.int (if negative then -(ofDecimal s : ℤ) else ofDecimal s))

def scanNumber (s : Text) : Except PyExn (Value × Text) :=
  let sign : Text := if s.head? = some 0x2D then [0x2D] else []
  let whole := integerPart (s.drop sign.length)
  let fraction := fractionPart (s.drop (sign ++ whole).length)
  let exponent := exponentPart (s.drop (sign ++ whole ++ fraction).length)
  let token := sign ++ whole ++ fraction ++ exponent
  let number :=
    if whole = [] then .error .jsonDecodeError
    else if fraction = [] ∧ exponent = [] then intOf (sign ≠ []) whole
    else .ok (.float token)
  number.map fun v ↦ (v, s.drop token.length)

def words : List (Text × Value) :=
  [("null", .none), ("true", .bool true), ("false", .bool false), ("NaN", .float "NaN"),
    ("Infinity", .float "Infinity"), ("-Infinity", .float "-Infinity")]

/-- A value that is not a container. -/
def scanScalar (s : Text) : Except PyExn (Value × Text) :=
  if s.head? = some 0x22 then do
    let (t, rest) ← scanString s.tail
    return (.str t, rest)
  else
    match words.find? fun word ↦ word.1.isPrefixOf s with
    | some (word, v) => .ok (v, s.drop word.length)
    | none => scanNumber s

section Containers

variable {α : Type} (item : Text → Except PyExn (α × Text))

/-- Items with commas between them, from the first of them to what closes the container. -/
def scanSeparated (stop : ℕ) : ℕ → Text → Except PyExn (List α × Text)
  | 0, _ => .error .jsonDecodeError
  | rounds + 1, s => do
    let (x, s) ← item s
    let s := skip s
    if s.head? = some stop then return ([x], s.tail)
    let s ← expect 0x2C s
    let (xs, s) ← scanSeparated stop rounds (skip s)
    return (x :: xs, s)

/-- The items of a container after what opens it. -/
def scanItems (stop : ℕ) (s : Text) : Except PyExn (List α × Text) :=
  let s := skip s
  if s.head? = some stop then .ok ([], s.tail) else scanSeparated item stop s.length s

end Containers

/-- `entries[key] = v` -/
def setItem (entries : List (Text × Value)) (key : Text) (v : Value) : List (Text × Value) :=
  if key ∈ entries.map Prod.fst then
    entries.map fun entry ↦ if entry.1 = key then (key, v) else entry
  else entries ++ [(key, v)]

def dictOf (pairs : List (Text × Value)) : List (Text × Value) :=
  pairs.foldl (fun entries pair ↦ setItem entries pair.1 pair.2) []

def scanMember (scan : Text → Except PyExn (Value × Text)) (s : Text) :
    Except PyExn ((Text × Value) × Text) := do
  let s ← expect 0x22 s
  let (key, s) ← scanString s
  let s ← expect 0x3A (skip s)
  let (v, s) ← scan (skip s)
  return ((key, v), s)

/-- A value, and what is left of the text after it. -/
def scanOnce : ℕ → Text → Except PyExn (Value × Text)
  | 0, s =>
    if s.head? = some 0x5B ∨ s.head? = some 0x7B then .error .recursionError else scanScalar s
  | depth + 1, s =>
    if s.head? = some 0x5B then do
      let (items, rest) ← scanItems (scanOnce depth) 0x5D s.tail
      return (.list items, rest)
    else if s.head? = some 0x7B then do
      let (pairs, rest) ← scanItems (scanMember (scanOnce depth)) 0x7D s.tail
      return (.dict (dictOf pairs), rest)
    else scanScalar s

/-- `json.loads(s)` -/
def loads (s : Text) : Except PyExn Value := do
  -- a byte-order mark is not skipped
  if s.head? = some 0xFEFF then throw .jsonDecodeError
  let (v, rest) ← scanOnce python.recursionLimit (skip s)
  if skip rest ≠ [] then throw .jsonDecodeError
  return v

/-! ## The rounds are enough -/

/-- A reader that never goes back, and finds nothing in the empty text. -/
structure Advances {α : Type} (item : Text → Except PyExn (α × Text)) : Prop where
  length_le : ∀ s x rest, item s = .ok (x, rest) → rest.length ≤ s.length
  empty : item [] = .error .jsonDecodeError

private theorem length_skip_le (s : Text) : (skip s).length ≤ s.length :=
  (List.dropWhile_suffix _).length_le

theorem expect_eq_ok {c : ℕ} {s rest : Text} : expect c s = .ok rest ↔ s = c :: rest := by
  cases s with
  | nil => simp [expect]
  | cons d s =>
    by_cases hd : d = c
    · simp [expect, hd]
    · simp [expect, hd]

section Rounds

variable {α : Type} {item : Text → Except PyExn (α × Text)}

/-- Every round takes at least a comma, so more rounds than characters are as good as any. -/
theorem scanSeparated_rounds (hitem : Advances item) (stop : ℕ) {n m : ℕ} {s : Text}
    (hn : s.length ≤ n) (hm : s.length ≤ m) :
    scanSeparated item stop n s = scanSeparated item stop m s := by
  have hempty (rounds : ℕ) : scanSeparated item stop rounds [] = .error .jsonDecodeError := by
    cases rounds with
    | zero => rfl
    | succ rounds => rw [scanSeparated, hitem.empty]; rfl
  induction n generalizing m s with
  | zero =>
    obtain rfl := List.eq_nil_of_length_eq_zero (Nat.le_zero.mp hn)
    rw [hempty, hempty]
  | succ n ih =>
    cases m with
    | zero =>
      obtain rfl := List.eq_nil_of_length_eq_zero (Nat.le_zero.mp hm)
      rw [hempty, hempty]
    | succ m =>
      rw [scanSeparated, scanSeparated]
      cases hx : item s with
      | error e => rfl
      | ok p =>
        have hp := hitem.length_le s p.1 p.2 hx
        have hskip := length_skip_le p.2
        simp only [bind, Except.bind]
        split
        · rfl
        · cases hcomma : expect 0x2C (skip p.2) with
          | error e => rfl
          | ok rest =>
            have hrest := length_skip_le rest
            rw [expect_eq_ok.mp hcomma, List.length_cons] at hskip
            have hrounds : scanSeparated item stop n (skip rest) =
                scanSeparated item stop m (skip rest) := ih (by omega) (by omega)
            simp only [hrounds]

private theorem length_scanSeparated_le (hitem : Advances item) (stop : ℕ) {rounds : ℕ} {s : Text}
    {xs : List α} {rest : Text} (h : scanSeparated item stop rounds s = .ok (xs, rest)) :
    rest.length ≤ s.length := by
  induction rounds generalizing s xs with
  | zero => cases h
  | succ rounds ih =>
    obtain ⟨⟨x, s₁⟩, hx, h⟩ := Except.bind_eq_ok.mp h
    have hs₁ := hitem.length_le s x s₁ hx
    have hskip := length_skip_le s₁
    dsimp only at h
    split at h
    · cases h
      rw [List.length_tail]
      omega
    · obtain ⟨s₂, hcomma, h⟩ := Except.bind_eq_ok.mp h
      obtain ⟨⟨ys, s₃⟩, hys, hret⟩ := Except.bind_eq_ok.mp h
      cases hret
      have hs₃ := ih hys
      have hskip₂ := length_skip_le s₂
      rw [expect_eq_ok.mp hcomma, List.length_cons] at hskip
      omega

private theorem length_scanItems_le (hitem : Advances item) {stop : ℕ} {s : Text} {xs : List α}
    {rest : Text} (h : scanItems item stop s = .ok (xs, rest)) : rest.length ≤ s.length := by
  have hskip := length_skip_le s
  rw [scanItems] at h
  split at h
  · cases h
    rw [List.length_tail]
    omega
  · exact (length_scanSeparated_le hitem stop h).trans hskip

end Rounds

private theorem length_scanPieces_lt {state : Scan} {s : Text} {p : List Piece × Text}
    (h : scanPieces state s = .ok p) : p.2.length < s.length := by
  have hpush {piece : Piece} {s : Text} {p : List Piece × Text} (c : ℕ)
      (ih : ∀ {p}, scanPieces .plain s = .ok p → p.2.length < s.length)
      (h : (scanPieces .plain s).map piece.push = .ok p) : p.2.length < (c :: s).length := by
    cases hs : scanPieces .plain s with
    | error e =>
      rw [hs] at h
      cases h
    | ok q =>
      rw [hs] at h
      cases h
      exact (ih hs).trans (Nat.lt_succ_self _)
  induction s generalizing state p with
  | nil => cases state <;> cases h
  | cons c s ih =>
    cases state with
    | plain =>
      rw [scanPieces] at h
      split at h
      · cases h
        exact Nat.lt_succ_self _
      · split at h
        · exact (ih h).trans (Nat.lt_succ_self _)
        · split at h
          · cases h
          · exact hpush c ih h
    | escape =>
      rw [scanPieces] at h
      split at h
      · exact (ih h).trans (Nat.lt_succ_self _)
      · cases hd : unescapes.lookup c with
        | none =>
          rw [hd] at h
          cases h
        | some d =>
          rw [hd] at h
          exact hpush c ih h
    | hex left value =>
      cases hd : hexValue c with
      | none =>
        cases left <;> simp only [scanPieces, hd] at h <;> cases h
      | some d =>
        cases left with
        | zero =>
          simp only [scanPieces, hd] at h
          exact hpush c ih h
        | succ left =>
          simp only [scanPieces, hd] at h
          exact (ih h).trans (Nat.lt_succ_self _)

private theorem length_scanString_le {s t rest : Text} (h : scanString s = .ok (t, rest)) :
    rest.length ≤ s.length := by
  obtain ⟨p, hp, hret⟩ := Except.bind_eq_ok.mp h
  cases hret
  exact (length_scanPieces_lt hp).le

private theorem length_scanNumber_le {s : Text} {v : Value} {rest : Text}
    (h : scanNumber s = .ok (v, rest)) : rest.length ≤ s.length := by
  obtain ⟨number, n, hnumber⟩ : ∃ (number : Except PyExn Value) (n : ℕ),
      number.map (fun v ↦ (v, s.drop n)) = .ok (v, rest) := ⟨_, _, h⟩
  cases number with
  | error e => cases hnumber
  | ok v' =>
    cases hnumber
    exact (List.drop_suffix n s).length_le

private theorem advances_scanScalar : Advances scanScalar := by
  refine ⟨fun s v rest h ↦ ?_, rfl⟩
  rw [scanScalar] at h
  split at h
  · obtain ⟨p, hp, hret⟩ := Except.bind_eq_ok.mp h
    cases hret
    exact (length_scanString_le hp).trans (List.length_tail.trans_le (Nat.sub_le _ _))
  · cases hword : words.find? fun word ↦ word.1.isPrefixOf s with
    | none =>
      rw [hword] at h
      exact length_scanNumber_le h
    | some word =>
      rw [hword] at h
      cases h
      exact (List.drop_suffix _ _).length_le

theorem Advances.scanMember {scan : Text → Except PyExn (Value × Text)} (hscan : Advances scan) :
    Advances (scanMember scan) := by
  refine ⟨fun s x rest h ↦ ?_, rfl⟩
  obtain ⟨s₁, hquote, h⟩ := Except.bind_eq_ok.mp h
  obtain ⟨⟨key, s₂⟩, hkey, h⟩ := Except.bind_eq_ok.mp h
  obtain ⟨s₃, hcolon, h⟩ := Except.bind_eq_ok.mp h
  obtain ⟨⟨v, s₄⟩, hv, hret⟩ := Except.bind_eq_ok.mp h
  cases hret
  have h₁ := expect_eq_ok.mp hquote
  have h₂ := length_scanString_le hkey
  have h₃ := length_skip_le s₂
  have h₄ := length_skip_le s₃
  have h₅ := hscan.length_le _ _ _ hv
  rw [expect_eq_ok.mp hcolon, List.length_cons] at h₃
  rw [h₁, List.length_cons]
  omega

/-- At every depth the reader goes forward, so the loops of `scanOnce` never run out of rounds. -/
theorem advances_scanOnce (depth : ℕ) : Advances (scanOnce depth) := by
  induction depth with
  | zero =>
    refine ⟨fun s v rest h ↦ ?_, rfl⟩
    rw [scanOnce] at h
    split at h
    · cases h
    · exact advances_scanScalar.length_le s v rest h
  | succ depth ih =>
    refine ⟨fun s v rest h ↦ ?_, rfl⟩
    have htail : s.tail.length ≤ s.length := List.length_tail.trans_le (Nat.sub_le _ _)
    rw [scanOnce] at h
    split at h
    · obtain ⟨⟨items, rest'⟩, hitems, hret⟩ := Except.bind_eq_ok.mp h
      cases hret
      exact (length_scanItems_le ih hitems).trans htail
    · split at h
      · obtain ⟨⟨pairs, rest'⟩, hpairs, hret⟩ := Except.bind_eq_ok.mp h
        cases hret
        exact (length_scanItems_le ih.scanMember hpairs).trans htail
      · exact advances_scanScalar.length_le s v rest h

end Python.Json
