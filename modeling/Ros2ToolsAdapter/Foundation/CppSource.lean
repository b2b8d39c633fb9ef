import Mathlib.Data.List.Basic
import Mathlib.Data.Nat.Digits.Defs

/-!
# Constants of a C++ source file

What the constant definitions of a C++ source file are worth: `struct`s of integers, strings and
other such structures, and `inline constexpr` variables with braced initializers. Directives are
passed over and comments dropped, and anything else is not taken.

Tokens and declarations are read by automata that go from left to right and write as they go
(`Transduces`), so what a text in several parts comes to is put together from its parts. A string
with its quotes and backslashes escaped is one token, its own (`transduces_quoted`).
-/

namespace Cpp

/-! ## Automata that write -/

section Transducer

variable {σ α β : Type}

/-- Read letters from a state on; what is written, and the state after. -/
def run (step : σ → α → Option (List β × σ)) : σ → List α → Option (List β × σ)
  | s, [] => some ([], s)
  | s, a :: as => do
    let (bs, s) ← step s a
    let (bs', s) ← run step s as
    return (bs ++ bs', s)

/-- Between the two states, the letters are read and the others are written. -/
def Transduces (step : σ → α → Option (List β × σ)) (s : σ) (as : List α) (bs : List β) (s' : σ) :
    Prop := run step s as = some (bs, s')

variable {step : σ → α → Option (List β × σ)} {s s' s'' : σ} {as as' : List α} {bs bs' : List β}

instance [DecidableEq σ] [DecidableEq β] : Decidable (Transduces step s as bs s') :=
  inferInstanceAs (Decidable (_ = _))

theorem Transduces.nil : Transduces step s [] [] s := rfl

theorem Transduces.cons {a : α} (h : step s a = some (bs, s'))
    (h' : Transduces step s' as bs' s'') :
    Transduces step s (a :: as) (bs ++ bs') s'' := by
  rw [Transduces, run, h, Option.bind_eq_bind, Option.bind_some]
  dsimp only
  rw [h']
  rfl

theorem Transduces.append (h : Transduces step s as bs s') (h' : Transduces step s' as' bs' s'') :
    Transduces step s (as ++ as') (bs ++ bs') s'' := by
  induction as generalizing s bs with
  | nil =>
    obtain ⟨rfl, rfl⟩ := Prod.mk.inj (Option.some.inj h)
    exact h'
  | cons a as ih =>
    rw [Transduces, run, Option.bind_eq_bind, Option.bind_eq_some_iff] at h
    obtain ⟨⟨bs₁, s₁⟩, hstep, h⟩ := h
    dsimp only at h
    rw [Option.bind_eq_some_iff] at h
    obtain ⟨⟨bs₂, s₂⟩, hrun, hret⟩ := h
    obtain ⟨rfl, rfl⟩ := Prod.mk.inj (Option.some.inj hret)
    rw [List.append_assoc]
    exact Transduces.cons hstep (ih hrun)

end Transducer

/-! ## Tokens -/

/-- A token; an integer literal is kept with its suffix. -/
inductive Token
  | word (name : List ℕ)
  | number (spelling : List ℕ)
  | string (value : List ℕ)
  | symbol (c : ℕ)
  deriving DecidableEq

/-- Where a reader of characters is, with what it has read of a token, the last character first. -/
inductive Lexer
  | between
  | word (read : List ℕ)
  | number (read : List ℕ)
  | string (read : List ℕ)
  | escape (read : List ℕ)
  | slash
  | comment
  | directive
  deriving DecidableEq

def isDigit (c : ℕ) : Bool := 0x30 ≤ c && c ≤ 0x39

def isLetter (c : ℕ) : Bool := 0x41 ≤ c && c ≤ 0x5A || 0x61 ≤ c && c ≤ 0x7A || c == 0x5F

/-- The punctuation that is taken: parentheses and braces, comma, colon, semicolon, equals sign,
asterisk and angle brackets. -/
def symbols : List ℕ := [0x28, 0x29, 0x7B, 0x7D, 0x2C, 0x3A, 0x3B, 0x3D, 0x2A, 0x3C, 0x3E]

namespace Lexer

/-- A character that no token has begun with. -/
def start (c : ℕ) : Option (List Token × Lexer) :=
  if c = 0x20 ∨ c = 0x0A then some ([], between)
  else if isLetter c then some ([], word [c])
  else if isDigit c then some ([], number [c])
  else if c = 0x22 then some ([], string [])
  else if c = 0x2F then some ([], slash)
  else if c = 0x23 then some ([], directive)
  else if c ∈ symbols then some ([.symbol c], between)
  else none

/-- The token ends before the character. -/
def finish (token : Token) (c : ℕ) : Option (List Token × Lexer) :=
  (start c).map fun next ↦ (token :: next.1, next.2)

def step : Lexer → ℕ → Option (List Token × Lexer)
  | between, c => start c
  | word read, c =>
    if isLetter c || isDigit c then some ([], word (c :: read))
    -- a quotation mark after a word makes the word a prefix of the string
    else if c = 0x22 then none
    else finish (.word read.reverse) c
  | number read, c =>
    if isLetter c || isDigit c then some ([], number (c :: read))
    else if c = 0x2E ∨ c = 0x22 then none
    else finish (.number read.reverse) c
  | string read, c =>
    if c = 0x22 then some ([.string read.reverse], between)
    else if c = 0x5C then some ([], escape read)
    else if c = 0x0A then none
    else some ([], string (c :: read))
  | escape read, c => if c = 0x22 ∨ c = 0x5C then some ([], string (c :: read)) else none
  | slash, c => if c = 0x2F then some ([], comment) else none
  | comment, c =>
    if c = 0x0A then some ([], between)
    -- a backslash could continue the line
    else if c = 0x5C then none
    else some ([], comment)
  | directive, c =>
    if c = 0x0A then some ([], between)
    else if c = 0x5C then none
    else some ([], directive)

end Lexer

/-- The tokens of a text that ends in a line break. -/
def tokens (text : List ℕ) : Option (List Token) :=
  match run Lexer.step .between text with
  | some (ts, .between) => some ts
  | _ => none

section Texts

open Lexer

/-- A string literal: quotes around it, and a backslash before each quote and each backslash. -/
def quoted (value : List ℕ) : List ℕ :=
  0x22 :: (value.flatMap (fun c ↦ if c = 0x22 ∨ c = 0x5C then [0x5C, c] else [c]) ++ [0x22])

/-- A string literal without line breaks is one token. -/
theorem transduces_quoted {value : List ℕ} (hvalue : 0x0A ∉ value) :
    Transduces step between (quoted value) [.string value] between := by
  have hchars (read : List ℕ) : Transduces step (string read)
      (value.flatMap fun c ↦ if c = 0x22 ∨ c = 0x5C then [0x5C, c] else [c]) []
      (string (value.reverse ++ read)) := by
    induction value generalizing read with
    | nil => exact Transduces.nil
    | cons c value ih =>
      rw [List.mem_cons, not_or] at hvalue
      rw [List.flatMap_cons, List.reverse_cons, List.append_assoc]
      have hrest := ih hvalue.2 (c :: read)
      refine Transduces.append (?_ : Transduces step _ _ [] _) hrest
      split
      · rename_i hescaped
        have hbackslash : step (string read) 0x5C = some ([], escape read) := rfl
        have hchar : step (escape read) c = some ([], string (c :: read)) := if_pos hescaped
        exact Transduces.cons hbackslash (Transduces.cons hchar Transduces.nil)
      · rename_i hplain
        rw [not_or] at hplain
        have hchar : step (string read) c = some ([], string (c :: read)) := by
          rw [step, if_neg hplain.1, if_neg hplain.2, if_neg (Ne.symm hvalue.1)]
        exact Transduces.cons hchar Transduces.nil
  have hopen : step between 0x22 = some ([], string []) := rfl
  have hend : Transduces step (string (value.reverse ++ [])) [0x22] [.string value] between := by
    have hclose : step (string (value.reverse ++ [])) 0x22 =
        some ([.string (value.reverse ++ []).reverse], between) := rfl
    rw [List.append_nil, List.reverse_reverse] at hclose
    rw [List.append_nil]
    exact Transduces.cons hclose Transduces.nil
  exact Transduces.cons hopen ((hchars []).append hend)

/-- The spelling of a number, from its first digit on. -/
theorem transduces_spelling {first : ℕ} {spelling : List ℕ} (hfirst : isDigit first = true)
    (hspelling : ∀ c ∈ spelling, (isLetter c || isDigit c) = true) :
    Transduces step between (first :: spelling) [] (number (first :: spelling).reverse) := by
  have hrest (read : List ℕ) : Transduces step (number read) spelling []
      (number (spelling.reverse ++ read)) := by
    induction spelling generalizing read with
    | nil => exact Transduces.nil
    | cons c spelling ih =>
      rw [List.forall_mem_cons] at hspelling
      rw [List.reverse_cons, List.append_assoc]
      have hchar : step (number read) c = some ([], number (c :: read)) := if_pos hspelling.1
      exact Transduces.cons hchar (ih hspelling.2 (c :: read))
  have hstart : step between first = some ([], number [first]) := by
    have hletter : isLetter first = false := by
      simp only [isDigit, Bool.and_eq_true, decide_eq_true_eq] at hfirst
      simp only [isLetter, Bool.or_eq_false_iff, Bool.and_eq_false_iff, decide_eq_false_iff_not,
        beq_eq_false_iff_ne]
      omega
    have hblank : ¬(first = 0x20 ∨ first = 0x0A) := by
      rintro (rfl | rfl) <;> cases hfirst
    rw [step, start, if_neg hblank, hletter, if_neg Bool.false_ne_true, if_pos hfirst]
  rw [List.reverse_cons]
  exact Transduces.cons hstart (hrest [first])

/-- A number ends before a punctuation character. -/
theorem transduces_number_symbol (read : List ℕ) {c : ℕ} (hc : c ∈ symbols) :
    Transduces step (number read) [c] [.number read.reverse, .symbol c] between := by
  have hall : ∀ c ∈ symbols, (isLetter c || isDigit c) = false ∧ ¬(c = 0x2E ∨ c = 0x22) ∧
      start c = some ([.symbol c], between) := by decide
  obtain ⟨hspelling, hends, hstart⟩ := hall c hc
  have hstep : step (number read) c = some ([.number read.reverse, .symbol c], between) := by
    rw [step, hspelling, if_neg Bool.false_ne_true, if_neg hends, finish, hstart]
    rfl
  exact Transduces.cons hstep Transduces.nil

end Texts

/-! ## Declarations -/

/-- An initializer. -/
inductive Init
  | integer (spelling : List ℕ)
  | string (value : List ℕ)
  | braces (items : List Init)

/-- A member of a structure. -/
structure Member where
  type : List Token
  name : List ℕ

inductive Declaration
  | struct (name : List ℕ) (members : List Member)
  | constant (type : List Token) (name : List ℕ) (init : Init)

/-- Where a reader of tokens is. Types, members and items are kept with the last one first. -/
inductive Parser
  | top
  | namespaceName
  | namespaceOpen
  | structName
  | structOpen (name : List ℕ)
  | members (name : List ℕ) (done : List Member) (type : List Token)
  | structEnd (name : List ℕ) (members : List Member)
  | constexpr
  | variableType (type : List Token)
  | initOpen (type : List Token) (name : List ℕ)
  /-- Before an item, with the items of the open braces, those inside first. -/
  | item (type : List Token) (name : List ℕ) (stack : List (List Init))
  /-- After an item. -/
  | afterItem (type : List Token) (name : List ℕ) (stack : List (List Init))
  | constantEnd (type : List Token) (name : List ℕ) (init : Init)

/-- The characters of a name. -/
def spell (name : String) : List ℕ := name.toList.map Char.toNat

private theorem spell_inj {a b : String} : spell a = spell b ↔ a = b := by
  rw [spell, spell, List.map_inj_right fun _ _ h ↦ Char.toNat_inj.mp h, String.toList_inj]

def word (name : String) : Token := .word (spell name)

namespace Parser

/-- An item is complete. -/
def push (type : List Token) (name : List ℕ) (item : Init) : List (List Init) → Option Parser
  | [] => none
  | items :: stack => some (afterItem type name ((item :: items) :: stack))

/-- Braces are closed. -/
def close (type : List Token) (name : List ℕ) : List (List Init) → Option Parser
  | [] => none
  | [items] => some (constantEnd type name (.braces items.reverse))
  | items :: stack => push type name (.braces items.reverse) stack

/-- Go on without a declaration. -/
def silent (next : Option Parser) : Option (List Declaration × Parser) := next.map fun s ↦ ([], s)

def step : Parser → Token → Option (List Declaration × Parser)
  | top, t =>
    if t = word "namespace" then some ([], namespaceName)
    else if t = word "struct" then some ([], structName)
    else if t = word "inline" then some ([], constexpr)
    else if t = .symbol 0x7D then some ([], top)
    else none
  | namespaceName, .word _ => some ([], namespaceOpen)
  | namespaceOpen, .symbol c => if c = 0x7B then some ([], top) else none
  | structName, .word name => some ([], structOpen name)
  | structOpen name, .symbol c => if c = 0x7B then some ([], members name [] []) else none
  | members name done type, t =>
    if t = .symbol 0x7D ∧ type = [] then some ([], structEnd name done.reverse)
    else if t = .symbol 0x3B then
      -- the last word is the name of the member
      match type with
      | .word member :: type => some ([], members name (⟨type.reverse, member⟩ :: done) [])
      | _ => none
    else some ([], members name done (t :: type))
  | structEnd name done, .symbol c =>
    if c = 0x3B then some ([.struct name done], top) else none
  | constexpr, t => if t = word "constexpr" then some ([], variableType []) else none
  | variableType type, t =>
    if t = .symbol 0x3D then
      match type with
      | .word name :: type => some ([], initOpen type.reverse name)
      | _ => none
    else some ([], variableType (t :: type))
  | initOpen type name, .symbol c => if c = 0x7B then some ([], item type name [[]]) else none
  | item type name stack, .number spelling => silent (push type name (.integer spelling) stack)
  | item type name stack, .string value => silent (push type name (.string value) stack)
  | item type name stack, .symbol c =>
    if c = 0x7B then some ([], item type name ([] :: stack))
    else if c = 0x7D then silent (close type name stack)
    else none
  | afterItem type name stack, .symbol c =>
    if c = 0x2C then some ([], item type name stack)
    else if c = 0x7D then silent (close type name stack)
    else none
  | constantEnd type name init, .symbol c =>
    if c = 0x3B then some ([.constant type name init], top) else none
  | _, _ => none

end Parser

/-- The declarations of a file. -/
def declarations (text : List ℕ) : Option (List Declaration) := do
  match run Parser.step .top (← tokens text) with
  | some (declarations, .top) => some declarations
  | _ => none

/-! ## The text of an initializer -/

namespace Init

mutual

/-- An initializer as it is written. -/
def text : Init → List ℕ
  | integer spelling => spelling
  | string value => quoted value
  | braces items => 0x7B :: (itemsText items ++ [0x7D])

def itemsText : List Init → List ℕ
  | [] => []
  | item :: items => item.text ++ restText items

def restText : List Init → List ℕ
  | [] => []
  | item :: items => 0x2C :: 0x20 :: (item.text ++ restText items)

end

mutual

def tokens : Init → List Token
  | integer spelling => [.number spelling]
  | string value => [.string value]
  | braces items => .symbol 0x7B :: (itemsTokens items ++ [.symbol 0x7D])

def itemsTokens : List Init → List Token
  | [] => []
  | item :: items => item.tokens ++ restTokens items

def restTokens : List Init → List Token
  | [] => []
  | item :: items => .symbol 0x2C :: (item.tokens ++ restTokens items)

end

mutual

/-- Numbers begin with a digit and strings are on one line. -/
def WellFormed : Init → Prop
  | integer spelling => (∃ first ∈ spelling.head?, isDigit first = true) ∧
    ∀ c ∈ spelling, (isLetter c || isDigit c) = true
  | string value => 0x0A ∉ value
  | braces items => AllWellFormed items

def AllWellFormed : List Init → Prop
  | [] => True
  | item :: items => item.WellFormed ∧ AllWellFormed items

end

mutual

private theorem transduces_text (init : Init) (h : init.WellFormed) {c : ℕ} (hc : c ∈ symbols) :
    Transduces Lexer.step .between (init.text ++ [c]) (init.tokens ++ [.symbol c]) .between := by
  have hsymbol : Transduces Lexer.step .between [c] [.symbol c] .between := by
    have hall : ∀ c ∈ symbols, Transduces Lexer.step .between [c] [.symbol c] .between := by decide
    exact hall c hc
  cases init with
  | integer spelling =>
    obtain ⟨⟨first, hfirst, hdigit⟩, hspelling⟩ := h
    cases spelling with
    | nil => cases hfirst
    | cons d spelling =>
      obtain rfl := Option.some.inj hfirst
      have hread := transduces_spelling hdigit fun c hc ↦ hspelling c (List.mem_cons_of_mem _ hc)
      have hend := transduces_number_symbol (d :: spelling).reverse hc
      rw [List.reverse_reverse] at hend
      exact hread.append hend
  | string value => exact (transduces_quoted h).append hsymbol
  | braces items =>
    have hopen : Transduces Lexer.step .between [0x7B] [.symbol 0x7B] .between := by decide
    rw [text, tokens]
    exact (hopen.append (transduces_itemsText items h)).append hsymbol

private theorem transduces_itemsText (items : List Init) (h : AllWellFormed items) :
    Transduces Lexer.step .between (itemsText items ++ [0x7D]) (itemsTokens items ++ [.symbol 0x7D])
      .between := by
  cases items with
  | nil => decide
  | cons item items =>
    obtain ⟨c, hc, rest, ts, htext, htokens, hrest⟩ := transduces_restText items h.2
    have hitem := (transduces_text item h.1 hc).append hrest
    rw [itemsText, itemsTokens, List.append_assoc, List.append_assoc, htext, htokens]
    rwa [List.append_assoc, List.append_assoc] at hitem

private theorem transduces_restText (items : List Init) (h : AllWellFormed items) :
    ∃ c ∈ symbols, ∃ rest ts, restText items ++ [0x7D] = c :: rest ∧
      restTokens items ++ [.symbol 0x7D] = .symbol c :: ts ∧
        Transduces Lexer.step .between rest ts .between := by
  cases items with
  | nil => exact ⟨0x7D, by decide, [], [], rfl, rfl, Transduces.nil⟩
  | cons item items =>
    obtain ⟨c, hc, rest, ts, htext, htokens, hrest⟩ := transduces_restText items h.2
    have hblank : Transduces Lexer.step .between [0x20] [] .between := by decide
    have hitem := hblank.append ((transduces_text item h.1 hc).append hrest)
    refine ⟨0x2C, by decide, 0x20 :: (item.text ++ c :: rest), item.tokens ++ .symbol c :: ts,
      ?_, ?_, ?_⟩
    · rw [restText, List.cons_append, List.cons_append, List.append_assoc, htext]
    · rw [restTokens, List.cons_append, List.append_assoc, htokens]
    · simpa using hitem

end

section Parsing

variable {type : List Token} {name : List ℕ}

mutual

private theorem transduces_tokens (init : Init) (done : List Init) (stack : List (List Init)) :
    Transduces Parser.step (.item type name (done :: stack)) init.tokens []
      (.afterItem type name ((init :: done) :: stack)) := by
  cases init with
  | integer spelling => rfl
  | string value => rfl
  | braces items =>
    have hopen : Parser.step (.item type name (done :: stack)) (.symbol 0x7B) =
        some ([], .item type name ([] :: done :: stack)) := rfl
    refine Transduces.cons hopen (transduces_itemsTokens items [] (done :: stack) ?_)
    rw [List.append_nil, Parser.close, Parser.push, List.reverse_reverse]
    simp

private theorem transduces_itemsTokens (items done : List Init) (stack : List (List Init))
    {next : Parser}
    (hnext : Parser.close type name ((items.reverse ++ done) :: stack) = some next) :
    Transduces Parser.step (.item type name (done :: stack))
      (itemsTokens items ++ [.symbol 0x7D]) [] next := by
  cases items with
  | nil =>
    have hclose : Parser.step (.item type name (done :: stack)) (.symbol 0x7D) =
        Parser.silent (Parser.close type name (done :: stack)) := rfl
    rw [List.reverse_nil, List.nil_append] at hnext
    rw [hnext] at hclose
    exact Transduces.cons hclose Transduces.nil
  | cons item items =>
    rw [itemsTokens, List.append_assoc]
    refine (transduces_tokens item done stack).append
      (transduces_restTokens items (item :: done) stack ?_)
    rwa [List.reverse_cons, List.append_assoc] at hnext

private theorem transduces_restTokens (items done : List Init) (stack : List (List Init))
    {next : Parser}
    (hnext : Parser.close type name ((items.reverse ++ done) :: stack) = some next) :
    Transduces Parser.step (.afterItem type name (done :: stack))
      (restTokens items ++ [.symbol 0x7D]) [] next := by
  cases items with
  | nil =>
    have hclose : Parser.step (.afterItem type name (done :: stack)) (.symbol 0x7D) =
        Parser.silent (Parser.close type name (done :: stack)) := rfl
    rw [List.reverse_nil, List.nil_append] at hnext
    rw [hnext] at hclose
    exact Transduces.cons hclose Transduces.nil
  | cons item items =>
    have hcomma : Parser.step (.afterItem type name (done :: stack)) (.symbol 0x2C) =
        some ([], .item type name (done :: stack)) := rfl
    rw [restTokens, List.cons_append, List.append_assoc]
    refine Transduces.cons hcomma ((transduces_tokens item done stack).append
      (transduces_restTokens items (item :: done) stack ?_))
    rwa [List.reverse_cons, List.append_assoc] at hnext

end

end Parsing

end Init

/-- A part of a file: some declarations, one after the other. -/
def Declares (text : List ℕ) (ds : List Declaration) : Prop :=
  ∃ ts, Transduces Lexer.step .between text ts .between ∧ Transduces Parser.step .top ts ds .top

theorem Declares.append {text text' : List ℕ} {ds ds' : List Declaration} (h : Declares text ds)
    (h' : Declares text' ds') : Declares (text ++ text') (ds ++ ds') := by
  obtain ⟨ts, hlex, hparse⟩ := h
  obtain ⟨ts', hlex', hparse'⟩ := h'
  exact ⟨ts ++ ts', hlex.append hlex', hparse.append hparse'⟩

theorem declarations_eq_some_iff {text : List ℕ} {ds : List Declaration} :
    declarations text = some ds ↔ Declares text ds := by
  constructor
  · intro h
    rw [declarations, Option.bind_eq_bind, Option.bind_eq_some_iff] at h
    obtain ⟨ts, htokens, hparse⟩ := h
    refine ⟨ts, ?_, ?_⟩
    · rw [tokens] at htokens
      split at htokens
      · rename_i hlex
        obtain rfl := Option.some.inj htokens
        exact hlex
      · cases htokens
    · split at hparse
      · rename_i hrun
        obtain rfl := Option.some.inj hparse
        exact hrun
      · cases hparse
  · rintro ⟨ts, hlex, hparse⟩
    have htokens : tokens text = some ts := by rw [tokens, hlex]
    rw [declarations, htokens, Option.bind_eq_bind, Option.bind_some, hparse]

/-- A constant with its initializer in braces. -/
theorem declares_constant {declaration : List ℕ} {ts : List Token} {type : List Token}
    {name : List ℕ} (hlex : Transduces Lexer.step .between declaration ts .between)
    (hparse : Transduces Parser.step .top ts [] (.initOpen type name)) {items : List Init}
    (h : Init.AllWellFormed items) :
    Declares (declaration ++ (Init.braces items).text ++ [0x3B, 0x0A])
      [.constant type name (.braces items)] := by
  refine ⟨ts ++ (Init.braces items).tokens ++ [.symbol 0x3B], ?_, ?_⟩
  · have hend : Transduces Lexer.step .between [0x0A] [] .between := by decide
    have hinit := (Init.transduces_text (.braces items) h (c := 0x3B) (by decide)).append hend
    simpa [List.append_assoc] using hlex.append hinit
  · have hopen : Parser.step (.initOpen type name) (.symbol 0x7B) =
        some ([], .item type name [[]]) := rfl
    have hitems : Transduces Parser.step (.item type name [[]])
        (Init.itemsTokens items ++ [.symbol 0x7D]) []
        (.constantEnd type name (.braces items)) := by
      refine Init.transduces_itemsTokens items [] [] ?_
      rw [List.append_nil, Parser.close, List.reverse_reverse]
    have hsemicolon : Transduces Parser.step (.constantEnd type name (.braces items))
        [.symbol 0x3B] [.constant type name (.braces items)] .top := rfl
    have hbraces : Transduces Parser.step (.initOpen type name) (Init.braces items).tokens []
        (.constantEnd type name (.braces items)) := by
      rw [Init.tokens]
      exact Transduces.cons hopen hitems
    exact (hparse.append hbraces).append hsemicolon

/-! ## Values -/

/-- What a constant is worth: an integer, a string, or a structure with its members. -/
inductive Const
  | integer (n : ℕ)
  | string (value : List ℕ)
  | object (members : List (List ℕ × Const))

/-- The value of an unsigned decimal literal. -/
def integerValue (spelling : List ℕ) : Option ℕ :=
  let digits := spelling.takeWhile isDigit
  let suffix := spelling.dropWhile isDigit
  -- a zero in front makes a literal octal
  if digits = [] ∨ digits.head? = some 0x30 ∧ digits.length ≠ 1 then none
  else if suffix = [0x75] ∨ suffix = [0x55, 0x4C, 0x4C] then
    some (Nat.ofDigits 10 (digits.reverse.map (· - 0x30)))
  else none

/-- An unsigned literal is worth what its digits are. -/
theorem integerValue_append {digits suffix : List ℕ} (hdigits : ∀ c ∈ digits, isDigit c = true)
    (hnonempty : digits ≠ []) (hzero : digits.head? = some 0x30 → digits.length = 1)
    (hsuffix : suffix = [0x75] ∨ suffix = [0x55, 0x4C, 0x4C]) :
    integerValue (digits ++ suffix) = some (Nat.ofDigits 10 (digits.reverse.map (· - 0x30))) := by
  have htake : (digits ++ suffix).takeWhile isDigit = digits := by
    rw [List.takeWhile_append_of_pos hdigits]
    rcases hsuffix with rfl | rfl <;> simp [isDigit]
  have hdrop : (digits ++ suffix).dropWhile isDigit = suffix := by
    rw [List.dropWhile_append_of_pos hdigits]
    rcases hsuffix with rfl | rfl <;> simp [isDigit]
  have hdecimal : ¬(digits = [] ∨ digits.head? = some 0x30 ∧ digits.length ≠ 1) := by
    rintro (h | ⟨hhead, hlength⟩)
    · exact hnonempty h
    · exact hlength (hzero hhead)
  rw [integerValue, htake, hdrop, if_neg hdecimal, if_pos hsuffix]

/-- `std::name` -/
def standard (name : String) : List Token :=
  [word "std", .symbol 0x3A, .symbol 0x3A, word name]

/-- The largest value plus one of an integer type. -/
def integerBound (type : List Token) : Option ℕ :=
  if type = standard "uint32_t" then some (2 ^ 32)
  else if type = standard "uint64_t" then some (2 ^ 64)
  else none

abbrev Structures := List (List ℕ × List Member)

mutual

/-- An initializer as a value of its type. In braces a value that does not fit is an error. -/
def evaluate (structures : Structures) (type : List Token) : Init → Option Const
  | .integer spelling => do
    let bound ← integerBound type
    let n ← integerValue spelling
    if n < bound then some (.integer n) else none
  | .string value =>
    if type = [word "const", word "char", .symbol 0x2A] then some (.string value) else none
  | .braces items =>
    match type with
    | [.word name] => do
      let members ← structures.lookup name
      return .object (← evaluateMembers structures members items)
    | _ => none

def evaluateMembers (structures : Structures) :
    List Member → List Init → Option (List (List ℕ × Const))
  | [], [] => some []
  | member :: members, item :: items => do
    let c ← evaluate structures member.type item
    return (member.name, c) :: (← evaluateMembers structures members items)
  | _, _ => none

end

section Evaluation

variable {structures : Structures}

theorem evaluate_integer {type : List Token} {bound n : ℕ} {spelling : List ℕ}
    (hbound : integerBound type = some bound) (hvalue : integerValue spelling = some n)
    (hfits : n < bound) : evaluate structures type (.integer spelling) = some (.integer n) := by
  rw [evaluate, hbound, hvalue, Option.bind_eq_bind, Option.bind_some, Option.bind_some,
    if_pos hfits]

theorem evaluate_string (value : List ℕ) :
    evaluate structures [word "const", word "char", .symbol 0x2A] (.string value) =
      some (.string value) := by
  rw [evaluate, if_pos rfl]

theorem evaluate_braces {name : List ℕ} {members : List Member} {items : List Init}
    {cs : List (List ℕ × Const)} (hname : structures.lookup name = some members)
    (hitems : evaluateMembers structures members items = some cs) :
    evaluate structures [.word name] (.braces items) = some (.object cs) := by
  rw [evaluate, hname, Option.bind_eq_bind, Option.bind_some, hitems]
  rfl

theorem evaluateMembers_cons {member : Member} {members : List Member} {item : Init}
    {items : List Init} {c : Const} {cs : List (List ℕ × Const)}
    (hitem : evaluate structures member.type item = some c)
    (hitems : evaluateMembers structures members items = some cs) :
    evaluateMembers structures (member :: members) (item :: items) =
      some ((member.name, c) :: cs) := by
  rw [evaluateMembers, hitem, Option.bind_eq_bind, Option.bind_some, hitems]
  rfl

end Evaluation

/-- The constants that are declared, each with the structures declared before it. -/
def evaluateAll : Structures → List Declaration → Option (List (List ℕ × Const))
  | _, [] => some []
  | structures, .struct name members :: declarations =>
    evaluateAll ((name, members) :: structures) declarations
  | structures, .constant type name init :: declarations => do
    let c ← evaluate structures type init
    return (name, c) :: (← evaluateAll structures declarations)

/-- The constants of a file. -/
def constants (text : List ℕ) : Option (List (List ℕ × Const)) := do
  evaluateAll [] (← declarations text)

namespace Const

/-- `c.name` -/
def member (name : String) : Const → Option Const
  | object members => members.lookup (spell name)
  | _ => none

@[simp] theorem member_cons (a b : String) (c : Const) (members : List (List ℕ × Const)) :
    (object ((spell b, c) :: members)).member a =
      if a = b then some c else (object members).member a := by
  by_cases h : a = b
  · simp [member, h]
  · have hne : spell a ≠ spell b := fun heq ↦ h (spell_inj.mp heq)
    simp [member, h, List.lookup_cons, beq_false_of_ne hne]

def asInteger : Const → Option ℕ
  | integer n => some n
  | _ => none

def asString : Const → Option (List ℕ)
  | string value => some value
  | _ => none

end Const

end Cpp
