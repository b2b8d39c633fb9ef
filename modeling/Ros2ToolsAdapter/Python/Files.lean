import Mathlib.Data.List.Infix
import Mathlib.Data.List.Nodup
import Ros2ToolsAdapter.Python.Value

/-!
# Files

Directory trees as `pathlib` sees them, file-name patterns, and text files in UTF-8. A tree holds
every path below its root; a link to a file counts as the file it leads to.

Of a pattern, `rglob` takes one component. Whether an entry is found depends on nothing but its own
name, unless the pattern is one of the few that stand for directories.
-/

namespace Python

/-! ## Paths -/

/-- A POSIX path, split at its slashes. -/
structure PurePath where
  root : Text
  parts : List Text
  deriving DecidableEq

namespace PurePath

/-- `Path(s)` -/
def ofText (s : Text) : PurePath where
  root :=
    if s.head? ≠ some 0x2F then []
    -- two slashes are a root of their own, three are one
    else if s.take 2 = "//" ∧ s.take 3 ≠ "///" then "//" else "/"
  parts := (s.splitOn 0x2F).filter fun part ↦ part ≠ [] ∧ part ≠ "."

/-- The last component. -/
def name (p : PurePath) : Text := p.parts.getLast?.getD []

/-- `p / a / b / …` -/
def child (p : PurePath) (parts : List Text) : PurePath := { p with parts := p.parts ++ parts }

/-- `str(p)` -/
def str (p : PurePath) : Text :=
  if p.root = [] ∧ p.parts = [] then "." else p.root ++ List.intercalate "/" p.parts

theorem name_child (p : PurePath) {parts : List Text} (h : parts ≠ []) :
    (p.child parts).name = parts.getLast?.getD [] := by
  rw [name, child, List.getLast?_append_of_ne_nil _ h]

/-- A name without slashes is the name of the path it spells. -/
theorem name_ofText {s : Text} (hslash : 0x2F ∉ s) (hempty : s ≠ []) (hdot : s ≠ ".") :
    (ofText s).name = s := by
  have hsplit : s.splitOn 0x2F = [s] := by
    refine List.splitOnP_eq_singleton fun c hc ↦ beq_false_of_ne ?_
    rintro rfl
    exact hslash hc
  simp [name, ofText, hsplit, hempty, hdot]

end PurePath

/-! ## Directory trees -/

/-- What a name in a directory leads to. -/
inductive Node
  | directory
  | file (content : ByteArray)
  /-- A pipe, a socket, a device. -/
  | special

def Node.isFile : Node → Bool
  | .file _ => true
  | _ => false

def Node.isDirectory : Node → Bool
  | .directory => true
  | _ => false

/-- A path below the root of a tree, and what it leads to. -/
abbrev Entry := List Text × Node

/-- The last component of the path. -/
def Entry.name (entry : Entry) : Text := entry.1.getLast?.getD []

/-- Everything below a directory. -/
structure Tree where
  entries : List Entry
  nodup : (entries.map Prod.fst).Nodup
  named : ∀ entry ∈ entries, entry.1 ≠ [] ∧ ∀ part ∈ entry.1, part ≠ [] ∧ 0x2F ∉ part
  /-- What holds an entry is the root or a directory. -/
  parents : ∀ entry ∈ entries, entry.1.dropLast = [] ∨
    (entry.1.dropLast, Node.directory) ∈ entries

/-- `sorted`, for paths below one root. -/
def sortEntries (entries : List Entry) : List Entry := entries.mergeSort fun a b ↦ a.1 ≤ b.1

/-! ## File-name patterns -/

/-- What a pattern is made of. -/
inductive Token
  | star
  | any
  | bracket (body : Text)
  | char (c : ℕ)

/-- The length of a bracket expression, from after its opening bracket to before its closing one. -/
def bracketLength (s : Text) : Option ℕ :=
  let negation := if s.head? = some 0x21 then 1 else 0
  -- a bracket that comes first does not close
  let first := if (s.drop negation).head? = some 0x5D then negation + 1 else negation
  ((s.drop first).idxOf? 0x5D).map (first + ·)

/-- The tokens of a pattern after as many characters as are to be passed over. -/
def tokens : ℕ → Text → List Token
  | _, [] => []
  | passed + 1, _ :: s => tokens passed s
  | 0, c :: s =>
    if c = 0x2A then .star :: tokens 0 s
    else if c = 0x3F then .any :: tokens 0 s
    else if c = 0x5B then
      match bracketLength s with
      | some n => .bracket (s.take n) :: tokens (n + 1) s
      | none => .char c :: tokens 0 s
    else .char c :: tokens 0 s

variable (python : Interpreter)

def matchTokens : List Token → Text → Bool
  | [], s => s.isEmpty
  | .star :: pattern, s => s.tails.any (matchTokens pattern)
  | .any :: pattern, _ :: s => matchTokens pattern s
  | .bracket body :: pattern, c :: s => python.bracket body c && matchTokens pattern s
  | .char d :: pattern, c :: s => c == d && matchTokens pattern s
  | _, [] => false

/-- `fnmatch.fnmatchcase(name, pattern)` -/
def fnmatch (name pattern : Text) : Bool := matchTokens python (tokens 0 pattern) name

/-- A pattern without wildcards is made of its characters. -/
theorem tokens_eq_map_char {pattern : Text}
    (h : ∀ c ∈ pattern, c ≠ 0x2A ∧ c ≠ 0x3F ∧ c ≠ 0x5B) :
    tokens 0 pattern = pattern.map .char := by
  induction pattern with
  | nil => rfl
  | cons c s ih =>
    obtain ⟨hstar, hany, hbracket⟩ := h c List.mem_cons_self
    rw [tokens, if_neg hstar, if_neg hany, if_neg hbracket, List.map_cons,
      ih fun d hd ↦ h d (List.mem_cons_of_mem c hd)]

private theorem matchTokens_map_char {pattern s : Text} :
    matchTokens python (pattern.map .char) s = true ↔ s = pattern := by
  induction pattern generalizing s with
  | nil => simp [matchTokens]
  | cons d pattern ih =>
    cases s with
    | nil => simp [matchTokens]
    | cons c s => simp [matchTokens, ih]

/-- A pattern without wildcards is a name. -/
theorem fnmatch_of_plain {name pattern : Text}
    (h : ∀ c ∈ pattern, c ≠ 0x2A ∧ c ≠ 0x3F ∧ c ≠ 0x5B) :
    fnmatch python name pattern = true ↔ name = pattern := by
  rw [fnmatch, tokens_eq_map_char h, matchTokens_map_char]

/-- A star and then plain characters: names that end with these. -/
theorem fnmatch_star {name pattern : Text}
    (h : ∀ c ∈ pattern, c ≠ 0x2A ∧ c ≠ 0x3F ∧ c ≠ 0x5B) :
    fnmatch python name (0x2A :: pattern) = true ↔ pattern <:+ name := by
  have htokens : tokens 0 (0x2A :: pattern) = .star :: pattern.map .char := by
    rw [tokens, if_pos rfl, tokens_eq_map_char h]
  rw [fnmatch, htokens, matchTokens, List.any_eq_true]
  constructor
  · rintro ⟨t, ht, hmatch⟩
    obtain rfl := (matchTokens_map_char python).mp hmatch
    exact (List.mem_tails _ _).mp ht
  · intro hsuffix
    exact ⟨pattern, (List.mem_tails _ _).mpr hsuffix, (matchTokens_map_char python).mpr rfl⟩

namespace Tree

variable (tree : Tree)

/-- The root and every directory below it. -/
def directories : List Entry := ([], .directory) :: tree.entries.filter fun entry ↦
  entry.2.isDirectory

/-- `root.rglob(pattern)`, for a pattern of one component. -/
def rglob (pattern : Text) : Except PyExn (List Entry) :=
  if pattern = [] ∨ pattern = "**" then .ok tree.directories
  else if pattern = ".." then
    .ok (tree.directories.map fun entry ↦ (entry.1 ++ [(".." : Text)], .directory))
  else if "**" <:+: pattern then
    .error (.valueError
      ("Invalid pattern: '**' can only be an entire path component" : String))
  else .ok (tree.entries.filter fun entry ↦ fnmatch python entry.name pattern)

/-- `root.glob(pattern)`, for a pattern of one component that is none of the special ones. -/
def glob (pattern : Text) : List Entry :=
  tree.entries.filter fun entry ↦ entry.1.length = 1 ∧ fnmatch python entry.name pattern

theorem nodup_entries : tree.entries.Nodup := List.Nodup.of_map Prod.fst tree.nodup

/-- A name that `rglob` finds files by. -/
def Selects (pattern name : Text) : Prop :=
  (pattern ≠ [] ∧ pattern ≠ "**" ∧ pattern ≠ "..") ∧ fnmatch python name pattern = true

variable {python tree}

/-- Which files are found is a matter of their own names. -/
theorem mem_rglob_iff {pattern : Text} {found : List Entry}
    (hfound : tree.rglob python pattern = .ok found) {file : Entry} (hfile : file.2.isFile = true) :
    file ∈ found ↔ file ∈ tree.entries ∧ Selects python pattern file.name := by
  have hdirectory : file.2.isDirectory ≠ true := by
    intro hdir
    cases hnode : file.2 <;> rw [hnode] at hfile hdir
    · cases hfile
    · cases hdir
    · cases hdir
  have hroot : file ≠ ([], .directory) := by
    rintro rfl
    exact hdirectory rfl
  rw [rglob] at hfound
  split at hfound
  · rename_i hspecial
    obtain rfl := Except.ok.inj hfound
    simp only [directories, List.mem_cons, hroot, false_or, List.mem_filter, Selects]
    constructor
    · rintro ⟨-, heq⟩
      exact absurd heq hdirectory
    · rintro ⟨-, ⟨hempty, hall, -⟩, -⟩
      exact absurd hspecial (not_or.mpr ⟨hempty, hall⟩)
  · split at hfound
    · rename_i hparent
      obtain rfl := Except.ok.inj hfound
      constructor
      · intro hmem
        obtain ⟨entry, -, rfl⟩ := List.mem_map.mp hmem
        exact absurd rfl hdirectory
      · rintro ⟨-, ⟨-, -, hne⟩, -⟩
        exact absurd hparent hne
    · split at hfound
      · cases hfound
      · rename_i hspecial hparent _
        obtain rfl := Except.ok.inj hfound
        rw [not_or] at hspecial
        rw [List.mem_filter, Selects]
        simp [hspecial, hparent]

variable (python tree) in
/-- A name without wildcards finds the files that bear it. -/
theorem rglob_of_plain {name : Text} (hplain : ∀ c ∈ name, c ≠ 0x2A ∧ c ≠ 0x3F ∧ c ≠ 0x5B)
    (hempty : name ≠ []) (hparent : name ≠ "..") : ∃ found, tree.rglob python name = .ok found ∧
      found.Nodup ∧ ∀ file : Entry, file.2.isFile = true →
        (file ∈ found ↔ file ∈ tree.entries ∧ file.name = name) := by
  have hstar : 0x2A ∉ name := fun h ↦ (hplain 0x2A h).1 rfl
  have hall : name ≠ "**" := by
    rintro rfl
    exact hstar (by decide)
  have hinfix : ¬("**" : Text) <:+: name := fun h ↦ hstar (h.subset (by decide))
  have hfound : tree.rglob python name =
      .ok (tree.entries.filter fun entry ↦ fnmatch python entry.name name) := by
    rw [rglob, if_neg (not_or.mpr ⟨hempty, hall⟩), if_neg hparent, if_neg hinfix]
  refine ⟨_, hfound, tree.nodup_entries.filter _, fun file hfile ↦ ?_⟩
  rw [mem_rglob_iff hfound hfile, Selects, fnmatch_of_plain python hplain]
  exact and_congr_right' ⟨fun h ↦ h.2, fun h ↦ ⟨⟨hempty, hall, hparent⟩, h⟩⟩

end Tree

theorem mem_sortEntries {entries : List Entry} {entry : Entry} :
    entry ∈ sortEntries entries ↔ entry ∈ entries :=
  List.mem_mergeSort

theorem sortEntries_eq_singleton {entries : List Entry} (hnodup : entries.Nodup) {entry : Entry}
    (h : ∀ entry', entry' ∈ entries ↔ entry' = entry) : sortEntries entries = [entry] := by
  have hperm : entries.Perm [entry] := by
    rw [List.perm_ext_iff_of_nodup hnodup (List.nodup_singleton entry)]
    simpa using h
  exact List.perm_singleton.mp ((List.mergeSort_perm _ _).trans hperm)

/-! ## Text files -/

/-- `t.encode("utf-8")` -/
def encodeUtf8 (t : Text) : Except PyExn ByteArray :=
  if ∀ c ∈ t, c.isValidChar then .ok (String.ofList (t.map Char.ofNat)).toByteArray
  else .error .unicodeError

/-- `bytes.decode("utf-8")` -/
def decodeUtf8 (bytes : ByteArray) : Except PyExn Text :=
  match String.fromUTF8? bytes with
  | some s => .ok s
  | none => .error .unicodeError

/-- Every line break becomes a line feed. -/
def universalNewlines (afterReturn : Bool) : Text → Text
  | [] => []
  | c :: s =>
    if c = 0x0D then 0x0A :: universalNewlines true s
    else if afterReturn ∧ c = 0x0A then universalNewlines false s
    else c :: universalNewlines false s

/-- `path.read_text(encoding="utf-8")` -/
def Node.readText : Node → Except PyExn Text
  | .file content => (decodeUtf8 content).map (universalNewlines false)
  | _ => .error .osError

theorem decodeUtf8_toByteArray (s : String) : decodeUtf8 s.toByteArray = .ok s := by
  have hdecode : String.fromUTF8? s.toByteArray = some s := dif_pos s.isValidUTF8
  rw [decodeUtf8, hdecode]

theorem decodeUtf8_encodeUtf8 {t : Text} {bytes : ByteArray} (h : encodeUtf8 t = .ok bytes) :
    decodeUtf8 bytes = .ok t := by
  rw [encodeUtf8] at h
  split at h
  · rename_i hvalid
    obtain rfl := Except.ok.inj h
    have htext : Text.ofString (String.ofList (t.map Char.ofNat)) = t := by
      rw [Text.ofString, String.toList_ofList, List.map_map]
      refine (List.map_congr_left fun c hc ↦ ?_).trans t.map_id
      rw [Function.comp_apply, Char.ofNat, dif_pos (hvalid c hc)]
      rfl
    rw [decodeUtf8_toByteArray]
    exact congrArg _ htext
  · cases h

theorem encodeUtf8_eq_ok {t : Text} (h : ∀ c ∈ t, c < 0xD800) :
    ∃ bytes, encodeUtf8 t = .ok bytes :=
  ⟨_, if_pos fun c hc ↦ Or.inl (h c hc)⟩

private theorem universalNewlines_eq_self {t : Text} (h : 0x0D ∉ t) :
    universalNewlines false t = t := by
  induction t with
  | nil => rfl
  | cons c t ih =>
    rw [List.mem_cons, not_or] at h
    rw [universalNewlines, if_neg (Ne.symm h.1), if_neg (by simp), ih h.2]

/-- What is written without carriage returns is read back. -/
theorem readText_encodeUtf8 {t : Text} {bytes : ByteArray} (h : encodeUtf8 t = .ok bytes)
    (hreturn : 0x0D ∉ t) : (Node.file bytes).readText = .ok t := by
  rw [Node.readText, decodeUtf8_encodeUtf8 h, Except.map, universalNewlines_eq_self hreturn]

end Python
