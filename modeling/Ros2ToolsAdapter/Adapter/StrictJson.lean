import Ros2ToolsAdapter.Adapter.Schemas
import Ros2ToolsAdapter.Foundation.JsonText

/-!
# What the strict reader reads

Every JSON text the adapter takes goes through `parseStrictJson`, which sets up a reader of JsonCpp
and lets it read. Six settings make the reader strict about the document it finds. Whether there may
be anything behind the document is up to a seventh, `failIfExtra`, which is left at its default, and
that default does not care.

The reader is not part of the repository, and which texts it takes for a document is its own affair.
All that is asked of it here is `StopsAfterFirstRoot`, that without `failIfExtra` it stops behind
the first root of the text. This alone is enough: whatever text is accepted, it is accepted with
anything behind it, and of the two texts one at most is a document.
-/

namespace Ros2ToolsAdapter

open Json JsonText

/-- The reader stops behind the first root of the text and does not look at the rest, unless it is
told that more is a failure. A strict root ends in a bracket, and what follows cannot move its
end. -/
def StopsAfterFirstRoot (build : Build) : Prop :=
  ∀ settings text v, settings.strictRoot = true → settings.failIfExtra = false →
    build.parse settings text = .value v → ∀ rest, build.parse settings (text ++ rest) = .value v

/-- The whole text is a document between blanks. -/
def IsWhole (text : Str) : Prop :=
  ∃ before root after d, text = before ++ root ++ after ∧ Blank before ∧ Document d root ∧
    Blank after

/-- A whole text ends where its document does: with more than blanks behind it, it is not whole. -/
theorem IsWhole.not_append {text s : Str} (h : IsWhole text) (hs : ¬ Blank s) :
    ¬ IsWhole (text ++ s) := by
  rintro ⟨before', root', after', d', htext, hbefore', hroot', hafter'⟩
  obtain ⟨before, root, after, d, rfl, hbefore, hroot, -⟩ := h
  rw [List.append_assoc] at htext
  obtain ⟨-, -, rfl⟩ := hroot.eq_of_blank_append_eq hbefore hbefore' hroot' htext
  exact hs fun b hb ↦ hafter' b (List.mem_append_right after hb)

/-- `parseStrictJson` takes the text for a whole document: if it accepts the text then the text is
one, and it does not accept the text with more than blanks behind it. -/
structure TakesForWhole (build : Build) (description text : Str) : Prop where
  whole : (∃ v, build.parseStrictJson text description = .ok v) → IsWhole text
  alone : (∃ v, build.parseStrictJson text description = .ok v) → ∀ s, ¬ Blank s →
    ¬ ∃ v, build.parseStrictJson (text ++ s) description = .ok v

section Reader

variable {build : Build} {text : Str}

/-- The value is that of the reader, whatever the text is called in the error. -/
theorem parseStrictJson_eq_ok {v : Value} {description : Str} :
    build.parseStrictJson text description = .ok v ↔
      build.parse Build.strictReader text = .value v := by
  rw [Build.parseStrictJson]
  cases build.parse Build.strictReader text <;> simp

/-- What is accepted is accepted with anything behind it, and read as the same value. -/
theorem parseStrictJson_append (hstops : StopsAfterFirstRoot build) {v : Value} {description : Str}
    (h : build.parseStrictJson text description = .ok v) (rest : Str) :
    build.parseStrictJson (text ++ rest) description = .ok v := by
  rw [parseStrictJson_eq_ok] at h ⊢
  exact hstops Build.strictReader text v rfl rfl h rest

end Reader

/-- **No text that is accepted is taken for a whole document**: whatever follows is accepted too,
and where that is more than blanks, one of the two texts is accepted and is not whole. -/
theorem parseStrictJson_never_whole (build : Build) (hstops : StopsAfterFirstRoot build)
    (description text : Str) :
    (TakesForWhole build description text ↔
        ∀ v, build.parse Build.strictReader text ≠ .value v) ∧
      ∀ v, build.parse Build.strictReader text = .value v → ∀ s,
        build.parseStrictJson text description = .ok v ∧
          build.parseStrictJson (text ++ s) description = .ok v ∧
          (¬ Blank s → ¬ (IsWhole text ∧ IsWhole (text ++ s))) := by
  constructor
  · constructor
    · intro h v hv
      have hok : build.parseStrictJson text description = .ok v := parseStrictJson_eq_ok.mpr hv
      -- one more letter, say
      have hletter : ¬ Blank [0x78] := by simp [Blank, blanks]
      exact h.alone ⟨v, hok⟩ [0x78] hletter ⟨v, parseStrictJson_append hstops hok _⟩
    · intro hrefused
      have hnone : ¬ ∃ v, build.parseStrictJson text description = .ok v := by
        rintro ⟨v, hv⟩
        exact hrefused v (parseStrictJson_eq_ok.mp hv)
      exact ⟨fun h ↦ absurd h hnone, fun h ↦ absurd h hnone⟩
  · intro v hv s
    have hok : build.parseStrictJson text description = .ok v := parseStrictJson_eq_ok.mpr hv
    exact ⟨hok, parseStrictJson_append hstops hok s, fun hs hwhole ↦
      hwhole.1.not_append hs hwhole.2⟩

/-! ### A document and a letter -/

/-- The empty object. -/
def emptyText : Str := [0x7B, 0x7D]

/-- The text without the blanks it begins with. -/
def skipBlanks (text : Str) : Str := text.dropWhile fun b ↦ decide (b ∈ blanks)

/-- The empty object at the beginning of the text, after blanks, and what is behind it. -/
def readEmptyObject (text : Str) : Option Str :=
  if emptyText.isPrefixOf (skipBlanks text) then some ((skipBlanks text).drop emptyText.length)
  else none

/-- A reader whose only document is the empty object. On a text that begins with it, it does what
the reader of JsonCpp does. -/
def parseEmptyObject (settings : CharReaderBuilder) (text : Str) : ParseResult :=
  match readEmptyObject text with
  | none => .errors "Syntax error: value, object or array expected.\n"
  | some rest =>
    if settings.failIfExtra && !(skipBlanks rest).isEmpty then
      .errors "Extra non-whitespace after JSON value.\n"
    else .value (.object [])

def emptyObjectBuild : Build := Request.referenceBuild parseEmptyObject fun _ _ ↦ []

private theorem skipBlanks_append {text : Str} (h : skipBlanks text ≠ []) (rest : Str) :
    skipBlanks (text ++ rest) = skipBlanks text ++ rest := by
  rw [skipBlanks] at h
  rw [skipBlanks, List.dropWhile_append, if_neg (by simpa using h), skipBlanks]

theorem readEmptyObject_append {text found : Str} (h : readEmptyObject text = some found)
    (rest : Str) : readEmptyObject (text ++ rest) = some (found ++ rest) := by
  rw [readEmptyObject] at h
  split at h
  · rename_i hbegins
    obtain ⟨behind, hbehind⟩ := List.isPrefixOf_iff_prefix.mp hbegins
    have hne : skipBlanks text ≠ [] := by
      rw [← hbehind]
      exact List.cons_ne_nil _ _
    rw [← hbehind, List.drop_left] at h
    rw [readEmptyObject, skipBlanks_append hne, ← hbehind, List.append_assoc,
      if_pos (List.isPrefixOf_iff_prefix.mpr (List.prefix_append _ _)), List.drop_left,
      Option.some.inj h]
  · cases h

private theorem emptyObjectBuild_stops : StopsAfterFirstRoot emptyObjectBuild := by
  intro settings text v _ hextra h rest
  simp only [emptyObjectBuild, Request.referenceBuild, parseEmptyObject, hextra,
    Bool.false_and] at h ⊢
  cases hroot : readEmptyObject text with
  | none =>
    rw [hroot] at h
    cases h
  | some found =>
    rw [hroot] at h
    rw [readEmptyObject_append hroot]
    exact h

/-- `{}` is accepted, and so is `{} x`, which is not a document. -/
theorem emptyText_overfull :
    emptyObjectBuild.parseStrictJson emptyText "input" = .ok (.object []) ∧
      emptyObjectBuild.parseStrictJson (emptyText ++ [0x20, 0x78]) "input" = .ok (.object []) ∧
        ¬ Blank [0x20, 0x78] ∧ ¬ IsWhole (emptyText ++ [0x20, 0x78]) := by
  have hmore : ¬ Blank [0x20, 0x78] := by simp [Blank, blanks]
  have hwhole : IsWhole emptyText :=
    ⟨[], emptyText, [], 1, rfl, blank_nil, .emptyObject blank_nil, blank_nil⟩
  exact ⟨rfl, rfl, hmore, hwhole.not_append hmore⟩

theorem parseStrictJson_never_whole_emptyText :
    (TakesForWhole emptyObjectBuild "input" emptyText ↔
        ∀ v, emptyObjectBuild.parse Build.strictReader emptyText ≠ .value v) ∧
      ∀ v, emptyObjectBuild.parse Build.strictReader emptyText = .value v → ∀ s,
        emptyObjectBuild.parseStrictJson emptyText "input" = .ok v ∧
          emptyObjectBuild.parseStrictJson (emptyText ++ s) "input" = .ok v ∧
          (¬ Blank s → ¬ (IsWhole emptyText ∧ IsWhole (emptyText ++ s))) :=
  parseStrictJson_never_whole emptyObjectBuild emptyObjectBuild_stops "input" emptyText

end Ros2ToolsAdapter
