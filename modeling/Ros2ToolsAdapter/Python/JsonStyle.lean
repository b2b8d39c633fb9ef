import Ros2ToolsAdapter.Python.JsonRoundTrip

/-!
# The texts of json.dumps

Sorted, a value comes back in sorted order, so the text is the same for two values exactly when they
differ in nothing but the order of entries (`dumps_eq_iff`). Its characters are those of ASCII that
are printed, and those of the strings where they are left as they are (`dumpsAt_printed`).
-/

namespace Python

namespace Json.Style

variable (python : Interpreter) (style : Style) {p : ℕ → Bool} {q : ℤ → Bool}

/-! ## Values that are written alike -/

section Entries

variable {python style}

private theorem dumpsEntries_of_forall {level : ℕ} {entries : List (Text × Value)}
    (h : ∀ entry ∈ entries, ∃ t, style.dumpsAt python level entry.2 = .ok t) :
    ∃ texts, style.dumpsEntries python level entries = .ok texts := by
  induction entries with
  | nil => exact ⟨[], rfl⟩
  | cons entry entries ih =>
    obtain ⟨t, ht⟩ := h entry List.mem_cons_self
    obtain ⟨texts, htexts⟩ := ih fun e he ↦ h e (List.mem_cons_of_mem entry he)
    refine ⟨(entry.1, t) :: texts, ?_⟩
    rw [dumpsEntries, ht, htexts]
    rfl

private theorem forall_of_dumpsEntries {level : ℕ} {entries : List (Text × Value)}
    {texts : List (Text × Text)} (h : style.dumpsEntries python level entries = .ok texts) :
    ∃ zs : List (Text × Value × Text), zs.map (fun z ↦ (z.1, z.2.1)) = entries ∧
      zs.map (fun z ↦ (z.1, z.2.2)) = texts ∧
        ∀ z ∈ zs, style.dumpsAt python level z.2.1 = .ok z.2.2 := by
  induction entries generalizing texts with
  | nil =>
    obtain rfl := Except.ok.inj h
    exact ⟨[], rfl, rfl, by simp⟩
  | cons entry entries ih =>
    obtain ⟨t, ht, hrest⟩ := Except.bind_eq_ok.mp h
    obtain ⟨texts', htexts, heq⟩ := Except.bind_eq_ok.mp hrest
    obtain rfl := Except.ok.inj heq
    obtain ⟨zs, rfl, rfl, hzs⟩ := ih htexts
    exact ⟨(entry.1, entry.2, t) :: zs, rfl, rfl, List.forall_mem_cons.mpr ⟨ht, hzs⟩⟩

private theorem dumpsEntries_map {level : ℕ} {zs : List (Text × Value × Text)}
    (h : ∀ z ∈ zs, style.dumpsAt python level z.2.1 = .ok z.2.2) :
    style.dumpsEntries python level (zs.map fun z ↦ (z.1, z.2.1)) =
      .ok (zs.map fun z ↦ (z.1, z.2.2)) := by
  induction zs with
  | nil => rfl
  | cons z zs ih =>
    rw [List.forall_mem_cons] at h
    rw [List.map_cons, dumpsEntries, h.1, ih h.2]
    rfl

/-- Entries in another order have their texts in that order. -/
theorem dumpsEntries_order (other : Style) {level : ℕ} {entries : List (Text × Value)}
    {texts : List (Text × Text)} :
    style.dumpsEntries python level (other.order entries) = .ok texts ↔
      ∃ texts', style.dumpsEntries python level entries = .ok texts' ∧
        texts = other.order texts' := by
  have hforward {texts' : List (Text × Text)}
      (h : style.dumpsEntries python level entries = .ok texts') :
      style.dumpsEntries python level (other.order entries) = .ok (other.order texts') := by
    obtain ⟨zs, rfl, rfl, hzs⟩ := forall_of_dumpsEntries h
    rw [other.order_map zs Prod.fst, other.order_map zs Prod.snd]
    exact dumpsEntries_map fun z hz ↦ hzs z ((other.order_perm zs).mem_iff.mp hz)
  constructor
  · intro h
    obtain ⟨zs, hzs, -, hwritten⟩ := forall_of_dumpsEntries h
    have hall : ∀ entry ∈ entries, ∃ t, style.dumpsAt python level entry.2 = .ok t := by
      intro entry hentry
      rw [← (other.order_perm entries).mem_iff, ← hzs] at hentry
      obtain ⟨z, hz, rfl⟩ := List.mem_map.mp hentry
      exact ⟨_, hwritten z hz⟩
    obtain ⟨texts', htexts'⟩ := dumpsEntries_of_forall hall
    exact ⟨texts', htexts', Except.ok.inj (h.symm.trans (hforward htexts'))⟩
  · rintro ⟨texts', htexts', rfl⟩
    exact hforward htexts'

end Entries

/-- The same layout, in the order the entries were added in. -/
def unsorted : Style := { style with sort_keys := false }

private theorem quote_unsorted : style.unsorted.quote = style.quote := rfl

private theorem block_unsorted : style.unsorted.block = style.block := rfl

private theorem member_unsorted : style.unsorted.member = style.member := rfl

mutual

/-- The text of a value is that of the arranged value. -/
theorem dumpsAt_arrange (v : Value) {level : ℕ} {t : Text} :
    style.dumpsAt python level v = .ok t ↔
      style.unsorted.dumpsAt python level (style.arrange v) = .ok t := by
  cases v with
  | list items =>
    rw [arrange, dumpsAt, dumpsAt, Except.bind_eq_ok, Except.bind_eq_ok, block_unsorted]
    exact exists_congr fun texts ↦ and_congr_left' (dumpsItems_arrange items)
  | dict entries =>
    rw [arrange, dumpsAt, dumpsAt, Except.bind_eq_ok, Except.bind_eq_ok, block_unsorted,
      member_unsorted]
    constructor
    · rintro ⟨texts, htexts, hblock⟩
      refine ⟨style.order texts, ?_, hblock⟩
      exact (dumpsEntries_order style).mpr ⟨texts, (dumpsEntries_arrange entries).mp htexts, rfl⟩
    · rintro ⟨texts, htexts, hblock⟩
      obtain ⟨texts', htexts', rfl⟩ := (dumpsEntries_order style).mp htexts
      exact ⟨texts', (dumpsEntries_arrange entries).mpr htexts', hblock⟩
  | _ => simp only [arrange, dumpsAt, quote_unsorted]

private theorem dumpsItems_arrange (items : List Value) {level : ℕ} {texts : List Text} :
    style.dumpsItems python level items = .ok texts ↔
      style.unsorted.dumpsItems python level (style.arrangeItems items) = .ok texts := by
  cases items with
  | nil => rfl
  | cons v items =>
    simp only [arrangeItems, dumpsItems, Except.bind_eq_ok]
    exact exists_congr fun t ↦ and_congr (dumpsAt_arrange v)
      (exists_congr fun texts ↦ and_congr_left' (dumpsItems_arrange items))

private theorem dumpsEntries_arrange (entries : List (Text × Value)) {level : ℕ}
    {texts : List (Text × Text)} :
    style.dumpsEntries python level entries = .ok texts ↔
      style.unsorted.dumpsEntries python level (style.arrangeEntries entries) = .ok texts := by
  cases entries with
  | nil => rfl
  | cons entry entries =>
    simp only [arrangeEntries, dumpsEntries, Except.bind_eq_ok]
    exact exists_congr fun t ↦ and_congr (dumpsAt_arrange entry.2)
      (exists_congr fun texts ↦ and_congr_left' (dumpsEntries_arrange entries))

end

/-- Values that are arranged alike are written alike. -/
theorem dumps_of_arrange_eq {v w : Value} (h : style.arrange v = style.arrange w) {t : Text}
    (ht : style.dumps python v = .ok t) : style.dumps python w = .ok t := by
  rw [dumps, dumpsAt_arrange] at ht ⊢
  rwa [← h]

/-- Two values have the same text exactly when they are arranged alike. -/
theorem dumps_eq_iff (hp : ∀ c, p c = true → style.Keeps c) {v w : Value} (hv : v.Keyed)
    (hw : w.Keyed) (hvall : v.all p q = true) (hwall : w.all p q = true)
    (hvdepth : v.depth ≤ python.recursionLimit) (hwdepth : w.depth ≤ python.recursionLimit)
    {s t : Text} (hs : style.dumps python v = .ok s) (ht : style.dumps python w = .ok t) :
    s = t ↔ style.arrange v = style.arrange w := by
  constructor
  · rintro rfl
    have hreadv := loads_dumps python style hp hv hvall hvdepth (List.forall_mem_nil _) hs
    have hreadw := loads_dumps python style hp hw hwall hwdepth (List.forall_mem_nil _) ht
    exact Except.ok.inj (hreadv.symm.trans hreadw)
  · intro h
    exact Except.ok.inj ((dumps_of_arrange_eq python style h hs).symm.trans ht)

end Json.Style

namespace Json

/-! ## The characters of a text -/

/-- A line feed, or a character of ASCII that is printed. -/
def Plain (t : Text) : Prop := ∀ c ∈ t, c = 0x0A ∨ 0x20 ≤ c ∧ c ≤ 0x7E

instance (t : Text) : Decidable (Plain t) := inferInstanceAs (Decidable (∀ c ∈ t, _))

theorem Plain.append {s t : Text} (hs : Plain s) (ht : Plain t) : Plain (s ++ t) := by
  intro c hc
  exact (List.mem_append.mp hc).elim (hs c) (ht c)

theorem Plain.cons {c : ℕ} {t : Text} (hc : c = 0x0A ∨ 0x20 ≤ c ∧ c ≤ 0x7E) (ht : Plain t) :
    Plain (c :: t) :=
  List.forall_mem_cons.mpr ⟨hc, ht⟩

private theorem plain_hexDigit (n : ℕ) : 0x20 ≤ hexDigit (n % 16) ∧ hexDigit (n % 16) ≤ 0x7E := by
  have hall : ∀ d < 16, 0x20 ≤ hexDigit d ∧ hexDigit d ≤ 0x7E := by decide
  exact hall _ (Nat.mod_lt _ (by decide))

private theorem plain_escapeUnit (u : ℕ) : Plain (escapeUnit u) := by
  intro c hc
  simp only [escapeUnit, List.mem_cons, List.not_mem_nil, or_false] at hc
  rcases hc with rfl | rfl | rfl | rfl | rfl | rfl
  · decide
  · decide
  all_goals exact Or.inr (plain_hexDigit _)

private theorem plain_escapeLetter {c letter : ℕ} (h : escapes.lookup c = some letter) :
    Plain [0x5C, letter] := by
  have hall : ∀ e ∈ escapes, Plain [0x5C, e.2] := by decide
  obtain ⟨l₁, l₂, heq, -⟩ := List.lookup_eq_some_iff.mp h
  exact hall (c, letter) (by simp [heq])

private theorem plain_escapeChar (c : ℕ) : Plain (escapeChar c) := by
  rw [escapeChar]
  cases hescape : escapes.lookup c with
  | some letter => exact plain_escapeLetter hescape
  | none =>
    by_cases hplain : 0x20 ≤ c ∧ c ≤ 0x7E
    · simpa [hplain] using Plain.cons (Or.inr hplain) (t := []) (by simp [Plain])
    · by_cases hunit : c < 0x10000
      · simpa [hplain, hunit] using plain_escapeUnit c
      · simpa [hplain, hunit] using (plain_escapeUnit _).append (plain_escapeUnit _)

private theorem plain_newline (level : ℕ) : Plain (newline level) := by
  refine Plain.cons (Or.inl rfl) ?_
  intro c hc
  rw [List.eq_of_mem_replicate hc]
  decide

private theorem plain_ofInt {n : ℤ} {t : Text} (ht : Text.ofInt n = .ok t) : Plain t := by
  have hdigits : Plain (Text.decimal n.natAbs) := by
    intro c hc
    have hdigit := isDigit_of_mem_decimal hc
    simp only [isDigit, Bool.and_eq_true, decide_eq_true_eq] at hdigit
    omega
  rw [Text.ofInt] at ht
  split at ht
  · cases ht
  · obtain rfl := Except.ok.inj ht
    split
    · exact Plain.cons (by decide) hdigits
    · exact hdigits

namespace Style

variable (python : Interpreter) (style : Style) {p : ℕ → Bool} {q : ℤ → Bool}

/-- A line feed, a character of ASCII that is printed, or a character the strings may have. -/
def Printed (p : ℕ → Bool) (t : Text) : Prop :=
  ∀ c ∈ t, c = 0x0A ∨ 0x20 ≤ c ∧ (c ≤ 0x7E ∨ p c = true)

private theorem printed_of_plain {t : Text} (ht : Plain t) : Printed p t := fun c hc ↦
  (ht c hc).imp_right fun h ↦ ⟨h.1, Or.inl h.2⟩

theorem Printed.append {s t : Text} (hs : Printed p s) (ht : Printed p t) : Printed p (s ++ t) :=
  fun c hc ↦ (List.mem_append.mp hc).elim (hs c) (ht c)

/-- The characters of strings that are left as they are. -/
def shown (p : ℕ → Bool) (c : ℕ) : Bool := !style.ensure_ascii && p c

private theorem printed_rawChar {c : ℕ} (hc : p c = true) : Printed p (rawChar c) := by
  rw [rawChar]
  cases hescape : escapes.lookup c with
  | some letter => exact printed_of_plain (plain_escapeLetter hescape)
  | none =>
    dsimp only
    split
    · exact printed_of_plain (plain_escapeUnit c)
    · rename_i hcontrol
      intro d hd
      obtain rfl := List.mem_singleton.mp hd
      exact Or.inr ⟨not_lt.mp hcontrol, Or.inr hc⟩

private theorem printed_quote {s : Text} (hs : s.all p = true) :
    Printed (style.shown p) (style.quote s) := by
  have hquote : Printed (style.shown p) [0x22] := printed_of_plain (by decide)
  have hchars : Printed (style.shown p) (s.flatMap style.char) := by
    intro c hc
    obtain ⟨d, hd, hc⟩ := List.mem_flatMap.mp hc
    rw [char] at hc
    split at hc
    · exact printed_of_plain (plain_escapeChar d) c hc
    · rename_i hascii
      have hshown : style.shown p d = true := by
        simp [shown, hascii, List.all_eq_true.mp hs d hd]
      exact printed_rawChar hshown c hc
  exact hquote.append (hchars.append hquote)

private theorem printed_intercalate {sep : Text} (hsep : Printed p sep) {items : List Text}
    (hitems : ∀ t ∈ items, Printed p t) : Printed p (List.intercalate sep items) := by
  induction items with
  | nil => exact List.forall_mem_nil _
  | cons t items ih =>
    rw [List.forall_mem_cons] at hitems
    cases items with
    | nil => simpa using hitems.1
    | cons t' items =>
      rw [List.intercalate_cons_cons]
      exact (hitems.1.append hsep).append (ih hitems.2)

private theorem printed_block {start stop : ℕ} (hstart : Plain [start]) (hstop : Plain [stop])
    (level : ℕ) {items : List Text} (hitems : ∀ t ∈ items, Printed p t) :
    Printed p (style.block start stop level items) := by
  have hopen : Printed p [start] := printed_of_plain hstart
  have hclose : Printed p [stop] := printed_of_plain hstop
  have hgap (level : ℕ) : Printed p (style.gap level) := by
    rw [gap]
    split
    · exact printed_of_plain (plain_newline level)
    · exact List.forall_mem_nil _
  rw [block]
  split
  · exact hopen.append hclose
  · have hcomma : Printed p [0x2C] := printed_of_plain (by decide)
    exact hopen.append ((((hgap _).append (printed_intercalate (hcomma.append (hgap _))
      hitems)).append (hgap _)).append hclose)

mutual

theorem dumpsAt_printed (v : Value) (hp : v.all p q = true) {level : ℕ} {t : Text}
    (ht : style.dumpsAt python level v = .ok t) : Printed (style.shown p) t := by
  cases v with
  | none =>
    obtain rfl := Except.ok.inj ht
    exact printed_of_plain (by decide)
  | bool b =>
    obtain rfl := Except.ok.inj ht
    exact printed_of_plain (by cases b <;> decide)
  | int n => exact printed_of_plain (plain_ofInt ht)
  | float x => cases hp
  | str s =>
    obtain rfl := Except.ok.inj ht
    exact style.printed_quote hp
  | list items =>
    obtain ⟨texts, htexts, hblock⟩ := Except.bind_eq_ok.mp ht
    obtain rfl := Except.ok.inj hblock
    exact style.printed_block (by decide) (by decide) level
      (dumpsItems_printed items hp htexts)
  | dict entries =>
    obtain ⟨texts, htexts, hblock⟩ := Except.bind_eq_ok.mp ht
    obtain rfl := Except.ok.inj hblock
    refine style.printed_block (by decide) (by decide) level fun t ht ↦ ?_
    obtain ⟨entry, hentry, rfl⟩ := List.mem_map.mp ht
    obtain ⟨hkey, hvalue⟩ := dumpsEntries_printed entries hp htexts entry
      ((style.order_perm texts).mem_iff.mp hentry)
    have hcolon : Printed (style.shown p) (0x3A :: (if style.indent then [0x20] else [])) := by
      split <;> exact printed_of_plain (by decide)
    have hmember := (hkey.append hcolon).append hvalue
    rwa [List.append_assoc, List.cons_append] at hmember

private theorem dumpsItems_printed (items : List Value) (hp : Value.allItems p q items = true)
    {level : ℕ} {texts : List Text} (ht : style.dumpsItems python level items = .ok texts) :
    ∀ t ∈ texts, Printed (style.shown p) t := by
  cases items with
  | nil =>
    obtain rfl := Except.ok.inj ht
    simp
  | cons v items =>
    obtain ⟨t, hv, hrest⟩ := Except.bind_eq_ok.mp ht
    obtain ⟨texts', htexts, heq⟩ := Except.bind_eq_ok.mp hrest
    obtain rfl := Except.ok.inj heq
    rw [Value.allItems, Bool.and_eq_true] at hp
    rw [List.forall_mem_cons]
    exact ⟨dumpsAt_printed v hp.1 hv, dumpsItems_printed items hp.2 htexts⟩

private theorem dumpsEntries_printed (entries : List (Text × Value))
    (hp : Value.allEntries p q entries = true) {level : ℕ} {texts : List (Text × Text)}
    (ht : style.dumpsEntries python level entries = .ok texts) :
    ∀ entry ∈ texts,
      Printed (style.shown p) (style.quote entry.1) ∧ Printed (style.shown p) entry.2 := by
  cases entries with
  | nil =>
    obtain rfl := Except.ok.inj ht
    simp
  | cons entry entries =>
    obtain ⟨key, v⟩ := entry
    obtain ⟨t, hv, hrest⟩ := Except.bind_eq_ok.mp ht
    obtain ⟨texts', htexts, heq⟩ := Except.bind_eq_ok.mp hrest
    obtain rfl := Except.ok.inj heq
    rw [Value.allEntries, Bool.and_eq_true, Bool.and_eq_true] at hp
    rw [List.forall_mem_cons]
    exact ⟨⟨style.printed_quote hp.1.1, dumpsAt_printed v hp.1.2 hv⟩,
      dumpsEntries_printed entries hp.2 htexts⟩

end

/-- With `ensure_ascii=True` there is nothing but ASCII. -/
theorem dumpsAt_plain (hascii : style.ensure_ascii = true) {v : Value} (hv : v.all p q = true)
    {level : ℕ} {t : Text} (ht : style.dumpsAt python level v = .ok t) : Plain t := by
  intro c hc
  have hprinted := dumpsAt_printed python style v hv ht c hc
  simpa [shown, hascii] using hprinted

mutual

/-- What is written is written without an exception where no integer is too long. -/
theorem dumpsAt_ok (hq : ∀ n, q n = true → ∃ t, Text.ofInt n = .ok t) (v : Value)
    (hv : v.all p q = true) (level : ℕ) : ∃ t, style.dumpsAt python level v = .ok t := by
  cases v with
  | int n => exact hq n hv
  | float x => cases hv
  | list items =>
    obtain ⟨texts, htexts⟩ := dumpsItems_ok hq items hv (level + 1)
    exact ⟨_, Except.bind_eq_ok.mpr ⟨texts, htexts, rfl⟩⟩
  | dict entries =>
    obtain ⟨texts, htexts⟩ := dumpsEntries_ok hq entries hv (level + 1)
    exact ⟨_, Except.bind_eq_ok.mpr ⟨texts, htexts, rfl⟩⟩
  | _ => exact ⟨_, rfl⟩

private theorem dumpsItems_ok (hq : ∀ n, q n = true → ∃ t, Text.ofInt n = .ok t)
    (items : List Value) (hv : Value.allItems p q items = true) (level : ℕ) :
    ∃ texts, style.dumpsItems python level items = .ok texts := by
  cases items with
  | nil => exact ⟨[], rfl⟩
  | cons v items =>
    rw [Value.allItems, Bool.and_eq_true] at hv
    obtain ⟨t, ht⟩ := dumpsAt_ok hq v hv.1 level
    obtain ⟨texts, htexts⟩ := dumpsItems_ok hq items hv.2 level
    exact ⟨t :: texts, Except.bind_eq_ok.mpr ⟨t, ht, Except.bind_eq_ok.mpr ⟨texts, htexts, rfl⟩⟩⟩

private theorem dumpsEntries_ok (hq : ∀ n, q n = true → ∃ t, Text.ofInt n = .ok t)
    (entries : List (Text × Value)) (hv : Value.allEntries p q entries = true) (level : ℕ) :
    ∃ texts, style.dumpsEntries python level entries = .ok texts := by
  cases entries with
  | nil => exact ⟨[], rfl⟩
  | cons entry entries =>
    obtain ⟨key, v⟩ := entry
    rw [Value.allEntries, Bool.and_eq_true, Bool.and_eq_true] at hv
    obtain ⟨t, ht⟩ := dumpsAt_ok hq v hv.1.2 level
    obtain ⟨texts, htexts⟩ := dumpsEntries_ok hq entries hv.2 level
    exact ⟨(key, t) :: texts,
      Except.bind_eq_ok.mpr ⟨t, ht, Except.bind_eq_ok.mpr ⟨texts, htexts, rfl⟩⟩⟩

end

end Style

/-! ## What is read -/

section Items

variable {α : Type} {item : Text → Except PyExn (α × Text)} {P : α → Prop}

private theorem forall_of_scanSeparated (hitem : ∀ s x rest, item s = .ok (x, rest) → P x)
    {stop : ℕ} {rounds : ℕ} {s : Text} {xs : List α} {rest : Text}
    (h : scanSeparated item stop rounds s = .ok (xs, rest)) : ∀ x ∈ xs, P x := by
  induction rounds generalizing s xs with
  | zero => cases h
  | succ rounds ih =>
    obtain ⟨⟨x, s₁⟩, hx, h⟩ := Except.bind_eq_ok.mp h
    dsimp only at h
    split at h
    · cases h
      simpa using hitem s x s₁ hx
    · obtain ⟨s₂, -, h⟩ := Except.bind_eq_ok.mp h
      obtain ⟨⟨ys, s₃⟩, hys, hret⟩ := Except.bind_eq_ok.mp h
      cases hret
      exact List.forall_mem_cons.mpr ⟨hitem s x s₁ hx, ih hys⟩

private theorem forall_of_scanItems (hitem : ∀ s x rest, item s = .ok (x, rest) → P x) {stop : ℕ}
    {s : Text} {xs : List α} {rest : Text} (h : scanItems item stop s = .ok (xs, rest)) :
    ∀ x ∈ xs, P x := by
  rw [scanItems] at h
  split at h
  · cases h
    simp
  · exact forall_of_scanSeparated hitem h

end Items

/-- A dictionary keeps one value for each key, and it is one of those that came with it. -/
theorem dictOf_spec (pairs : List (Text × Value)) :
    ((dictOf pairs).map Prod.fst).Nodup ∧ ∀ entry ∈ dictOf pairs, entry ∈ pairs := by
  have hstep (entries : List (Text × Value)) (hnodup : (entries.map Prod.fst).Nodup)
      (pair : Text × Value) : ((setItem entries pair.1 pair.2).map Prod.fst).Nodup ∧
        ∀ entry ∈ setItem entries pair.1 pair.2, entry ∈ entries ∨ entry = pair := by
    rw [setItem]
    split
    · refine ⟨?_, fun entry hentry ↦ ?_⟩
      · have hkeys : (entries.map fun entry ↦
            if entry.1 = pair.1 then (pair.1, pair.2) else entry).map Prod.fst =
              entries.map Prod.fst := by
          rw [List.map_map]
          refine List.map_congr_left fun entry _ ↦ ?_
          rw [Function.comp_apply]
          split
          · rename_i heq
            exact heq.symm
          · rfl
        rwa [hkeys]
      · obtain ⟨entry', hentry', rfl⟩ := List.mem_map.mp hentry
        split
        · exact Or.inr rfl
        · exact Or.inl hentry'
    · rename_i hnew
      refine ⟨?_, fun entry hentry ↦ ?_⟩
      · rw [List.map_append, List.nodup_append]
        refine ⟨hnodup, List.nodup_singleton _, ?_⟩
        rintro key hkey _ hpair rfl
        exact hnew (List.mem_singleton.mp hpair ▸ hkey)
      · simpa using hentry
  have hfold (pairs entries : List (Text × Value)) (hnodup : (entries.map Prod.fst).Nodup) :
      ((pairs.foldl (fun entries pair ↦ setItem entries pair.1 pair.2) entries).map
        Prod.fst).Nodup ∧
        ∀ entry ∈ pairs.foldl (fun entries pair ↦ setItem entries pair.1 pair.2) entries,
          entry ∈ entries ∨ entry ∈ pairs := by
    induction pairs generalizing entries with
    | nil => exact ⟨hnodup, fun entry hentry ↦ Or.inl hentry⟩
    | cons pair pairs ih =>
      obtain ⟨hnodup', hmem⟩ := hstep entries hnodup pair
      obtain ⟨hkeys, hrest⟩ := ih _ hnodup'
      refine ⟨hkeys, fun entry hentry ↦ ?_⟩
      rcases hrest entry hentry with h | h
      · rcases hmem entry h with h | rfl
        · exact Or.inl h
        · exact Or.inr List.mem_cons_self
      · exact Or.inr (List.mem_cons_of_mem _ h)
  obtain ⟨hkeys, hmem⟩ := hfold pairs [] List.nodup_nil
  exact ⟨hkeys, fun entry hentry ↦ (hmem entry hentry).resolve_left List.not_mem_nil⟩

/-- What a reader of so many levels returns. -/
def Within (d : ℕ) (v : Value) : Prop := v.Keyed ∧ v.depth ≤ d

theorem within_list {d : ℕ} {items : List Value} (h : ∀ v ∈ items, Within d v) :
    Within (d + 1) (.list items) := by
  have hitems : Value.KeyedItems items ∧ Value.depthItems items ≤ d := by
    induction items with
    | nil => exact ⟨trivial, Nat.zero_le d⟩
    | cons v items ih =>
      rw [List.forall_mem_cons] at h
      exact ⟨⟨h.1.1, (ih h.2).1⟩, max_le h.1.2 (ih h.2).2⟩
  exact ⟨hitems.1, Nat.succ_le_succ hitems.2⟩

theorem within_dict {d : ℕ} {entries : List (Text × Value)}
    (hnodup : (entries.map Prod.fst).Nodup) (h : ∀ entry ∈ entries, Within d entry.2) :
    Within (d + 1) (.dict entries) := by
  have hentries : Value.KeyedEntries entries ∧ Value.depthEntries entries ≤ d := by
    clear hnodup
    induction entries with
    | nil => exact ⟨trivial, Nat.zero_le d⟩
    | cons entry entries ih =>
      rw [List.forall_mem_cons] at h
      exact ⟨⟨h.1.1, (ih h.2).1⟩, max_le h.1.2 (ih h.2).2⟩
  exact ⟨⟨hnodup, hentries.1⟩, Nat.succ_le_succ hentries.2⟩

theorem Within.item {d : ℕ} {items : List Value} (h : Within d (.list items)) {v : Value}
    (hmem : v ∈ items) : Within (d - 1) v := by
  obtain ⟨hkeyed, hdepth⟩ := h
  have hle : Value.depthItems items ≤ d - 1 := Nat.le_sub_one_of_lt hdepth
  clear hdepth
  induction items with
  | nil => cases hmem
  | cons first items ih =>
    rcases List.mem_cons.mp hmem with rfl | hmem
    · exact ⟨hkeyed.1, (le_max_left _ _).trans hle⟩
    · exact ih hmem hkeyed.2 ((le_max_right _ _).trans hle)

theorem Within.entry {d : ℕ} {entries : List (Text × Value)} (h : Within d (.dict entries))
    {entry : Text × Value} (hmem : entry ∈ entries) : Within (d - 1) entry.2 := by
  obtain ⟨⟨-, hkeyed⟩, hdepth⟩ := h
  have hle : Value.depthEntries entries ≤ d - 1 := Nat.le_sub_one_of_lt hdepth
  clear hdepth
  induction entries with
  | nil => cases hmem
  | cons first entries ih =>
    rcases List.mem_cons.mp hmem with rfl | hmem
    · exact ⟨hkeyed.1, (le_max_left _ _).trans hle⟩
    · exact ih hmem hkeyed.2 ((le_max_right _ _).trans hle)

theorem Within.get {d : ℕ} {fields : List Text} {r : Record fields} (h : Within d r.toValue)
    {key : Text} (hkey : key ∈ fields) : Within (d - 1) (r.get key hkey) := by
  obtain ⟨before, after, heq, -⟩ := List.lookup_eq_some_iff.mp (r.lookup_eq hkey)
  have hmem : (key, r.get key hkey) ∈ r.1 := by simp [heq]
  exact Within.entry h hmem

/-- A value that is no container. -/
theorem within_scanScalar {s : Text} {v : Value} {rest : Text}
    (h : scanScalar s = .ok (v, rest)) (d : ℕ) : Within d v := by
  have hint (n : ℤ) : Within d (.int n) := ⟨trivial, Nat.zero_le d⟩
  have hfloat (token : Text) : Within d (.float token) := ⟨trivial, Nat.zero_le d⟩
  rw [scanScalar] at h
  split at h
  · obtain ⟨⟨t, rest'⟩, -, hret⟩ := Except.bind_eq_ok.mp h
    cases hret
    exact ⟨trivial, Nat.zero_le d⟩
  · split at h
    · rename_i word v' hfound
      have hwords : ∀ entry ∈ words, Within d entry.2 := by
        simp only [words, List.mem_cons, List.not_mem_nil, or_false]
        rintro entry (rfl | rfl | rfl | rfl | rfl | rfl) <;> exact ⟨trivial, Nat.zero_le d⟩
      cases h
      exact hwords _ (List.mem_of_find?_eq_some hfound)
    · obtain ⟨sign, whole, fraction, exponent, n, hnumber⟩ :
          ∃ (sign whole fraction exponent : Text) (n : ℕ),
            (if whole = [] then .error .jsonDecodeError
              else if fraction = [] ∧ exponent = [] then intOf (sign ≠ []) whole
              else .ok (.float (sign ++ whole ++ fraction ++ exponent))).map
                (fun v ↦ (v, s.drop n)) = .ok (v, rest) := ⟨_, _, _, _, _, h⟩
      split at hnumber
      · cases hnumber
      · split at hnumber
        · rw [intOf] at hnumber
          split at hnumber
          · cases hnumber
          · cases hnumber
            exact hint _
        · cases hnumber
          exact hfloat _

private theorem within_scanOnce (d : ℕ) {s : Text} {v : Value} {rest : Text}
    (h : scanOnce d s = .ok (v, rest)) : Within d v := by
  induction d generalizing s v rest with
  | zero =>
    rw [scanOnce] at h
    split at h
    · cases h
    · exact within_scanScalar h 0
  | succ d ih =>
    rw [scanOnce] at h
    split at h
    · obtain ⟨⟨items, rest'⟩, hitems, hret⟩ := Except.bind_eq_ok.mp h
      cases hret
      exact within_list (forall_of_scanItems (fun _ _ _ hx ↦ ih hx) hitems)
    · split at h
      · obtain ⟨⟨pairs, rest'⟩, hpairs, hret⟩ := Except.bind_eq_ok.mp h
        cases hret
        have hmembers : ∀ pair ∈ pairs, Within d pair.2 := by
          refine forall_of_scanItems (fun s pair rest hpair ↦ ?_) hpairs
          obtain ⟨s₁, -, hpair⟩ := Except.bind_eq_ok.mp hpair
          obtain ⟨⟨key, s₂⟩, -, hpair⟩ := Except.bind_eq_ok.mp hpair
          obtain ⟨s₃, -, hpair⟩ := Except.bind_eq_ok.mp hpair
          obtain ⟨⟨v, s₄⟩, hv, hret⟩ := Except.bind_eq_ok.mp hpair
          cases hret
          exact ih hv
        obtain ⟨hnodup, hmem⟩ := dictOf_spec pairs
        exact within_dict hnodup fun entry hentry ↦ hmembers entry (hmem entry hentry)
      · exact within_scanScalar h (d + 1)

/-- What `json.loads` returns has every key once and is no deeper than the limit. -/
theorem within_loads {python : Interpreter} {s : Text} {v : Value}
    (h : loads python s = .ok v) : Within python.recursionLimit v := by
  rw [loads] at h
  split at h
  · cases h
  · obtain ⟨⟨v', rest⟩, hscan, h⟩ := Except.bind_eq_ok.mp h
    dsimp only at h
    split at h
    · cases h
    · cases h
      exact within_scanOnce _ hscan

end Json

end Python
