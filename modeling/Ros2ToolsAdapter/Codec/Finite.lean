import Ros2ToolsAdapter.Codec.Projection

/-!
# Numbers that are not finite

JSON has no spelling for a NaN or an infinity, so a message that holds one ought not to get past the
encoder. Of the three floating-point types one is checked, the long double, which is narrowed to a
double on the way and has to be in its range. The other two are passed on as they are, and for them
the numbers of the result are finite exactly when those of the message are.
-/

namespace Json.Value

/-- `w` is the value, or is somewhere in it. -/
inductive OccursIn (w : Value) : Value → Prop
  | here : OccursIn w w
  | item {v x : Value} (hx : x ∈ v.items) (h : OccursIn w x) : OccursIn w v
  | member {v x : Value} {name : Str} (hx : v.member? name = some x) (h : OccursIn w x) :
    OccursIn w v

/-- Every number in the value is finite. Only a real can fail to be. -/
def AllFinite (v : Value) : Prop := ∀ x, OccursIn (.real x) v → x.isFinite = true

private theorem allFinite_iff {v : Value} : v.AllFinite ↔ (∀ x, v = .real x → x.isFinite = true) ∧
    (∀ w ∈ v.items, w.AllFinite) ∧ ∀ name w, v.member? name = some w → w.AllFinite := by
  constructor
  · intro h
    refine ⟨?_, ?_, ?_⟩
    · rintro x rfl
      exact h x .here
    · exact fun w hw x hx ↦ h x (.item hw hx)
    · exact fun name w hw x hx ↦ h x (.member hw hx)
  · rintro ⟨hreal, hitems, hmembers⟩ x hx
    cases hx with
    | here => exact hreal x rfl
    | item hw hx => exact hitems _ hw x hx
    | member hw hx => exact hmembers _ _ hw x hx

private theorem allFinite_real {x : Double} : (real x).AllFinite ↔ x.isFinite = true := by
  rw [allFinite_iff]
  simp [items, member?]

private theorem allFinite_array {values : List Value} :
    (array values).AllFinite ↔ ∀ w ∈ values, w.AllFinite := by
  rw [allFinite_iff]
  simp [items, member?]

private theorem allFinite_object {v : Value} (hv : v.isObject = true) :
    v.AllFinite ↔ ∀ name w, v.member? name = some w → w.AllFinite := by
  obtain ⟨members, rfl⟩ := isObject_iff.mp hv
  rw [allFinite_iff]
  simp [items]

end Json.Value

namespace Ros2ToolsAdapter

open Json
open Except (bind_eq_ok)

/-! ## The messages -/

/-- The leaf is finite, where the encoder does not check that itself. -/
def LeafFinite : (t : ScalarType) → t.Val → Prop
  | .float, x => x.isFinite = true
  | .double, x => x.isFinite = true
  | .longDouble, _ | .bool, _ | .char, _ | .octet, _ | .uint8, _ | .int8, _ | .uint16, _
  | .int16, _ | .uint32, _ | .int32, _ | .uint64, _ | .int64, _ | .string, _ | .wstring, _ => True

/-- The one value or each item of a field is finite. -/
def SlotFinite {T : Type} (finite : T → Prop) : (array : Option ArrayMember) → Slot array T → Prop
  | none, field => finite field
  | some _, field => ∀ x ∈ field, finite x

private theorem slotFinite_of_forall {T : Type} {finite : T → Prop} (h : ∀ x, finite x)
    (array : Option ArrayMember) (field : Slot array T) : SlotFinite finite array field := by
  cases array with
  | none => exact h field
  | some a => exact fun x _ ↦ h x

/-- Every `float` and every `double` of the message is finite, at every depth. A member with the
name of a later one is overwritten by it and does not count. -/
def MessageMembers.FloatsFinite : (S : MessageMembers) → S.Message → Prop
  | .nil, _ => True
  | .scalar m t rest, (field, fields) =>
    (m.name ∉ rest.names → SlotFinite (LeafFinite t) m.array field) ∧ rest.FloatsFinite fields
  | .nested m s rest, (field, fields) =>
    (m.name ∉ rest.names → SlotFinite s.FloatsFinite m.array field) ∧ rest.FloatsFinite fields
  | .untyped _ _ rest, (_, fields) => rest.FloatsFinite fields

/-! ## The encoder -/

/-- A long double in the range of `double` narrows to a finite one. -/
theorem longDoubleToJson_allFinite {x : FloatValue .extended80} {path : Str} {w : Value}
    (h : longDoubleToJson x path = .ok w) : w.AllFinite := by
  simp only [longDoubleToJson, bind_eq_ok, throwIf_eq_ok, exists_const, not_or, Bool.not_eq_false,
    Bool.not_eq_true] at h
  obtain ⟨⟨hfinite, hrange⟩, hw⟩ := h
  obtain rfl := Except.ok.inj hw
  exact Value.allFinite_real.mpr
    (FloatValue.isFinite_convert_of_absGt (by decide) hfinite hrange)

private theorem isFinite_convert_iff {f g : FloatFormat} (hfg : f.NarrowerThan g)
    {x : FloatValue f} : (FloatValue.convert g x).isFinite = true ↔ x.isFinite = true := by
  refine ⟨?_, FloatValue.isFinite_convert hfg⟩
  intro h
  cases x with
  | finite negative m e hm => rfl
  | nan => exact h
  | infinity negative => exact h

private theorem scalarToJson_allFinite_iff {t : ScalarType} {x : t.Val} {path : Str} {w : Value}
    (h : scalarToJson t x path = .ok w) : w.AllFinite ↔ LeafFinite t x := by
  cases t with
  | float =>
    obtain rfl := Except.ok.inj h
    rw [Value.allFinite_real, LeafFinite, isFinite_convert_iff (by decide)]
  | double =>
    obtain rfl := Except.ok.inj h
    rw [Value.allFinite_real, LeafFinite]
  | longDouble => exact iff_of_true (longDoubleToJson_allFinite h) trivial
  | wstring =>
    simp only [scalarToJson, wstringToJson, bind_eq_ok, throwIf_eq_ok, exists_const] at h
    obtain ⟨-, hw⟩ := h
    obtain rfl := Except.ok.inj hw
    exact iff_of_true (Value.allFinite_iff.mpr (by simp [Value.items, Value.member?])) trivial
  | bool | char | octet | uint8 | int8 | uint16 | int16 | uint32 | int32 | uint64 | int64
  | string =>
    obtain rfl := Except.ok.inj h
    exact iff_of_true (Value.allFinite_iff.mpr
      (by simp [Value.items, Value.member?, intToJson, uintToJson])) trivial

section Members

variable {T : Type} {packed : Option T} {project : Project T} {finite : T → Prop} {a : ArrayMember}

/-- The loop over the items: one round, then the rest. -/
theorem itemsToJson_allFinite_iff
    (hproject : ∀ x p w, project x p = .ok w → (w.AllFinite ↔ finite x)) {path : Str}
    {cells : List T} {index : ℕ} {values : List Value}
    (h : itemsToJson a packed project path index cells = .ok values) :
    (∀ w ∈ values, w.AllFinite) ↔ ∀ x ∈ cells, finite x := by
  induction cells generalizing index values with
  | nil =>
    obtain rfl := Except.ok.inj h
    simp
  | cons cell cells ih =>
    rw [itemsToJson, bind_eq_ok] at h
    obtain ⟨w, hw, h⟩ := h
    obtain ⟨rest, hrest, h⟩ := bind_eq_ok.mp h
    obtain rfl := Except.ok.inj h
    rw [List.forall_mem_cons, List.forall_mem_cons, hproject _ _ _ (project_of_itemToJson hw),
      ih hrest]

private theorem memberToJson_allFinite_iff
    (hproject : ∀ x p w, project x p = .ok w → (w.AllFinite ↔ finite x)) {path : Str}
    {array : Option ArrayMember} {field : Slot array T} {w : Value}
    (h : memberToJson packed project path array field = .ok w) :
    w.AllFinite ↔ SlotFinite finite array field := by
  cases array with
  | none => exact hproject _ _ _ h
  | some a =>
    simp only [memberToJson, bind_eq_ok, throwIf_eq_ok, exists_const] at h
    obtain ⟨-, values, hvalues, hw⟩ := h
    obtain rfl := Except.ok.inj hw
    rw [Value.allFinite_array]
    exact itemsToJson_allFinite_iff hproject hvalues

end Members

/-- The members of an object under construction that the rest of the loop leaves alone, before and
after one more is set. -/
private theorem forall_member?_set {P : Value → Prop} {result value : Value}
    (hresult : result.isObject = true) {name : Str} {names : List Str} :
    (∀ k w, k ∉ names → (result.set name value).member? k = some w → P w) ↔
      (name ∉ names → P value) ∧
        ∀ k w, k ∉ name :: names → result.member? k = some w → P w := by
  simp only [Value.member?_set hresult, List.mem_cons, not_or]
  constructor
  · intro h
    refine ⟨fun hname ↦ h name value hname (if_pos rfl), ?_⟩
    rintro k w ⟨hne, hk⟩ hw
    exact h k w hk (by rwa [if_neg hne])
  · rintro ⟨hvalue, hothers⟩ k w hk hw
    split at hw
    · rename_i heq
      subst heq
      rw [← Option.some_injective _ hw]
      exact hvalue hk
    · exact hothers k w ⟨‹_›, hk⟩ hw

/-- The loop over members: the result is finite when what it leaves of the object it started with
is, and the message is. -/
theorem membersToJson_allFinite_iff (S : MessageMembers) {m : S.Message} {result j : Value}
    {path : Str} (hresult : result.isObject = true)
    (h : membersToJson S m result path = .ok j) :
    j.AllFinite ↔ (∀ k w, k ∉ S.names → result.member? k = some w → w.AllFinite) ∧
      S.FloatsFinite m := by
  induction S generalizing result path j with
  | nil =>
    obtain rfl := Except.ok.inj h
    rw [Value.allFinite_object hresult]
    simp [MessageMembers.names, MessageMembers.FloatsFinite]
  | scalar member t rest ih =>
    obtain ⟨field, fields⟩ := m
    obtain ⟨value, hvalue, h⟩ := bind_eq_ok.mp h
    have hscalar : ∀ (x : t.Val) p w, scalarToJson t x p = .ok w → (w.AllFinite ↔ LeafFinite t x) :=
      fun _ _ _ ↦ scalarToJson_allFinite_iff
    rw [ih (Value.isObject_set hresult _ _) h, forall_member?_set hresult,
      memberToJson_allFinite_iff hscalar hvalue]
    rw [MessageMembers.FloatsFinite, MessageMembers.names]
    tauto
  | nested member s rest ihs ih =>
    obtain ⟨field, fields⟩ := m
    obtain ⟨value, hvalue, h⟩ := bind_eq_ok.mp h
    -- the nested object starts out empty
    have hnested : ∀ x p w, membersToJson s x (.object []) p = .ok w →
        (w.AllFinite ↔ s.FloatsFinite x) := by
      intro x p w hw
      rw [ihs rfl hw, and_iff_right]
      intro k w' _ hw'
      simp [Value.member?] at hw'
    rw [ih (Value.isObject_set hresult _ _) h, forall_member?_set hresult,
      memberToJson_allFinite_iff hnested hvalue]
    rw [MessageMembers.FloatsFinite, MessageMembers.names]
    tauto
  | untyped member why rest ih =>
    obtain ⟨field, fields⟩ := m
    obtain ⟨value, hvalue, h⟩ := bind_eq_ok.mp h
    -- no value of such a member is ever projected
    have huntyped : ∀ (x : Unit) p w, untypedToJson why p = .ok w → (w.AllFinite ↔ True) := by
      intro x p w hw
      cases why <;> cases hw
    have hslot := slotFinite_of_forall (fun _ : Unit ↦ trivial) member.array field
    rw [ih (Value.isObject_set hresult _ _) h, forall_member?_set hresult,
      memberToJson_allFinite_iff huntyped hvalue]
    rw [MessageMembers.FloatsFinite, MessageMembers.names]
    tauto

/-- **The numbers of the result are finite** exactly when the message cannot be projected or its
floats and doubles are finite: for every schema and every message. -/
theorem messageToJson_finite_iff (S : MessageMembers) (m : S.Message) :
    (∀ j, messageToJson S m = .ok j → j.AllFinite) ↔ (S.Projects m → S.FloatsFinite m) := by
  have hresult : ∀ j, messageToJson S m = .ok j → (j.AllFinite ↔ S.FloatsFinite m) := by
    intro j hj
    rw [membersToJson_allFinite_iff S rfl hj, and_iff_right]
    intro k w _ hw
    simp [Value.member?] at hw
  rw [← messageToJson_returns_iff]
  constructor
  · rintro h ⟨j, hj⟩
    exact (hresult j hj).mp (h j hj)
  · intro h j hj
    exact (hresult j hj).mpr (h ⟨j, hj⟩)

/-- A message with one `double` field, `data`. -/
def doubleMembers : MessageMembers := .scalar ⟨"data", 0, none⟩ .double .nil

/-- A NaN gets through. -/
theorem messageToJson_nan : messageToJson doubleMembers (.nan, ()) =
      .ok (.object [("data", .real .nan)]) ∧
    ¬ (Value.object [("data", .real .nan)]).AllFinite := by
  refine ⟨rfl, ?_⟩
  intro h
  have hmember : (Value.object [("data", .real .nan)]).member? "data" = some (.real .nan) := rfl
  have hnan := h .nan (.member hmember .here)
  exact Bool.noConfusion hnan

end Ros2ToolsAdapter
