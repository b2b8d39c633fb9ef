import Ros2ToolsAdapter.Codec.Encode

/-!
# Messages with a JSON spelling

The encoder is partial: a wide string need not be ASCII, a long double need not be a double, and an
array can be read only through accessors that its introspection data may lack. `Projects` says what
a message must be for the encoder to return, in terms of the message and its table alone. Everything
else makes it throw, and what it throws is permanent.
-/

namespace Ros2ToolsAdapter

open Json
open Except (bind_eq_ok)

/-! ## The messages -/

/-- A leaf with a spelling. -/
def LeafProjects : (t : ScalarType) → t.Val → Prop
  | .longDouble, x => x.isFinite = true ∧
      FloatValue.absGt x (.convert .extended80 (.maxFinite .binary64)) = false
  | .wstring, x => ∀ character ∈ x, character ≤ 0x7f
  | .bool, _ | .float, _ | .double, _ | .char, _ | .octet, _ | .uint8, _ | .int8, _ | .uint16, _
  | .int16, _ | .uint32, _ | .int32, _ | .uint64, _ | .int64, _ | .string, _ => True

/-- The encoder can get at an item: by reference, or through a local variable when the container is
packed. -/
def ArrayMember.Projects (a : ArrayMember) (packed : Bool) : Prop :=
  a.getConstFunction = true ∨ packed = true ∧ a.fetchFunction = true

/-- An array can be measured, and each item can be got at and has a spelling. -/
def SlotProjects {T : Type} (packed : Bool) (projects : T → Prop) :
    (array : Option ArrayMember) → Slot array T → Prop
  | none, field => projects field
  | some a, field => a.sizeFunction = true ∧ ∀ x ∈ field, a.Projects packed ∧ projects x

/-- Every field has a spelling, at every depth. -/
def MessageMembers.Projects : (S : MessageMembers) → S.Message → Prop
  | .nil, _ => True
  | .scalar m t rest, (field, fields) =>
    SlotProjects t.packed.isSome (LeafProjects t) m.array field ∧ rest.Projects fields
  | .nested m s rest, (field, fields) =>
    SlotProjects false s.Projects m.array field ∧ rest.Projects fields
  | .untyped m _ rest, (field, fields) =>
    SlotProjects false (fun _ ↦ False) m.array field ∧ rest.Projects fields

/-! ## When the encoder returns -/

private theorem exists_ok_iff {P : Prop} {w : Value} :
    (∃ w', P ∧ (pure w : Except Exn Value) = .ok w') ↔ P := by
  constructor
  · rintro ⟨w', h, -⟩
    exact h
  · exact fun h ↦ ⟨w, h, rfl⟩

private theorem scalarToJson_returns_iff {t : ScalarType} {x : t.Val} {path : Str} :
    (∃ w, scalarToJson t x path = .ok w) ↔ LeafProjects t x := by
  cases t with
  | longDouble =>
    simp only [scalarToJson, longDoubleToJson, bind_eq_ok, throwIf_eq_ok, exists_const, not_or,
      Bool.not_eq_false, Bool.not_eq_true, LeafProjects]
    exact exists_ok_iff
  | wstring =>
    simp only [scalarToJson, wstringToJson, bind_eq_ok, throwIf_eq_ok, exists_const,
      List.any_eq_true, decide_eq_true_eq, not_exists, not_and, UInt16.not_lt, LeafProjects]
    exact exists_ok_iff
  | bool | float | double | char | octet | uint8 | int8 | uint16 | int16 | uint32 | int32 | uint64
  | int64 | string => exact iff_of_true ⟨_, rfl⟩ trivial

section Slots

variable {T : Type} {project : Project T} {projects : T → Prop} {packed : Option T}
  {a : ArrayMember}

private theorem itemToJson_returns_iff (h : ∀ x path, (∃ w, project x path = .ok w) ↔ projects x)
    (x : T) (path : Str) :
    (∃ w, itemToJson a packed project x path = .ok w) ↔ a.Projects packed.isSome ∧ projects x := by
  unfold itemToJson ArrayMember.Projects
  split
  · rename_i hget
    rw [h, hget]
    simp
  · rename_i hget
    split
    · rename_i hfetch
      rw [h, hfetch]
      simp
    · rename_i hnone
      refine iff_of_false (by simp) ?_
      rintro ⟨hconst | ⟨hsome, hfetch⟩, -⟩
      · exact hget hconst
      · obtain ⟨item, rfl⟩ := Option.isSome_iff_exists.mp hsome
        exact hnone item rfl hfetch

/-- An item that is reached is projected, whichever way it is reached. -/
theorem project_of_itemToJson {x : T} {path : Str} {w : Value}
    (h : itemToJson a packed project x path = .ok w) : project x path = .ok w := by
  unfold itemToJson at h
  split at h
  · exact h
  · split at h
    · exact h
    · cases h

/-- The loop returns when each of its rounds does. -/
theorem itemsToJson_returns_iff {P : T → Prop}
    (h : ∀ x path, (∃ w, itemToJson a packed project x path = .ok w) ↔ P x) (path : Str)
    (index : ℕ) (cells : List T) :
    (∃ ws, itemsToJson a packed project path index cells = .ok ws) ↔ ∀ x ∈ cells, P x := by
  induction cells generalizing index with
  | nil => exact iff_of_true ⟨[], rfl⟩ (by simp)
  | cons cell cells ih =>
    rw [List.forall_mem_cons, ← h cell (itemPath path index), ← ih (index + 1)]
    simp only [itemsToJson, bind_eq_ok]
    constructor
    · rintro ⟨_, w, hw, ws, hws, -⟩
      exact ⟨⟨w, hw⟩, ws, hws⟩
    · rintro ⟨⟨w, hw⟩, ws, hws⟩
      exact ⟨_, w, hw, ws, hws, rfl⟩

private theorem memberToJson_returns_iff (h : ∀ x path, (∃ w, project x path = .ok w) ↔ projects x)
    (array : Option ArrayMember) (field : Slot array T) (path : Str) :
    (∃ w, memberToJson packed project path array field = .ok w) ↔
      SlotProjects packed.isSome projects array field := by
  cases array with
  | none => exact h field path
  | some a =>
    have hitem : ∀ x path, (∃ w, itemToJson a packed project x path = .ok w) ↔
        a.Projects packed.isSome ∧ projects x := itemToJson_returns_iff h
    have hitems := itemsToJson_returns_iff hitem path 0 field
    simp only [memberToJson, bind_eq_ok, throwIf_eq_ok, exists_const, Bool.not_eq_false,
      SlotProjects, ← hitems]
    constructor
    · rintro ⟨_, hsize, ws, hws, -⟩
      exact ⟨hsize, ws, hws⟩
    · rintro ⟨hsize, ws, hws⟩
      exact ⟨_, hsize, ws, hws, rfl⟩

end Slots

/-- A loop over members: the first member, and then the rest, whatever the object by then. -/
private theorem members_returns_iff {x : Except Exn Value} {f : Value → Except Exn Value}
    {P Q : Prop} (hx : (∃ w, x = .ok w) ↔ P) (hf : ∀ w, (∃ j, f w = .ok j) ↔ Q) :
    (∃ j, (x >>= f) = .ok j) ↔ P ∧ Q := by
  simp only [bind_eq_ok]
  constructor
  · rintro ⟨j, w, hw, hj⟩
    exact ⟨hx.mp ⟨w, hw⟩, (hf w).mp ⟨j, hj⟩⟩
  · rintro ⟨hP, hQ⟩
    obtain ⟨w, hw⟩ := hx.mpr hP
    obtain ⟨j, hj⟩ := (hf w).mpr hQ
    exact ⟨j, w, hw, hj⟩

private theorem membersToJson_returns_iff (S : MessageMembers) (m : S.Message) (result : Value)
    (path : Str) : (∃ j, membersToJson S m result path = .ok j) ↔ S.Projects m := by
  induction S generalizing result path with
  | nil => exact iff_of_true ⟨result, rfl⟩ trivial
  | scalar member t rest ih =>
    obtain ⟨field, fields⟩ := m
    have hscalar : ∀ (x : t.Val) p, (∃ w, scalarToJson t x p = .ok w) ↔ LeafProjects t x :=
      fun _ _ ↦ scalarToJson_returns_iff
    exact members_returns_iff (memberToJson_returns_iff hscalar _ _ _) fun _ ↦ ih _ _ _
  | nested member s rest ihs ih =>
    obtain ⟨field, fields⟩ := m
    exact members_returns_iff
      (memberToJson_returns_iff (fun x p ↦ ihs x (.object []) p) _ _ _)
      fun _ ↦ ih _ _ _
  | untyped member why rest ih =>
    obtain ⟨field, fields⟩ := m
    -- no value of such a member has a spelling, and only an empty array of them gets by
    have huntyped : ∀ (_ : Unit) p, (∃ w, untypedToJson why p = .ok w) ↔ False := by
      intro _ p
      cases why <;> simp [untypedToJson]
    exact members_returns_iff (memberToJson_returns_iff huntyped _ _ _) fun _ ↦ ih _ _ _

/-- **The encoder returns exactly on the messages with a spelling.** -/
theorem messageToJson_returns_iff {S : MessageMembers} {m : S.Message} :
    (∃ j, messageToJson S m = .ok j) ↔ S.Projects m :=
  membersToJson_returns_iff S m _ _

/-! ## What the encoder throws -/

section Raising

theorem scalarToJson_raises {t : ScalarType} {x : t.Val} {path : Str} :
    Raises Exn.IsPermanent (scalarToJson t x path) := by
  cases t with
  | longDouble | wstring =>
    exact Raises.bind (Raises.throwIf fun _ ↦ Exn.isPermanent_permanentError _ _)
      fun _ _ ↦ Raises.ok _
  | bool | float | double | char | octet | uint8 | int8 | uint16 | int16 | uint32 | int32 | uint64
  | int64 | string => exact Raises.ok _

variable {T : Type} {project : Project T} {packed : Option T} {a : ArrayMember}

theorem itemsToJson_raises (h : ∀ x path, Raises Exn.IsPermanent (project x path)) (path : Str)
    (index : ℕ) (cells : List T) :
    Raises Exn.IsPermanent (itemsToJson a packed project path index cells) := by
  induction cells generalizing index with
  | nil => exact Raises.ok _
  | cons cell cells ih =>
    refine Raises.bind ?_ fun _ _ ↦ Raises.bind (ih _) fun _ _ ↦ Raises.ok _
    unfold itemToJson
    split
    · exact h _ _
    · split
      · exact h _ _
      · exact Raises.error.mpr (Exn.isPermanent_permanentError _ _)

theorem memberToJson_raises (h : ∀ x path, Raises Exn.IsPermanent (project x path))
    (array : Option ArrayMember) (field : Slot array T) (path : Str) :
    Raises Exn.IsPermanent (memberToJson packed project path array field) := by
  cases array with
  | none => exact h field path
  | some a =>
    exact Raises.bind (Raises.throwIf fun _ ↦ Exn.isPermanent_permanentError _ _) fun _ _ ↦
      Raises.bind (itemsToJson_raises h _ _ _) fun _ _ ↦ Raises.ok _

theorem membersToJson_raises (S : MessageMembers) (m : S.Message) (result : Value) (path : Str) :
    Raises Exn.IsPermanent (membersToJson S m result path) := by
  induction S generalizing result path with
  | nil => exact Raises.ok _
  | scalar member t rest ih =>
    obtain ⟨field, fields⟩ := m
    exact Raises.bind (memberToJson_raises (fun _ _ ↦ scalarToJson_raises) _ _ _)
      fun _ _ ↦ ih _ _ _
  | nested member s rest ihs ih =>
    obtain ⟨field, fields⟩ := m
    exact Raises.bind (memberToJson_raises (fun x p ↦ ihs x _ p) _ _ _) fun _ _ ↦ ih _ _ _
  | untyped member why rest ih =>
    obtain ⟨field, fields⟩ := m
    have huntyped : ∀ (_ : Unit) p, Raises Exn.IsPermanent (untypedToJson why p) := by
      intro _ p
      cases why <;> exact Raises.error.mpr (Exn.isPermanent_permanentError _ _)
    exact Raises.bind (memberToJson_raises huntyped _ _ _) fun _ _ ↦ ih _ _ _

/-- What the encoder throws is permanent. -/
theorem messageToJson_raises {S : MessageMembers} {m : S.Message} :
    Raises Exn.IsPermanent (messageToJson S m) :=
  membersToJson_raises S m _ _

end Raising

end Ros2ToolsAdapter
