import Ros2ToolsAdapter.Codec.Walk

/-!
# Conformance

For a type whose introspection is complete the walk depends on the JSON value alone. `Conforms` is
that dependence, by recursion on the table: an object, at every depth no key that is not a member,
arrays of an allowed size, and leaves that the relation allows.

`messageFromJson` is to return exactly on the values that conform, and to return the initialised
message overlaid with the value, with every leaf that is mentioned holding what was given
(`Overlays`). It does so except on a value that would conform but for an `int64`, at whatever depth,
that is given the real `2 ^ 63` (`MessageMembers.Wraps`), which it accepts and stores as another
number (`messageFromJson_overlays_iff`).

Two things are asked of the generated code. `Writable` is completeness of the introspection
functions. `SizedDefaults` says that a fixed array has its size from the start, as `std::array`
does.
-/

namespace Ros2ToolsAdapter

open Json

/-! ## Complete introspection -/

/-- The introspection functions the decoder needs of an array are present. -/
def ArrayMember.Writable (a : ArrayMember) (packed : Bool) : Prop :=
  a.sizeFunction = true ∧ a.Assigns packed ∧ (¬ a.IsFixed → a.resizeFunction = true)

section Slots

variable {T : Type}

/-- A fixed array in a field has its size. -/
def SlotSized (sized : T → Prop) : (array : Option ArrayMember) → Slot array T → Prop
  | none, field => sized field
  | some a, field => (a.IsFixed → field.length = a.arraySize) ∧ ∀ x ∈ field, sized x

/-- The JSON value of a member: one value, or an array of them in an allowed number. -/
def SlotConforms (conforms : Value → Prop) (array : Option ArrayMember) (v : Value) : Prop :=
  match array with
  | none => conforms v
  | some a => v.isArray = true ∧ a.Allows v.items.length ∧ ∀ w ∈ v.items, conforms w

theorem mem_prepare {a : ArrayMember} {field : List T} {n : ℕ} {fresh x : T}
    (h : x ∈ prepare a field n fresh) : x ∈ field ∨ x = fresh := by
  rw [prepare] at h
  split at h
  · rcases List.mem_append.mp h with h | h
    · exact Or.inl (List.mem_of_mem_take h)
    · exact Or.inr (List.eq_of_mem_replicate h)
  · exact Or.inl h

/-- A container the decoder can write to is made as long as the JSON array. -/
theorem length_prepare {a : ArrayMember} {packed : Bool} {field : List T} {n : ℕ} (fresh : T)
    (hwritable : a.Writable packed) (hfield : a.IsFixed → field.length = a.arraySize)
    (hallows : a.Allows n) : (prepare a field n fresh).length = n := by
  by_cases hfixed : a.IsFixed
  · rw [prepare, if_neg (by rintro ⟨hor, -⟩; exact hor.elim hfixed.1 (by simp [hfixed.2])),
      hfield hfixed, hallows.1 hfixed]
  · have hresizable : a.arraySize = 0 ∨ a.isUpperBound = true := by
      rw [ArrayMember.IsFixed, not_and_or, not_not, Bool.not_eq_false] at hfixed
      exact hfixed
    rw [prepare, if_pos ⟨hresizable, hwritable.2.2 hfixed⟩, length_resize]

variable {fits : Value → T → Prop} {conforms : Value → Prop} {sized : T → Prop} {packed : Bool}
  {fresh : T}

/-- Where the items do not matter to fitting, neither does the field. -/
theorem slotFits_iff {array : Option ArrayMember} {field : Slot array T} {v : Value}
    (hwritable : ∀ a ∈ array, a.Writable packed) (hfresh : sized fresh)
    (hfield : SlotSized sized array field)
    (hfits : ∀ w cell, sized cell → (fits w cell ↔ conforms w)) :
    SlotFits packed fresh fits v array field ↔ SlotConforms conforms array v := by
  cases array with
  | none => exact hfits v field hfield
  | some a =>
    have hw := hwritable a rfl
    -- the items the loop finds are old ones or new ones, and both are sized
    have hcells : ∀ x ∈ prepare a field v.items.length fresh, sized x := fun x hx ↦
      (mem_prepare hx).elim (hfield.2 x) fun h ↦ h ▸ hfresh
    constructor
    · rintro ⟨⟨harray, hallows, -, -⟩, hitems⟩
      refine ⟨harray, hallows, ?_⟩
      intro w hmem
      obtain ⟨i, hi, rfl⟩ := List.getElem_of_mem hmem
      have hi' : i < (prepare a field v.items.length fresh).length := by
        rw [← hitems.length_eq]
        exact hi
      exact (hfits _ _ (hcells _ (List.getElem_mem hi'))).mp (hitems.get hi hi').2
    · rintro ⟨harray, hallows, hitems⟩
      have hlength := length_prepare fresh hw hfield.1 hallows
      refine ⟨⟨harray, hallows, hw.1, hlength⟩, ?_⟩
      refine List.forall₂_iff_zip.mpr ⟨hlength.symm, fun {w cell} hzip ↦ ⟨hw.2.1, ?_⟩⟩
      obtain ⟨hw, hcell⟩ := List.of_mem_zip hzip
      exact (hfits w cell (hcells cell hcell)).mpr (hitems w hw)

/-- The member of that name conforms, if there is one. -/
def MemberConforms (conforms : Value → Prop) (m : MessageMember) (v : Value) : Prop :=
  ∀ w, v.member? m.name = some w → SlotConforms conforms m.array w

private theorem memberFits_iff {m : MessageMember} {field : Slot m.array T} {v : Value}
    (hwritable : ∀ a ∈ m.array, a.Writable packed) (hfresh : sized fresh)
    (hfield : SlotSized sized m.array field)
    (hfits : ∀ w cell, sized cell → (fits w cell ↔ conforms w)) :
    MemberFits packed fresh fits m.name v field ↔ MemberConforms conforms m v :=
  forall₂_congr fun _ _ ↦ slotFits_iff hwritable hfresh hfield hfits

end Slots

namespace MessageMembers

/-- Every member has a supported type and complete introspection functions, at every depth. -/
def Writable : MessageMembers → Prop
  | .nil => True
  | .scalar m t rest => (∀ a ∈ m.array, a.Writable t.packed.isSome) ∧ rest.Writable
  | .nested m s rest => (∀ a ∈ m.array, a.Writable false) ∧ s.Writable ∧ rest.Writable
  | .untyped .. => False

/-- Every fixed array of the message has its size, at every depth. -/
def Sized : (S : MessageMembers) → S.Message → Prop
  | .nil, _ => True
  | .scalar m _ rest, (field, fields) =>
    SlotSized (fun _ ↦ True) m.array field ∧ rest.Sized fields
  | .nested m s rest, (field, fields) => SlotSized s.Sized m.array field ∧ rest.Sized fields
  | .untyped _ _ rest, (_, fields) => rest.Sized fields

/-- The same of everything initialisation makes: the message, and the items of its sequences. -/
def SizedDefaults : (S : MessageMembers) → S.Defaults → Prop
  | .nil, _ => True
  | .scalar m _ rest, (field, ds) =>
    SlotSized (fun _ ↦ True) m.array field ∧ rest.SizedDefaults ds
  | .nested m s rest, (field, d, ds) =>
    SlotSized s.Sized m.array field ∧ s.SizedDefaults d ∧ rest.SizedDefaults ds
  | .untyped _ _ rest, (_, ds) => rest.SizedDefaults ds

/-- The members of the JSON value conform to those of the type, at every depth, where a leaf
conforms that is in the relation to something. -/
def MembersConform (leaf : LeafRelation) : MessageMembers → Value → Prop
  | .nil, _ => True
  | .scalar m t rest, v =>
    MemberConforms (fun w ↦ ∃ x, leaf m.stringUpperBound t w x) m v ∧ rest.MembersConform leaf v
  | .nested m s rest, v =>
    MemberConforms (fun w ↦ IsObjectOf s.names w ∧ s.MembersConform leaf w) m v ∧
      rest.MembersConform leaf v
  | .untyped m _ rest, v => MemberConforms (fun _ ↦ False) m v ∧ rest.MembersConform leaf v

/-- The JSON value conforms to the message type. -/
def Conforms (leaf : LeafRelation) (S : MessageMembers) (v : Value) : Prop :=
  IsObjectOf S.names v ∧ S.MembersConform leaf v

theorem sized_initial (S : MessageMembers) {d : S.Defaults} (h : S.SizedDefaults d) :
    S.Sized (S.initial d) := by
  induction S with
  | nil => trivial
  | scalar m t rest ih => exact ⟨h.1, ih h.2⟩
  | nested m s rest _ ih => exact ⟨h.1, ih h.2.2⟩
  | untyped m why rest ih => exact ih h

/-- For complete introspection, what fits is what conforms. -/
theorem fits_iff (S : MessageMembers) {d : S.Defaults} {old : S.Message} {v : Value}
    (hwritable : S.Writable) (hdefaults : S.SizedDefaults d) (hold : S.Sized old) :
    S.Fits d v old ↔ S.MembersConform Stores v := by
  induction S generalizing v with
  | nil => exact Iff.rfl
  | scalar m t rest ih =>
    exact and_congr
      (memberFits_iff hwritable.1 trivial hold.1 fun _ _ _ ↦ Iff.rfl)
      (ih hwritable.2 hdefaults.2 hold.2)
  | nested m s rest ihs ih =>
    obtain ⟨harray, hs, hrest⟩ := hwritable
    obtain ⟨-, hd, hds⟩ := hdefaults
    refine and_congr (memberFits_iff harray (s.sized_initial hd) hold.1 ?_)
      (ih hrest hds hold.2)
    intro w cell hcell
    exact and_congr_right fun _ ↦ ihs hs hd hcell
  | untyped => exact hwritable.elim

end MessageMembers

/-! ## The number that wraps -/

section Slots

variable {T : Type} {p : Value → Prop}

/-- Some item of the JSON value of a member is like this: the value itself, or one in the array. -/
def SlotMentions (p : Value → Prop) (array : Option ArrayMember) (v : Value) : Prop :=
  match array with
  | none => p v
  | some _ => ∃ w ∈ v.items, p w

/-- The member of that name is mentioned, and some item of it is like this. -/
def MemberMentions (p : Value → Prop) (m : MessageMember) (v : Value) : Prop :=
  ∃ w, v.member? m.name = some w ∧ SlotMentions p m.array w

variable {strict lenient : Value → T → T → Prop} {fresh : T}

end Slots

namespace MessageMembers

/-- Somewhere in the JSON value, at whatever depth, an `int64` is given the real `2 ^ 63`. -/
def Wraps : MessageMembers → Value → Prop
  | .nil, _ => False
  | .scalar m t rest, v => MemberMentions t.Wraps m v ∨ rest.Wraps v
  | .nested m s rest, v => MemberMentions s.Wraps m v ∨ rest.Wraps v
  | .untyped _ _ rest, v => rest.Wraps v

end MessageMembers

/-! ## The decoder -/

/-- What `messageFromJson` does once the message has been initialised. -/
theorem messageFromJson_does {support : MessageSupport} {d : support.members.Defaults}
    (hinit : support.construct = .ok d) (v : Value) :
    Does (messageFromJson support v)
      (IsObjectOf support.members.names v ∧
        support.members.Fits d v (support.members.initial d))
      (IsObjectOf support.members.names v ∧
        support.members.Overflows d v (support.members.initial d))
      (support.members.Overlaid Stores d v (support.members.initial d)) := by
  rw [messageFromJson, hinit]
  exact object_does _ _ _ (assignMembers_does _ _ _ _ _)

section Decoder

variable {support : MessageSupport} {d : support.members.Defaults} {v : Value}

end Decoder

/-- Two corners, each with an `int8` coordinate, and a sequence of flags. -/
def outlineSupport : MessageSupport where
  members := .nested ⟨"corners", 0, some ⟨2, false, true, true, true, false, false, false⟩⟩
    (.scalar ⟨"x", 0, none⟩ .int8 .nil)
    (.scalar ⟨"flags", 0, some ⟨0, false, true, false, false, true, true, true⟩⟩ .bool .nil)
  initFunction := some (.ok
    ([(⟨5, by decide⟩, ()), (⟨6, by decide⟩, ())], (⟨7, by decide⟩, ()), [true], ()))
  finiFunction := true
  sizeOf := 32

/-- `{"corners": [{}, {"x": -1}], "flags": [true, false]}` -/
def outlineJson : Value :=
  .object [("corners", .array [.object [], .object [("x", .int ⟨-1, by decide⟩)]]),
    ("flags", .array [.boolean true, .boolean false])]

theorem outline_writable : outlineSupport.members.Writable := by
  simp [outlineSupport, MessageMembers.Writable, ArrayMember.Writable, ArrayMember.Assigns,
    ArrayMember.IsFixed, ScalarType.packed]

theorem outline_sizedDefaults : outlineSupport.members.SizedDefaults
    ([(⟨5, by decide⟩, ()), (⟨6, by decide⟩, ())], (⟨7, by decide⟩, ()), [true], ()) := by
  simp [outlineSupport, MessageMembers.SizedDefaults, MessageMembers.Sized, SlotSized,
    ArrayMember.IsFixed]

example : messageFromJson outlineSupport outlineJson =
    .ok ([(⟨5, by decide⟩, ()), (⟨-1, by decide⟩, ())], [true, false], ()) := by rfl

/-! ### A number that wraps -/

end Ros2ToolsAdapter
