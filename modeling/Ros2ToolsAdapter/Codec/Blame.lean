import Ros2ToolsAdapter.Codec.Conformance

/-!
# What an error of the decoder is about

When `messageFromJson` refuses a JSON value its error begins with a path, `message.corners[1].x`.
`Place` is such a path as it stands, before it is spelled: a way into the JSON value (`Place.find`),
and, in step with it, a way into the message type (`Part.At`).

`messageFromJson_blames` says that the path can be relied on. For a type with complete introspection
every error is about a place of the value, the value there is not one the type has at that place,
and the error says which place it is. The other way around there is an exception, the one that
`assignScalar` makes: of an `int64` that is given the real `2 ^ 63` no error is heard. A value is
refused exactly when it has a faulty place other than that.
-/

namespace Ros2ToolsAdapter

open Json
open Except (bind_eq_ok bind_eq_error)

/-! ## Places -/

/-- A step from a JSON value into a part of it. -/
inductive Step
  | member (name : Str)
  | item (index : ℕ)
  deriving DecidableEq

/-- A way into a JSON value. -/
abbrev Place := List Step

/-- The place in words, as the codec spells it from what it calls the value itself. -/
def Place.text (root : Str) : Place → Str
  | [] => root
  | .member name :: place => Place.text (root ++ "." ++ name) place
  | .item index :: place => Place.text (itemPath root index) place

/-- The part of a JSON value at a place. -/
def Place.find : Place → Value → Option Value
  | [], v => some v
  | .member name :: place, v => (v.member? name).bind (Place.find place)
  | .item index :: place, v => v.items[index]?.bind (Place.find place)

/-- What a type has at a place: a leaf, a message, or an array of one of these. -/
inductive Part
  | leaf (stringUpperBound : ℕ) (type : ScalarType)
  | message (members : MessageMembers)
  | array (a : ArrayMember) (item : Part)

namespace Part

/-- A member: one item, or an array of them. -/
def slot (item : Part) : Option ArrayMember → Part
  | none => item
  | some a => .array a item

end Part

/-- The message has a member of that name, and this is it. -/
def MessageMembers.Has : MessageMembers → Str → Part → Prop
  | .nil, _, _ => False
  | .scalar m t rest, name, part =>
    name = m.name ∧ part = (Part.leaf m.stringUpperBound t).slot m.array ∨ rest.Has name part
  | .nested m s rest, name, part =>
    name = m.name ∧ part = (Part.message s).slot m.array ∨ rest.Has name part
  | .untyped _ _ rest, name, part => rest.Has name part

namespace Part

/-- Going into a type by the steps of a place. -/
inductive At : Part → Place → Part → Prop
  | here (part : Part) : At part [] part
  | member {S : MessageMembers} {name : Str} {part found : Part} {place : Place}
      (h : S.Has name part) (hat : At part place found) :
      At (.message S) (.member name :: place) found
  | item {a : ArrayMember} {part found : Part} {place : Place} (index : ℕ)
      (hat : At part place found) : At (.array a part) (.item index :: place) found

/-- The value is right as far as its parts are not concerned. -/
def Accepts : Part → Value → Prop
  | .leaf stringUpperBound t, v => ∃ x, Holds stringUpperBound t v x
  | .message S, v => IsObjectOf S.names v
  | .array a _, v => v.isArray = true ∧ a.Allows v.items.length

/-- There is a wrong value at the place. -/
def Faulty (part : Part) (v : Value) (place : Place) (found : Part) (w : Value) : Prop :=
  part.At place found ∧ place.find v = some w ∧ ¬ found.Accepts w

/-- The one wrong value that is taken: an `int64` is given the real `2 ^ 63`. -/
def Overlooks : Part → Value → Prop
  | .leaf _ t, v => t.Wraps v
  | _, _ => False

/-- The error says where something is wrong. JsonCpp's own error about an integer that is too large
for a signed field is the one that does not. -/
def Spells (found : Part) (w : Value) (path : Str) (e : Exn) : Prop :=
  (∃ code reason, e = permanentError code (path ++ reason)) ∨
    ∃ stringUpperBound t what, found = .leaf stringUpperBound t ∧ t.isSigned = true ∧
      w.ExceedsInt64 ∧ e = .std what

/-- The error is about a place where something is wrong, and says where. -/
def Blames (part : Part) (v : Value) (path : Str) (e : Exn) : Prop :=
  ∃ place found w, part.Faulty v place found w ∧ ¬ found.Overlooks w ∧
    found.Spells w (place.text path) e

section Blames

variable {part : Part} {v w : Value} {path : Str} {e : Exn}

private theorem blames_here (haccepts : ¬ part.Accepts v) (hoverlooks : ¬ part.Overlooks v)
    (hspells : part.Spells v path e) : part.Blames v path e :=
  ⟨[], part, v, ⟨.here part, rfl, haccepts⟩, hoverlooks, hspells⟩

private theorem blames_array_check {a : ArrayMember} {code : String} {reason : Str}
    (haccepts : ¬ (Part.array a part).Accepts v) :
    (Part.array a part).Blames v path (permanentError code (path ++ reason)) :=
  blames_here haccepts id (Or.inl ⟨code, reason, rfl⟩)

private theorem blames_message_check {S : MessageMembers} {code : String} {reason : Str}
    (haccepts : ¬ (Part.message S).Accepts v) :
    (Part.message S).Blames v path (permanentError code (path ++ reason)) :=
  blames_here haccepts id (Or.inl ⟨code, reason, rfl⟩)

private theorem blames_member {S : MessageMembers} {name : Str} (hhas : S.Has name part)
    (hw : v.member? name = some w) (h : part.Blames w (path ++ "." ++ name) e) :
    (Part.message S).Blames v path e := by
  obtain ⟨place, found, x, ⟨hat, hx, haccepts⟩, herror⟩ := h
  refine ⟨.member name :: place, found, x, ⟨.member hhas hat, ?_, haccepts⟩, herror⟩
  rw [Place.find, hw, Option.bind_some, hx]

private theorem blames_item {a : ArrayMember} {index : ℕ} (hw : v.items[index]? = some w)
    (h : part.Blames w (itemPath path index) e) : (Part.array a part).Blames v path e := by
  obtain ⟨place, found, x, ⟨hat, hx, haccepts⟩, herror⟩ := h
  refine ⟨.item index :: place, found, x, ⟨.item index hat, ?_, haccepts⟩, herror⟩
  rw [Place.find, hw, Option.bind_some, hx]

end Blames

end Part

/-! ## Leaves -/

section Leaves

variable {v : Value} {path : Str}

/-- The error begins with the path, or is one of JsonCpp. -/
def Exn.BeginsWith (path : Str) (e : Exn) : Prop :=
  (∃ code reason, e = permanentError code (path ++ reason)) ∨ ∃ what, e = .std what

private theorem beginsWith_permanentError (code : String) (reason : Str) :
    (permanentError code (path ++ reason)).BeginsWith path := Or.inl ⟨code, reason, rfl⟩

private theorem raises_check {c : Prop} [Decidable c] (code : String) (reason : Str) :
    Raises (Exn.BeginsWith path) (throwIf c (permanentError code (path ++ reason))) :=
  Raises.throwIf fun _ ↦ beginsWith_permanentError code reason

private theorem assignSigned_beginsWith {lo hi : ℤ} :
    Raises (Exn.BeginsWith path) (assignSigned lo hi v path) := by
  refine Raises.bind (raises_check _ _) fun _ _ ↦ Raises.bind ?_ fun parsed _ ↦ ?_
  · intro e he
    obtain ⟨what, -, rfl⟩ := ofStd_eq_error.mp he
    exact Or.inr ⟨what, rfl⟩
  · split
    · exact Raises.ok _
    · exact Raises.error.mpr (beginsWith_permanentError _ _)

private theorem assignUnsigned_beginsWith {hi : ℤ} :
    Raises (Exn.BeginsWith path) (assignUnsigned hi v path) := by
  refine Raises.bind (readUnsigned_raises (beginsWith_permanentError _ _)) fun parsed _ ↦ ?_
  split
  · exact Raises.ok _
  · exact Raises.error.mpr (beginsWith_permanentError _ _)

private theorem assignFloating_beginsWith {f : FloatFormat} :
    Raises (Exn.BeginsWith path) (assignFloating f v path) :=
  Raises.bind (raises_check _ _) fun _ _ ↦ Raises.bind (raises_check _ _) fun _ _ ↦ Raises.ok _

private theorem assignScalar_beginsWith {bound : ℕ} {t : ScalarType} :
    Raises (Exn.BeginsWith path) (assignScalar bound t v path) := by
  cases t with
  | bool => exact Raises.bind (raises_check _ _) fun _ _ ↦ Raises.ok _
  | float | double | longDouble => exact assignFloating_beginsWith
  | char | octet | uint8 | uint16 | uint32 | uint64 => exact assignUnsigned_beginsWith
  | int8 | int16 | int32 | int64 => exact assignSigned_beginsWith
  | string =>
    exact Raises.bind (raises_check _ _) fun _ _ ↦
      Raises.bind (raises_check _ _) fun _ _ ↦ Raises.ok _
  | wstring =>
    exact Raises.bind (raises_check _ _) fun _ _ ↦ Raises.bind (raises_check _ _) fun _ _ ↦
      Raises.bind (raises_check _ _) fun _ _ ↦ Raises.ok _

private theorem assignScalar_blames (bound : ℕ) (t : ScalarType) (v : Value) (path : Str) :
    Raises ((Part.leaf bound t).Blames v path) (assignScalar bound t v path) := by
  intro e he
  have hstores : ¬ ∃ x, Stores bound t v x := by
    rintro ⟨x, hx⟩
    rw [assignScalar_eq_ok.mpr hx] at he
    cases he
  rw [exists_stores_iff, not_or] at hstores
  refine Part.blames_here hstores.1 hstores.2 ?_
  rcases assignScalar_beginsWith e he with hspells | ⟨what, rfl⟩
  · exact Or.inl hspells
  · rcases assignScalar_raises _ he with ⟨⟨typed, heq, -⟩, -⟩ | ⟨-, hsigned, hexceeds⟩
    · cases heq
    · exact Or.inr ⟨bound, t, what, rfl, hsigned, hexceeds, rfl⟩

end Leaves

/-! ## Arrays and members -/

section Loops

variable {T : Type} {part : Part} {assign : Assign T} {packed : Option T} {sized : T → Prop}

/-- The loop over the items of a container it can write to: the error is that of one item. -/
theorem assignItems_blames {a : ArrayMember} (hassigns : a.Assigns packed.isSome)
    (hassign : ∀ v cell path, sized cell → Raises (part.Blames v path) (assign v cell path))
    (hpacked : ∀ x ∈ packed, sized x) (path : Str) (index : ℕ) (vs : List Value) (cells : List T)
    (hcells : ∀ x ∈ cells, sized x) :
    Raises (fun e ↦ ∃ i w, vs[i]? = some w ∧ part.Blames w (itemPath path (index + i)) e)
      (assignItems a packed assign path index vs cells) := by
  induction vs generalizing index cells with
  | nil =>
    rw [assignItems]
    · exact Raises.ok _
    · simp
  | cons v vs ih =>
    obtain _ | ⟨cell, cells⟩ := cells
    · rw [assignItems]
      · exact Raises.ok _
      · simp
    obtain ⟨hcell, hcells⟩ := List.forall_mem_cons.mp hcells
    rw [assignItems]
    refine Raises.bind ?_ fun item _ ↦ Raises.bind ?_ fun items _ ↦ Raises.ok _
    · -- the item is assigned in place or through a local variable
      have hitem : Raises (part.Blames v (itemPath path index))
          (assignItem a packed assign v cell (itemPath path index)) := by
        unfold assignItem
        split
        · exact hassign v cell _ hcell
        · rename_i hget
          obtain ⟨hsome, hassignFunction⟩ := hassigns.resolve_left hget
          obtain ⟨x, rfl⟩ := Option.isSome_iff_exists.mp hsome
          rw [hassignFunction]
          exact hassign v x _ (hpacked x rfl)
      exact hitem.mono fun e he ↦ ⟨0, v, rfl, he⟩
    · refine (ih (index + 1) cells hcells).mono ?_
      rintro e ⟨i, w, hw, hblames⟩
      refine ⟨i + 1, w, by simpa using hw, ?_⟩
      rwa [Nat.add_right_comm] at hblames

variable (sized) in
private theorem assignMember_blames {fresh : T}
    (hassign : ∀ v cell path, sized cell → Raises (part.Blames v path) (assign v cell path))
    (hpacked : ∀ x ∈ packed, sized x) (hfresh : sized fresh) {array : Option ArrayMember}
    (hwritable : ∀ a ∈ array, a.Writable packed.isSome) {field : Slot array T}
    (hfield : SlotSized sized array field) (v : Value) (path : Str) :
    Raises ((part.slot array).Blames v path)
      (assignMember packed fresh assign v path array field) := by
  cases array with
  | none => exact hassign v field path hfield
  | some a =>
    have hw := hwritable a rfl
    have hcells : ∀ x ∈ prepare a field v.items.length fresh, sized x := fun x hx ↦
      (mem_prepare hx).elim (hfield.2 x) fun h ↦ h ▸ hfresh
    refine Raises.bind (Raises.throwIf fun hc ↦ ?_) fun _ harray ↦
      Raises.bind (Raises.throwIf fun hc ↦ ?_) fun _ hfixed ↦
      Raises.bind (Raises.throwIf fun hc ↦ ?_) fun _ hbounded ↦
      Raises.bind (Raises.throwIf fun hc ↦ ?_) fun _ _ ↦ ?_
    · refine Part.blames_array_check fun haccepts ↦ ?_
      have harray : v.isArray = true := haccepts.1
      rw [hc] at harray
      cases harray
    · rw [List.append_assoc, List.append_assoc]
      refine Part.blames_array_check fun haccepts ↦ ?_
      exact (ArrayMember.allows_iff.mp haccepts.2).1 hc
    · exact Part.blames_array_check fun haccepts ↦ (ArrayMember.allows_iff.mp haccepts.2).2 hc
    -- complete introspection makes a container of the right size, so the last check passes
    · have hallows := ArrayMember.allows_iff.mpr
        ⟨throwIf_eq_ok.mp hfixed, throwIf_eq_ok.mp hbounded⟩
      have hlength := length_prepare fresh hw hfield.1 hallows
      rcases hc with hsize | hne
      · rw [hw.1] at hsize
        cases hsize
      · exact absurd hlength hne
    · refine (assignItems_blames hw.2.1 hassign hpacked path 0 _ _ hcells).mono ?_
      rintro e ⟨i, w, hitem, hblames⟩
      rw [Nat.zero_add] at hblames
      exact Part.blames_item hitem hblames

variable (sized) in
private theorem assignPresent_blames {fresh : T}
    (hassign : ∀ v cell path, sized cell → Raises (part.Blames v path) (assign v cell path))
    (hpacked : ∀ x ∈ packed, sized x) (hfresh : sized fresh) {array : Option ArrayMember}
    (hwritable : ∀ a ∈ array, a.Writable packed.isSome) {field : Slot array T}
    (hfield : SlotSized sized array field) (v : Value) (name path : Str) :
    Raises (fun e ↦ ∃ w, v.member? name = some w ∧
        (part.slot array).Blames w (path ++ "." ++ name) e)
      (assignPresent packed fresh assign v name field path) := by
  rw [assignPresent]
  split
  · rename_i hmember
    obtain ⟨w, hw⟩ := Value.isMember_iff.mp hmember
    rw [Value.get_of_member? hw]
    exact (assignMember_blames sized hassign hpacked hfresh hwritable hfield w _).mono
      fun e he ↦ ⟨w, hw, he⟩
  · exact Raises.ok _

end Loops

/-! ## Messages -/

/-- The error is about a member of the message. -/
def MessageMembers.BlamesMember (S : MessageMembers) (v : Value) (path : Str) (e : Exn) : Prop :=
  ∃ name part w, S.Has name part ∧ v.member? name = some w ∧
    part.Blames w (path ++ "." ++ name) e

private theorem object_blames {α : Type} {S : MessageMembers} {v : Value} {path : Str}
    {x : Except Exn α} (hx : Raises (S.BlamesMember v path) x) :
    Raises ((Part.message S).Blames v path)
      (do requireObject v path; rejectUnknownFields v S.names path; x) := by
  refine Raises.bind (Raises.throwIf fun hc ↦ ?_) fun _ _ ↦ Raises.bind ?_ fun _ _ ↦ ?_
  · refine Part.blames_message_check fun haccepts ↦ ?_
    rw [haccepts.1] at hc
    exact Bool.noConfusion hc
  · refine Raises.forM fun name hname ↦ Raises.throwIf fun hc ↦ ?_
    rw [List.append_assoc, List.append_assoc]
    exact Part.blames_message_check fun haccepts ↦ hc (haccepts.2 name hname)
  · refine hx.mono ?_
    rintro e ⟨name, part, w, hhas, hw, hblames⟩
    exact Part.blames_member hhas hw hblames

/-- **Whatever the walk over a message throws is about one of its members.** -/
theorem assignMembers_blames (S : MessageMembers) (hwritable : S.Writable) (d : S.Defaults)
    (hsized : S.SizedDefaults d) (v : Value) (old : S.Message) (hold : S.Sized old) (path : Str) :
    Raises (S.BlamesMember v path) (assignMembers S d v old path) := by
  induction S generalizing v path with
  | nil => exact Raises.ok _
  | scalar m t rest ih =>
    obtain ⟨_, ds⟩ := d
    obtain ⟨field, fields⟩ := old
    refine Raises.bind ?_ fun _ _ ↦ Raises.bind ?_ fun _ _ ↦ Raises.ok _
    · refine (assignPresent_blames (fun _ ↦ True)
        (fun w _ p _ ↦ assignScalar_blames m.stringUpperBound t w p) (fun _ _ ↦ trivial) trivial
        hwritable.1 hold.1 v m.name path).mono ?_
      rintro e ⟨w, hw, hblames⟩
      exact ⟨m.name, _, w, Or.inl ⟨rfl, rfl⟩, hw, hblames⟩
    · refine (ih hwritable.2 ds hsized.2 v fields hold.2 path).mono ?_
      rintro e ⟨name, part, w, hhas, hw, hblames⟩
      exact ⟨name, part, w, Or.inr hhas, hw, hblames⟩
  | nested m s rest ihs ih =>
    obtain ⟨_, d, ds⟩ := d
    obtain ⟨field, fields⟩ := old
    obtain ⟨harray, hs, hrest⟩ := hwritable
    obtain ⟨-, hd, hds⟩ := hsized
    refine Raises.bind ?_ fun _ _ ↦ Raises.bind ?_ fun _ _ ↦ Raises.ok _
    · refine (assignPresent_blames s.Sized
        (fun w cell p hcell ↦ object_blames (ihs hs d hd w cell hcell p)) (by simp)
        (s.sized_initial hd) harray hold.1 v m.name path).mono ?_
      rintro e ⟨w, hw, hblames⟩
      exact ⟨m.name, _, w, Or.inl ⟨rfl, rfl⟩, hw, hblames⟩
    · refine (ih hrest ds hds v fields hold.2 path).mono ?_
      rintro e ⟨name, part, w, hhas, hw, hblames⟩
      exact ⟨name, part, w, Or.inr hhas, hw, hblames⟩
  | untyped m why rest ih => exact hwritable.elim

/-! ## Values that are taken -/

namespace Part

/-- The value is taken, parts and all. -/
def Conforms : Part → Value → Prop
  | .leaf stringUpperBound t, v => ∃ x, Stores stringUpperBound t v x
  | .message S, v => S.Conforms Stores v
  | .array a item, v => v.isArray = true ∧ a.Allows v.items.length ∧ ∀ w ∈ v.items, item.Conforms w

private theorem conforms_slot_iff {part : Part} {array : Option ArrayMember} {v : Value} :
    (part.slot array).Conforms v ↔ SlotConforms part.Conforms array v := by
  cases array with
  | none => exact Iff.rfl
  | some a => exact Iff.rfl

private theorem conforms_of_has {S : MessageMembers} {v w : Value} (hS : S.MembersConform Stores v)
    {name : Str} {part : Part} (hhas : S.Has name part) (hw : v.member? name = some w) :
    part.Conforms w := by
  induction S with
  | nil => exact hhas.elim
  | scalar m t rest ih =>
    rcases hhas with ⟨rfl, rfl⟩ | hhas
    · exact conforms_slot_iff.mpr (hS.1 w hw)
    · exact ih hS.2 hhas
  | nested m s rest _ ih =>
    rcases hhas with ⟨rfl, rfl⟩ | hhas
    · exact conforms_slot_iff.mpr (hS.1 w hw)
    · exact ih hS.2 hhas
  | untyped m why rest ih => exact ih hS.2 hhas

/-- Whatever place there is in a value that is taken, what is there is right or is overlooked. -/
theorem accepts_of_at {part found : Part} {place : Place} (hat : part.At place found) {v w : Value}
    (hv : part.Conforms v) (hw : place.find v = some w) : found.Accepts w ∨ found.Overlooks w := by
  induction hat generalizing v with
  | here part =>
    obtain rfl := Option.some.inj hw
    cases part with
    | leaf stringUpperBound t => exact exists_stores_iff.mp hv
    | message S => exact Or.inl hv.1
    | array a item => exact Or.inl ⟨hv.1, hv.2.1⟩
  | member hhas _ ih =>
    obtain ⟨x, hx, hw⟩ := Option.bind_eq_some_iff.mp hw
    exact ih (conforms_of_has hv.2 hhas hx) hw
  | item index _ ih =>
    obtain ⟨x, hx, hw⟩ := Option.bind_eq_some_iff.mp hw
    exact ih (hv.2.2 x (List.mem_of_getElem? hx)) hw

end Part

/-! ## The decoder -/

/-- **Errors of the decoder can be relied on.** For a type with complete introspection, an error is
about a place where the value is not one the type has there, and says which place it is; and there
is an error exactly when there is such a place that is not an `int64` given the real `2 ^ 63`. -/
theorem messageFromJson_blames (support : MessageSupport) (hwritable : support.members.Writable)
    (d : support.members.Defaults) (hinit : support.construct = .ok d)
    (hsized : support.members.SizedDefaults d) (v : Value) :
    Raises ((Part.message support.members).Blames v "message") (messageFromJson support v) ∧
      ((∃ e, messageFromJson support v = .error e) ↔
        ∃ place found w, (Part.message support.members).Faulty v place found w ∧
          ¬ found.Overlooks w) := by
  have hinitial := support.members.sized_initial hsized
  have hblames : Raises ((Part.message support.members).Blames v "message")
      (messageFromJson support v) := by
    rw [messageFromJson, hinit]
    exact object_blames (assignMembers_blames _ hwritable d hsized v _ hinitial _)
  refine ⟨hblames, ?_, ?_⟩
  · rintro ⟨e, he⟩
    obtain ⟨place, found, w, hfaulty, hoverlooks, -⟩ := hblames e he
    exact ⟨place, found, w, hfaulty, hoverlooks⟩
  · rintro ⟨place, found, w, ⟨hat, hw, haccepts⟩, hoverlooks⟩
    cases hm : messageFromJson support v with
    | error e => exact ⟨e, rfl⟩
    | ok m =>
      have hfits := ((messageFromJson_does hinit v).sound m hm).1
      rw [support.members.fits_iff hwritable hsized hinitial] at hfits
      exact ((Part.accepts_of_at hat (v := v) hfits hw).elim haccepts hoverlooks).elim

/-- `{"corners": [{}, {"x": 200}]}` -/
def crookedJson : Value :=
  .object [("corners", .array [.object [], .object [("x", .int ⟨200, by decide⟩)]])]

theorem messageFromJson_blames_outline :
    Raises ((Part.message outlineSupport.members).Blames crookedJson "message")
        (messageFromJson outlineSupport crookedJson) ∧
      ((∃ e, messageFromJson outlineSupport crookedJson = .error e) ↔
        ∃ place found w, (Part.message outlineSupport.members).Faulty crookedJson place found w ∧
          ¬ found.Overlooks w) :=
  messageFromJson_blames outlineSupport outline_writable _ rfl outline_sizedDefaults crookedJson

example : messageFromJson outlineSupport crookedJson = .error (permanentError
    "message_field_out_of_range" "message.corners[1].x is out of range") := by rfl

end Ros2ToolsAdapter
