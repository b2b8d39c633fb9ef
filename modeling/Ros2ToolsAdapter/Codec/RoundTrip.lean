import Ros2ToolsAdapter.Codec.Conformance
import Ros2ToolsAdapter.Codec.Encode

/-!
# Decoding undoes encoding

The encoder and the decoder are two recursions over the same table, each with accessor functions and
number tags of its own. `RoundTrips` says that one projection and one assignment are inverse on the
values a message may hold; it passes from a scalar to an array and from the members to a message,
and nothing else is needed of the two.

A message in the domain is `Within` its type: array and string bounds kept, floats finite, wide
strings ASCII, and no long doubles, which narrow to a double on the way out.
-/

namespace Ros2ToolsAdapter

open Json
open Except (bind_eq_ok)

/-! ## The domain -/

/-- The introspection functions the encoder needs of an array are present. -/
def ArrayMember.Readable (a : ArrayMember) (packed : Bool) : Prop :=
  a.sizeFunction = true ∧ (a.getConstFunction = true ∨ packed = true ∧ a.fetchFunction = true)

/-- A leaf with a JSON spelling of its own. -/
def LeafWithin (stringUpperBound : ℕ) : (t : ScalarType) → t.Val → Prop
  | .float, x | .double, x => x.isFinite = true
  | .longDouble, _ => False
  | .string, x => stringUpperBound ≠ 0 → x.length ≤ stringUpperBound
  | .wstring, x => (∀ character ∈ x, character ≤ 0x7f) ∧
      (stringUpperBound ≠ 0 → x.length ≤ stringUpperBound)
  | .bool, _ | .char, _ | .octet, _ | .uint8, _ | .int8, _ | .uint16, _ | .int16, _ | .uint32, _
  | .int32, _ | .uint64, _ | .int64, _ => True

/-- A field with an allowed number of items. -/
def SlotWithin {T : Type} (within : T → Prop) : (array : Option ArrayMember) → Slot array T → Prop
  | none, field => within field
  | some a, field => a.Allows field.length ∧ ∀ x ∈ field, within x

namespace MessageMembers

/-- Every member has a supported type and complete projection functions, at every depth. -/
def Readable : MessageMembers → Prop
  | .nil => True
  | .scalar m t rest => (∀ a ∈ m.array, a.Readable t.packed.isSome) ∧ rest.Readable
  | .nested m s rest => (∀ a ∈ m.array, a.Readable false) ∧ s.Readable ∧ rest.Readable
  | .untyped .. => False

/-- The members of a message have distinct names, at every depth. -/
def Distinct : MessageMembers → Prop
  | .nil => True
  | .scalar m _ rest | .untyped m _ rest => m.name ∉ rest.names ∧ rest.Distinct
  | .nested m s rest => m.name ∉ rest.names ∧ s.Distinct ∧ rest.Distinct

/-- The message respects the bounds of its type, at every depth. -/
def Within : (S : MessageMembers) → S.Message → Prop
  | .nil, _ => True
  | .scalar m t rest, (field, fields) =>
    SlotWithin (LeafWithin m.stringUpperBound t) m.array field ∧ rest.Within fields
  | .nested m s rest, (field, fields) => SlotWithin s.Within m.array field ∧ rest.Within fields
  | .untyped _ _ rest, (_, fields) => rest.Within fields

end MessageMembers

/-! ## Leaves -/

/-- A value in the domain is projected to a JSON value that assigns it, whatever was there. -/
def RoundTrips {T : Type} (project : Project T) (assign : Assign T) (sized within : T → Prop) :
    Prop :=
  ∀ x path, within x → ∃ w, project x path = .ok w ∧
    ∀ old path', sized old → assign w old path' = .ok x

private theorem holdsFloat_convert {f : FloatFormat} (hf : f.NarrowerThan .binary64)
    {x : FloatValue f} (hx : x.isFinite = true) : HoldsFloat f (.real (.convert .binary64 x)) x :=
  ⟨rfl, FloatValue.isFinite_convert hf hx, FloatValue.absGt_convert_maxFinite hf hx,
    (FloatValue.convert_convert hf x).symm⟩

private theorem toUInt8_of_ascii {c : UInt16} (hc : c ≤ 0x7f) :
    c.toUInt8.toNat = c.toNat ∧ c.toNat ≤ 0x7f := by
  have hle : c.toNat ≤ 0x7f := UInt16.le_iff_toNat_le.mp hc
  exact ⟨by rw [UInt16.toNat_toUInt8, Nat.mod_eq_of_lt (by omega)], hle⟩

/-- An ASCII wide string is spelled in ASCII and read back. -/
theorem holds_wstring {bound : ℕ} {x : WStr} (hx : LeafWithin bound .wstring x) :
    Holds bound .wstring (.string (x.map UInt16.toUInt8)) x := by
  obtain ⟨hascii, hbound⟩ := hx
  refine ⟨_, rfl, ?_, by simpa using hbound, ?_⟩
  · intro b hb
    obtain ⟨c, hc, rfl⟩ := List.mem_map.mp hb
    have := toUInt8_of_ascii (hascii c hc)
    exact UInt8.le_iff_toNat_le.mpr (this.1.le.trans this.2)
  · have hmap : List.map (UInt8.toUInt16 ∘ UInt16.toUInt8) x = List.map id x := by
      refine List.map_congr_left fun c hc ↦ UInt16.toNat_inj.mp ?_
      rw [Function.comp_apply, UInt8.toNat_toUInt16]
      exact (toUInt8_of_ascii (hascii c hc)).1
    rw [List.map_map, hmap, List.map_id]

private theorem scalarToJson_roundTrips (bound : ℕ) (t : ScalarType) :
    RoundTrips (scalarToJson t) (fun w _ p ↦ assignScalar bound t w p) (fun _ ↦ True)
      (LeafWithin bound t) := by
  -- it is enough that the JSON value says what the leaf was
  have key : ∀ {x : t.Val} {w : Value} {path : Str}, scalarToJson t x path = .ok w →
      Holds bound t w x → ∃ w, scalarToJson t x path = .ok w ∧
        ∀ (old : t.Val) path', True → assignScalar bound t w path' = .ok x :=
    fun hw hholds ↦ ⟨_, hw, fun _ _ _ ↦ assignScalar_eq_ok.mpr hholds.stores⟩
  intro x path hx
  cases t with
  | bool => exact key rfl rfl
  | float => exact key rfl (holdsFloat_convert (by decide) hx)
  | double =>
    refine key (w := .real x) rfl ?_
    have hholds := holdsFloat_convert (f := .binary64) (by decide) hx
    rwa [FloatValue.convert_self] at hholds
  | longDouble => exact hx.elim
  | char | octet | uint8 | uint16 | uint32 | uint64 | int8 | int16 | int32 | int64 =>
    exact key rfl rfl
  | string => exact key rfl ⟨rfl, hx⟩
  | wstring =>
    refine key (?_ : scalarToJson .wstring x path = _) (holds_wstring hx)
    have hascii : ¬ List.any x (fun character ↦ 0x7f < character) = true := by
      rw [List.any_eq_true]
      rintro ⟨c, hc, hlt⟩
      exact UInt16.not_lt.mpr (hx.1 c hc) (of_decide_eq_true hlt)
    rw [scalarToJson, wstringToJson, throwIf, if_neg hascii]
    rfl

/-! ## Arrays -/

section Slots

variable {T : Type} {project : Project T} {assign : Assign T} {sized within : T → Prop}
  {packed : Option T} {a : ArrayMember}

/-- An item goes out by one accessor and comes back by another. -/
theorem itemToJson_roundTrips (h : RoundTrips project assign sized within)
    (hread : a.Readable packed.isSome) (hwrite : a.Writable packed.isSome)
    (hpacked : ∀ item ∈ packed, sized item) :
    RoundTrips (itemToJson a packed project) (assignItem a packed assign) sized within := by
  intro x path hx
  obtain ⟨w, hw, hassign⟩ := h x path hx
  refine ⟨w, ?_, ?_⟩
  · rcases hread.2 with hget | ⟨hsome, hfetch⟩
    · simpa [itemToJson, hget] using hw
    · obtain ⟨item, rfl⟩ := Option.isSome_iff_exists.mp hsome
      simpa [itemToJson, hfetch] using hw
  · intro old path' hold
    cases hget : a.getFunction with
    | true => simpa [assignItem, hget] using hassign old path' hold
    | false =>
      obtain ⟨hsome, hassignFunction⟩ : packed.isSome = true ∧ a.assignFunction = true := by
        simpa [ArrayMember.Assigns, hget] using hwrite.2.1
      obtain ⟨item, rfl⟩ := Option.isSome_iff_exists.mp hsome
      simpa [assignItem, hget, hassignFunction] using hassign item path' (hpacked item rfl)

/-- The loops over a container, in and out. -/
theorem itemsToJson_roundTrips
    (h : RoundTrips (itemToJson a packed project) (assignItem a packed assign) sized within)
    (path : Str) (cells : List T) (hcells : ∀ x ∈ cells, within x) (index : ℕ) :
    ∃ ws, itemsToJson a packed project path index cells = .ok ws ∧ ws.length = cells.length ∧
      ∀ (old : List T) (path' : Str) (index' : ℕ), old.length = cells.length →
        (∀ x ∈ old, sized x) → assignItems a packed assign path' index' ws old = .ok cells := by
  induction cells generalizing index with
  | nil =>
    refine ⟨[], rfl, rfl, ?_⟩
    intro old path' index' hlength _
    rw [List.eq_nil_of_length_eq_zero hlength]
    rfl
  | cons cell cells ih =>
    obtain ⟨w, hw, hassign⟩ := h cell (itemPath path index) (hcells cell List.mem_cons_self)
    obtain ⟨ws, hws, hlength, hassigns⟩ :=
      ih (fun x hx ↦ hcells x (List.mem_cons_of_mem cell hx)) (index + 1)
    refine ⟨w :: ws, ?_, by simp [hlength], ?_⟩
    · rw [itemsToJson, hw, hws]
      rfl
    · intro old path' index' hold hsized
      obtain _ | ⟨first, olds⟩ := old
      · simp at hold
      rw [assignItems, hassign first _ (hsized first List.mem_cons_self),
        hassigns olds path' (index' + 1) (by simpa using hold)
          fun x hx ↦ hsized x (List.mem_cons_of_mem first hx)]
      rfl

private theorem memberToJson_roundTrips {array : Option ArrayMember} (packed : Option T) (fresh : T)
    (h : RoundTrips project assign sized within)
    (hread : ∀ a ∈ array, a.Readable packed.isSome)
    (hwrite : ∀ a ∈ array, a.Writable packed.isSome)
    (hpacked : ∀ item ∈ packed, sized item) (hfresh : sized fresh) (field : Slot array T)
    (path : Str) (hfield : SlotWithin within array field) :
    ∃ w, memberToJson packed project path array field = .ok w ∧ ∀ old path',
      SlotSized sized array old →
        assignMember packed fresh assign w path' array old = .ok field := by
  cases array with
  | none => exact h field path hfield
  | some a =>
    obtain ⟨hallows, hwithin⟩ := hfield
    obtain ⟨ws, hws, hlength, hassigns⟩ := itemsToJson_roundTrips
      (itemToJson_roundTrips h (hread a rfl) (hwrite a rfl) hpacked) path field hwithin 0
    refine ⟨.array ws, ?_, ?_⟩
    · simp only [memberToJson, bind_eq_ok, throwIf_eq_ok, exists_const]
      exact ⟨by simp [(hread a rfl).1], ws, hws, rfl⟩
    · intro old path' hold
      -- the container becomes as long as the array, so every check of the decoder passes
      have hprepared : (prepare a old ws.length fresh).length = ws.length :=
        length_prepare fresh (hwrite a rfl) hold.1 (by rwa [hlength])
      have hchecks : a.Prepared (.array ws) (prepare a old ws.length fresh) :=
        ⟨rfl, by rwa [Value.items, hlength], (hwrite a rfl).1, hprepared⟩
      obtain ⟨harray, hfixed, hbounded, hsize⟩ := ArrayMember.prepared_iff.mp hchecks
      simp only [assignMember, bind_eq_ok, throwIf_eq_ok, exists_const]
      have hsized : ∀ x ∈ prepare a old ws.length fresh, sized x := by
        intro x hx
        exact (mem_prepare hx).elim (hold.2 x) fun heq ↦ heq ▸ hfresh
      exact ⟨harray, hfixed, hbounded, hsize,
        hassigns _ _ _ (by rw [Value.items, hprepared, hlength]) hsized⟩

end Slots

/-! ## Messages -/

/-- `j` is the object `result` with members under these names added. -/
def Extends (names : List Str) (result j : Value) : Prop :=
  j.isObject = true ∧ (∀ key ∉ names, j.member? key = result.member? key) ∧
    ∀ key, key ∈ j.getMemberNames ↔ key ∈ names ∨ key ∈ result.getMemberNames

/-- A member set first stays set, if no later one has its name. -/
theorem Extends.of_set {name : Str} {names : List Str} {result j w : Value}
    (hresult : result.isObject = true) (hname : name ∉ names)
    (h : Extends names (result.set name w) j) :
    Extends (name :: names) result j ∧ j.member? name = some w := by
  obtain ⟨hobject, hlookup, hkeys⟩ := h
  refine ⟨⟨hobject, ?_, ?_⟩, ?_⟩
  · intro key hkey
    rw [List.mem_cons, not_or] at hkey
    obtain ⟨hne, hnot⟩ := hkey
    rw [hlookup key hnot, Value.member?_set hresult, if_neg hne]
  · intro key
    rw [hkeys, Value.mem_getMemberNames_set hresult, List.mem_cons]
    tauto
  · rw [hlookup name hname, Value.member?_set hresult, if_pos rfl]

/-- A value that extends the empty object passes the two checks of a message. -/
theorem Extends.object_ok {names : List Str} {j : Value} (h : Extends names (.object []) j)
    (path : Str) {α : Type} (x : Except Exn α) :
    (do requireObject j path; rejectUnknownFields j names path; x) = x := by
  have hknown : rejectUnknownFields j names path = .ok () :=
    rejectUnknownFields_eq_ok.mpr fun key hkey ↦ by
      simpa [Value.getMemberNames] using (h.2.2 key).mp hkey
  rw [requireObject_eq_ok.mpr h.1, hknown]
  rfl

private theorem assignPresent_of_member? {T : Type} {array : Option ArrayMember} {packed : Option T}
    {fresh : T} {assign : Assign T} {v w : Value} {name path : Str} {field : Slot array T}
    (hw : v.member? name = some w) :
    assignPresent packed fresh assign v name field path =
      assignMember packed fresh assign w (path ++ "." ++ name) array field := by
  rw [assignPresent, if_pos (Value.isMember_iff.mpr ⟨w, hw⟩), Value.get_of_member? hw]

namespace MessageMembers

/-- The loop over the members adds them to the object in hand, and what it has made assigns them
back. -/
theorem membersToJson_roundTrips (S : MessageMembers) (hdistinct : S.Distinct)
    (hread : S.Readable) (hwrite : S.Writable) (d : S.Defaults) (hd : S.SizedDefaults d)
    (m : S.Message) (hm : S.Within m) (result : Value) (hresult : result.isObject = true)
    (path : Str) :
    ∃ j, membersToJson S m result path = .ok j ∧ Extends S.names result j ∧
      ∀ old path', S.Sized old → assignMembers S d j old path' = .ok m := by
  induction S generalizing result path with
  | nil =>
    exact ⟨result, rfl, ⟨hresult, fun _ _ ↦ rfl, fun _ ↦ by simp [names]⟩, fun _ _ _ ↦ rfl⟩
  | scalar member t rest ih =>
    obtain ⟨hname, hdistinct⟩ := hdistinct
    obtain ⟨field, fields⟩ := m
    obtain ⟨w, hw, hassign⟩ := memberToJson_roundTrips t.packed t.fresh
      (scalarToJson_roundTrips member.stringUpperBound t) hread.1 hwrite.1 (fun _ _ ↦ trivial)
      trivial field (path ++ "." ++ member.name) hm.1
    obtain ⟨j, hj, hextends, hassigns⟩ := ih hdistinct hread.2 hwrite.2 d.2 hd.2 fields hm.2
      (result.set member.name w) (Value.isObject_set hresult _ _) path
    obtain ⟨hextends, hlookup⟩ := hextends.of_set hresult hname
    refine ⟨j, ?_, hextends, ?_⟩
    · rw [membersToJson, hw]
      exact hj
    · intro old path' hold
      rw [assignMembers, assignPresent_of_member? hlookup, hassign old.1 _ hold.1,
        hassigns old.2 path' hold.2]
      rfl
  | nested member s rest ihs ih =>
    obtain ⟨hname, hdistinctNested, hdistinct⟩ := hdistinct
    obtain ⟨hreadArray, hreadNested, hread⟩ := hread
    obtain ⟨hwriteArray, hwriteNested, hwrite⟩ := hwrite
    obtain ⟨initial, dNested, d⟩ := d
    obtain ⟨-, hdNested, hd⟩ := hd
    obtain ⟨field, fields⟩ := m
    -- one item of the member: the encoder starts it from an empty object, so the decoder's two
    -- checks see the names of its type and nothing else
    have hnested : RoundTrips (fun x p ↦ membersToJson s x (.object []) p)
        (fun v cell p ↦ do
          requireObject v p
          rejectUnknownFields v s.names p
          assignMembers s dNested v cell p) s.Sized s.Within := by
      intro x p hx
      obtain ⟨w, hw, hextends, hassigns⟩ :=
        ihs hdistinctNested hreadNested hwriteNested dNested hdNested x hx (.object []) rfl p
      exact ⟨w, hw, fun old p' hold ↦ (hextends.object_ok p' _).trans (hassigns old p' hold)⟩
    obtain ⟨w, hw, hassign⟩ := memberToJson_roundTrips none (s.initial dNested) hnested
      hreadArray hwriteArray (fun _ h ↦ nomatch h) (s.sized_initial hdNested) field
      (path ++ "." ++ member.name) hm.1
    obtain ⟨j, hj, hextends, hassigns⟩ := ih hdistinct hread hwrite d hd fields hm.2
      (result.set member.name w) (Value.isObject_set hresult _ _) path
    obtain ⟨hextends, hlookup⟩ := hextends.of_set hresult hname
    refine ⟨j, ?_, hextends, ?_⟩
    · rw [membersToJson, hw]
      exact hj
    · intro old path' hold
      rw [assignMembers, assignPresent_of_member? hlookup, hassign old.1 _ hold.1,
        hassigns old.2 path' hold.2]
      rfl
  | untyped => exact hread.elim

end MessageMembers

/-- **Decoding undoes encoding**, whatever initialisation leaves in the message. -/
theorem messageFromJson_messageToJson (support : MessageSupport)
    (hdistinct : support.members.Distinct) (hread : support.members.Readable)
    (hwrite : support.members.Writable) (d : support.members.Defaults)
    (hinit : support.construct = .ok d) (hsized : support.members.SizedDefaults d)
    (m : support.members.Message) (hm : support.members.Within m) :
    ∃ j, messageToJson support.members m = .ok j ∧ j.isObject = true ∧
      messageFromJson support j = .ok m := by
  obtain ⟨j, hj, hextends, hassigns⟩ := support.members.membersToJson_roundTrips hdistinct hread
    hwrite d hsized m hm (.object []) rfl "message"
  refine ⟨j, hj, hextends.1, ?_⟩
  rw [messageFromJson, hextends.object_ok, hinit]
  exact hassigns _ _ (support.members.sized_initial hsized)

theorem messageFromJson_messageToJson_outline :
    ∃ j, messageToJson outlineSupport.members
        ([(⟨-128, by decide⟩, ()), (⟨127, by decide⟩, ())], [false, true, true], ()) = .ok j ∧
      j.isObject = true ∧ messageFromJson outlineSupport j =
        .ok ([(⟨-128, by decide⟩, ()), (⟨127, by decide⟩, ())], [false, true, true], ()) :=
  messageFromJson_messageToJson outlineSupport
    (by simp [outlineSupport, MessageMembers.Distinct, MessageMembers.names])
    (by simp [outlineSupport, MessageMembers.Readable, ArrayMember.Readable, ScalarType.packed])
    outline_writable _ rfl outline_sizedDefaults _
    (by simp [outlineSupport, MessageMembers.Within, SlotWithin, LeafWithin, ArrayMember.Allows,
      ArrayMember.IsFixed, ArrayMember.IsBounded])

end Ros2ToolsAdapter
