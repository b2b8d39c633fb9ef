import Ros2ToolsAdapter.Codec.Finite
import Ros2ToolsAdapter.Codec.RoundTrip

/-!
# Messages that were read

A JSON value may leave members out, and may spell a number in more than one way. What becomes of it
is a message within the bounds of its type, whatever the value was: every leaf the decoder assigns
is within them, every array has an allowed length, and what it leaves alone is as initialisation
made it. So the encoder can show the message, and what it shows is read as the same message again
(`messageFromJson_normal`): the two JSON values are two spellings of one message, and the second
mentions every member.
-/

namespace Ros2ToolsAdapter

open Json

/-! ## Leaves and arrays -/

/-- What the decoder assigns is within the bounds of the field. -/
theorem leafWithin_of_stores {bound : ℕ} {t : ScalarType} (ht : t ≠ .longDouble) {v : Value}
    {x : t.Val} (h : Stores bound t v x) : LeafWithin bound t x := by
  cases t with
  | float =>
    obtain ⟨-, hfinite, hrange, rfl⟩ := h
    exact FloatValue.isFinite_convert_of_absGt (by decide) hfinite hrange
  | double =>
    obtain ⟨-, hfinite, -, rfl⟩ := h
    rwa [LeafWithin, FloatValue.convert_self]
  | longDouble => exact absurd rfl ht
  | string => exact h.2
  | wstring =>
    obtain ⟨s, -, hascii, hbound, rfl⟩ := h
    refine ⟨?_, ?_⟩
    · rintro _ hmem
      obtain ⟨c, hc, rfl⟩ := List.mem_map.mp hmem
      have hle := UInt8.le_iff_toNat_le.mp (hascii c hc)
      exact UInt16.le_iff_toNat_le.mpr (by simpa using hle)
    · rwa [List.length_map]
  | bool | char | octet | uint8 | int8 | uint16 | int16 | uint32 | int32 | uint64 | int64 =>
    trivial

section Slots

variable {T : Type} {conforms : Value → Prop} {holds : Value → T → T → Prop}
  {fresh : T}

variable (within started : T → Prop) in
/-- A member that conforms is overlaid within its bounds, when that is so of its items. -/
theorem slotWithin_of_overlaid
    (hstep : ∀ w cell x, conforms w → started cell → holds w cell x → within x)
    (hwithin : ∀ x, within x → started x) (hfresh : started fresh) {m : MessageMember} {v : Value}
    {old new : Slot m.array T} (hconforms : MemberConforms conforms m v)
    (hold : SlotWithin within m.array old) (h : MemberOverlaid fresh holds m.name v old new) :
    SlotWithin within m.array new := by
  obtain ⟨name, bound, array⟩ := m
  cases hw : v.member? name with
  | none =>
    obtain rfl := h.1 hw
    exact hold
  | some w =>
    have hc := hconforms w hw
    have hnew := h.2 w hw
    cases array with
    | none => exact hstep w old new hc (hwithin _ hold) hnew
    | some a =>
      obtain ⟨-, hallows, hitems⟩ := hc
      obtain ⟨hlength, hholds⟩ := hnew
      refine ⟨by rwa [hlength], fun x hx ↦ ?_⟩
      obtain ⟨i, hi, rfl⟩ := List.getElem_of_mem hx
      have hi' : i < w.items.length := hlength ▸ hi
      -- the item was made from an old one, or from a new one past their end
      refine hstep _ _ _ (hitems _ (List.getElem_mem hi')) ?_
        (hholds i _ _ (List.getElem?_eq_getElem hi') (List.getElem?_eq_getElem hi))
      cases hcell : old[i]? with
      | none => exact hfresh
      | some cell => exact hwithin cell (hold.2 cell (List.mem_of_getElem? hcell))

end Slots

/-! ## Messages -/

namespace MessageMembers

/-- There is no long double, at any depth: it may hold more than a JSON number can say. -/
def ShortFloats : MessageMembers → Prop
  | .nil => True
  | .scalar _ t rest => t ≠ .longDouble ∧ rest.ShortFloats
  | .nested _ s rest => s.ShortFloats ∧ rest.ShortFloats
  | .untyped _ _ rest => rest.ShortFloats

/-- Everything initialisation makes is within the bounds of its type: the message, and the items of
its sequences. -/
def WithinDefaults : (S : MessageMembers) → S.Defaults → Prop
  | .nil, _ => True
  | .scalar m t rest, (field, ds) =>
    SlotWithin (LeafWithin m.stringUpperBound t) m.array field ∧ rest.WithinDefaults ds
  | .nested m s rest, (field, d, ds) =>
    SlotWithin s.Within m.array field ∧ s.WithinDefaults d ∧ rest.WithinDefaults ds
  | .untyped _ _ rest, (_, ds) => rest.WithinDefaults ds

private theorem within_initial (S : MessageMembers) {d : S.Defaults} (h : S.WithinDefaults d) :
    S.Within (S.initial d) := by
  induction S with
  | nil => trivial
  | scalar m t rest ih => exact ⟨h.1, ih h.2⟩
  | nested m s rest _ ih => exact ⟨h.1, ih h.2.2⟩
  | untyped m why rest ih => exact ih h

private theorem slotSized_of_within {T : Type} {within sized : T → Prop}
    (h : ∀ x, within x → sized x) {array : Option ArrayMember} {field : Slot array T}
    (hfield : SlotWithin within array field) :
    SlotSized sized array field := by
  cases array with
  | none => exact h field hfield
  | some a => exact ⟨hfield.1.1, fun x hx ↦ h x (hfield.2 x hx)⟩

private theorem sized_of_within (S : MessageMembers) {m : S.Message} (h : S.Within m) :
    S.Sized m := by
  induction S with
  | nil => trivial
  | scalar member t rest ih => exact ⟨slotSized_of_within (fun _ _ ↦ trivial) h.1, ih h.2⟩
  | nested member s rest ihs ih => exact ⟨slotSized_of_within (fun _ ↦ ihs) h.1, ih h.2⟩
  | untyped member why rest ih => exact ih h

private theorem sizedDefaults_of_within (S : MessageMembers) {d : S.Defaults}
    (h : S.WithinDefaults d) : S.SizedDefaults d := by
  induction S with
  | nil => trivial
  | scalar m t rest ih => exact ⟨slotSized_of_within (fun _ _ ↦ trivial) h.1, ih h.2⟩
  | nested m s rest ihs ih =>
    exact ⟨slotSized_of_within (fun _ ↦ s.sized_of_within) h.1, ihs h.2.1, ih h.2.2⟩
  | untyped m why rest ih => exact ih h

/-- **A value that conforms, laid over a message within its bounds, stays within them.** -/
theorem within_of_overlaid (S : MessageMembers) (hshort : S.ShortFloats) {d : S.Defaults}
    (hd : S.WithinDefaults d) {v : Value} (hconforms : S.MembersConform Stores v)
    {old new : S.Message} (hold : S.Within old) (h : S.Overlaid Stores d v old new) :
    S.Within new := by
  induction S generalizing v with
  | nil => trivial
  | scalar m t rest ih =>
    refine ⟨?_, ih hshort.2 hd.2 hconforms.2 hold.2 h.2⟩
    exact slotWithin_of_overlaid _ (fun _ ↦ True)
      (fun _ _ _ _ _ hx ↦ leafWithin_of_stores hshort.1 hx) (fun _ _ ↦ trivial) trivial
      hconforms.1 hold.1 h.1
  | nested m s rest ihs ih =>
    refine ⟨?_, ih hshort.2 hd.2.2 hconforms.2 hold.2 h.2⟩
    exact slotWithin_of_overlaid s.Within s.Within
      (fun _ _ _ hw hcell hx ↦ ihs hshort.1 hd.2.1 hw.2 hcell hx) (fun _ hx ↦ hx)
      (s.within_initial hd.2.1) hconforms.1 hold.1 h.1
  | untyped m why rest ih => exact ih hshort hd hconforms.2 hold h.2

end MessageMembers

/-- **What was read can be shown, and is read again as the same message.** -/
theorem messageFromJson_normal (support : MessageSupport) (hdistinct : support.members.Distinct)
    (hread : support.members.Readable) (hwrite : support.members.Writable)
    (hshort : support.members.ShortFloats) (d : support.members.Defaults)
    (hinit : support.construct = .ok d) (hwithin : support.members.WithinDefaults d) {v : Value}
    {m : support.members.Message} (hm : messageFromJson support v = .ok m) :
    support.members.Within m ∧ ∃ j, messageToJson support.members m = .ok j ∧
      (∀ name ∈ support.members.names, j.isMember name = true) ∧
        messageFromJson support j = .ok m := by
  have hsized := support.members.sizedDefaults_of_within hwithin
  have hinitial := support.members.within_initial hwithin
  obtain ⟨⟨-, hfits⟩, hoverlaid⟩ := (messageFromJson_does hinit v).sound m hm
  rw [support.members.fits_iff hwrite hsized (support.members.sized_of_within hinitial)] at hfits
  have hresult := support.members.within_of_overlaid hshort hwithin hfits hinitial hoverlaid
  obtain ⟨j, hj, hextends, hassigns⟩ := support.members.membersToJson_roundTrips hdistinct hread
    hwrite d hsized m hresult (.object []) rfl "message"
  refine ⟨hresult, j, hj, fun name hname ↦ ?_, ?_⟩
  · exact Value.mem_getMemberNames_iff.mp ((hextends.2.2 name).mpr (Or.inl hname))
  · rw [messageFromJson, hextends.object_ok, hinit]
    exact hassigns _ _ (support.members.sized_of_within hinitial)

theorem messageFromJson_normal_outline :
    outlineSupport.members.Within
        ([(⟨5, by decide⟩, ()), (⟨-1, by decide⟩, ())], [true, false], ()) ∧
      ∃ j, messageToJson outlineSupport.members
          ([(⟨5, by decide⟩, ()), (⟨-1, by decide⟩, ())], [true, false], ()) = .ok j ∧
        (∀ name ∈ outlineSupport.members.names, j.isMember name = true) ∧
          messageFromJson outlineSupport j =
            .ok ([(⟨5, by decide⟩, ()), (⟨-1, by decide⟩, ())], [true, false], ()) :=
  messageFromJson_normal outlineSupport
    (by simp [outlineSupport, MessageMembers.Distinct, MessageMembers.names])
    (by simp [outlineSupport, MessageMembers.Readable, ArrayMember.Readable, ScalarType.packed])
    outline_writable (by simp [outlineSupport, MessageMembers.ShortFloats]) _ rfl
    (by simp [outlineSupport, MessageMembers.WithinDefaults, MessageMembers.Within, SlotWithin,
      LeafWithin, ArrayMember.Allows, ArrayMember.IsFixed, ArrayMember.IsBounded])
    (show messageFromJson outlineSupport outlineJson = _ from rfl)

end Ros2ToolsAdapter
