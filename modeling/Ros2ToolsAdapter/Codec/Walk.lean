import Ros2ToolsAdapter.Codec.Leaf

/-!
# What the decoder does

From leaves to arrays, from arrays to members and from members to messages, each of the three
predicates of a computation is defined by recursion on the table of members and without mention of
the code: `Fits`, when every part that is mentioned is assigned; `Overflows`, when the first part
that does not fit is a leaf that overflows; `Overlaid`, what the message holds afterwards, for one
relation between a leaf and its JSON value or another.

There is one lemma for each function of the decoder, from the lemma of the function it calls, and
`assignMembers_does` is the induction over the table that joins them.
-/

namespace Ros2ToolsAdapter

open Json

/-! ## Arrays

A predicate on one item becomes a predicate on a field: on the one value it holds, or on its items
in turn. -/

/-- The loop can put an item into the container. -/
def ArrayMember.Assigns (a : ArrayMember) (packed : Bool) : Prop :=
  a.getFunction = true ∨ packed = true ∧ a.assignFunction = true

/-- The first item that does not fit overflows. -/
def FirstOverflows {T : Type} (fits overflows : Value → T → Prop) :
    List Value → List T → Prop
  | v :: vs, cell :: cells =>
    overflows v cell ∨ fits v cell ∧ FirstOverflows fits overflows vs cells
  | _, _ => False

section Slots

variable {T : Type}

/-- The JSON value is an array of an allowed number of items and the container has been given as
many. -/
def ArrayMember.Prepared (a : ArrayMember) (v : Value) (cells : List T) : Prop :=
  v.isArray = true ∧ a.Allows v.items.length ∧ a.sizeFunction = true ∧
    cells.length = v.items.length

variable (packed : Bool) (fresh : T)

def SlotFits (fits : Value → T → Prop) (v : Value) :
    (array : Option ArrayMember) → Slot array T → Prop
  | none, field => fits v field
  | some a, field => a.Prepared v (prepare a field v.items.length fresh) ∧
      List.Forall₂ (fun w cell ↦ a.Assigns packed ∧ fits w cell) v.items
        (prepare a field v.items.length fresh)

def SlotOverflows (fits overflows : Value → T → Prop) (v : Value) :
    (array : Option ArrayMember) → Slot array T → Prop
  | none, field => overflows v field
  | some a, field => a.Prepared v (prepare a field v.items.length fresh) ∧
      FirstOverflows (fun w cell ↦ a.Assigns packed ∧ fits w cell)
        (fun w cell ↦ a.Assigns packed ∧ overflows w cell) v.items
        (prepare a field v.items.length fresh)

/-- As many items as the JSON array has, each from the item that was there, or from a new one past
the end. -/
def ItemsOverlaid (holds : Value → T → T → Prop) (vs : List Value) (old new : List T) : Prop :=
  new.length = vs.length ∧ ∀ (i : ℕ) (w : Value) (x : T), vs[i]? = some w → new[i]? = some x →
    holds w (old[i]?.getD fresh) x

/-- The field afterwards. -/
def SlotOverlaid (holds : Value → T → T → Prop) (v : Value) :
    (array : Option ArrayMember) → (old new : Slot array T) → Prop
  | none, old, new => holds v old new
  | some _, old, new => ItemsOverlaid fresh holds v.items old new

theorem ArrayMember.allows_iff {a : ArrayMember} {n : ℕ} :
    a.Allows n ↔ ¬ (a.arraySize ≠ 0 ∧ a.isUpperBound = false ∧ n ≠ a.arraySize) ∧
      ¬ (a.isUpperBound = true ∧ a.arraySize ≠ 0 ∧ a.arraySize < n) := by
  rw [Allows, IsFixed, IsBounded]
  simp only [not_and, not_not, not_lt, and_imp]

theorem ArrayMember.prepared_iff {a : ArrayMember} {v : Value} {cells : List T} :
    a.Prepared v cells ↔ ¬ v.isArray = false ∧
      ¬ (a.arraySize ≠ 0 ∧ a.isUpperBound = false ∧ v.items.length ≠ a.arraySize) ∧
      ¬ (a.isUpperBound = true ∧ a.arraySize ≠ 0 ∧ a.arraySize < v.items.length) ∧
      ¬ (a.sizeFunction = false ∨ cells.length ≠ v.items.length) := by
  rw [Prepared, allows_iff, not_or, Bool.not_eq_false, Bool.not_eq_false, not_not, and_assoc]

private theorem getElem?_resize {cells : List T} {n i : ℕ} (hi : i < n) :
    (resize cells n fresh)[i]? = some (cells[i]?.getD fresh) := by
  rw [resize]
  by_cases hlt : i < cells.length
  · rw [List.getElem?_append_left (by rw [List.length_take]; omega), List.getElem?_take,
      if_pos hi, List.getElem?_eq_getElem hlt, Option.getD_some]
  · rw [List.getElem?_append_right (by rw [List.length_take]; omega), List.length_take,
      List.getElem?_replicate, if_pos (by omega), List.getElem?_eq_none (by omega),
      Option.getD_none]

theorem length_resize (cells : List T) (n : ℕ) : (resize cells n fresh).length = n := by
  rw [resize, List.length_append, List.length_take, List.length_replicate]
  omega

/-- What the loop finds at an index: the item that was there, or a new one. -/
theorem getElem?_prepare {a : ArrayMember} {field : List T} {n i : ℕ}
    (hn : (prepare a field n fresh).length = n) (hi : i < n) :
    (prepare a field n fresh)[i]? = some (field[i]?.getD fresh) := by
  rw [prepare] at hn ⊢
  split at hn
  · rw [if_pos ‹_›, getElem?_resize fresh hi]
  · rw [if_neg ‹_›, List.getElem?_eq_getElem (by omega), Option.getD_some]

end Slots

section Loops

variable {T : Type} {fits overflows : Value → T → Prop} {holds : Value → T → T → Prop}
  {assign : Assign T} {packed : Option T}

/-- The local variable of a packed container starts the same whatever the item was. -/
def Indifferent (fits overflows : Value → T → Prop) (holds : Value → T → T → Prop)
    (packed : Option T) : Prop :=
  ∀ item ∈ packed, ∀ v cell, fits v item = fits v cell ∧ overflows v item = overflows v cell ∧
    holds v item = holds v cell

private theorem assignItem_does (a : ArrayMember)
    (hassign : ∀ v cell path, Does (assign v cell path) (fits v cell) (overflows v cell)
      (holds v cell)) (hpacked : Indifferent fits overflows holds packed)
    (v : Value) (cell : T) (path : Str) :
    Does (assignItem a packed assign v cell path) (a.Assigns packed.isSome ∧ fits v cell)
      (a.Assigns packed.isSome ∧ overflows v cell) (holds v cell) := by
  unfold assignItem ArrayMember.Assigns
  cases hget : a.getFunction with
  | true => simpa using hassign v cell path
  | false =>
    cases packed with
    | none => simpa using Does.permanent _ _
    | some item =>
      -- the local variable is assigned in the item's stead
      obtain ⟨hfits, hoverflows, hholds⟩ := hpacked item rfl v cell
      cases hassignFunction : a.assignFunction with
      | false => simpa using Does.permanent _ _
      | true => simpa [← hfits, ← hoverflows, ← hholds] using hassign v item path

/-- The loop over the items: one round, then the rest. -/
theorem assignItems_does (a : ArrayMember) (path : Str)
    (hassign : ∀ v cell path, Does (assign v cell path) (fits v cell) (overflows v cell)
      (holds v cell)) (hpacked : Indifferent fits overflows holds packed)
    (vs : List Value) (cells : List T) (hlength : cells.length = vs.length) (index : ℕ) :
    Does (assignItems a packed assign path index vs cells)
      (List.Forall₂ (fun w cell ↦ a.Assigns packed.isSome ∧ fits w cell) vs cells)
      (FirstOverflows (fun w cell ↦ a.Assigns packed.isSome ∧ fits w cell)
        (fun w cell ↦ a.Assigns packed.isSome ∧ overflows w cell) vs cells)
      (fun items ↦ items.length = vs.length ∧ ∀ (i : ℕ) (w : Value) (cell x : T),
        vs[i]? = some w → cells[i]? = some cell → items[i]? = some x → holds w cell x) := by
  induction vs generalizing cells index with
  | nil =>
    obtain rfl := List.eq_nil_of_length_eq_zero hlength
    refine (Does.pure (H := fun items : List T ↦ items = []) rfl).congr (by simp) (by
      simp [FirstOverflows]) ?_
    rintro _ - rfl
    simp
  | cons v vs ih =>
    obtain _ | ⟨cell, cells⟩ := cells
    · simp at hlength
    have hround := assignItem_does a hassign hpacked v cell (itemPath path index)
    have hrest := ih cells (by simpa using hlength) (index + 1)
    refine (Does.pair List.cons hround hrest).congr (by rw [List.forall₂_cons]) Iff.rfl ?_
    rintro _ - ⟨item, items, hitem, ⟨hitems, hholds⟩, rfl⟩
    refine ⟨by simp [hitems], ?_⟩
    intro i w c x hw hc hx
    cases i with
    | zero =>
      obtain rfl := Option.some_injective _ hw
      obtain rfl := Option.some_injective _ hc
      obtain rfl := Option.some_injective _ hx
      exact hitem
    | succ i => exact hholds i w c x (by simpa using hw) (by simpa using hc) (by simpa using hx)

private theorem assignMember_does (fresh : T)
    (hassign : ∀ v cell path, Does (assign v cell path) (fits v cell) (overflows v cell)
      (holds v cell)) (hpacked : Indifferent fits overflows holds packed)
    (v : Value) (path : Str) (array : Option ArrayMember) (field : Slot array T) :
    Does (assignMember packed fresh assign v path array field)
      (SlotFits packed.isSome fresh fits v array field)
      (SlotOverflows packed.isSome fresh fits overflows v array field)
      (SlotOverlaid fresh holds v array field) := by
  cases array with
  | none => exact hassign v field path
  | some a =>
    -- four checks, the last of which gives the loop its premise
    have hitems := fun hlength ↦ assignItems_does a path hassign hpacked v.items
      (prepare a field v.items.length fresh) hlength 0
    refine (Does.check _ _ fun _ ↦ Does.check _ _ fun _ ↦ Does.check _ _ fun _ ↦
      Does.check _ _ fun h ↦ hitems (not_not.mp (not_or.mp h).2)).congr ?_ ?_ ?_
    · rw [SlotFits, ArrayMember.prepared_iff, and_assoc, and_assoc, and_assoc]
    · rw [SlotOverflows, ArrayMember.prepared_iff, and_assoc, and_assoc, and_assoc]
    · rintro new hfits ⟨hlength, hholds⟩
      refine ⟨hlength, ?_⟩
      intro i w x hw hx
      -- the item the loop found there: the old one, or a new one where `prepare` made it
      refine hholds i w _ x hw (getElem?_prepare fresh ?_ ?_) hx
      · exact not_not.mp (not_or.mp hfits.2.2.2.1).2
      · exact (List.getElem?_eq_some_iff.mp hw).1

/-- A member that is mentioned has its array or its value assigned, and any other is left alone. -/
def MemberFits (packed : Bool) (fresh : T) (fits : Value → T → Prop) (name : Str) (v : Value)
    {array : Option ArrayMember} (field : Slot array T) : Prop :=
  ∀ w, v.member? name = some w → SlotFits packed fresh fits w array field

def MemberOverflows (packed : Bool) (fresh : T) (fits overflows : Value → T → Prop) (name : Str)
    (v : Value) {array : Option ArrayMember} (field : Slot array T) : Prop :=
  ∃ w, v.member? name = some w ∧ SlotOverflows packed fresh fits overflows w array field

private theorem not_firstOverflows (h : ∀ w cell, ¬ overflows w cell) (vs : List Value)
    (cells : List T) : ¬ FirstOverflows fits overflows vs cells := by
  induction vs generalizing cells with
  | nil => simp [FirstOverflows]
  | cons v vs ih =>
    cases cells with
    | nil => simp [FirstOverflows]
    | cons cell cells =>
      rintro (hv | ⟨-, hvs⟩)
      · exact h v cell hv
      · exact ih cells hvs

/-- A member none of whose leaves can overflow does not. -/
theorem not_memberOverflows {packed : Bool} {fresh : T} (h : ∀ w cell, ¬ overflows w cell)
    {name : Str} {v : Value} {array : Option ArrayMember} {field : Slot array T} :
    ¬ MemberOverflows packed fresh fits overflows name v field := by
  rintro ⟨w, -, hw⟩
  cases array with
  | none => exact h w field hw
  | some a => exact not_firstOverflows (fun _ _ hcell ↦ h _ _ hcell.2) _ _ hw.2

def MemberOverlaid (fresh : T) (holds : Value → T → T → Prop) (name : Str) (v : Value)
    {array : Option ArrayMember} (old new : Slot array T) : Prop :=
  (v.member? name = none → new = old) ∧
    ∀ w, v.member? name = some w → SlotOverlaid fresh holds w array old new

private theorem assignPresent_does (packed : Option T) (fresh : T)
    (hassign : ∀ v cell path, Does (assign v cell path) (fits v cell) (overflows v cell)
      (holds v cell)) (hpacked : Indifferent fits overflows holds packed)
    (v : Value) (name path : Str) {array : Option ArrayMember} (field : Slot array T) :
    Does (assignPresent packed fresh assign v name field path)
      (MemberFits packed.isSome fresh fits name v field)
      (MemberOverflows packed.isSome fresh fits overflows name v field)
      (MemberOverlaid fresh holds name v field) := by
  rw [assignPresent]
  cases hw : v.member? name with
  | none =>
    have hmember : v.isMember name = false := by rw [Value.isMember, hw]; rfl
    rw [if_neg (by simp [hmember])]
    refine (Does.pure (H := fun new ↦ new = field) rfl).congr ?_ ?_ ?_
    · simp [MemberFits, hw]
    · simp [MemberOverflows, hw]
    · rintro _ - rfl
      exact ⟨fun _ ↦ rfl, fun w h ↦ by simp [hw] at h⟩
  | some w =>
    rw [if_pos (Value.isMember_iff.mpr ⟨w, hw⟩), Value.get_of_member? hw]
    refine (assignMember_does fresh hassign hpacked w _ array field).congr ?_ ?_ ?_
    · simp [MemberFits, hw]
    · simp [MemberOverflows, hw]
    · intro new _ hnew
      refine ⟨fun h ↦ by simp [hw] at h, ?_⟩
      intro w' h
      obtain rfl := Option.some_injective _ (hw.symm.trans h)
      exact hnew

end Loops

/-! ## Messages -/

/-- An object whose keys are all among these names. -/
def IsObjectOf (names : List Str) (v : Value) : Prop :=
  v.isObject = true ∧ ∀ name ∈ v.getMemberNames, name ∈ names

theorem requireObject_eq_ok {v : Value} {path : Str} :
    requireObject v path = .ok () ↔ v.isObject = true := by
  rw [requireObject, throwIf_eq_ok, Bool.not_eq_false]

theorem rejectUnknownFields_eq_ok {v : Value} {names : List Str} {path : Str} :
    rejectUnknownFields v names path = .ok () ↔ ∀ name ∈ v.getMemberNames, name ∈ names := by
  rw [rejectUnknownFields, forM_eq_ok]
  simp only [throwIf_eq_ok, not_not]

/-- The two checks a message starts with. -/
theorem object_does {α : Type} {x : Except Exn α} {F O : Prop} {H : α → Prop} (names : List Str)
    (v : Value) (path : Str) (h : Does x F O H) :
    Does (do requireObject v path; rejectUnknownFields v names path; x)
      (IsObjectOf names v ∧ F) (IsObjectOf names v ∧ O) H := by
  have hraises : Raises Exn.IsPermanent (rejectUnknownFields v names path) :=
    Raises.forM fun _ _ ↦ Raises.throwIf fun _ ↦ Exn.isPermanent_permanentError _ _
  refine (Does.check _ _ fun _ ↦ Does.guard rejectUnknownFields_eq_ok hraises fun _ ↦ h).congr
    ?_ ?_ fun _ _ ha ↦ ha
  · rw [IsObjectOf, Bool.not_eq_false, and_assoc]
  · rw [IsObjectOf, Bool.not_eq_false, and_assoc]

namespace MessageMembers

/-- Every member that is mentioned fits, at every depth. -/
def Fits : (S : MessageMembers) → S.Defaults → Value → S.Message → Prop
  | .nil, _, _, _ => True
  | .scalar m t rest, (_, ds), v, (field, fields) =>
    MemberFits t.packed.isSome t.fresh (fun w _ ↦ ∃ x, Stores m.stringUpperBound t w x)
      m.name v field ∧ rest.Fits ds v fields
  | .nested m s rest, (_, d, ds), v, (field, fields) =>
    MemberFits false (s.initial d) (fun w cell ↦ IsObjectOf s.names w ∧ s.Fits d w cell)
      m.name v field ∧ rest.Fits ds v fields
  | .untyped m _ rest, (_, ds), v, (field, fields) =>
    MemberFits false () (fun _ _ ↦ False) m.name v field ∧ rest.Fits ds v fields

/-- The first member that does not fit overflows, at some depth. -/
def Overflows : (S : MessageMembers) → S.Defaults → Value → S.Message → Prop
  | .nil, _, _, _ => False
  | .scalar m t rest, (_, ds), v, (field, fields) =>
    MemberOverflows t.packed.isSome t.fresh (fun w _ ↦ ∃ x, Stores m.stringUpperBound t w x)
        (fun w _ ↦ t.isSigned = true ∧ w.ExceedsInt64) m.name v field ∨
      MemberFits t.packed.isSome t.fresh (fun w _ ↦ ∃ x, Stores m.stringUpperBound t w x)
        m.name v field ∧ rest.Overflows ds v fields
  | .nested m s rest, (_, d, ds), v, (field, fields) =>
    MemberOverflows false (s.initial d) (fun w cell ↦ IsObjectOf s.names w ∧ s.Fits d w cell)
        (fun w cell ↦ IsObjectOf s.names w ∧ s.Overflows d w cell) m.name v field ∨
      MemberFits false (s.initial d) (fun w cell ↦ IsObjectOf s.names w ∧ s.Fits d w cell)
        m.name v field ∧ rest.Overflows ds v fields
  | .untyped m _ rest, (_, ds), v, (field, fields) =>
    MemberFits false () (fun _ _ ↦ False) m.name v field ∧ rest.Overflows ds v fields

/-- The message afterwards: every member that is mentioned overlaid, at every depth, and every other
member as it was. The relation is that of a leaf to the JSON value it was given. -/
def Overlaid (leaf : LeafRelation) :
    (S : MessageMembers) → S.Defaults → Value → (old new : S.Message) → Prop
  | .nil, _, _, _, _ => True
  | .scalar m t rest, (_, ds), v, (old, olds), (new, news) =>
    MemberOverlaid t.fresh (fun w _ x ↦ leaf m.stringUpperBound t w x) m.name v old new ∧
      rest.Overlaid leaf ds v olds news
  | .nested m s rest, (_, d, ds), v, (old, olds), (new, news) =>
    MemberOverlaid (s.initial d) (fun w cell x ↦ s.Overlaid leaf d w cell x) m.name v old new ∧
      rest.Overlaid leaf ds v olds news
  | .untyped m _ rest, (_, ds), v, (old, olds), (new, news) =>
    MemberOverlaid () (fun _ _ _ ↦ True) m.name v old new ∧ rest.Overlaid leaf ds v olds news

end MessageMembers

/-- **The walk over a message.** -/
theorem assignMembers_does (S : MessageMembers) (d : S.Defaults) (v : Value) (old : S.Message)
    (path : Str) :
    Does (assignMembers S d v old path) (S.Fits d v old) (S.Overflows d v old)
      (S.Overlaid Stores d v old) := by
  induction S generalizing v path with
  | nil => exact (Does.pure (H := fun _ ↦ True) trivial).congr Iff.rfl Iff.rfl fun _ _ h ↦ h
  | scalar m t rest ih =>
    obtain ⟨_, ds⟩ := d
    obtain ⟨field, fields⟩ := old
    have hfield := assignPresent_does t.packed t.fresh
      (fun w _ p ↦ assignScalar_does m.stringUpperBound t w p)
      (fun _ _ _ _ ↦ ⟨rfl, rfl, rfl⟩) v m.name path field
    refine (Does.pair Prod.mk hfield (ih ds v fields path)).congr Iff.rfl Iff.rfl ?_
    rintro _ - ⟨new, news, hnew, hnews, rfl⟩
    exact ⟨hnew, hnews⟩
  | nested m s rest ihs ih =>
    obtain ⟨_, d, ds⟩ := d
    obtain ⟨field, fields⟩ := old
    have hfield := assignPresent_does none (s.initial d)
      (fun w cell p ↦ object_does s.names w p (ihs d w cell p))
      (fun _ h ↦ nomatch h) v m.name path field
    refine (Does.pair Prod.mk hfield (ih ds v fields path)).congr Iff.rfl Iff.rfl ?_
    rintro _ - ⟨new, news, hnew, hnews, rfl⟩
    exact ⟨hnew, hnews⟩
  | untyped m why rest ih =>
    obtain ⟨_, ds⟩ := d
    obtain ⟨field, fields⟩ := old
    -- mentioning such a member always throws, so its `Fits` is that it is absent
    have hfield := assignPresent_does none ()
      (fun _ _ p ↦ assignUntyped_does (H := fun _ ↦ True) why p)
      (fun _ h ↦ nomatch h) v m.name path field
    refine (Does.pair Prod.mk hfield (ih ds v fields path)).congr Iff.rfl ?_ ?_
    · rw [or_iff_right (not_memberOverflows fun _ _ ↦ id)]
      exact Iff.rfl
    · rintro _ - ⟨new, news, hnew, hnews, rfl⟩
      exact ⟨hnew, hnews⟩

end Ros2ToolsAdapter
