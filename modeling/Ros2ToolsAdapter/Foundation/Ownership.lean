import Mathlib.Logic.Function.Basic
import Mathlib.Logic.Relation

/-!
# Ownership

Resources that are acquired, passed from one owner to another, and given back. A resource that has
been given back may be acquired again, so what is done to one is a sequence of *lifetimes*, each
begun by a block of calls that acquires the resource and ended by a block that gives it back. Which
blocks these are is a `Protocol`.

A `Ledger` says who holds what, and which calls have been made on each resource. It changes in four
ways: a resource that nobody holds is acquired, or an attempt at it fails; one that is held is given
back, or passed on. Whatever the order of these, nothing ever has two owners, and the calls on a
resource are lifetimes of which the last is open exactly while the resource is held (`Accounted`).
-/

namespace Ownership

variable {Owner Resource Kind Call : Type}

/-- The calls with which a resource is acquired as something of a kind and given back, and those of
an attempt that comes to nothing. -/
structure Protocol (Resource Kind Call : Type) where
  acquires : Resource → Kind → List Call → Prop
  fails : Resource → Kind → List Call → Prop
  releases : Resource → Kind → List Call → Prop

/-- The calls on a resource are lifetimes, one after another, and the kind is that of the open one,
if there is one. -/
inductive Lifetimes (p : Protocol Resource Kind Call) (r : Resource) :
    List Call → Option Kind → Prop
  | nil : Lifetimes p r [] none
  | acquired {calls block : List Call} {kind : Kind} :
      Lifetimes p r calls none → p.acquires r kind block →
        Lifetimes p r (calls ++ block) (some kind)
  | failed {calls block : List Call} {kind : Kind} :
      Lifetimes p r calls none → p.fails r kind block → Lifetimes p r (calls ++ block) none
  | released {calls block : List Call} {kind : Kind} :
      Lifetimes p r calls (some kind) → p.releases r kind block →
        Lifetimes p r (calls ++ block) none

/-- Who holds what, and the calls on each resource so far. -/
@[ext] structure Ledger (Owner Resource Kind Call : Type) where
  held : Owner → Option (Resource × Kind)
  calls : Resource → List Call

namespace Ledger

/-- Nobody holds the resource. -/
def Free (l : Ledger Owner Resource Kind Call) (r : Resource) : Prop :=
  ∀ owner kind, l.held owner ≠ some (r, kind)

/-- Every resource has one owner at most, and its calls account for whether it has one. -/
structure Accounted (p : Protocol Resource Kind Call) (l : Ledger Owner Resource Kind Call) :
    Prop where
  exclusive : ∀ {owner owner' r kind kind'}, l.held owner = some (r, kind) →
    l.held owner' = some (r, kind') → owner = owner'
  owned : ∀ {owner r kind}, l.held owner = some (r, kind) →
    Lifetimes p r (l.calls r) (some kind)
  free : ∀ {r}, l.Free r → Lifetimes p r (l.calls r) none

theorem accounted_empty {p : Protocol Resource Kind Call} :
    Accounted p (⟨fun _ ↦ none, fun _ ↦ []⟩ : Ledger Owner Resource Kind Call) where
  exclusive h := nomatch h
  owned h := nomatch h
  free _ := Lifetimes.nil

/-- What an owner holds after one entry has been changed. -/
theorem update_eq_some [DecidableEq Owner] {held : Owner → Option (Resource × Kind)}
    {owner o : Owner} {x : Option (Resource × Kind)} {y : Resource × Kind} :
    Function.update held owner x o = some y ↔
      o = owner ∧ x = some y ∨ o ≠ owner ∧ held o = some y := by
  by_cases h : o = owner
  · subst h
    simp
  · simp [h]

variable [DecidableEq Owner] [DecidableEq Resource]

/-- How a ledger changes. -/
inductive Step (p : Protocol Resource Kind Call) (l : Ledger Owner Resource Kind Call) :
    Ledger Owner Resource Kind Call → Prop
  | acquire {owner : Owner} {r : Resource} {kind : Kind} {block : List Call} :
      l.Free r → l.held owner = none → p.acquires r kind block →
        Step p l ⟨Function.update l.held owner (some (r, kind)),
          Function.update l.calls r (l.calls r ++ block)⟩
  | fail {r : Resource} {kind : Kind} {block : List Call} :
      l.Free r → p.fails r kind block →
        Step p l ⟨l.held, Function.update l.calls r (l.calls r ++ block)⟩
  | release {owner : Owner} {r : Resource} {kind : Kind} {block : List Call} :
      l.held owner = some (r, kind) → p.releases r kind block →
        Step p l ⟨Function.update l.held owner none,
          Function.update l.calls r (l.calls r ++ block)⟩
  | transfer {target source : Owner} :
      target ≠ source → l.held target = none →
        Step p l ⟨Function.update (Function.update l.held target (l.held source)) source none,
          l.calls⟩

variable {p : Protocol Resource Kind Call} {l l' : Ledger Owner Resource Kind Call}

namespace Accounted

variable {owner : Owner} {r : Resource} {kind : Kind} {block : List Call}

theorem acquire (h : Accounted p l) (hfree : l.Free r) (hempty : l.held owner = none)
    (hblock : p.acquires r kind block) :
    Accounted p ⟨Function.update l.held owner (some (r, kind)),
      Function.update l.calls r (l.calls r ++ block)⟩ where
  exclusive := by
    intro o o' r' k k' ho ho'
    rcases update_eq_some.mp ho with ⟨rfl, heq⟩ | ⟨-, hheld⟩
    · rcases update_eq_some.mp ho' with ⟨rfl, -⟩ | ⟨-, hheld'⟩
      · rfl
      · cases heq
        exact absurd hheld' (hfree o' k')
    · rcases update_eq_some.mp ho' with ⟨rfl, heq'⟩ | ⟨-, hheld'⟩
      · cases heq'
        exact absurd hheld (hfree o k)
      · exact h.exclusive hheld hheld'
  owned := by
    intro o r' k ho
    rcases update_eq_some.mp ho with ⟨-, heq⟩ | ⟨-, hheld⟩
    · cases heq
      simp only [Function.update_self]
      exact (h.free hfree).acquired hblock
    · have hne : r' ≠ r := by
        rintro rfl
        exact hfree o k hheld
      simp only [Function.update_of_ne hne]
      exact h.owned hheld
  free := by
    intro r' hfree'
    have hne : r' ≠ r := by
      rintro rfl
      exact hfree' owner kind (Function.update_self ..)
    simp only [Function.update_of_ne hne]
    refine h.free fun o k ho ↦ hfree' o k (update_eq_some.mpr (Or.inr ⟨?_, ho⟩))
    rintro rfl
    rw [hempty] at ho
    cases ho

omit [DecidableEq Owner] in
theorem fail (h : Accounted p l) (hfree : l.Free r) (hblock : p.fails r kind block) :
    Accounted p ⟨l.held, Function.update l.calls r (l.calls r ++ block)⟩ where
  exclusive := h.exclusive
  owned := by
    intro o r' k ho
    have hne : r' ≠ r := by
      rintro rfl
      exact hfree o k ho
    simp only [Function.update_of_ne hne]
    exact h.owned ho
  free := by
    intro r' hfree'
    by_cases hr : r' = r
    · subst hr
      simp only [Function.update_self]
      exact (h.free hfree').failed hblock
    · simp only [Function.update_of_ne hr]
      exact h.free hfree'

theorem release (h : Accounted p l) (hheld : l.held owner = some (r, kind))
    (hblock : p.releases r kind block) :
    Accounted p ⟨Function.update l.held owner none,
      Function.update l.calls r (l.calls r ++ block)⟩ where
  exclusive := by
    intro o o' r' k k' ho ho'
    rcases update_eq_some.mp ho with ⟨-, heq⟩ | ⟨-, hother⟩
    · cases heq
    · rcases update_eq_some.mp ho' with ⟨-, heq⟩ | ⟨-, hother'⟩
      · cases heq
      · exact h.exclusive hother hother'
  owned := by
    intro o r' k ho
    rcases update_eq_some.mp ho with ⟨-, heq⟩ | ⟨howner, hother⟩
    · cases heq
    · have hne : r' ≠ r := by
        rintro rfl
        exact howner (h.exclusive hother hheld)
      simp only [Function.update_of_ne hne]
      exact h.owned hother
  free := by
    intro r' hfree
    by_cases hr : r' = r
    · subst hr
      simp only [Function.update_self]
      exact (h.owned hheld).released hblock
    · simp only [Function.update_of_ne hr]
      refine h.free fun o k ho ↦ hfree o k (update_eq_some.mpr (Or.inr ⟨?_, ho⟩))
      rintro rfl
      rw [hheld] at ho
      cases ho
      exact hr rfl

omit [DecidableEq Resource] in
theorem transfer (h : Accounted p l) {target source : Owner} (hne : target ≠ source)
    (hempty : l.held target = none) :
    Accounted p ⟨Function.update (Function.update l.held target (l.held source)) source none,
      l.calls⟩ := by
  -- whoever holds something now held it before, or is the target and has it from the source
  have hbefore {o : Owner} {x : Resource × Kind}
      (ho : Function.update (Function.update l.held target (l.held source)) source none o =
        some x) : o = target ∧ l.held source = some x ∨ o ≠ source ∧ l.held o = some x := by
    rcases update_eq_some.mp ho with ⟨-, heq⟩ | ⟨hsource, hinner⟩
    · cases heq
    · rcases update_eq_some.mp hinner with ⟨rfl, hheld⟩ | ⟨-, hheld⟩
      · exact Or.inl ⟨rfl, hheld⟩
      · exact Or.inr ⟨hsource, hheld⟩
  refine ⟨fun {o o' r' k k'} ho ho' ↦ ?_, fun {o r' k} ho ↦ ?_, fun {r'} hfree ↦ ?_⟩
  · rcases hbefore ho with ⟨rfl, hheld⟩ | ⟨hsource, hheld⟩
    · rcases hbefore ho' with ⟨rfl, -⟩ | ⟨hsource, hheld'⟩
      · rfl
      · exact absurd (h.exclusive hheld' hheld) hsource
    · rcases hbefore ho' with ⟨rfl, hheld'⟩ | ⟨-, hheld'⟩
      · exact absurd (h.exclusive hheld hheld') hsource
      · exact h.exclusive hheld hheld'
  · rcases hbefore ho with ⟨-, hheld⟩ | ⟨-, hheld⟩
    · exact h.owned hheld
    · exact h.owned hheld
  · refine h.free fun o k ho ↦ ?_
    by_cases hsource : o = source
    · subst hsource
      exact hfree target k
        (update_eq_some.mpr (Or.inr ⟨hne, update_eq_some.mpr (Or.inl ⟨rfl, ho⟩)⟩))
    · have htarget : o ≠ target := by
        rintro rfl
        rw [hempty] at ho
        cases ho
      exact hfree o k
        (update_eq_some.mpr (Or.inr ⟨hsource, update_eq_some.mpr (Or.inr ⟨htarget, ho⟩)⟩))

end Accounted

theorem Step.accounted (hstep : Step p l l') (h : Accounted p l) : Accounted p l' := by
  cases hstep with
  | acquire hfree hempty hblock => exact h.acquire hfree hempty hblock
  | fail hfree hblock => exact h.fail hfree hblock
  | release hheld hblock => exact h.release hheld hblock
  | transfer hne hempty => exact h.transfer hne hempty

/-- **The ledger balances**, after any steps in any order. -/
theorem accounted_of_steps (hsteps : Relation.ReflTransGen (Step p) l l') (h : Accounted p l) :
    Accounted p l' := by
  induction hsteps with
  | refl => exact h
  | tail _ hstep ih => exact hstep.accounted ih

end Ledger

end Ownership
