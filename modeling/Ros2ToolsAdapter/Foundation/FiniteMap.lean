import Mathlib.Data.Finmap

/-!
# Finite maps known by a few lookups

A program that wants to know whether a map is exactly such-and-such rarely compares maps: it looks a
few keys up and counts. That is enough when the keys found are as many as the entries there are, and
this is the one fact behind it: a map included in another of no greater size is that map.
-/

namespace Finmap

variable {α : Type*} {β : α → Type*} [DecidableEq α]

/-- A map whose every entry is an entry of a map no larger is that map. -/
theorem eq_of_lookup_of_card_le {s t : Finmap β}
    (hsub : ∀ a b, s.lookup a = some b → t.lookup a = some b) (hcard : t.keys.card ≤ s.keys.card) :
    s = t := by
  have hkeys : s.keys ⊆ t.keys := by
    intro a ha
    obtain ⟨b, hb⟩ := mem_iff.mp (mem_keys.mp ha)
    exact mem_keys.mpr (mem_iff.mpr ⟨b, hsub a b hb⟩)
  have heq : s.keys = t.keys := Finset.eq_of_subset_of_card_le hkeys hcard
  refine ext_lookup fun a ↦ ?_
  cases hs : s.lookup a with
  | some b => exact (hsub a b hs).symm
  | none =>
    have hnot : a ∉ t.keys := by
      rw [← heq, mem_keys]
      exact lookup_eq_none.mp hs
    exact (lookup_eq_none.mpr fun ha ↦ hnot (mem_keys.mpr ha)).symm

theorem card_keys_insert_of_notMem {a : α} (b : β a) {s : Finmap β} (ha : a ∉ s) :
    (s.insert a b).keys.card = s.keys.card + 1 := by
  have hkeys : (s.insert a b).keys = Insert.insert a s.keys := by
    ext c
    rw [mem_keys, mem_insert, Finset.mem_insert, mem_keys]
  rw [hkeys, Finset.card_insert_of_notMem (fun h ↦ ha (mem_keys.mp h))]

theorem lookup_singleton_of_ne {a a' : α} (b : β a) (h : a' ≠ a) :
    (singleton a b).lookup a' = none :=
  lookup_eq_none.mpr fun hmem ↦ h ((mem_singleton a' a b).mp hmem)

end Finmap
