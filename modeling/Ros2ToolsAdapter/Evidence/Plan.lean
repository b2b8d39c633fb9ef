import Ros2ToolsAdapter.Evidence.Written
import Ros2ToolsAdapter.Generator.Drift

/-!
# What the digest of a lock pins

The digest in a lock is that of the plan. Two locks have the same digest exactly when their plans
are the same up to the order of keys, or when the digests of two plans collide
(`digest_pins_plan`); neither the package nor its version nor the repository is in the plan.
-/

namespace Ros2ToolsAdapter.Evidence

open Interaction Python
open Artifact (Tools hexdigest)
open Except (bind_eq_ok)

variable {python : Interpreter} {tools : Tools}

/-! ## Digests -/

private theorem hexDigit_inj {m n : ℕ} (hm : m < 16) (hn : n < 16)
    (h : Json.hexDigit m = Json.hexDigit n) : m = n := by
  have hall : ∀ m < 16, ∀ n < 16, Json.hexDigit m = Json.hexDigit n → m = n := by decide
  exact hall m hm n hn h

theorem hexdigest_inj {d e : Vector UInt8 32} : hexdigest d = hexdigest e ↔ d = e := by
  refine ⟨fun h ↦ ?_, congrArg hexdigest⟩
  have hbytes (xs ys : List UInt8)
      (h : (xs.flatMap fun b ↦ [Json.hexDigit (b.toNat / 16), Json.hexDigit (b.toNat % 16)]) =
        ys.flatMap fun b ↦ [Json.hexDigit (b.toNat / 16), Json.hexDigit (b.toNat % 16)]) :
      xs = ys := by
    induction xs generalizing ys with
    | nil =>
      cases ys with
      | nil => rfl
      | cons y ys => simp at h
    | cons x xs ih =>
      cases ys with
      | nil => simp at h
      | cons y ys =>
        simp only [List.flatMap_cons, List.cons_append, List.nil_append, List.cons.injEq] at h
        obtain ⟨hhigh, hlow, hrest⟩ := h
        have hx := x.toNat_lt
        have hy := y.toNat_lt
        have hdiv := hexDigit_inj (by omega) (by omega) hhigh
        have hmod := hexDigit_inj (by omega) (by omega) hlow
        have hxy : x = y := UInt8.toNat_inj.mp (by omega)
        rw [hxy, ih ys hrest]
  exact Vector.toList_inj.mp (hbytes _ _ h)

theorem canonical_digest_eq_ok {v : Value} {digest : Text} :
    canonical_digest python tools v = .ok digest ↔
      ∃ bytes, Generator.normalize python v = .ok bytes ∧
        hexdigest (tools.sha256 bytes) = digest := by
  simp only [canonical_digest, Generator.normalize, bind_eq_ok]
  constructor
  · rintro ⟨t, ht, bytes, hbytes, h⟩
    exact ⟨bytes, ⟨t, ht, hbytes⟩, Except.ok.inj h⟩
  · rintro ⟨bytes, ⟨t, ht, hbytes⟩, rfl⟩
    exact ⟨t, ht, bytes, hbytes, rfl⟩

/-! ## Plans -/

private theorem within_planEntry {d : ℕ} {dependency : Dependency}
    (h : ∀ key (hkey : key ∈ DEPENDENCY_FIELDS), Json.Within d (dependency.get key hkey)) :
    Json.Within (d + 1) (planEntry dependency) := by
  have hnodup : (["id", "action", "source_sha", "version", "policy"] : List Text).Nodup := by
    decide
  refine Json.within_dict hnodup ?_
  simp only [List.forall_mem_cons]
  exact ⟨h _ _, h _ _, h _ _, h _ _, h _ _, List.forall_mem_nil _⟩

/-- The entries of the plan are about the dependencies, in some order. -/
theorem planIdentity_entries {dependencies : List Dependency} {plan : Value}
    (h : planIdentity python dependencies = .ok plan) :
    ∃ sorted : List Dependency, sorted.Perm dependencies ∧ plan = .list (sorted.map planEntry) := by
  obtain ⟨keyed, hkeyed, heq⟩ := bind_eq_ok.mp h
  obtain rfl := Except.ok.inj heq
  have hsecond : keyed.map Prod.snd = dependencies := by
    rw [← List.forall₂_eq_eq_eq, List.forall₂_map_left_iff]
    refine (mapM_eq_ok.mp hkeyed).flip.imp fun entry dependency hentry ↦ ?_
    obtain ⟨id, -, hid⟩ := bind_eq_ok.mp hentry
    obtain rfl := Except.ok.inj hid
    rfl
  refine ⟨(keyed.mergeSort fun a b ↦ a.1 ≤ b.1).map Prod.snd, ?_, ?_⟩
  · exact hsecond ▸ (List.mergeSort_perm _ _).map Prod.snd
  · rw [List.map_map]
    rfl

private theorem Loaded.within_plan {path : Option Node} {lock : Lock}
    (h : Loaded python tools path lock) {plan : Value}
    (hplan : planIdentity python lock.dependencies = .ok plan) :
    Json.Within python.recursionLimit plan := by
  obtain ⟨node, -, hread⟩ := h.content
  obtain ⟨t, -, hloads⟩ := bind_eq_ok.mp hread
  have hvalue := Json.within_loads hloads
  have hlist := hvalue.get (by decide : ("dependencies" : Text) ∈ LOCK_FIELDS)
  rw [h.dependencies] at hlist
  obtain ⟨sorted, hperm, rfl⟩ := planIdentity_entries hplan
  have hitem : ∀ v ∈ sorted.map planEntry,
      Json.Within (python.recursionLimit - 1 - 1 - 1 + 1) v := by
    rw [List.forall_mem_map]
    intro dependency hmem
    refine within_planEntry fun key hkey ↦ (hlist.item ?_).get hkey
    exact List.mem_map_of_mem (hperm.subset hmem)
  have hfour := python.four_le_recursionLimit
  have hwithin := Json.within_list hitem
  exact ⟨hwithin.1, hwithin.2.trans (by omega)⟩

/-- Two plans that differ, with one digest. -/
def Collide (python : Interpreter) (tools : Tools) (plan plan' : Value) : Prop :=
  ∃ a b, Generator.normalize python plan = .ok a ∧ Generator.normalize python plan' = .ok b ∧
    a ≠ b ∧ tools.sha256 a = tools.sha256 b

/-- **The digest of a lock pins its plan.** Two locks that were loaded have one digest exactly when
their plans are the same but for the order of keys, or when SHA-256 maps the two to one digest. -/
theorem digest_pins_plan {path path' : Option Node} {lock lock' : Lock} {plan plan' : Value}
    (h : load_lock python tools path = .ok lock) (h' : load_lock python tools path' = .ok lock')
    (hplan : planIdentity python lock.dependencies = .ok plan)
    (hplan' : planIdentity python lock'.dependencies = .ok plan')
    (hexact : Generator.Exact plan) (hexact' : Generator.Exact plan') :
    lock.value.get "planDependencySetDigest" = lock'.value.get "planDependencySetDigest" ↔
      plan.sorted = plan'.sorted ∨ Collide python tools plan plan' := by
  have hlock := load_lock_eq_ok.mp h
  have hlock' := load_lock_eq_ok.mp h'
  obtain ⟨found, digest, hfound, hdigest, hget⟩ := hlock.digest
  obtain ⟨found', digest', hfound', hdigest', hget'⟩ := hlock'.digest
  obtain rfl := Except.ok.inj (hplan.symm.trans hfound)
  obtain rfl := Except.ok.inj (hplan'.symm.trans hfound')
  obtain ⟨a, ha, rfl⟩ := canonical_digest_eq_ok.mp hdigest
  obtain ⟨b, hb, rfl⟩ := canonical_digest_eq_ok.mp hdigest'
  have hnormal := Generator.normalize_eq_iff (hlock.within_plan hplan) (hlock'.within_plan hplan')
    hexact hexact' ha hb
  rw [hget, hget', Value.str.injEq, hexdigest_inj, ← hnormal]
  exact Generator.digests_eq_iff tools.sha256 ha hb

private theorem exact_planEntry {id repository sourceSha version package packageVersion : Text} :
    (planEntry (lockedDependency id repository sourceSha version package packageVersion)).all
      (fun _ ↦ true) (fun _ ↦ true) = true := by
  simp [planEntry_locked, Value.all, Value.allEntries]

/-- Another version of a package is not another plan. -/
theorem digest_pins_plan_lockWith : ∃ content content' plan plan',
    load_lock Artifact.plainPython Generator.hashTools (some (.file content)) =
      .ok repositoryLock ∧
    load_lock Artifact.plainPython Generator.hashTools (some (.file content')) =
      .ok (lockWith "0.6.0-17~noble") ∧
    planIdentity Artifact.plainPython repositoryLock.dependencies = .ok plan ∧
    planIdentity Artifact.plainPython (lockWith "0.6.0-17~noble").dependencies = .ok plan' ∧
    (repositoryLock.value.get "planDependencySetDigest" =
        (lockWith "0.6.0-17~noble").value.get "planDependencySetDigest" ↔
      plan.sorted = plan'.sorted ∨
        Collide Artifact.plainPython Generator.hashTools plan plan') := by
  obtain ⟨content, hread⟩ := content_lockWith all_repositoryLock
  have hlater : (lockWith "0.6.0-17~noble").value.toValue.all Generator.ascii Generator.short =
      true := by
    decide +kernel
  obtain ⟨content', hread'⟩ := content_lockWith hlater
  have hload := load_lock_eq_ok.mpr (loaded_lockWith hread)
  have hload' := load_lock_eq_ok.mpr (loaded_lockWith hread')
  have hexact (packageVersion : Text) : Generator.Exact (lockedPlan packageVersion) := by
    simp only [lockedPlan, Generator.Exact, Value.all, Value.allItems, clientDependency,
      protobufDependency, exact_planEntry, Bool.and_self]
  exact ⟨content, content', _, _, hload, hload', planIdentity_lockWith _ _,
    planIdentity_lockWith _ _, digest_pins_plan hload hload' (planIdentity_lockWith _ _)
      (planIdentity_lockWith _ _) (hexact _) (hexact _)⟩

end Ros2ToolsAdapter.Evidence
