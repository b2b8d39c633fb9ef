import Ros2ToolsAdapter.Adapter.Exclusion
import Ros2ToolsAdapter.Foundation.Serial

/-!
# Where an adapter stands

An adapter is idle, or it is under an instance spec, with each of its capabilities active or not.
There is nothing else for it to be, and every lifecycle call leads from one such standing to another
and reports something: `Standing.serve` says what, without flags and without threads.

The code keeps to it when the lifecycle calls take turns, whatever operations run meanwhile
(`lifecycle_refines`): the flags are those of the standing, and every call has reported what it
reports there. When they overlap the flags can come to be those of no standing (`lateStart`).
-/

namespace Ros2ToolsAdapter

open Interaction

/-! ## Standings -/

/-- A capability is active under an instance spec, or not at all. -/
inductive Standing
  | idle
  | configured (publish service : Bool)
  deriving DecidableEq

namespace Standing

/-- The flags of an adapter that stands there. -/
def flags : Standing → Flags
  | .idle, _ => false
  | .configured _ _, .instanceSpecApplied => true
  | .configured publish _, .publishEnabled => publish
  | .configured _ service, .serviceEnabled => service

/-- The standing under an instance spec; what is active stays so. -/
def apply : Standing → Standing
  | .idle => .configured false false
  | s => s

/-- The standing with a capability switched on or off, if there is an instance spec. -/
def switch (flag : Flag) (active : Bool) : Standing → Standing
  | .idle => .idle
  | .configured publish service =>
    match flag with
    | .instanceSpecApplied => .configured publish service
    | .publishEnabled => .configured active service
    | .serviceEnabled => .configured publish active

private theorem flags_apply (s : Standing) :
    s.apply.flags = Function.update s.flags .instanceSpecApplied true := by
  funext flag
  cases s <;> cases flag <;> rfl

private theorem flags_switch {flag : Flag} (hflag : flag ≠ .instanceSpecApplied) {active : Bool}
    {s : Standing} (hs : s ≠ .idle ∨ active = false) :
    (s.switch flag active).flags = Function.update s.flags flag active := by
  funext other
  cases s with
  | idle =>
    obtain rfl := hs.resolve_left fun hne ↦ hne rfl
    cases flag <;> cases other <;> rfl
  | configured publish service =>
    cases flag with
    | instanceSpecApplied => exact absurd rfl hflag
    | publishEnabled | serviceEnabled => cases other <;> rfl

private theorem applied_iff {s : Standing} : s.flags .instanceSpecApplied = true ↔ s ≠ .idle := by
  cases s <;> simp [flags]

/-! ## The calls -/

section Serve

variable (build : Build) (native : NativeContext)

/-- An instance spec is accepted when it is of the context the process runs in. -/
def serveApply (spec : AdapterInstanceSpec) (s : Standing) : Standing × Acceptance :=
  match NativeContext.fromInstanceSpec build spec with
  | .error e => (s, ⟨false, some e.what⟩)
  | .ok context =>
    if context = native then (s.apply, ⟨true, none⟩)
    else (s, ⟨false, some "a running ROS2 process cannot change native context"⟩)

/-- A capability is started under an instance spec, for the context of the process and for the
endpoint that was compiled, and only when it is not active. -/
def serveStart (endpoint : Endpoint) (flag : Flag) (active : Str) (spec : AdapterInstanceSpec)
    (grant : EnabledCapability) (s : Standing) : Standing × Acceptance :=
  if s = .idle then (s, ⟨false, none⟩)
  else match NativeContext.fromInstanceSpec build spec with
    | .error e => (s, ⟨false, some e.what⟩)
    | .ok context =>
      if context ≠ native then (s, ⟨false, none⟩)
      else if (validateCapabilityGrant grant endpoint).accepted = false then
        (s, validateCapabilityGrant grant endpoint)
      else if s.flags flag = true then (s, ⟨false, some active⟩)
      else (s.switch flag true, ⟨true, none⟩)

/-- Where a call leads, and what it reports. -/
def serve (s : Standing) : Invocation → Standing × Option Acceptance
  | .applyInstanceSpec spec => (serveApply build native spec s).map id some
  | .clearInstanceSpec => (.idle, none)
  | .startPublishCapability spec grant =>
    (serveStart build native build.contract.kPublish .publishEnabled
      "publish capability is already active" spec grant s).map id some
  | .stopPublishCapability => (s.switch .publishEnabled false, none)
  | .startServiceCapability spec grant =>
    (serveStart build native build.contract.kService .serviceEnabled
      "service capability is already active" spec grant s).map id some
  | .stopServiceCapability => (s.switch .serviceEnabled false, none)
  | .publish _ | .callService _ => (s, none)

/-- Where calls lead one after the other, and what each of them reports. -/
def serveAll : Standing → List Invocation → Standing × List (Option Acceptance)
  | s, [] => (s, [])
  | s, k :: ks =>
    ((serveAll (serve build native s k).1 ks).1,
      (serve build native s k).2 :: (serveAll (serve build native s k).1 ks).2)

end Serve

end Standing

/-! ## One call of the adapter -/

namespace Invocation

/-- The call is one of the lifecycle, and not an operation. -/
def isLifecycle : Invocation → Bool
  | .publish _ | .callService _ => false
  | _ => true

end Invocation

section Calls

variable {build : Build} {native : NativeContext}

theorem clearInstanceSpec_returns {run : Run} {r : Unit}
    (h : Prog.Returns clearInstanceSpec run r) :
    run = [⟨.store .publishEnabled false, ()⟩, ⟨.store .serviceEnabled false, ()⟩,
      ⟨.store .instanceSpecApplied false, ()⟩] := by
  refine Prog.wp_returns (I := fun _ _ ↦ True) (Q := fun run _ ↦ run = _) ?_ h
  rw [clearInstanceSpec, Prog.bind_def, Prog.wp_bind, stopPublishCapability, Prog.wp_perform]
  refine fun _ ↦ ⟨trivial, ?_⟩
  rw [Prog.bind_def, Prog.wp_bind, stopServiceCapability, Prog.wp_perform]
  refine fun _ ↦ ⟨trivial, ?_⟩
  rw [Prog.wp_perform]
  exact fun _ ↦ ⟨trivial, rfl⟩

theorem store_returns {flag : Flag} {value : Bool} {run : Run} {r : Unit}
    (h : Prog.Returns (Prog.perform (Call.store flag value)) run r) :
    run = [⟨.store flag value, ()⟩] := by
  refine Prog.wp_returns (I := fun _ _ ↦ True) (Q := fun run _ ↦ run = _) ?_ h
  rw [Prog.wp_perform]
  exact fun _ ↦ ⟨trivial, rfl⟩

theorem ApplyRun.serves {spec : AdapterInstanceSpec} {run : Run} {a : Acceptance}
    (h : ApplyRun build native spec run a) (s : Standing) :
    (toolsAdapter build native).after s.flags run =
        (Standing.serveApply build native spec s).1.flags ∧
      a = (Standing.serveApply build native spec s).2 := by
  rw [Standing.serveApply]
  cases h with
  | malformed he =>
    rw [he]
    exact ⟨rfl, rfl⟩
  | otherContext hcontext hne =>
    simp only [hcontext, if_neg hne]
    exact ⟨rfl, trivial⟩
  | applied hcontext =>
    simp only [hcontext, if_pos]
    exact ⟨s.flags_apply.symm, trivial⟩

/-- A start that is alone with the flags does what it would do with the standing. -/
theorem StartRun.serves {endpoint : Endpoint} {flag : Flag} {active : Str}
    {spec : AdapterInstanceSpec} {grant : EnabledCapability} {run : Run} {a : Acceptance}
    (h : StartRun build native spec endpoint flag active grant run a)
    (hflag : flag ≠ .instanceSpecApplied) {s : Standing}
    (hlegal : (toolsAdapter build native).LegalFrom s.flags run) :
    (toolsAdapter build native).after s.flags run =
        (Standing.serveStart build native endpoint flag active spec grant s).1.flags ∧
      a = (Standing.serveStart build native endpoint flag active spec grant s).2 := by
  have happlied {rest : Run} (hrest : (toolsAdapter build native).LegalFrom s.flags
      (⟨.load .instanceSpecApplied, true⟩ :: rest)) : s ≠ .idle :=
    Standing.applied_iff.mp hrest.1.symm
  rw [Standing.serveStart]
  cases h with
  | unapplied =>
    have hidle : s = .idle := by
      by_contra hne
      exact nomatch hlegal.1.trans (Standing.applied_iff.mpr hne)
    rw [if_pos hidle]
    exact ⟨rfl, rfl⟩
  | malformed he =>
    simp only [if_neg (happlied hlegal), he]
    exact ⟨rfl, trivial⟩
  | otherContext hcontext hne =>
    simp only [if_neg (happlied hlegal), hcontext, if_pos hne]
    exact ⟨rfl, trivial⟩
  | notGranted hcontext hrefused =>
    simp only [if_neg (happlied hlegal), hcontext, ne_eq, not_true, if_false, if_pos hrefused]
    exact ⟨rfl, trivial⟩
  | activeAlready hcontext hgranted =>
    have hactive : s.flags flag = true := by
      simpa [System.LegalFrom, Flags.legal, Flags.effect] using hlegal.2.1.symm
    simp only [if_neg (happlied hlegal), hcontext, ne_eq, not_true, if_false, hgranted,
      Bool.true_eq_false, if_pos hactive]
    exact ⟨rfl, trivial⟩
  | started hcontext hgranted =>
    have hinactive : s.flags flag = false := by
      simpa [System.LegalFrom, Flags.legal, Flags.effect] using hlegal.2.1.symm
    simp only [if_neg (happlied hlegal), hcontext, ne_eq, not_true, if_false, hgranted,
      Bool.true_eq_false, hinactive, Bool.false_eq_true]
    exact ⟨(Standing.flags_switch hflag (Or.inl (happlied hlegal))).symm, trivial⟩

/-- A lifecycle call that is alone with the flags does what it would do with the standing. -/
theorem serve_of_returns {k : Invocation} (hk : k.isLifecycle = true) {run : Run} {r : k.Result}
    (hrun : Prog.Returns (k.code build native) run r) {s : Standing}
    (hlegal : (toolsAdapter build native).LegalFrom s.flags run) :
    (toolsAdapter build native).after s.flags run = (s.serve build native k).1.flags ∧
      k.acceptance r = (s.serve build native k).2 := by
  cases k with
  | applyInstanceSpec spec =>
    obtain ⟨hflags, ha⟩ := (applyInstanceSpec_returns hrun).serves s
    exact ⟨hflags, congrArg some ha⟩
  | clearInstanceSpec =>
    rw [clearInstanceSpec_returns hrun]
    refine ⟨?_, rfl⟩
    funext flag
    cases flag <;> rfl
  | startPublishCapability spec grant =>
    obtain ⟨hflags, ha⟩ := (startCapability_returns hrun).serves (by decide) hlegal
    exact ⟨hflags, congrArg some ha⟩
  | startServiceCapability spec grant =>
    obtain ⟨hflags, ha⟩ := (startCapability_returns hrun).serves (by decide) hlegal
    exact ⟨hflags, congrArg some ha⟩
  | stopPublishCapability =>
    rw [store_returns hrun]
    exact ⟨(Standing.flags_switch (by decide) (Or.inr rfl)).symm, rfl⟩
  | stopServiceCapability =>
    rw [store_returns hrun]
    exact ⟨(Standing.flags_switch (by decide) (Or.inr rfl)).symm, rfl⟩
  | publish | callService => cases hk

/-- Only a store and an exchange touch a flag. -/
theorem preserves_of_call {e : CallEvent} (he : e.op.harmless = true ∨ e.op.dispatches = true) :
    Preserves e := by
  obtain ⟨call, answer⟩ := e
  cases call <;> first | exact fun _ ↦ rfl | exact nomatch he

variable (build native) in
/-- Operations leave the flags alone. -/
theorem operations_read :
    System.Reads (S := toolsAdapter build native) Invocation.isLifecycle := by
  intro k run rest hrun
  cases k with
  | publish request =>
    refine (publish_guarded build native request hrun).mono fun h e hguard ↦ Or.inr ?_
    refine preserves_of_call (hguard.imp_right ?_)
    rintro ⟨prepared, hop, -, -⟩
    rw [hop]
    rfl
  | callService request =>
    refine (callService_guarded build native request hrun).mono fun h e hguard ↦ Or.inr ?_
    refine preserves_of_call (hguard.imp_right ?_)
    rintro ⟨prepared, hop, -, -⟩
    rw [hop]
    rfl
  | _ => exact fun _ _ _ _ ↦ Or.inl rfl

end Calls

/-! ## All calls -/

section Refinement

variable {build : Build} {native : NativeContext}

/-- What the call of a thread reports, once it has returned. -/
def report (t : (toolsAdapter build native).Thread) : Option Acceptance :=
  t.rest.result?.bind t.invocation.acceptance

/-- Threads that have returned report what is in the list. -/
def ReportsAre (threads : List (toolsAdapter build native).Thread)
    (reports : List (Option Acceptance)) : Prop :=
  List.Forall₂ (fun t a ↦ t.Returned → report t = a) threads reports

private theorem report_of_operation {t : (toolsAdapter build native).Thread}
    (ht : t.invocation.isLifecycle = false) : report t = none := by
  obtain ⟨k, _, rest, _⟩ := t
  cases k with
  | publish | callService =>
    rw [report]
    cases Prog.result? rest <;> rfl
  | _ => cases ht

private theorem serve_operation {k : Invocation} (hk : k.isLifecycle = false) (s : Standing) :
    s.serve build native k = (s, none) := by
  cases k with
  | publish | callService => rfl
  | _ => cases hk

private theorem reportsAre_of_operations {threads : List (toolsAdapter build native).Thread}
    (h : ∀ t ∈ threads, t.invocation.isLifecycle = false) (s : Standing) :
    ReportsAre threads (s.serveAll build native (threads.map (·.invocation))).2 := by
  induction threads generalizing s with
  | nil => exact .nil
  | cons t threads ih =>
    have ht := h t List.mem_cons_self
    refine .cons (fun _ ↦ ?_) (ih (fun t' ht' ↦ h t' (List.mem_cons_of_mem _ ht')) _)
    rw [report_of_operation ht, serve_operation ht]

private theorem serves_of_serial {threads : List (toolsAdapter build native).Thread} {s : Standing}
    {flags : Flags} (h : System.Serial Invocation.isLifecycle s.flags threads flags) :
    ReportsAre threads (s.serveAll build native (threads.map (·.invocation))).2 ∧
      ((∀ t ∈ threads, t.invocation.isLifecycle = true → t.Returned) →
        flags = (s.serveAll build native (threads.map (·.invocation))).1.flags) := by
  induction threads generalizing s with
  | nil => exact ⟨.nil, fun _ ↦ (System.Serial.iff_of_readers (List.forall_mem_nil _)).mp h⟩
  | cons t threads ih =>
    rcases h.cons_cases with ⟨ht, h⟩ | ⟨ht, hlegal, hlast, h⟩
    · obtain ⟨hreports, hflags⟩ := ih h
      rw [List.map_cons, Standing.serveAll, serve_operation ht]
      refine ⟨.cons (fun _ ↦ report_of_operation ht) hreports, fun hquiet ↦ ?_⟩
      exact hflags fun t' ht' ↦ hquiet t' (List.mem_cons_of_mem _ ht')
    by_cases hreturned : t.Returned
    · obtain ⟨r, hr⟩ := Option.isSome_iff_exists.mp hreturned
      obtain ⟨hafter, ha⟩ := serve_of_returns ht (System.Thread.returns hr) hlegal
      rw [hafter] at h
      obtain ⟨hreports, hflags⟩ := ih h
      refine ⟨.cons (fun _ ↦ ?_) hreports, fun hquiet ↦ ?_⟩
      · rw [report, hr]
        exact ha
      · exact hflags fun t' ht' ↦ hquiet t' (List.mem_cons_of_mem _ ht')
    · -- it is at work, so what comes after it are operations
      refine ⟨.cons (fun h ↦ absurd h hreturned) (reportsAre_of_operations (hlast hreturned) _), ?_⟩
      exact fun hquiet ↦ absurd (hquiet t List.mem_cons_self ht) hreturned

/-- **The flags are a standing of the adapter**, as long as the lifecycle calls take turns. However
many operations run meanwhile, every lifecycle call that has returned reports what it does where
the calls before it have led, and when none is at work the flags are those of where they all have
led. -/
theorem lifecycle_refines {c : (toolsAdapter build native).Config}
    (hrun : System.Turns Invocation.isLifecycle (constructed build native) c) :
    ReportsAre c.threads
        (Standing.idle.serveAll build native (c.threads.map (·.invocation))).2 ∧
      ((∀ t ∈ c.threads, t.invocation.isLifecycle = true → t.Returned) →
        c.memory =
          (Standing.idle.serveAll build native (c.threads.map (·.invocation))).1.flags) :=
  serves_of_serial (System.serial_of_turns (operations_read build native) hrun)

end Refinement

/-! ### A schedule with an operation in progress -/

/-- Apply, start, a publish operation that is let in, and a clear that it goes on during. -/
def busyTurns : List (System.Choice fastAdapter) :=
  promptStart ++ [.invoke (.publish plainWork), .step 2, .invoke .clearInstanceSpec, .step 3,
    .step 3, .step 2, .step 3, .step 2]

theorem lifecycle_refines_busyTurns :
    ReportsAre (fastState busyTurns).threads [some ⟨true, none⟩, some ⟨true, none⟩, none, none] ∧
      (fastState busyTurns).memory = Standing.idle.flags := by
  have hschedule : System.Polite Invocation.isLifecycle (calmAnswers _ _) busyTurns
      (constructed sharedBuild NativeContext.fastContext) ∧
      (∀ t ∈ (fastState busyTurns).threads, t.invocation.isLifecycle = true → t.Returned) ∧
      Standing.idle.serveAll sharedBuild NativeContext.fastContext
          ((fastState busyTurns).threads.map (·.invocation)) =
        (.idle, [some ⟨true, none⟩, some ⟨true, none⟩, none, none]) := by
    decide +kernel
  obtain ⟨hpolite, hquiet, hserve⟩ := hschedule
  obtain ⟨hreports, hflags⟩ := lifecycle_refines (System.turns_exec _ _ _ hpolite)
  rw [← fastState, hserve] at hreports hflags
  exact ⟨hreports, hflags hquiet⟩

end Ros2ToolsAdapter
