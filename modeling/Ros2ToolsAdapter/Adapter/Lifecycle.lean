import Ros2ToolsAdapter.Adapter.Dispatch
import Ros2ToolsAdapter.Foundation.Interleaving

/-!
# Lifecycle

The calls that switch the adapter's capabilities on and off, and what may happen when any number of
them and of the operations run at once. They meet in three atomic flags and nothing else.

Starting a capability looks at one flag and then sets another; clearing the instance spec resets the
three flags one by one. Between the two looks of a start, and between the stores of a clear,
anything may happen, and `lateStart` is the schedule in which it does: a capability that is active
with no instance spec. `Cautious` is what a scheduler would have to respect to rule that out.
-/

namespace Ros2ToolsAdapter

open Interaction

/-! ## The lifecycle calls -/

/-- What a lifecycle call reports: its result, and the text it put into `error`, if any. -/
structure Acceptance where
  accepted : Bool
  error : Option Str
  deriving DecidableEq

def validateCapabilityGrant (grant : EnabledCapability) (expected : Endpoint) : Acceptance :=
  if grant.capabilityId ≠ expected.capabilityId ∨
      grant.contractVersion ≠ expected.contractVersion ∨
      grant.contractDigest ≠ expected.contractDigest ∨ grant.enabledEndpointIds.length ≠ 1 ∨
      grant.enabledEndpointIds[0]? ≠ some expected.endpointId then
    ⟨false, some "enabled capability grant differs from compiled endpoint"⟩
  else ⟨true, none⟩

/-- `ToolsAdapter::ApplyInstanceSpec`. -/
def applyInstanceSpec (build : Build) (native : NativeContext) (spec : AdapterInstanceSpec) :
    Prog Call Call.Answer Acceptance :=
  Proc.catching (do
    let context ← liftM (NativeContext.fromInstanceSpec build spec)
    if context.equal native = false then
      pure ⟨false, some "a running ROS2 process cannot change native context"⟩
    else do
      let _ ← Proc.perform (Call.store .instanceSpecApplied true)
      pure ⟨true, none⟩ : Code Acceptance)
    fun e ↦ ⟨false, some e.what⟩

/-- `StartPublishCapability` and `StartServiceCapability`, for the flag and the endpoint of the
capability and the text for one that is active already. -/
def startCapability (build : Build) (native : NativeContext) (endpoint : Endpoint) (flag : Flag)
    (active : Str) (spec : AdapterInstanceSpec) (grant : EnabledCapability) :
    Prog Call Call.Answer Acceptance :=
  Proc.catching (do
    let applied ← Proc.perform (.load .instanceSpecApplied)
    -- this answer is acted on by the exchange below, and may be out of date by then
    if applied = false then pure ⟨false, none⟩
    else do
      let context ← liftM (NativeContext.fromInstanceSpec build spec)
      if context.equal native = false then pure ⟨false, none⟩
      else if (validateCapabilityGrant grant endpoint).accepted = false then
        pure (validateCapabilityGrant grant endpoint)
      else do
        let exchanged ← Proc.perform (.compareExchange flag false true)
        if exchanged = false then pure ⟨false, some active⟩ else pure ⟨true, none⟩
      : Code Acceptance)
    fun e ↦ ⟨false, some e.what⟩

/-- `ToolsAdapter::StartPublishCapability`. -/
def startPublishCapability (build : Build) (native : NativeContext) :
    AdapterInstanceSpec → EnabledCapability → Prog Call Call.Answer Acceptance :=
  startCapability build native build.contract.kPublish .publishEnabled
    "publish capability is already active"

/-- `ToolsAdapter::StartServiceCapability`. -/
def startServiceCapability (build : Build) (native : NativeContext) :
    AdapterInstanceSpec → EnabledCapability → Prog Call Call.Answer Acceptance :=
  startCapability build native build.contract.kService .serviceEnabled
    "service capability is already active"

/-- `ToolsAdapter::StopPublishCapability`. -/
def stopPublishCapability : Prog Call Call.Answer Unit :=
  Prog.perform (Call.store .publishEnabled false)

/-- `ToolsAdapter::StopServiceCapability`. -/
def stopServiceCapability : Prog Call Call.Answer Unit :=
  Prog.perform (Call.store .serviceEnabled false)

/-- `ToolsAdapter::ClearInstanceSpec`. -/
def clearInstanceSpec : Prog Call Call.Answer Unit := do
  stopPublishCapability
  stopServiceCapability
  Prog.perform (Call.store .instanceSpecApplied false)

/-! ## The adapter as a shared object -/

/-- A call of the adapter's interface. -/
inductive Invocation
  | applyInstanceSpec (spec : AdapterInstanceSpec)
  | clearInstanceSpec
  | startPublishCapability (spec : AdapterInstanceSpec) (grant : EnabledCapability)
  | stopPublishCapability
  | startServiceCapability (spec : AdapterInstanceSpec) (grant : EnabledCapability)
  | stopServiceCapability
  | publish (request : OperationRequest)
  | callService (request : OperationRequest)

namespace Invocation

@[reducible] def Result : Invocation → Type
  | .applyInstanceSpec _ | .startPublishCapability .. | .startServiceCapability .. => Acceptance
  | .clearInstanceSpec | .stopPublishCapability | .stopServiceCapability => Unit
  | .publish _ | .callService _ => OperationResult

def isClear : Invocation → Bool
  | .clearInstanceSpec => true
  | _ => false

def code (build : Build) (native : NativeContext) :
    (k : Invocation) → Prog Call Call.Answer k.Result
  | .applyInstanceSpec spec => Ros2ToolsAdapter.applyInstanceSpec build native spec
  | .clearInstanceSpec => Ros2ToolsAdapter.clearInstanceSpec
  | .startPublishCapability spec grant =>
    Ros2ToolsAdapter.startPublishCapability build native spec grant
  | .stopPublishCapability => Ros2ToolsAdapter.stopPublishCapability
  | .startServiceCapability spec grant =>
    Ros2ToolsAdapter.startServiceCapability build native spec grant
  | .stopServiceCapability => Ros2ToolsAdapter.stopServiceCapability
  | .publish request => Ros2ToolsAdapter.publish build native request
  | .callService request => Ros2ToolsAdapter.callService build native request

end Invocation

/-- The three flags. -/
abbrev Flags := Flag → Bool

namespace Flags

/-- A load returns the flag, and a compare-exchange succeeds when the flag is as expected. Nothing
is known about the other answers. -/
def legal (flags : Flags) : (call : Call) → call.Answer → Prop
  | .load flag, value => value = flags flag
  | .compareExchange flag expected _, exchanged => exchanged = (flags flag == expected)
  | _, _ => True

def effect (flags : Flags) : (call : Call) → call.Answer → Flags
  | .store flag value, _ => Function.update flags flag value
  | .compareExchange flag _ desired, exchanged =>
    if exchanged then Function.update flags flag desired else flags
  | _, _ => flags

end Flags

/-- One `ToolsAdapter`, shared by any number of concurrent calls. -/
@[reducible] def toolsAdapter (build : Build) (native : NativeContext) :
    System Call Call.Answer where
  Memory := Flags
  Invocation := Invocation
  Result := Invocation.Result
  code := Invocation.code build native
  legal := Flags.legal
  effect := Flags.effect

/-- A `ToolsAdapter` after its construction. -/
def constructed (build : Build) (native : NativeContext) : (toolsAdapter build native).Config :=
  System.initial fun _ ↦ false

/-- The capability under which a call hands something to ROS. -/
def Call.capability : Call → Option Flag
  | .publish _ => some .publishEnabled
  | .asyncSendRequest .. => some .serviceEnabled
  | _ => none

/-! ## The runs of the lifecycle calls -/

section Runs

variable (build : Build) (native : NativeContext) (spec : AdapterInstanceSpec)

/-- The complete runs of `ApplyInstanceSpec`, with what each of them reports. -/
inductive ApplyRun : Run → Acceptance → Prop
  | malformed {e : Exn} :
      NativeContext.fromInstanceSpec build spec = .error e → ApplyRun [] ⟨false, some e.what⟩
  | otherContext {context : NativeContext} :
      NativeContext.fromInstanceSpec build spec = .ok context → context ≠ native →
        ApplyRun [] ⟨false, some "a running ROS2 process cannot change native context"⟩
  | applied :
      NativeContext.fromInstanceSpec build spec = .ok native →
        ApplyRun [⟨.store .instanceSpecApplied true, ()⟩] ⟨true, none⟩

variable (endpoint : Endpoint) (flag : Flag) (active : Str) (grant : EnabledCapability)

/-- The complete runs of a start, with what each of them reports. -/
inductive StartRun : Run → Acceptance → Prop
  | unapplied : StartRun [⟨.load .instanceSpecApplied, false⟩] ⟨false, none⟩
  | malformed {e : Exn} :
      NativeContext.fromInstanceSpec build spec = .error e →
        StartRun [⟨.load .instanceSpecApplied, true⟩] ⟨false, some e.what⟩
  | otherContext {context : NativeContext} :
      NativeContext.fromInstanceSpec build spec = .ok context → context ≠ native →
        StartRun [⟨.load .instanceSpecApplied, true⟩] ⟨false, none⟩
  | notGranted :
      NativeContext.fromInstanceSpec build spec = .ok native →
        (validateCapabilityGrant grant endpoint).accepted = false →
          StartRun [⟨.load .instanceSpecApplied, true⟩] (validateCapabilityGrant grant endpoint)
  | activeAlready :
      NativeContext.fromInstanceSpec build spec = .ok native →
        (validateCapabilityGrant grant endpoint).accepted = true →
          StartRun [⟨.load .instanceSpecApplied, true⟩, ⟨.compareExchange flag false true, false⟩]
            ⟨false, some active⟩
  | started :
      NativeContext.fromInstanceSpec build spec = .ok native →
        (validateCapabilityGrant grant endpoint).accepted = true →
          StartRun [⟨.load .instanceSpecApplied, true⟩, ⟨.compareExchange flag false true, true⟩]
            ⟨true, none⟩

variable {build native spec endpoint flag active grant} {I : Run → CallEvent → Prop}

theorem applyInstanceSpec_wp (hstore : I [] ⟨.store .instanceSpecApplied true, ()⟩) :
    Prog.wp I (applyInstanceSpec build native spec) (ApplyRun build native spec) [] := by
  refine Proc.wp_catching ?_
  rw [Proc.wp_bind, Proc.wp_lift]
  cases hcontext : NativeContext.fromInstanceSpec build spec with
  | error e => exact ApplyRun.malformed hcontext
  | ok context =>
    refine (Proc.wp_ite _ _ _).mpr ⟨fun hdiffers ↦ ?_, fun hequal ↦ ?_⟩
    · exact ApplyRun.otherContext hcontext (NativeContext.equal_eq_false_iff.mp hdiffers)
    · rw [Bool.not_eq_false, NativeContext.equal_iff] at hequal
      subst hequal
      rw [Proc.wp_bind, Proc.wp_perform]
      exact fun _ ↦ ⟨hstore, ApplyRun.applied hcontext⟩

/-- A start makes its exchange only with its own context and a grant that has passed. -/
theorem startCapability_wp
    (hload : ∀ applied, I [] ⟨.load .instanceSpecApplied, applied⟩)
    (hexchange : NativeContext.fromInstanceSpec build spec = .ok native →
      (validateCapabilityGrant grant endpoint).accepted = true → ∀ exchanged,
        I [⟨.load .instanceSpecApplied, true⟩] ⟨.compareExchange flag false true, exchanged⟩) :
    Prog.wp I (startCapability build native endpoint flag active spec grant)
      (StartRun build native spec endpoint flag active grant) [] := by
  refine Proc.wp_catching ?_
  rw [Proc.wp_bind, Proc.wp_perform]
  intro applied
  refine ⟨hload applied, (Proc.wp_ite _ _ _).mpr ⟨?_, fun happlied ↦ ?_⟩⟩
  · rintro rfl
    exact StartRun.unapplied
  obtain rfl : applied = true := by simpa using happlied
  rw [Proc.wp_bind, Proc.wp_lift]
  cases hcontext : NativeContext.fromInstanceSpec build spec with
  | error e => exact StartRun.malformed hcontext
  | ok context =>
    refine (Proc.wp_ite _ _ _).mpr ⟨fun hdiffers ↦ ?_, fun hequal ↦ ?_⟩
    · exact StartRun.otherContext hcontext (NativeContext.equal_eq_false_iff.mp hdiffers)
    rw [Bool.not_eq_false, NativeContext.equal_iff] at hequal
    subst hequal
    refine (Proc.wp_ite _ _ _).mpr ⟨fun hrefused ↦ StartRun.notGranted hcontext hrefused, ?_⟩
    intro hgranted
    rw [Bool.not_eq_false] at hgranted
    rw [Proc.wp_bind, Proc.wp_perform]
    intro exchanged
    refine ⟨hexchange hcontext hgranted exchanged, (Proc.wp_ite _ _ _).mpr ⟨?_, ?_⟩⟩
    · rintro rfl
      exact StartRun.activeAlready hcontext hgranted
    · intro hexchanged
      obtain rfl : exchanged = true := by simpa using hexchanged
      exact StartRun.started hcontext hgranted

theorem applyInstanceSpec_returns {run : Run} {a : Acceptance}
    (h : Prog.Returns (applyInstanceSpec build native spec) run a) :
    ApplyRun build native spec run a :=
  Prog.wp_returns (applyInstanceSpec_wp (I := fun _ _ ↦ True) trivial) h

theorem startCapability_returns {run : Run} {a : Acceptance}
    (h : Prog.Returns (startCapability build native endpoint flag active spec grant) run a) :
    StartRun build native spec endpoint flag active grant run a :=
  Prog.wp_returns (startCapability_wp (I := fun _ _ ↦ True) (fun _ ↦ trivial)
    fun _ _ _ ↦ trivial) h

theorem clearInstanceSpec_wp (hpublish : I [] ⟨.store .publishEnabled false, ()⟩)
    (hservice : I [⟨.store .publishEnabled false, ()⟩] ⟨.store .serviceEnabled false, ()⟩)
    (hspec : I [⟨.store .publishEnabled false, ()⟩, ⟨.store .serviceEnabled false, ()⟩]
      ⟨.store .instanceSpecApplied false, ()⟩) :
    Prog.wp I clearInstanceSpec (fun _ _ ↦ True) [] := by
  rw [clearInstanceSpec, Prog.bind_def, Prog.wp_bind, stopPublishCapability, Prog.wp_perform]
  refine fun _ ↦ ⟨hpublish, ?_⟩
  rw [Prog.bind_def, Prog.wp_bind, stopServiceCapability, Prog.wp_perform]
  refine fun _ ↦ ⟨hservice, ?_⟩
  rw [Prog.wp_perform]
  exact fun _ ↦ ⟨hspec, trivial⟩

theorem stop_wp (hstore : I [] ⟨.store flag false, ()⟩) :
    Prog.wp I (Prog.perform (Call.store flag false)) (fun _ _ ↦ True) [] := by
  rw [Prog.wp_perform]
  exact fun _ ↦ ⟨hstore, trivial⟩

end Runs

/-! ## What the calls do to the flags -/

/-- The instance spec is withdrawn only by a clear that has reset the two capabilities before; the
capabilities are set by a compare-exchange and reset by a store; and what is handed to ROS comes
from an operation that has found its capability active first. -/
def FlagGuard (k : Invocation) (h : Run) (e : CallEvent) : Prop :=
  match e.op with
  | .store .instanceSpecApplied false =>
    k = .clearInstanceSpec ∧ ⟨.store .instanceSpecApplied false, ()⟩ ∉ h ∧
      ∀ flag, flag ≠ .instanceSpecApplied → ⟨.store flag false, ()⟩ ∈ h
  | .store .instanceSpecApplied true => True
  | .store _ value => value = false
  | .compareExchange flag expected desired =>
    flag ≠ .instanceSpecApplied ∧ expected = false ∧ desired = true
  | .publish _ => h.head? = some ⟨.load .publishEnabled, true⟩
  | .asyncSendRequest .. => h.head? = some ⟨.load .serviceEnabled, true⟩
  | _ => True

private theorem flagGuard_of_harmless {k : Invocation} {h : Run} {e : CallEvent}
    (he : e.op.harmless = true) : FlagGuard k h e := by
  obtain ⟨call, answer⟩ := e
  cases call <;> trivial

/-- Every call keeps to the guard, in every run of it. -/
theorem flags_guarded (build : Build) (native : NativeContext) :
    (toolsAdapter build native).Guards FlagGuard := by
  intro k run rest hrun
  cases k with
  | applyInstanceSpec spec => exact (Prog.wp_sound (applyInstanceSpec_wp trivial) hrun).1
  | clearInstanceSpec =>
    refine (Prog.wp_sound (clearInstanceSpec_wp rfl rfl ⟨rfl, by simp, ?_⟩) hrun).1
    intro flag hflag
    cases flag with
    | instanceSpecApplied => exact absurd rfl hflag
    | publishEnabled | serviceEnabled => simp
  | startPublishCapability spec grant | startServiceCapability spec grant =>
    refine (Prog.wp_sound (startCapability_wp (fun _ ↦ trivial) ?_) hrun).1
    exact fun _ _ _ ↦ ⟨by decide, rfl, rfl⟩
  | stopPublishCapability | stopServiceCapability => exact (Prog.wp_sound (stop_wp rfl) hrun).1
  | publish request =>
    refine (publish_guarded build native request hrun).mono fun h e hguard ↦ ?_
    rcases hguard with hharmless | ⟨prepared, hop, hready, -⟩
    · exact flagGuard_of_harmless hharmless
    · rw [FlagGuard, hop]
      exact hready.entry
  | callService request =>
    refine (callService_guarded build native request hrun).mono fun h e hguard ↦ ?_
    rcases hguard with hharmless | ⟨prepared, hop, hready, -⟩
    · exact flagGuard_of_harmless hharmless
    · rw [FlagGuard, hop]
      exact hready.entry

/-- What a call did when a capability is active after it: it activated the capability, or withdrew
the instance spec while the capability was active, or did neither and did not reset it. -/
theorem effect_cases {k : Invocation} {h : Run} {e : CallEvent} {flags : Flags} {flag : Flag}
    (hguard : FlagGuard k h e) (hflag : flag ≠ .instanceSpecApplied)
    (hactive : flags.effect e.op e.answer flag = true) :
    (e = ⟨.compareExchange flag false true, true⟩ ∧
      flags.effect e.op e.answer .instanceSpecApplied = flags .instanceSpecApplied) ∨
    (e = ⟨.store .instanceSpecApplied false, ()⟩ ∧ flags flag = true) ∨
    (e ≠ ⟨.store flag false, ()⟩ ∧ flags flag = true ∧
      (flags .instanceSpecApplied = true →
        flags.effect e.op e.answer .instanceSpecApplied = true)) := by
  obtain ⟨call, answer⟩ := e
  cases call with
  | store target value =>
    by_cases htarget : target = flag
    · -- a store to the capability resets it
      subst htarget
      rw [Flags.effect, Function.update_self] at hactive
      subst hactive
      cases target <;> first | exact absurd rfl hflag | exact nomatch hguard
    · rw [Flags.effect, Function.update_of_ne (Ne.symm htarget)] at hactive
      cases target with
      | instanceSpecApplied =>
        cases value with
        | false => exact Or.inr (Or.inl ⟨rfl, hactive⟩)
        | true =>
          refine Or.inr (Or.inr ⟨by simp, hactive, fun _ ↦ ?_⟩)
          rw [Flags.effect, Function.update_self]
      | publishEnabled | serviceEnabled =>
        refine Or.inr (Or.inr ⟨by simp [htarget], hactive, fun happlied ↦ ?_⟩)
        rwa [Flags.effect, Function.update_of_ne (by decide)]
  | compareExchange target expected desired =>
    obtain ⟨htarget, rfl, rfl⟩ := hguard
    -- a failed exchange changes nothing, and one that succeeds sets a capability, this or the other
    cases answer with
    | false => exact Or.inr (Or.inr ⟨by simp, hactive, id⟩)
    | true =>
      have happlied : Function.update flags target true .instanceSpecApplied =
          flags .instanceSpecApplied := Function.update_of_ne (Ne.symm htarget) _ _
      by_cases hsame : target = flag
      · subst hsame
        exact Or.inl ⟨rfl, happlied⟩
      · refine Or.inr (Or.inr ⟨by simp, ?_, fun h ↦ happlied.trans h⟩)
        have hother : Function.update flags target true flag = flags flag :=
          Function.update_of_ne (Ne.symm hsame) _ _
        exact hother.symm.trans hactive
  | _ => exact Or.inr (Or.inr ⟨by simp, hactive, id⟩)

/-! ## Active capabilities have an instance spec -/

section Lifecycle

variable {build : Build} {native : NativeContext}

/-- A clear that has reset the capability and not yet withdrawn the instance spec. -/
def ClearWindow (flag : Flag) (t : (toolsAdapter build native).Thread) : Prop :=
  t.invocation = Invocation.clearInstanceSpec ∧ ⟨.store flag false, ()⟩ ∈ t.trace ∧
    ⟨.store .instanceSpecApplied false, ()⟩ ∉ t.trace

/-- A capability is activated only while the instance spec is applied and no clear is between
resetting that capability and withdrawing the spec. -/
def Cautious (c : (toolsAdapter build native).Config) (l : Option (ℕ × CallEvent)) : Prop :=
  ∀ i flag, l = some (i, ⟨.compareExchange flag false true, true⟩) →
    c.memory .instanceSpecApplied = true ∧ ∀ t ∈ c.threads, ¬ ClearWindow flag t

/-- The invariant: an active capability has an instance spec, and no clear is about to withdraw it
without resetting the capability. -/
def Covered (c : (toolsAdapter build native).Config) : Prop :=
  ∀ flag, flag ≠ .instanceSpecApplied → c.memory flag = true →
    c.memory .instanceSpecApplied = true ∧ ∀ t ∈ c.threads, ¬ ClearWindow flag t

private theorem ClearWindow.of_advance {flag : Flag} {t : (toolsAdapter build native).Thread}
    {l : Option CallEvent} {q : Prog Call Call.Answer (Invocation.Result t.invocation)}
    (h : Prog.Step t.rest l q) (hwindow : ClearWindow flag (t.advance h))
    (hl : ∀ e ∈ l, e ≠ ⟨.store flag false, ()⟩) : ClearWindow flag t := by
  obtain ⟨hclear, hreset, hwithdrawn⟩ := hwindow
  refine ⟨hclear, ?_, fun hmem ↦ hwithdrawn (List.mem_append_left _ hmem)⟩
  rcases List.mem_append.mp hreset with hmem | hmem
  · exact hmem
  · exact absurd rfl (hl _ (Option.mem_toList.mp hmem))

/-- One step of a cautious scheduler keeps the invariant. -/
theorem Covered.step {c c' : (toolsAdapter build native).Config} {l : Option (ℕ × CallEvent)}
    (hc : Covered c) (hcautious : Cautious c l) (hstep : System.Step c l c') : Covered c' := by
  intro flag hflag hactive
  cases hstep with
  | invoke k =>
    obtain ⟨happlied, hwindows⟩ := hc flag hflag hactive
    refine ⟨happlied, ?_⟩
    intro t ht hwindow
    rcases List.mem_append.mp ht with ht | ht
    · exact hwindows t ht hwindow
    · rw [List.mem_singleton.mp ht] at hwindow
      exact nomatch hwindow.2.1
  | silent i t q hi h =>
    obtain ⟨happlied, hwindows⟩ := hc flag hflag hactive
    refine ⟨happlied, ?_⟩
    intro t' ht' hwindow
    rcases List.mem_or_eq_of_mem_set ht' with ht' | rfl
    · exact hwindows t' ht' hwindow
    · exact hwindows t (List.mem_of_getElem? hi) (hwindow.of_advance h (by simp))
  | call i t q e hi h hlegal =>
    have hguard : FlagGuard t.invocation t.trace e :=
      (flags_guarded build native).of_step h
    have ht : t ∈ c.threads := List.mem_of_getElem? hi
    -- a thread that was not in its window before is not in it now, unless it has just reset `flag`
    have hset : e ≠ ⟨.store flag false, ()⟩ → (∀ t ∈ c.threads, ¬ ClearWindow flag t) →
        ∀ t' ∈ c.threads.set i (t.advance h), ¬ ClearWindow flag t' := by
      intro hne hwindows t' ht' hwindow
      rcases List.mem_or_eq_of_mem_set ht' with ht' | rfl
      · exact hwindows t' ht' hwindow
      · refine hwindows t ht (hwindow.of_advance h fun e' he' ↦ ?_)
        rwa [← Option.some.inj he']
    rcases effect_cases hguard hflag hactive with ⟨rfl, happlied⟩ | ⟨rfl, hbefore⟩ |
      ⟨hne, hbefore, happlied⟩
    · obtain ⟨hspec, hwindows⟩ := hcautious i flag rfl
      exact ⟨happlied.trans hspec, hset (by simp) hwindows⟩
    · -- the spec is withdrawn by a clear, which is then in its window
      obtain ⟨hclear, hfirst, hreset⟩ := hguard
      exact absurd ⟨hclear, hreset flag hflag, hfirst⟩ ((hc flag hflag hbefore).2 t ht)
    · obtain ⟨hspec, hwindows⟩ := hc flag hflag hbefore
      exact ⟨happlied hspec, hset hne hwindows⟩

/-- **An active capability has an instance spec**, in every state that a cautious scheduler reaches,
whether or not calls are in progress. -/
theorem active_has_instanceSpec {c : (toolsAdapter build native).Config}
    (hrun : System.Runs Cautious (constructed build native) c)
    (hactive : c.memory .publishEnabled = true ∨ c.memory .serviceEnabled = true) :
    c.memory .instanceSpecApplied = true := by
  have hcovered : Covered c := hrun.induct (fun flag _ h ↦ nomatch h)
    fun _ _ _ ha hcautious hstep ↦ ha.step hcautious hstep
  rcases hactive with hactive | hactive
  · exact (hcovered .publishEnabled (by decide) hactive).1
  · exact (hcovered .serviceEnabled (by decide) hactive).1

/-! ## Dispatches come from operations that were let in -/

/-- Only a store resets a capability. -/
theorem store_of_reset {k : Invocation} {h : Run} {e : CallEvent} {flags : Flags} {flag : Flag}
    (hguard : FlagGuard k h e) (hactive : flags flag = true)
    (hreset : flags.effect e.op e.answer flag = false) : e = ⟨.store flag false, ()⟩ := by
  obtain ⟨call, answer⟩ := e
  cases call with
  | store target value =>
    by_cases htarget : target = flag
    · subst htarget
      rw [Flags.effect, Function.update_self] at hreset
      rw [hreset]
    · rw [Flags.effect, Function.update_of_ne (Ne.symm htarget), hactive] at hreset
      exact nomatch hreset
  | compareExchange target expected desired =>
    obtain ⟨-, -, rfl⟩ := hguard
    cases answer with
    | false => exact nomatch hactive.symm.trans hreset
    | true =>
      have hkept : Function.update flags target true flag = true := by
        by_cases htarget : flag = target
        · rw [htarget, Function.update_self]
        · rwa [Function.update_of_ne htarget]
      exact nomatch hkept.symm.trans hreset
  | _ => exact nomatch hactive.symm.trans hreset

/-- A capability that was active and is not any more was reset in between. -/
theorem exists_store_of_reset {flags : Flags} {flag : Flag}
    (history : System.History Call Call.Answer)
    (hguards : ∀ ie ∈ history, ∃ k h, FlagGuard k h ie.2) (hactive : flags flag = true)
    (hreset : (toolsAdapter build native).replay flags history flag = false) :
    ∃ j, (j, ⟨.store flag false, ()⟩) ∈ history := by
  induction history using List.reverseRecOn with
  | nil => exact nomatch hactive.symm.trans hreset
  | append_singleton history ie ih =>
    rw [System.replay_concat] at hreset
    -- reset before the last call, or by it
    cases hbefore : (toolsAdapter build native).replay flags history flag with
    | false =>
      obtain ⟨j, hj⟩ := ih (fun ie hie ↦ hguards ie (List.mem_append_left _ hie)) hbefore
      exact ⟨j, List.mem_append_left _ hj⟩
    | true =>
      obtain ⟨k, h, hguard⟩ := hguards ie (by simp)
      refine ⟨ie.1, List.mem_append_right _ ?_⟩
      rw [← store_of_reset hguard hbefore hreset]
      exact List.mem_singleton_self _

/-- **A dispatch comes from an operation that was let in**: it loaded the flag of its capability and
found it true when it was, and if the flag is false by now it was reset since. -/
theorem dispatch_admitted {c c' : (toolsAdapter build native).Config} {i : ℕ} {e : CallEvent}
    {flag : Flag} (hrun : System.Reachable (constructed build native) c)
    (hstep : System.Step c (some (i, e)) c') (hdispatch : e.op.capability = some flag) :
    ∃ before after, c.history = before ++ (i, ⟨.load flag, true⟩) :: after ∧
      (toolsAdapter build native).replay (constructed build native).memory before flag = true ∧
        (c.memory flag = false → ∃ j, (j, ⟨.store flag false, ()⟩) ∈ after) := by
  have hc := System.consistent_of_reachable hrun
  cases hstep with
  | call _ t q _ hi h hlegal =>
    -- the first call of the operation is the load of its flag
    have hguard : FlagGuard t.invocation t.trace e := (flags_guarded build native).of_step h
    have hentry : t.trace.head? = some ⟨.load flag, true⟩ := by
      obtain ⟨call, answer⟩ := e
      cases call with
      | publish serialized =>
        obtain rfl := Option.some.inj hdispatch
        exact hguard
      | asyncSendRequest members request =>
        obtain rfl := Option.some.inj hdispatch
        exact hguard
      | _ => exact absurd hdispatch (by simp [Call.capability])
    have hmem : (i, ⟨.load flag, true⟩) ∈ c.history := by
      rw [← System.mem_share, hc.trace_eq hi]
      exact List.mem_of_mem_head? hentry
    obtain ⟨before, after, hsplit⟩ := List.append_of_mem hmem
    have hloaded := hc.legal before i _ after hsplit
    refine ⟨before, after, hsplit, hloaded.symm, ?_⟩
    intro hreset
    rw [hc.memory, hsplit, System.replay_append] at hreset
    have hguards : ∀ ie ∈ (i, ⟨.load flag, true⟩) :: after, ∃ k h, FlagGuard k h ie.2 :=
      fun ie hie ↦ hc.guard (flags_guarded build native)
        (by rw [hsplit]; exact List.mem_append_right before hie)
    obtain ⟨j, hj⟩ := exists_store_of_reset _ hguards hloaded.symm hreset
    -- the store is not the load itself, so it came after it
    exact ⟨j, (List.mem_cons.mp hj).resolve_left (by simp)⟩

end Lifecycle

/-! ### Schedules -/

/-- The answers of the flags, and calm ones from everything else. -/
def calmAnswers (build : Build) (native : NativeContext) :
    (toolsAdapter build native).Environment :=
  fun flags call ↦ ⟨match call with
    | .load flag => flags flag
    | .compareExchange flag expected _ => flags flag == expected
    | call => calmEnvironment [] call, by cases call <;> trivial⟩

/-- The grant of the publish capability. -/
def fastGrant : EnabledCapability := ⟨"publish", 1, "sha256:0", ["call"]⟩

/-- A build whose reader knows the fast configuration and the plain request. -/
def sharedBuild : Build :=
  Request.referenceBuild (fun reader text ↦ if text = plainRequestText then
    plainBuild.parse reader text else NativeContext.fastBuild.parse reader text) fun _ _ ↦ []

/-- The adapter of the fast context. -/
abbrev fastAdapter : System Call Call.Answer := toolsAdapter sharedBuild NativeContext.fastContext

/-- The state after a schedule of the fast adapter. -/
def fastState (choices : List (System.Choice fastAdapter)) : fastAdapter.Config :=
  System.exec (calmAnswers _ _) choices (constructed _ _)

theorem reachable_fastState (choices : List (System.Choice fastAdapter)) :
    System.Reachable (constructed _ _) (fastState choices) :=
  System.reachable_exec _ _ _

/-- Apply, then start. -/
def promptStart : List (System.Choice fastAdapter) :=
  [.invoke (.applyInstanceSpec NativeContext.fastSpec), .step 0,
    .invoke (.startPublishCapability NativeContext.fastSpec fastGrant), .step 1, .step 1]

/-- Apply and start, clear, and apply and start once more. -/
def clearAndRestart : List (System.Choice fastAdapter) :=
  promptStart ++ [.invoke .clearInstanceSpec, .step 2, .step 2, .step 2,
    .invoke (.applyInstanceSpec NativeContext.fastSpec), .step 3,
    .invoke (.startPublishCapability NativeContext.fastSpec fastGrant), .step 4, .step 4]

/-- The call has withdrawn the instance spec. -/
def withdraws : CallEvent → Bool
  | ⟨.store .instanceSpecApplied false, ()⟩ => true
  | _ => false

/-- A check that is enough for a step to be cautious: it activates nothing, or the instance spec is
applied and every clear there was has withdrawn it before. -/
def activatesSafely (c : fastAdapter.Config) : Option (ℕ × CallEvent) → Bool
  | some (_, ⟨.compareExchange .., true⟩) =>
    c.memory .instanceSpecApplied &&
      c.threads.all fun t ↦ !t.invocation.isClear || t.trace.any withdraws
  | _ => true

private theorem eq_of_withdraws {e : CallEvent} (h : withdraws e = true) :
    e = ⟨.store .instanceSpecApplied false, ()⟩ := by
  unfold withdraws at h
  split at h
  · rfl
  · cases h

private theorem cautious_of_activatesSafely {c : fastAdapter.Config} {l : Option (ℕ × CallEvent)}
    (h : activatesSafely c l = true) : Cautious c l := by
  rintro i flag rfl
  rw [activatesSafely, Bool.and_eq_true, List.all_eq_true] at h
  refine ⟨h.1, ?_⟩
  rintro t ht ⟨hclear, -, hwithdrawn⟩
  have hsafe := h.2 t ht
  rw [hclear] at hsafe
  obtain ⟨e, hmem, he⟩ := List.any_eq_true.mp (show t.trace.any withdraws = true from hsafe)
  rw [eq_of_withdraws he] at hmem
  exact hwithdrawn hmem

theorem active_has_instanceSpec_clearAndRestart :
    (fastState clearAndRestart).memory .instanceSpecApplied = true := by
  have hrun : System.Allowed (fun c l ↦ activatesSafely c l = true) (calmAnswers _ _)
      clearAndRestart (constructed _ _) ∧
        (fastState clearAndRestart).memory .publishEnabled = true := by
    decide +kernel
  exact active_has_instanceSpec
    ((System.runs_exec _ _ _ hrun.1).mono fun _ _ ↦ cautious_of_activatesSafely) (Or.inl hrun.2)

/-- Apply; start, up to its look at the spec; clear; and the rest of the start. -/
def lateStart : List (System.Choice fastAdapter) :=
  [.invoke (.applyInstanceSpec NativeContext.fastSpec), .step 0,
    .invoke (.startPublishCapability NativeContext.fastSpec fastGrant), .step 1,
    .invoke .clearInstanceSpec, .step 2, .step 2, .step 2, .step 1]

theorem lateStart_uncovered : ∃ c : fastAdapter.Config,
    System.Reachable (constructed _ _) c ∧ c.Quiescent ∧ c.memory .publishEnabled = true ∧
      c.memory .instanceSpecApplied = false := by
  have hstate : ((fastState lateStart).threads.all (fun t ↦ t.rest.result?.isSome) &&
      ((fastState lateStart).memory .publishEnabled &&
        !(fastState lateStart).memory .instanceSpecApplied)) = true := by
    decide +kernel
  rw [Bool.and_eq_true, Bool.and_eq_true, Bool.not_eq_true'] at hstate
  exact ⟨fastState lateStart, reachable_fastState _, List.all_eq_true.mp hstate.1, hstate.2⟩

/-- Apply, start, a publish operation that is let in, a stop, and the operation up to the
dispatch. -/
def staleDispatch : List (System.Choice fastAdapter) :=
  promptStart ++ [.invoke (.publish plainWork), .step 2, .invoke .stopPublishCapability, .step 3] ++
    List.replicate 14 (.step 2)

/-- The next step of the operation is a dispatch. -/
theorem staleDispatch_dispatches :
    ∃ ie : ℕ × CallEvent, System.tickLabel (calmAnswers _ _) (fastState staleDispatch) (.step 2) =
      some ie ∧ ie.2.op.capability = some .publishEnabled ∧
        (fastState staleDispatch).memory .publishEnabled = false := by
  have hstate : ((System.tickLabel (calmAnswers _ _) (fastState staleDispatch) (.step 2)).any
      (fun ie ↦ ie.2.op.capability == some .publishEnabled) &&
        !(fastState staleDispatch).memory .publishEnabled) = true := by
    decide +kernel
  rw [Bool.and_eq_true, Option.any_eq_true, Bool.not_eq_true'] at hstate
  obtain ⟨⟨ie, hlabel, hcapability⟩, hstopped⟩ := hstate
  exact ⟨ie, hlabel, beq_iff_eq.mp hcapability, hstopped⟩

theorem staleDispatch_stopped : ∃ (c c' : fastAdapter.Config) (ie : ℕ × CallEvent),
    System.Reachable (constructed _ _) c ∧ System.Step c (some ie) c' ∧
      ie.2.op.capability = some .publishEnabled ∧ c.memory .publishEnabled = false := by
  obtain ⟨ie, hlabel, hcapability, hstopped⟩ := staleDispatch_dispatches
  exact ⟨_, _, ie, reachable_fastState staleDispatch, System.step_of_tickLabel hlabel, hcapability,
    hstopped⟩

theorem dispatch_admitted_staleDispatch :
    ∃ (i : ℕ) (before after : System.History Call Call.Answer),
    (fastState staleDispatch).history = before ++ (i, ⟨.load .publishEnabled, true⟩) :: after ∧
      ∃ j, (j, ⟨.store .publishEnabled false, ()⟩) ∈ after := by
  obtain ⟨⟨i, e⟩, hlabel, hcapability, hstopped⟩ := staleDispatch_dispatches
  obtain ⟨before, after, hsplit, -, hreset⟩ := dispatch_admitted
    (reachable_fastState staleDispatch) (System.step_of_tickLabel hlabel) hcapability
  exact ⟨i, before, after, hsplit, hreset hstopped⟩

end Ros2ToolsAdapter
