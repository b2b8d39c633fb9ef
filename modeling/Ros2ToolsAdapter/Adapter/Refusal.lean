import Ros2ToolsAdapter.Adapter.Binding
import Ros2ToolsAdapter.Adapter.Exclusion

/-!
# What a refusal says

A lifecycle call that is refused has a place to say why, and so has the binding, whose text is all
that a failed startup leaves behind. Most of their refusals say something. Three do not: a start
before the instance spec is applied, a start with the spec of another context, and a second contract
of a capability that is bound already. Each is an operand of a disjunction whose last operand is the
one that writes.

Which texts can be empty is a question about every exception on the way, `fromInstanceSpec_speaks`.
-/

namespace Ros2ToolsAdapter

open Interaction Json

/-- The refusal has put a text into `error`. -/
def Acceptance.Explained (a : Acceptance) : Prop := ∃ text, a.error = some text ∧ text ≠ []

private theorem explained_some {accepted : Bool} {text : Str} :
    (Acceptance.mk accepted (some text)).Explained ↔ text ≠ [] := by
  constructor
  · rintro ⟨text', htext, hne⟩
    rwa [Option.some_injective _ htext]
  · exact fun hne ↦ ⟨text, rfl, hne⟩

private theorem not_explained_none {accepted : Bool} :
    ¬ (Acceptance.mk accepted none).Explained := by
  rintro ⟨text, htext, -⟩
  exact nomatch htext

theorem Acceptance.Explained.or {a : Acceptance} (h : a.Explained) (error : Option Str) :
    (Acceptance.mk false (a.error.or error)).Explained := by
  obtain ⟨text, htext, hne⟩ := h
  exact ⟨text, by rw [htext, Option.some_or], hne⟩

/-! ## Exceptions with a text -/

namespace Exn

/-- `what()` is not empty. -/
def Speaks (e : Exn) : Prop := e.what ≠ []

instance (e : Exn) : Decidable e.Speaks := inferInstanceAs (Decidable (_ ≠ _))

end Exn

private theorem cString_append_ne_nil {s t : Str} (h : Str.cString s ≠ []) :
    Str.cString (s ++ t) ≠ [] := by
  cases s with
  | nil => exact absurd rfl h
  | cons b s =>
    by_cases hb : b = 0
    · subst hb
      exact absurd rfl h
    · rw [List.cons_append, Str.cString, List.takeWhile_cons_of_pos (by simpa using hb)]
      exact List.cons_ne_nil _ _

/-- The text of an exception that JsonCpp throws is not empty. -/
abbrev Texts (what : Str) : Prop := Str.cString what ≠ []

private theorem asInt64_speaks (v : Value) : Raises Texts v.asInt64 := by
  unfold Value.asInt64
  repeat' split
  all_goals first
    | exact Raises.ok _
    | exact Raises.error.mpr (by decide)

private theorem asUInt64_speaks (v : Value) : Raises Texts v.asUInt64 := by
  unfold Value.asUInt64
  repeat' split
  all_goals first
    | exact Raises.ok _
    | exact Raises.error.mpr (by decide)

private theorem asUInt_speaks (v : Value) : Raises Texts v.asUInt := by
  unfold Value.asUInt
  repeat' split
  all_goals first
    | exact Raises.ok _
    | exact Raises.error.mpr (by decide)

private theorem ofStd_speaks {α : Type} {x : Except Str α} (h : Raises Texts x) :
    Raises Exn.Speaks (ofStd x) := by
  intro e he
  obtain ⟨what, hwhat, rfl⟩ := ofStd_eq_error.mp he
  exact h what hwhat

/-- Where the reader throws, it says why. -/
def ReaderSpeaks (build : Build) : Prop :=
  ∀ input what, build.parse Build.strictReader input = .throws what → Texts what

section Context

variable {build : Build}

private theorem parseStrictJson_speaks (hreader : ReaderSpeaks build) {input description : Str}
    (hdescription : Texts description) :
    Raises Exn.Speaks (build.parseStrictJson input description) := by
  rw [Build.parseStrictJson]
  cases hparse : build.parse Build.strictReader input with
  | value v => exact Raises.ok _
  | errors text =>
    refine Raises.error.mpr ?_
    exact cString_append_ne_nil (cString_append_ne_nil hdescription)
  | throws what => exact Raises.error.mpr (hreader input what hparse)

private theorem readDomainId_speaks (v : Value) :
    Raises Exn.Speaks (NativeContext.readDomainId v) := by
  have hrange : Exn.Speaks
      (permanentError "invalid_configuration" "domainId must be between 0 and 232") := by
    decide
  refine Raises.bind (Raises.throwIf fun _ ↦ hrange) fun _ _ ↦ ?_
  refine Raises.bind (ofStd_speaks (asInt64_speaks _)) fun _ _ ↦ ?_
  refine Raises.bind (Raises.throwIf fun _ ↦ hrange) fun _ _ ↦ ?_
  refine Raises.bind (ofStd_speaks (asUInt64_speaks _)) fun _ _ ↦ ?_
  refine Raises.bind (Raises.throwIf fun _ ↦ hrange) fun _ _ ↦ ?_
  exact ofStd_speaks (asUInt_speaks _)

/-- Whatever is wrong with a spec, there is a text that says so. -/
theorem fromInstanceSpec_speaks (hreader : ReaderSpeaks build) (spec : AdapterInstanceSpec) :
    Raises Exn.Speaks (NativeContext.fromInstanceSpec build spec) := by
  have hconfiguration : Raises Exn.Speaks (NativeContext.requireConfiguration build spec) := by
    rw [NativeContext.requireConfiguration]
    cases spec.configuration with
    | none => exact Raises.error.mpr (by decide)
    | some configuration =>
      dsimp only
      split
      · exact Raises.ok _
      · exact Raises.error.mpr (by decide)
  have hscope : Raises Exn.Speaks (NativeContext.requireScope spec) := by
    rw [NativeContext.requireScope]
    cases spec.scope with
    | none => exact Raises.error.mpr (by decide)
    | some scope =>
      dsimp only
      split
      · exact Raises.ok _
      · exact Raises.error.mpr (by decide)
  refine Raises.bind hconfiguration fun configuration _ ↦ ?_
  refine Raises.bind (Raises.throwIf fun _ ↦ by decide) fun _ _ ↦ ?_
  refine Raises.bind (parseStrictJson_speaks hreader (by decide)) fun value _ ↦ ?_
  refine Raises.bind (Raises.throwIf fun _ ↦ by decide) fun _ _ ↦ ?_
  refine Raises.bind (Raises.forM fun member _ ↦ Raises.throwIf fun _ ↦ ?_) fun _ _ ↦ ?_
  · -- the name of the field is the caller's; what stands before it is not
    refine cString_append_ne_nil (cString_append_ne_nil (cString_append_ne_nil ?_))
    decide
  refine Raises.bind (readDomainId_speaks value) fun domainId _ ↦ ?_
  refine Raises.bind (Raises.bind (Raises.throwIf fun _ ↦ by decide) fun _ _ ↦ Raises.ok _) ?_
  intro rmwImplementation _
  refine Raises.bind (Raises.throwIf fun _ ↦ by decide) fun _ _ ↦ ?_
  refine Raises.bind hscope fun scope _ ↦ ?_
  refine Raises.bind (Raises.throwIf fun _ ↦ by decide) fun _ _ ↦ ?_
  exact Raises.ok _

end Context

/-! ## The lifecycle -/

/-- The spec configures another context. -/
def OtherContext (build : Build) (native : NativeContext) (spec : AdapterInstanceSpec) : Prop :=
  ∃ context, NativeContext.fromInstanceSpec build spec = .ok context ∧ context ≠ native

section Lifecycle

variable {build : Build} {native : NativeContext}

private theorem validateCapabilityGrant_explained {grant : EnabledCapability} {expected : Endpoint}
    (hrefused : (validateCapabilityGrant grant expected).accepted = false) :
    (validateCapabilityGrant grant expected).Explained := by
  rw [validateCapabilityGrant] at hrefused ⊢
  split
  · exact explained_some.mpr (by decide)
  · rename_i hsame
    rw [if_neg hsame] at hrefused
    cases hrefused

private theorem otherContext_iff {spec : AdapterInstanceSpec} {context : NativeContext}
    (hcontext : NativeContext.fromInstanceSpec build spec = .ok context) :
    OtherContext build native spec ↔ context ≠ native := by
  constructor
  · rintro ⟨context', hok, hne⟩
    rw [hcontext] at hok
    rwa [Except.ok.inj hok]
  · exact fun hne ↦ ⟨context, hcontext, hne⟩

private theorem not_otherContext {spec : AdapterInstanceSpec} {e : Exn}
    (hcontext : NativeContext.fromInstanceSpec build spec = .error e) :
    ¬ OtherContext build native spec := by
  rintro ⟨context, hok, -⟩
  rw [hcontext] at hok
  cases hok

private theorem ApplyRun.explained (hreader : ReaderSpeaks build) {spec : AdapterInstanceSpec}
    {run : Run} {a : Acceptance} (h : ApplyRun build native spec run a)
    (hrefused : a.accepted = false) :
    a.Explained := by
  cases h with
  | malformed hcontext =>
    exact explained_some.mpr (fromInstanceSpec_speaks hreader spec _ hcontext)
  | otherContext => exact explained_some.mpr (by decide)
  | applied => cases hrefused

/-- A start is silent where it finds the instance spec not applied, or the spec is of another
context. -/
theorem StartRun.explained_iff (hreader : ReaderSpeaks build) {endpoint : Endpoint} {flag : Flag}
    {active : Str} (hactive : active ≠ []) {spec : AdapterInstanceSpec} {grant : EnabledCapability}
    {run : Run} {a : Acceptance} (h : StartRun build native spec endpoint flag active grant run a)
    (hrefused : a.accepted = false) :
    a.Explained ↔
      ¬ (⟨.load .instanceSpecApplied, false⟩ ∈ run ∨ OtherContext build native spec) := by
  cases h with
  | unapplied => exact iff_of_false not_explained_none fun h ↦ h (Or.inl (by simp))
  | malformed hcontext =>
    refine iff_of_true
      (explained_some.mpr (fromInstanceSpec_speaks hreader spec _ hcontext)) ?_
    simp [not_otherContext hcontext]
  | otherContext hcontext hne =>
    exact iff_of_false not_explained_none fun h ↦ h (Or.inr ((otherContext_iff hcontext).mpr hne))
  | notGranted hcontext =>
    refine iff_of_true (validateCapabilityGrant_explained hrefused) ?_
    simp [otherContext_iff hcontext]
  | activeAlready hcontext =>
    refine iff_of_true (explained_some.mpr hactive) ?_
    simp [otherContext_iff hcontext]
  | started => cases hrefused

/-- The call looked at the instance spec in a state in which it was not applied. -/
def FoundUnapplied (c : (toolsAdapter build native).Config) (i : ℕ) : Prop :=
  ∃ before after answer, c.history = before ++ (i, ⟨.load .instanceSpecApplied, answer⟩) :: after ∧
    (toolsAdapter build native).replay (constructed build native).memory before
      .instanceSpecApplied = false

/-- The call is a start that says nothing when it is refused. -/
def SilentStart (c : (toolsAdapter build native).Config) (i : ℕ) (k : Invocation) : Prop :=
  ∃ flag endpoint spec grant, k.Starts build flag endpoint spec grant ∧
    (FoundUnapplied c i ∨ OtherContext build native spec)

private theorem foundUnapplied_iff {c : (toolsAdapter build native).Config} {i : ℕ}
    {t : (toolsAdapter build native).Thread}
    (hc : System.Consistent (constructed build native).memory c) (hi : c.threads[i]? = some t) :
    FoundUnapplied c i ↔ ⟨.load .instanceSpecApplied, false⟩ ∈ t.trace := by
  rw [← hc.trace_eq hi, System.mem_share]
  constructor
  · rintro ⟨before, after, answer, hsplit, hunapplied⟩
    -- the answer of a load is the flag at the time
    have hanswer : answer = _ := hc.legal before i _ after hsplit
    rw [hunapplied] at hanswer
    rw [hsplit, hanswer]
    simp
  · intro hmem
    obtain ⟨before, after, hsplit⟩ := List.append_of_mem hmem
    have hanswer : false = _ := hc.legal before i _ after hsplit
    exact ⟨before, after, false, hsplit, hanswer.symm⟩

/-- What a complete run of a call explains when it is refused. -/
theorem explained_of_returns (hreader : ReaderSpeaks build) {k : Invocation} {run : Run}
    {r : k.Result} (hrun : Prog.Returns (k.code build native) run r) {a : Acceptance}
    (ha : k.acceptance r = some a) (hrefused : a.accepted = false) :
    a.Explained ↔ ¬ ∃ flag endpoint spec grant, k.Starts build flag endpoint spec grant ∧
      (⟨.load .instanceSpecApplied, false⟩ ∈ run ∨ OtherContext build native spec) := by
  have hsilent : ∀ {flag endpoint spec grant}, k.Starts build flag endpoint spec grant →
      ((⟨.load .instanceSpecApplied, false⟩ ∈ run ∨ OtherContext build native spec) ↔
        ∃ flag endpoint spec grant, k.Starts build flag endpoint spec grant ∧
          (⟨.load .instanceSpecApplied, false⟩ ∈ run ∨ OtherContext build native spec)) := by
    intro flag endpoint spec grant hstarts
    refine ⟨fun h ↦ ⟨flag, endpoint, spec, grant, hstarts, h⟩, ?_⟩
    rintro ⟨flag', endpoint', spec', grant', hstarts', h⟩
    obtain ⟨-, -, rfl, -⟩ := hstarts.unique hstarts'
    exact h
  cases k with
  | startPublishCapability spec grant =>
    obtain rfl := Option.some.inj ha
    rw [← hsilent (Or.inl ⟨rfl, rfl, rfl⟩)]
    exact (startCapability_returns hrun).explained_iff hreader (by decide) hrefused
  | startServiceCapability spec grant =>
    obtain rfl := Option.some.inj ha
    rw [← hsilent (Or.inr ⟨rfl, rfl, rfl⟩)]
    exact (startCapability_returns hrun).explained_iff hreader (by decide) hrefused
  | applyInstanceSpec spec =>
    obtain rfl := Option.some.inj ha
    refine iff_of_true ((applyInstanceSpec_returns hrun).explained hreader hrefused) ?_
    rintro ⟨flag, endpoint, spec', grant', ⟨-, -, hother⟩ | ⟨-, -, hother⟩, -⟩ <;> cases hother
  | _ => exact nomatch ha

/-- A call of the lifecycle that is refused explains itself, or is a silent start. -/
theorem Reports.explained_iff (hreader : ReaderSpeaks build)
    {c : (toolsAdapter build native).Config} {i : ℕ} {t : (toolsAdapter build native).Thread}
    {a : Acceptance} (hc : System.Consistent (constructed build native).memory c)
    (hi : c.threads[i]? = some t) (hreports : Reports t a) (hrefused : a.accepted = false) :
    a.Explained ↔ ¬ SilentStart c i t.invocation := by
  obtain ⟨r, hreturns, ha⟩ := hreports.returns
  rw [explained_of_returns hreader hreturns ha hrefused, SilentStart]
  simp only [foundUnapplied_iff hc hi]

end Lifecycle

/-! ## The binding -/

/-- The second contract is one more of the capability that the first one bound, and the runtime,
which took the first, wrote nothing. -/
def SilentDuplicate (contract : Contract) (config : Option ClientConfig) (adapter : Bool)
    (run : Trace BindCall BindCall.Answer) : Prop :=
  adapter = true ∧ ∃ first second capability, config = some ⟨[first, second]⟩ ∧
    identify contract first.contract = some capability ∧
    identify contract second.contract = some capability ∧
    first.contract.Equals (capability.expected contract) ∧
    ∀ e ∈ run, e.answer.accepted = true ∧ ¬ e.answer.Explained

section Binding

variable {contract : Contract}

private theorem silentDuplicate_iff {first second : CapabilityBinding} {capability : Capability}
    {run : Trace BindCall BindCall.Answer}
    (hfirst : identify contract first.contract = some capability)
    (hequals : first.contract.Equals (capability.expected contract)) :
    SilentDuplicate contract (some ⟨[first, second]⟩) true run ↔
      identify contract second.contract = some capability ∧
        ∀ e ∈ run, e.answer.accepted = true ∧ ¬ e.answer.Explained := by
  constructor
  · rintro ⟨-, first', second', capability', hconfig, hfirst', hsecond', -, hrun⟩
    cases hconfig
    obtain rfl := Option.some_injective _ (hfirst.symm.trans hfirst')
    exact ⟨hsecond', hrun⟩
  · rintro ⟨hsecond, hrun⟩
    exact ⟨rfl, first, second, capability, rfl, hfirst, hsecond, hequals, hrun⟩

/-- The second round: after one capability was bound with `answer`. -/
theorem bindEach_explains_second {first second : CapabilityBinding} {capability : Capability}
    {answer : Acceptance} (hfirst : identify contract first.contract = some capability)
    (hequals : first.contract.Equals (capability.expected contract))
    (haccepted : answer.accepted = true) :
    Prog.wp (fun _ _ ↦ True) (bindEach contract (Function.update (fun _ ↦ false) capability true)
      (answer.error.or none) [second])
      (fun run a ↦ (∀ e ∈ run, e.answer.accepted = false → e.answer.Explained) →
        a.accepted = false →
          (a.Explained ↔ ¬ SilentDuplicate contract (some ⟨[first, second]⟩) true run))
      [⟨bindOf first.contract capability, answer⟩] := by
  simp only [silentDuplicate_iff hfirst hequals]
  have hne {other : Capability}
      (hfree : Function.update (fun _ ↦ false) capability true other = false) :
      other ≠ capability := by
    rintro rfl
    rw [Function.update_self] at hfree
    exact Bool.false_ne_true hfree.symm
  refine bindEach_cons_wp ?_ ?_ ?_ ?_
  · intro hidentify _ _
    exact iff_of_true (explained_some.mpr (by decide)) (by simp [hidentify])
  · intro other hidentify hbound _ _
    have hsame : other = capability := by
      by_contra hne
      rw [Function.update_of_ne hne] at hbound
      exact Bool.false_ne_true hbound
    subst hsame
    rw [and_iff_right hidentify, List.forall_mem_singleton, and_iff_right haccepted, not_not,
      Option.or_none]
    exact Iff.rfl
  · intro other hidentify hfree _ text htext _ _
    have hother := hne hfree
    exact iff_of_true (explained_some.mpr htext) (by simp [hidentify, hother])
  · intro other hidentify hfree _ answer'
    have hother := hne hfree
    refine ⟨trivial, ?_, ?_⟩
    · intro hfailed hspeaks _
      have hexplained : answer'.Explained :=
        hspeaks ⟨bindOf second.contract other, answer'⟩ (by simp) hfailed
      exact iff_of_true (hexplained.or _) (by simp [hidentify, hother])
    · intro _ _ hrefused
      -- both capabilities are bound
      exfalso
      cases capability <;> cases other <;> simp [Function.update] at hother hrefused

/-- A binding that is refused explains itself, or is of a silent duplicate. -/
theorem bindCapabilities_explains (config : Option ClientConfig) (adapter : Bool) :
    Prog.wp (fun _ _ ↦ True) (bindCapabilities contract config adapter)
      (fun run a ↦ (∀ e ∈ run, e.answer.accepted = false → e.answer.Explained) →
        a.accepted = false → (a.Explained ↔ ¬ SilentDuplicate contract config adapter run)) [] := by
  cases config with
  | none =>
    refine fun _ _ ↦ iff_of_true (explained_some.mpr (by decide)) ?_
    rintro ⟨-, first, second, capability, hconfig, -⟩
    cases hconfig
  | some c =>
    rw [bindCapabilities]
    split
    · rename_i hready
      refine fun _ _ ↦ iff_of_true (explained_some.mpr (by decide)) ?_
      rintro ⟨hadapter, first, second, capability, hconfig, -⟩
      obtain rfl := Option.some_injective _ hconfig
      simp [hadapter] at hready
    · rename_i hready
      rw [not_or, Bool.not_eq_false, not_not] at hready
      obtain ⟨rfl, hlength⟩ := hready
      obtain ⟨capabilities⟩ := c
      obtain ⟨first, second, rfl⟩ := List.length_eq_two.mp hlength
      refine bindEach_cons_wp ?_ ?_ ?_ ?_
      · intro hidentify _ _
        refine iff_of_true (explained_some.mpr (by decide)) ?_
        rintro ⟨-, first', second', capability, hconfig, hfirst, -⟩
        cases hconfig
        rw [hidentify] at hfirst
        cases hfirst
      · intro _ _ hbound
        cases hbound
      · intro capability hidentify _ hdiffers text hne _ _
        refine iff_of_true (explained_some.mpr hne) ?_
        rintro ⟨-, first', second', capability', hconfig, hfirst, -, hequals, -⟩
        cases hconfig
        obtain rfl := Option.some_injective _ (hidentify.symm.trans hfirst)
        exact hdiffers hequals
      · intro capability hidentify _ hequals answer
        refine ⟨trivial, ?_, ?_⟩
        · intro hfailed hspeaks _
          have hexplained : answer.Explained :=
            hspeaks ⟨bindOf first.contract capability, answer⟩ (by simp) hfailed
          refine iff_of_true (hexplained.or _) ?_
          rw [silentDuplicate_iff hidentify hequals]
          simp [hfailed]
        · exact fun haccepted ↦ bindEach_explains_second hidentify hequals haccepted

end Binding

/-- **A refusal explains itself unless it is silent**: a lifecycle call that is refused, in any
state that is reached, leaves a text exactly when it is not a silent start, and a binding that is
refused leaves one exactly when the second contract is not a silent duplicate. -/
theorem refusals_explained_iff (build : Build) (native : NativeContext)
    (hreader : ReaderSpeaks build) :
    (∀ c : (toolsAdapter build native).Config, System.Reachable (constructed build native) c →
      ∀ i t a, c.threads[i]? = some t → Reports t a → a.accepted = false →
        (a.Explained ↔ ¬ SilentStart c i t.invocation)) ∧
    ∀ config adapter run a,
      Prog.Returns (bindCapabilities build.contract config adapter) run a →
        (∀ e ∈ run, e.answer.accepted = false → e.answer.Explained) → a.accepted = false →
          (a.Explained ↔ ¬ SilentDuplicate build.contract config adapter run) := by
  refine ⟨?_, ?_⟩
  · intro c hrun i t a hi hreports hrefused
    exact hreports.explained_iff hreader (System.consistent_of_reachable hrun) hi hrefused
  · intro config adapter run a hrun hspeaks hrefused
    exact Prog.wp_returns (bindCapabilities_explains config adapter) hrun hspeaks hrefused

/-! ### Three refusals -/

/-- What the call of the thread reports, if it has returned. -/
def report? (c : fastAdapter.Config) (i : ℕ) : Option Acceptance :=
  (c.threads[i]?).bind fun t ↦ t.rest.result?.bind t.invocation.acceptance

private theorem reports_of_report? {c : fastAdapter.Config} {i : ℕ} {a : Acceptance}
    (h : report? c i = some a) : ∃ t, c.threads[i]? = some t ∧ Reports t a := by
  obtain ⟨t, hi, hresult⟩ := Option.bind_eq_some_iff.mp h
  exact ⟨t, hi, reports_of_result? hresult⟩

/-- A start before anything is applied. -/
def earlyStart : List (System.Choice fastAdapter) :=
  [.invoke (.startPublishCapability NativeContext.fastSpec fastGrant), .step 0]

/-- Two contracts of the publish capability. -/
def doubledConfig (contract : Contract) : ClientConfig :=
  ⟨[⟨contract.kPublish.advertised⟩, ⟨contract.kPublish.advertised⟩]⟩

/-- The run in which the runtime takes the first. -/
def doubledRun : Trace BindCall BindCall.Answer :=
  (Prog.exec (fun _ _ ↦ ⟨true, none⟩) 2 (bindCapabilities sharedBuild.contract
    (some (doubledConfig sharedBuild.contract)) true) []).1

theorem earlyStart_silent :
    (∃ c : fastAdapter.Config, System.Reachable (constructed _ _) c ∧ ∃ t a,
      c.threads[0]? = some t ∧ Reports t a ∧ a.accepted = false ∧ ¬ a.Explained) ∧
    Prog.Returns (bindCapabilities sharedBuild.contract
      (some (doubledConfig sharedBuild.contract)) true) doubledRun ⟨false, none⟩ := by
  refine ⟨?_, Prog.returns_exec (by decide +kernel)⟩
  have hreport : report? (fastState earlyStart) 0 = some ⟨false, none⟩ := by decide +kernel
  obtain ⟨t, ht, hreports⟩ := reports_of_report? hreport
  exact ⟨_, reachable_fastState earlyStart, t, _, ht, hreports, rfl, not_explained_none⟩

/-- Apply, start, and start again. -/
def secondStart : List (System.Choice fastAdapter) :=
  promptStart ++ [.invoke (.startPublishCapability NativeContext.fastSpec fastGrant), .step 2,
    .step 2]

private theorem sharedBuild_speaks : ReaderSpeaks sharedBuild := by
  intro input what h
  simp only [sharedBuild, plainBuild, NativeContext.fastBuild, Request.referenceBuild] at h
  -- neither of the two readers throws
  split_ifs at h

theorem refusals_explained_iff_secondStart : ∃ t a,
    (fastState secondStart).threads[2]? = some t ∧ Reports t a ∧ a.accepted = false ∧
      (a.Explained ↔ ¬ SilentStart (fastState secondStart) 2 t.invocation) := by
  have hreport : report? (fastState secondStart) 2 =
      some ⟨false, some "publish capability is already active"⟩ := by
    decide +kernel
  obtain ⟨t, ht, hreports⟩ := reports_of_report? hreport
  exact ⟨t, _, ht, hreports, rfl, (refusals_explained_iff _ _ sharedBuild_speaks).1 _
    (reachable_fastState secondStart) 2 t _ ht hreports rfl⟩

end Ros2ToolsAdapter
