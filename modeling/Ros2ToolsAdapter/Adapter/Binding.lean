import Ros2ToolsAdapter.Adapter.Lifecycle

/-!
# Binding the capabilities

At startup the process is told by its bootstrap file which capabilities it has, compares each with
the contract it was compiled with, and gives the runtime the three callbacks of each. There are two
capabilities and the loop over the contracts may meet them in either order, so it keeps, for each
capability, whether it was met before; that the list has two elements is what makes the two marks at
the end a consequence.

A bootstrap contract equals the compiled one when `CapabilityContract.Equals`; the loop lemma
`bindEach_wp` says what a run over the remaining contracts comes to, whatever the runtime answers.
-/

namespace Ros2ToolsAdapter

open Interaction

/-! ## Bootstrap contracts -/

/-- `xgc.adapter.v1.InteractionMode`, of which one value matters. -/
inductive InteractionMode
  | operation
  | other (value : ℤ)
  deriving DecidableEq

/-- `xgc.adapter.v1.SideEffectClass`, of which one value matters. -/
inductive SideEffectClass
  | nonIdempotent
  | other (value : ℤ)
  deriving DecidableEq

/-- `xgc.adapter.v1.IdempotencyMode`, of which one value matters. -/
inductive IdempotencyMode
  | required
  | other (value : ℤ)
  deriving DecidableEq

/-- The limits of an endpoint, all zero where the message has none. -/
@[ext] structure EndpointLimits where
  maximumRequestBytes : ℕ
  maximumResponseBytes : ℕ
  maximumConcurrency : ℕ
  maximumStreams : ℕ
  maximumStreamChunkBytes : ℕ
  maximumStreamChunkMessages : ℕ

/-- `xgc.adapter.v1.CapabilityEndpointContract`. -/
structure CapabilityEndpointContract where
  endpointId : Str
  inputSchema : Option SchemaReference
  outputSchema : Option SchemaReference
  interactionMode : InteractionMode
  sideEffectClass : SideEffectClass
  idempotencyMode : IdempotencyMode
  cancellationSupported : Bool
  deadlineRequired : Bool
  defaultTimeoutMs : ℕ
  maximumTimeoutMs : ℕ
  limits : EndpointLimits

/-- `xgc.adapter.v1.CapabilityContract`. -/
structure CapabilityContract where
  capabilityId : Str
  contractVersion : ℕ
  contractDigest : Str
  endpoints : List CapabilityEndpointContract

def findEndpoint (value : CapabilityContract) (endpointId : Str) :
    Option CapabilityEndpointContract :=
  value.endpoints.find? fun endpoint ↦ endpoint.endpointId = endpointId

def validateExpectedContract (actual : CapabilityContract) (expected : Endpoint) : Acceptance :=
  if actual.capabilityId ≠ expected.capabilityId ∨
      actual.contractVersion ≠ expected.contractVersion ∨
      actual.contractDigest ≠ expected.contractDigest ∨ actual.endpoints.length ≠ 1 then
    ⟨false, some "capability identity or digest differs from compiled contract"⟩
  else match findEndpoint actual expected.endpointId with
    | none => ⟨false, some "capability endpoint differs from compiled contract"⟩
    | some endpoint =>
      if (endpoint.inputSchema.any fun s ↦ schemaMatches s expected.inputSchema) = false ∨
          (endpoint.outputSchema.any fun s ↦ schemaMatches s expected.outputSchema) = false ∨
          endpoint.interactionMode ≠ .operation ∨ endpoint.sideEffectClass ≠ .nonIdempotent ∨
          endpoint.idempotencyMode ≠ .required ∨ endpoint.cancellationSupported = false ∨
          endpoint.deadlineRequired = false then
        ⟨false, some "capability endpoint differs from compiled contract"⟩
      else if endpoint.defaultTimeoutMs ≠ expected.defaultTimeoutMs ∨
          endpoint.maximumTimeoutMs ≠ expected.maximumTimeoutMs ∨
          endpoint.limits.maximumRequestBytes ≠ expected.limits.maximumRequestBytes ∨
          endpoint.limits.maximumResponseBytes ≠ expected.limits.maximumResponseBytes ∨
          endpoint.limits.maximumConcurrency ≠ expected.limits.maximumConcurrency ∨
          endpoint.limits.maximumStreams ≠ 0 ∨ endpoint.limits.maximumStreamChunkBytes ≠ 0 ∨
          endpoint.limits.maximumStreamChunkMessages ≠ 0 then
        ⟨false, some "capability endpoint limits differ from compiled contract"⟩
      else ⟨true, none⟩

/-! ## The loop -/

/-- The two compiled capabilities. -/
inductive Capability
  | publish
  | service
  deriving DecidableEq

/-- `xgc2::adapter_runtime::CapabilityCallbacks`: the calls of the adapter that each makes. -/
structure CapabilityCallbacks where
  start : AdapterInstanceSpec → EnabledCapability → Invocation
  stop : Invocation
  operation : OperationRequest → Invocation

namespace Capability

/-- The endpoint a capability was compiled with. -/
def expected (contract : Contract) : Capability → Endpoint
  | .publish => contract.kPublish
  | .service => contract.kService

def callbacks : Capability → CapabilityCallbacks
  | .publish => ⟨.startPublishCapability, .stopPublishCapability, .publish⟩
  | .service => ⟨.startServiceCapability, .stopServiceCapability, .callService⟩

end Capability

/-- One of the capabilities of a `ClientConfig`. -/
structure CapabilityBinding where
  contract : CapabilityContract

/-- `xgc2::adapter_runtime::ClientConfig`. -/
structure ClientConfig where
  capabilities : List CapabilityBinding

/-- The one call that is made of the runtime: `ClientConfig::BindCapability`. -/
inductive BindCall
  | bindCapability (capabilityId : Str) (contractVersion : ℕ) (contractDigest : Str)
      (callbacks : CapabilityCallbacks)

/-- It reports like the calls of the lifecycle. -/
@[reducible] def BindCall.Answer (_ : BindCall) : Type := Acceptance

abbrev BindEvent := Event BindCall BindCall.Answer

/-- The capability with the identifier of the contract. -/
def identify (contract : Contract) (actual : CapabilityContract) : Option Capability :=
  if actual.capabilityId = contract.kPublish.capabilityId then some .publish
  else if actual.capabilityId = contract.kService.capabilityId then some .service
  else none

/-- The call that binds a capability for a contract. -/
def bindOf (actual : CapabilityContract) (capability : Capability) : BindCall :=
  .bindCapability actual.capabilityId actual.contractVersion actual.contractDigest
    capability.callbacks

/-- The rest of the loop, with the capabilities bound so far and the text in `error`. -/
def bindEach (contract : Contract) :
    (Capability → Bool) → Option Str → List CapabilityBinding →
      Prog BindCall BindCall.Answer Acceptance
  | bound, error, [] => pure ⟨bound .publish && bound .service, error⟩
  | bound, error, binding :: bindings =>
    match identify contract binding.contract with
    | none => pure ⟨false, some "trusted bootstrap advertises an unknown capability"⟩
    | some capability =>
      let validation := validateExpectedContract binding.contract (capability.expected contract)
      -- a capability that is bound already is refused without a word
      if bound capability = true then pure ⟨false, error⟩
      else if validation.accepted = false then pure ⟨false, validation.error.or error⟩
      else do
        let answer ← Prog.perform (bindOf binding.contract capability)
        if answer.accepted = false then pure ⟨false, answer.error.or error⟩
        else
          bindEach contract (Function.update bound capability true) (answer.error.or error) bindings

/-- `BindCapabilities`, of a configuration and an adapter that may be null. -/
def bindCapabilities (contract : Contract) (config : Option ClientConfig) (adapter : Bool) :
    Prog BindCall BindCall.Answer Acceptance :=
  match config with
  | none => pure ⟨false,
      some "ROS2 Tools Adapter requires config, application, and two contracts"⟩
  | some config =>
    if adapter = false ∨ config.capabilities.length ≠ 2 then
      pure ⟨false, some "ROS2 Tools Adapter requires config, application, and two contracts"⟩
    else bindEach contract (fun _ ↦ false) none config.capabilities

/-! ## Contracts that are equal -/

/-- Every compared field of the endpoint is as compiled. -/
structure CapabilityEndpointContract.Equals (actual : CapabilityEndpointContract)
    (expected : Endpoint) : Prop where
  endpointId : actual.endpointId = expected.endpointId
  inputSchema : ∃ s, actual.inputSchema = some s ∧
    { s with unknownFields := [] } = schemaReference expected.inputSchema
  outputSchema : ∃ s, actual.outputSchema = some s ∧
    { s with unknownFields := [] } = schemaReference expected.outputSchema
  interactionMode : actual.interactionMode = .operation
  sideEffectClass : actual.sideEffectClass = .nonIdempotent
  idempotencyMode : actual.idempotencyMode = .required
  cancellationSupported : actual.cancellationSupported = true
  deadlineRequired : actual.deadlineRequired = true
  defaultTimeoutMs : actual.defaultTimeoutMs = expected.defaultTimeoutMs
  maximumTimeoutMs : actual.maximumTimeoutMs = expected.maximumTimeoutMs
  limits : actual.limits = ⟨expected.limits.maximumRequestBytes,
    expected.limits.maximumResponseBytes, expected.limits.maximumConcurrency, 0, 0, 0⟩

/-- The contract is the compiled one, with its one endpoint. -/
structure CapabilityContract.Equals (actual : CapabilityContract) (expected : Endpoint) :
    Prop where
  capabilityId : actual.capabilityId = expected.capabilityId
  contractVersion : actual.contractVersion = expected.contractVersion
  contractDigest : actual.contractDigest = expected.contractDigest
  endpoints : ∃ endpoint, actual.endpoints = [endpoint] ∧ endpoint.Equals expected

private theorem schemaMatches_iff {actual : SchemaReference} {expected : Schema} :
    schemaMatches actual expected = true ↔
      { actual with unknownFields := [] } = schemaReference expected := by
  rw [schemaMatches, schemaReference, SchemaReference.mk.injEq]
  simp [and_assoc]

private theorem any_schemaMatches_iff {actual : Option SchemaReference} {expected : Schema} :
    (actual.any fun s ↦ schemaMatches s expected) = true ↔ ∃ s, actual = some s ∧
      { s with unknownFields := [] } = schemaReference expected := by
  rw [Option.any_eq_true]
  exact exists_congr fun s ↦ and_congr_right fun _ ↦ schemaMatches_iff

theorem findEndpoint_eq_some {actual : CapabilityContract} {endpointId : Str}
    {endpoint : CapabilityEndpointContract} (hsingle : actual.endpoints = [endpoint]) :
    findEndpoint actual endpointId =
      if endpoint.endpointId = endpointId then some endpoint else none := by
  rw [findEndpoint, hsingle, List.find?_singleton]
  simp

/-- The comparison accepts exactly the compiled contract. -/
theorem validateExpectedContract_accepted {actual : CapabilityContract} {expected : Endpoint} :
    (validateExpectedContract actual expected).accepted = true ↔ actual.Equals expected := by
  rw [validateExpectedContract]
  split
  · rename_i hdiffers
    refine iff_of_false Bool.false_ne_true ?_
    rintro ⟨hid, hversion, hdigest, endpoint, hendpoints, -⟩
    simp [hid, hversion, hdigest, hendpoints] at hdiffers
  · rename_i hsame
    simp only [not_or, not_not] at hsame
    obtain ⟨hid, hversion, hdigest, hlength⟩ := hsame
    obtain ⟨endpoint, hendpoint⟩ := List.length_eq_one_iff.mp hlength
    have hequals : actual.Equals expected ↔ endpoint.Equals expected := by
      constructor
      · rintro ⟨-, -, -, endpoint', hendpoint', hequals⟩
        rw [hendpoint] at hendpoint'
        rwa [(List.singleton_inj.mp hendpoint')]
      · exact fun h ↦ ⟨hid, hversion, hdigest, endpoint, hendpoint, h⟩
    rw [hequals, findEndpoint_eq_some hendpoint]
    by_cases hendpointId : endpoint.endpointId = expected.endpointId
    · rw [if_pos hendpointId]
      dsimp only
      split
      · rename_i hdiffers
        refine iff_of_false Bool.false_ne_true ?_
        intro h
        simp [any_schemaMatches_iff.mpr h.inputSchema, any_schemaMatches_iff.mpr h.outputSchema,
          h.interactionMode, h.sideEffectClass, h.idempotencyMode, h.cancellationSupported,
          h.deadlineRequired] at hdiffers
      · rename_i hfields
        simp only [not_or, not_not, Bool.not_eq_false, any_schemaMatches_iff] at hfields
        obtain ⟨hinput, houtput, hmode, heffect, hidempotency, hcancel, hdeadline⟩ := hfields
        split
        · rename_i hdiffers
          refine iff_of_false Bool.false_ne_true ?_
          intro h
          simp [h.defaultTimeoutMs, h.maximumTimeoutMs, h.limits] at hdiffers
        · rename_i hlimits
          simp only [not_or, not_not] at hlimits
          obtain ⟨hdefault, hmaximum, hrequest, hresponse, hconcurrency, hstreams, hchunk,
            hmessages⟩ := hlimits
          exact iff_of_true rfl ⟨hendpointId, hinput, houtput, hmode, heffect, hidempotency,
            hcancel, hdeadline, hdefault, hmaximum,
            EndpointLimits.ext hrequest hresponse hconcurrency hstreams hchunk hmessages⟩
    · rw [if_neg hendpointId]
      exact iff_of_false Bool.false_ne_true fun h ↦ hendpointId h.endpointId

/-- A contract that is refused is refused with a text. -/
theorem validateExpectedContract_error {actual : CapabilityContract} {expected : Endpoint}
    (hdiffers : ¬ actual.Equals expected) :
    ∃ text, (validateExpectedContract actual expected).error = some text ∧ text ≠ [] := by
  rw [← validateExpectedContract_accepted, validateExpectedContract] at hdiffers
  rw [validateExpectedContract]
  split
  · exact ⟨_, rfl, by decide⟩
  · rename_i hsame
    rw [if_neg hsame] at hdiffers
    split
    · exact ⟨_, rfl, by decide⟩
    · rename_i endpoint hendpoint
      rw [hendpoint] at hdiffers
      split
      · exact ⟨_, rfl, by decide⟩
      · rename_i hfields
        dsimp only at hdiffers
        rw [if_neg hfields] at hdiffers
        split
        · exact ⟨_, rfl, by decide⟩
        · rename_i hlimits
          rw [if_neg hlimits] at hdiffers
          exact absurd rfl hdiffers

/-! ## A run of the loop -/

section Loop

variable {contract : Contract}

/-- The contracts equal the compiled ones of these capabilities, one by one. -/
def InOrder (contract : Contract) : List CapabilityBinding → List Capability → Prop :=
  List.Forall₂ fun binding capability ↦ binding.contract.Equals (capability.expected contract)

/-- The contracts are those of the capabilities that are not bound yet, each once. -/
structure Completes (contract : Contract) (bound : Capability → Bool)
    (bindings : List CapabilityBinding) (order : List Capability) : Prop where
  inOrder : InOrder contract bindings order
  nodup : order.Nodup
  bound_iff : ∀ capability, bound capability = true ↔ capability ∉ order

/-- The call made after `h` is for the contract at its place, which equals the compiled one of the
capability that is bound. -/
def BindGuard (contract : Contract) (bindings : List CapabilityBinding)
    (h : Trace BindCall BindCall.Answer) (e : BindEvent) : Prop :=
  ∃ binding capability, bindings[h.length]? = some binding ∧
    binding.contract.Equals (capability.expected contract) ∧
      e.op = bindOf binding.contract capability

/-- What a run over the contracts reports: whether they complete what is bound and the runtime took
them all; and if so, the calls it made. -/
structure BindReports (contract : Contract) (bound : Capability → Bool)
    (bindings : List CapabilityBinding) (s : Trace BindCall BindCall.Answer) (a : Acceptance) :
    Prop where
  accepted_iff : a.accepted = true ↔ (∃ order, Completes contract bound bindings order) ∧
    ∀ e ∈ s, e.answer.accepted = true
  calls : a.accepted = true → ∃ order, Completes contract bound bindings order ∧
    s.map Event.op = bindings.zipWith (fun binding ↦ bindOf binding.contract) order

theorem identify_eq_some
    (hids : contract.kPublish.capabilityId ≠ contract.kService.capabilityId)
    {actual : CapabilityContract} {capability : Capability} :
    identify contract actual = some capability ↔
      actual.capabilityId = (capability.expected contract).capabilityId := by
  rw [identify]
  cases capability with
  | publish =>
    constructor
    · intro h
      split at h
      · assumption
      · split at h <;> cases h
    · exact fun h ↦ if_pos h
  | service =>
    constructor
    · intro h
      split at h
      · cases h
      · split at h
        · assumption
        · cases h
    · intro h
      have hother : actual.capabilityId ≠ contract.kPublish.capabilityId :=
        fun hpublish ↦ hids (hpublish.symm.trans h)
      rw [if_neg hother]
      exact if_pos h

private theorem completes_nil {bound : Capability → Bool} {order : List Capability} :
    Completes contract bound [] order ↔ order = [] ∧ ∀ capability, bound capability = true := by
  constructor
  · rintro ⟨horder, -, hbound⟩
    obtain rfl := List.forall₂_nil_left_iff.mp horder
    exact ⟨rfl, fun capability ↦ (hbound capability).mpr List.not_mem_nil⟩
  · rintro ⟨rfl, hbound⟩
    exact ⟨List.Forall₂.nil, List.nodup_nil, fun capability ↦ by simp [hbound capability]⟩

private theorem completes_cons {bound : Capability → Bool} {binding : CapabilityBinding}
    {bindings : List CapabilityBinding} {capability : Capability} {order : List Capability} :
    Completes contract bound (binding :: bindings) (capability :: order) ↔
      binding.contract.Equals (capability.expected contract) ∧ bound capability = false ∧
        Completes contract (Function.update bound capability true) bindings order := by
  constructor
  · rintro ⟨horder, hnodup, hbound⟩
    obtain ⟨hequals, hrest⟩ := List.forall₂_cons.mp horder
    obtain ⟨hnot, hnodup⟩ := List.nodup_cons.mp hnodup
    refine ⟨hequals, ?_, hrest, hnodup, ?_⟩
    · rw [← Bool.not_eq_true, hbound]
      simp
    · intro other
      by_cases hother : other = capability
      · subst hother
        simp [hnot]
      · rw [Function.update_of_ne hother, hbound, List.mem_cons, not_or]
        exact and_iff_right hother
  · rintro ⟨hequals, hfree, horder, hnodup, hbound⟩
    have hnot : capability ∉ order := (hbound capability).mp (Function.update_self _ _ _)
    refine ⟨List.Forall₂.cons hequals horder, List.nodup_cons.mpr ⟨hnot, hnodup⟩, ?_⟩
    intro other
    by_cases hother : other = capability
    · subst hother
      simp [hfree]
    · rw [List.mem_cons, not_or, ← hbound, Function.update_of_ne hother]
      exact (and_iff_right hother).symm

/-- The first contract is that of the capability with its identifier, or the list completes
nothing. -/
theorem exists_completes_cons
    (hids : contract.kPublish.capabilityId ≠ contract.kService.capabilityId)
    {bound : Capability → Bool} {binding : CapabilityBinding} {bindings : List CapabilityBinding} :
    (∃ order, Completes contract bound (binding :: bindings) order) ↔
      ∃ capability, identify contract binding.contract = some capability ∧
        binding.contract.Equals (capability.expected contract) ∧ bound capability = false ∧
          ∃ order, Completes contract (Function.update bound capability true) bindings order := by
  constructor
  · rintro ⟨order, horder⟩
    obtain ⟨capability, rest, -, -, rfl⟩ := List.forall₂_cons_left_iff.mp horder.inOrder
    obtain ⟨hequals, hfree, hrest⟩ := completes_cons.mp horder
    exact ⟨capability, (identify_eq_some hids).mpr hequals.capabilityId, hequals, hfree, rest,
      hrest⟩
  · rintro ⟨capability, -, hequals, hfree, order, horder⟩
    exact ⟨capability :: order, completes_cons.mpr ⟨hequals, hfree, horder⟩⟩

theorem BindReports.refused {bound : Capability → Bool} {bindings : List CapabilityBinding}
    {s : Trace BindCall BindCall.Answer} {error : Option Str}
    (h : ¬ ((∃ order, Completes contract bound bindings order) ∧
      ∀ e ∈ s, e.answer.accepted = true)) :
    BindReports contract bound bindings s ⟨false, error⟩ :=
  ⟨iff_of_false Bool.false_ne_true h, fun haccepted ↦ nomatch haccepted⟩

/-- One round of the loop: a contract that is refused ends it without a call, and one that passes is
bound, or not. -/
theorem bindEach_cons_wp {I : Trace BindCall BindCall.Answer → BindEvent → Prop}
    {Q : Trace BindCall BindCall.Answer → Acceptance → Prop} {bound : Capability → Bool}
    {error : Option Str} {binding : CapabilityBinding} {bindings : List CapabilityBinding}
    {h : Trace BindCall BindCall.Answer}
    (hunknown : identify contract binding.contract = none →
      Q h ⟨false, some "trusted bootstrap advertises an unknown capability"⟩)
    (hduplicate : ∀ capability, identify contract binding.contract = some capability →
      bound capability = true → Q h ⟨false, error⟩)
    (hdiffers : ∀ capability, identify contract binding.contract = some capability →
      bound capability = false → ¬ binding.contract.Equals (capability.expected contract) →
        ∀ text : Str, text ≠ [] → Q h ⟨false, some text⟩)
    (hpasses : ∀ capability, identify contract binding.contract = some capability →
      bound capability = false → binding.contract.Equals (capability.expected contract) →
        ∀ answer : Acceptance, I h ⟨bindOf binding.contract capability, answer⟩ ∧
          (answer.accepted = false → Q (h ++ [⟨bindOf binding.contract capability, answer⟩])
            ⟨false, answer.error.or error⟩) ∧
          (answer.accepted = true → Prog.wp I (bindEach contract
            (Function.update bound capability true) (answer.error.or error) bindings) Q
              (h ++ [⟨bindOf binding.contract capability, answer⟩]))) :
    Prog.wp I (bindEach contract bound error (binding :: bindings)) Q h := by
  rw [bindEach]
  cases hidentify : identify contract binding.contract with
  | none => exact hunknown hidentify
  | some capability =>
    dsimp only
    split
    · exact hduplicate capability hidentify ‹_›
    rename_i hfree
    rw [Bool.not_eq_true] at hfree
    split
    · rename_i hrefused
      have hnot : ¬ binding.contract.Equals (capability.expected contract) := by
        rw [← validateExpectedContract_accepted, hrefused]
        exact Bool.false_ne_true
      obtain ⟨text, htext, hne⟩ := validateExpectedContract_error hnot
      rw [htext]
      exact hdiffers capability hidentify hfree hnot text hne
    · rename_i hequals
      rw [Bool.not_eq_false, validateExpectedContract_accepted] at hequals
      rw [Prog.bind_def, Prog.wp_bind, Prog.wp_perform]
      intro answer
      obtain ⟨hguard, hfailed, hbound⟩ := hpasses capability hidentify hfree hequals answer
      refine ⟨hguard, ?_⟩
      split
      · exact hfailed ‹_›
      · rename_i haccepted
        exact hbound (Bool.not_eq_false _ ▸ haccepted)

/-- The calls of the loop, one for each contract that passes, and what they come to. -/
theorem bindEach_wp (hids : contract.kPublish.capabilityId ≠ contract.kService.capabilityId)
    {all bindings : List CapabilityBinding} {bound : Capability → Bool} {error : Option Str}
    {h : Trace BindCall BindCall.Answer} (hrest : all.drop h.length = bindings) :
    Prog.wp (BindGuard contract all) (bindEach contract bound error bindings)
      (fun h' a ↦ ∃ s, h' = h ++ s ∧ BindReports contract bound bindings s a) h := by
  induction bindings generalizing bound error h with
  | nil =>
    rw [bindEach]
    refine ⟨[], (List.append_nil h).symm, ?_, ?_⟩
    · simp only [completes_nil, exists_eq_left, List.not_mem_nil, false_imp_iff, implies_true,
        and_true, Bool.and_eq_true]
      constructor
      · rintro ⟨hpublish, hservice⟩ capability
        cases capability <;> assumption
      · exact fun hbound ↦ ⟨hbound _, hbound _⟩
    · intro haccepted
      rw [Bool.and_eq_true] at haccepted
      refine ⟨[], completes_nil.mpr ⟨rfl, fun capability ↦ ?_⟩, rfl⟩
      cases capability with
      | publish => exact haccepted.1
      | service => exact haccepted.2
  | cons binding bindings ih =>
    have hcompletes : (∃ order, Completes contract bound (binding :: bindings) order) ↔ _ :=
      exists_completes_cons hids
    have hplace : all[h.length]? = some binding := by
      rw [← Nat.add_zero h.length, ← List.getElem?_drop, hrest]
      rfl
    have hnext (e : BindEvent) : all.drop (h ++ [e]).length = bindings := by
      rw [List.length_append, List.length_singleton, ← List.drop_drop, hrest]
      rfl
    refine bindEach_cons_wp ?_ ?_ ?_ ?_
    · intro hidentify
      refine ⟨[], (List.append_nil h).symm, BindReports.refused ?_⟩
      rw [hcompletes, hidentify]
      simp
    · intro capability hidentify hbound
      refine ⟨[], (List.append_nil h).symm, BindReports.refused ?_⟩
      rw [hcompletes, hidentify]
      simp [hbound]
    · intro capability hidentify _ hdiffers _ _
      refine ⟨[], (List.append_nil h).symm, BindReports.refused ?_⟩
      rw [hcompletes, hidentify]
      simp [hdiffers]
    · intro capability hidentify hfree hequals answer
      refine ⟨⟨binding, capability, hplace, hequals, rfl⟩, ?_, ?_⟩
      · intro hfailed
        refine ⟨[_], rfl, BindReports.refused ?_⟩
        simp [hfailed]
      · intro hbound
        refine Prog.wp_mono ?_ (ih (hnext _))
        rintro _ a ⟨s, rfl, hreports⟩
        refine ⟨_ :: s, List.append_assoc h [_] s, ?_, ?_⟩
        · simp only [hidentify, Option.some_inj, exists_eq_left'] at hcompletes
          rw [hreports.accepted_iff, hcompletes, List.forall_mem_cons, and_iff_right hequals,
            and_iff_right hfree]
          exact and_congr_right fun _ ↦ (and_iff_right hbound).symm
        · intro ha
          obtain ⟨order, horder, hcalls⟩ := hreports.calls ha
          refine ⟨capability :: order, completes_cons.mpr ⟨hequals, hfree, horder⟩, ?_⟩
          rw [List.map_cons, hcalls, List.zipWith_cons_cons]

end Loop

/-! ## The binding -/

/-- The configuration advertises the two compiled capabilities, in this order. -/
def Advertises (contract : Contract) (config : ClientConfig) (first second : Capability) : Prop :=
  first ≠ second ∧ InOrder contract config.capabilities [first, second]

private theorem completes_iff_advertises {contract : Contract} {config : ClientConfig}
    {order : List Capability} (hlength : config.capabilities.length = 2) :
    Completes contract (fun _ ↦ false) config.capabilities order ↔
      ∃ first second, order = [first, second] ∧ Advertises contract config first second := by
  constructor
  · rintro ⟨horder, hnodup, -⟩
    obtain ⟨first, second, rfl⟩ := List.length_eq_two.mp (horder.length_eq.symm.trans hlength)
    refine ⟨first, second, rfl, ?_, horder⟩
    simpa using hnodup
  · rintro ⟨first, second, rfl, hne, horder⟩
    refine ⟨horder, by simpa using hne, ?_⟩
    intro capability
    cases capability <;> cases first <;> cases second <;> simp_all

/-- The call that binds a capability as it was compiled. -/
def Capability.bind (contract : Contract) (capability : Capability) : BindCall :=
  .bindCapability (capability.expected contract).capabilityId
    (capability.expected contract).contractVersion (capability.expected contract).contractDigest
    capability.callbacks

private theorem bindOf_eq {contract : Contract} {actual : CapabilityContract}
    {capability : Capability} (h : actual.Equals (capability.expected contract)) :
    bindOf actual capability = capability.bind contract := by
  rw [bindOf, Capability.bind, h.capabilityId, h.contractVersion, h.contractDigest]

section Binding

variable {contract : Contract} {config : Option ClientConfig} {adapter : Bool}

/-- Every call is for a contract of the configuration that passed, each for the one in its place. -/
def ConfigGuard (contract : Contract) (config : Option ClientConfig)
    (h : Trace BindCall BindCall.Answer) (e : BindEvent) : Prop :=
  ∃ c, config = some c ∧ BindGuard contract c.capabilities h e

/-- What the binding reports of a complete run. -/
structure Bound (contract : Contract) (config : Option ClientConfig) (adapter : Bool)
    (run : Trace BindCall BindCall.Answer) (a : Acceptance) : Prop where
  accepted_iff : a.accepted = true ↔ adapter = true ∧
    (∃ c first second, config = some c ∧ Advertises contract c first second) ∧
      ∀ e ∈ run, e.answer.accepted = true
  calls : a.accepted = true → ∃ first second : Capability, first ≠ second ∧
    run.map Event.op = [first.bind contract, second.bind contract]

theorem Bound.refused {run : Trace BindCall BindCall.Answer} {error : Option Str}
    (h : ¬ (adapter = true ∧ ∃ c first second, config = some c ∧
      Advertises contract c first second)) : Bound contract config adapter run ⟨false, error⟩ := by
  refine ⟨iff_of_false Bool.false_ne_true ?_, fun haccepted ↦ nomatch haccepted⟩
  rintro ⟨hadapter, hadvertises, -⟩
  exact h ⟨hadapter, hadvertises⟩

private theorem Bound.of_reports {c : ClientConfig} {run : Trace BindCall BindCall.Answer}
    {a : Acceptance} (hadapter : adapter = true) (hlength : c.capabilities.length = 2)
    (h : BindReports contract (fun _ ↦ false) c.capabilities run a) :
    Bound contract (some c) adapter run a := by
  have horder : (∃ order, Completes contract (fun _ ↦ false) c.capabilities order) ↔
      ∃ first second, Advertises contract c first second := by
    simp only [completes_iff_advertises hlength]
    constructor
    · rintro ⟨_, first, second, rfl, hadvertises⟩
      exact ⟨first, second, hadvertises⟩
    · rintro ⟨first, second, hadvertises⟩
      exact ⟨_, first, second, rfl, hadvertises⟩
  constructor
  · rw [h.accepted_iff, horder, and_iff_right hadapter]
    simp
  · intro haccepted
    obtain ⟨order, hcompletes, hcalls⟩ := h.calls haccepted
    obtain ⟨first, second, rfl, hne, hinOrder⟩ := (completes_iff_advertises hlength).mp hcompletes
    refine ⟨first, second, hne, ?_⟩
    obtain ⟨b₁, b₂, hcapabilities⟩ := List.length_eq_two.mp hlength
    rw [hcapabilities] at hcalls hinOrder
    simp only [InOrder, List.forall₂_cons] at hinOrder
    obtain ⟨hfirst, hsecond, -⟩ := hinOrder
    rw [hcalls, List.zipWith_cons_cons, List.zipWith_cons_cons, List.zipWith_nil_left,
      bindOf_eq hfirst, bindOf_eq hsecond]

theorem bindCapabilities_wp
    (hids : contract.kPublish.capabilityId ≠ contract.kService.capabilityId) :
    Prog.wp (ConfigGuard contract config) (bindCapabilities contract config adapter)
      (Bound contract config adapter) [] := by
  cases config with
  | none => exact Bound.refused (by simp)
  | some c =>
    rw [bindCapabilities]
    split
    · rename_i hrefused
      refine Bound.refused ?_
      rintro ⟨hadapter, c', first, second, hc, -, horder⟩
      obtain rfl := Option.some_injective _ hc
      rcases hrefused with hnull | hlength
      · exact Bool.false_ne_true (hnull.symm.trans hadapter)
      · exact hlength horder.length_eq
    · rename_i hready
      rw [not_or, Bool.not_eq_false, not_not] at hready
      have hloop : Prog.wp (BindGuard contract c.capabilities)
          (bindEach contract (fun _ ↦ false) none c.capabilities) _ [] := bindEach_wp hids rfl
      refine Prog.wp_mono ?_ (Prog.wp_guard_mono ?_ hloop)
      · rintro _ a ⟨s, rfl, hreports⟩
        exact Bound.of_reports hready.1 hready.2 hreports
      · exact fun h e hguard ↦ ⟨c, rfl, hguard⟩

end Binding

/-- The bootstrap contract that advertises a compiled endpoint. -/
def Endpoint.advertised (expected : Endpoint) : CapabilityContract where
  capabilityId := expected.capabilityId
  contractVersion := expected.contractVersion
  contractDigest := expected.contractDigest
  endpoints := [{
    endpointId := expected.endpointId
    inputSchema := some (schemaReference expected.inputSchema)
    outputSchema := some (schemaReference expected.outputSchema)
    interactionMode := .operation
    sideEffectClass := .nonIdempotent
    idempotencyMode := .required
    cancellationSupported := true
    deadlineRequired := true
    defaultTimeoutMs := expected.defaultTimeoutMs
    maximumTimeoutMs := expected.maximumTimeoutMs
    limits := ⟨expected.limits.maximumRequestBytes, expected.limits.maximumResponseBytes,
      expected.limits.maximumConcurrency, 0, 0, 0⟩ }]

/-- Every compiled endpoint can be advertised. -/
theorem Endpoint.advertised_equals (expected : Endpoint) : expected.advertised.Equals expected :=
  ⟨rfl, rfl, rfl, _, rfl, rfl, ⟨_, rfl, rfl⟩, ⟨_, rfl, rfl⟩, rfl, rfl, rfl, rfl, rfl, rfl, rfl, rfl⟩

/-- The service capability, then the publish capability. -/
def swappedConfig (contract : Contract) : ClientConfig :=
  ⟨[⟨contract.kService.advertised⟩, ⟨contract.kPublish.advertised⟩]⟩

theorem sharedBuild_ids :
    sharedBuild.contract.kPublish.capabilityId ≠ sharedBuild.contract.kService.capabilityId := by
  decide +kernel

end Ros2ToolsAdapter
