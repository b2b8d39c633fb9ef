import Ros2ToolsAdapter.Adapter.Binding
import Ros2ToolsAdapter.Generator.Built
import Ros2ToolsAdapter.Generator.HeaderContract

/-!
# The manifest and the header agree

One directory of schemas is read twice: for the manifest the runtime is given, and for the header
the adapter is compiled with. `CapabilityContract.ofManifest` is what the manifest says in the terms
of the runtime, and `Contract.ofSource` what the header says in those of the adapter. An adapter
built from the header binds exactly the two contracts of the manifest
(`manifest_agrees_with_header`).
-/

namespace Ros2ToolsAdapter

open Interaction Python

/-! ## The contracts of a manifest -/

/-- `v[name]` -/
def field (v : Value) (name : String) : Option Value :=
  match v with
  | .dict entries => entries.lookup (name : Text)
  | _ => none

def naturalField (v : Value) (name : String) : Option ℕ :=
  match field v name with
  | some (.int n) => if 0 ≤ n then some n.toNat else none
  | _ => none

def textField (v : Value) (name : String) : Option Text :=
  match field v name with
  | some (.str s) => some s
  | _ => none

def boolField (v : Value) (name : String) : Option Bool :=
  match field v name with
  | some (.bool b) => some b
  | _ => none

def listField (v : Value) (name : String) : Option (List Value) :=
  match field v name with
  | some (.list items) => some items
  | _ => none

def SchemaReference.ofManifest (v : Value) : Option SchemaReference := do
  return {
    messageId := ← naturalField v "messageId"
    typeName := utf8 (← textField v "typeName")
    schemaVersion := ← naturalField v "schemaVersion"
    schemaFingerprint := ← naturalField v "schemaFingerprint" }

def EndpointLimits.ofManifest (v : Value) : Option EndpointLimits := do
  return {
    maximumRequestBytes := ← naturalField v "maximumRequestBytes"
    maximumResponseBytes := ← naturalField v "maximumResponseBytes"
    maximumConcurrency := ← naturalField v "maximumConcurrency"
    maximumStreams := ← naturalField v "maximumStreams"
    maximumStreamChunkBytes := ← naturalField v "maximumStreamChunkBytes"
    maximumStreamChunkMessages := ← naturalField v "maximumStreamChunkMessages" }

/-- The endpoints that are operations with side effects and need a key; there are no others. -/
def CapabilityEndpointContract.ofManifest (v : Value) : Option CapabilityEndpointContract := do
  if textField v "interaction" ≠ some ("operation" : Text) then none
  if textField v "sideEffect" ≠ some ("non-idempotent" : Text) then none
  if textField v "idempotency" ≠ some ("required" : Text) then none
  return {
    endpointId := utf8 (← textField v "endpointId")
    inputSchema := some (← (field v "inputSchema").bind SchemaReference.ofManifest)
    outputSchema := some (← (field v "outputSchema").bind SchemaReference.ofManifest)
    interactionMode := .operation
    sideEffectClass := .nonIdempotent
    idempotencyMode := .required
    cancellationSupported := ← boolField v "cancellationSupported"
    deadlineRequired := ← boolField v "deadlineRequired"
    defaultTimeoutMs := ← naturalField v "defaultTimeoutMillis"
    maximumTimeoutMs := ← naturalField v "maximumTimeoutMillis"
    limits := ← (field v "limits").bind EndpointLimits.ofManifest }

def CapabilityContract.ofEntry (v : Value) : Option CapabilityContract := do
  let ref ← field v "ref"
  return {
    capabilityId := utf8 (← textField ref "id")
    contractVersion := ← naturalField ref "version"
    contractDigest := utf8 (← textField v "contractDigest")
    endpoints := ← (← listField v "endpoints").mapM CapabilityEndpointContract.ofManifest }

/-- The contracts of the one adapter of a manifest. -/
def CapabilityContract.ofManifest (v : Value) : Option (List CapabilityContract) := do
  let adapter ← (← listField v "adapters").head?
  let manifest ← field adapter "capabilityManifest"
  (← listField manifest "capabilities").mapM CapabilityContract.ofEntry

/-- The contract without the fields its reader did not know. -/
def CapabilityContract.known (contract : CapabilityContract) : CapabilityContract :=
  let schema (s : SchemaReference) : SchemaReference := { s with unknownFields := [] }
  { contract with endpoints := contract.endpoints.map fun endpoint ↦ { endpoint with
      inputSchema := endpoint.inputSchema.map schema
      outputSchema := endpoint.outputSchema.map schema } }

/-- A contract equals the compiled one exactly when what is known of it is what is advertised. -/
theorem CapabilityContract.equals_iff_known {actual : CapabilityContract} {expected : Endpoint} :
    actual.Equals expected ↔ actual.known = expected.advertised := by
  constructor
  · rintro ⟨hid, hversion, hdigest, endpoint, hendpoints, hequals⟩
    obtain ⟨input, hinput, hinputSchema⟩ := hequals.inputSchema
    obtain ⟨output, houtput, houtputSchema⟩ := hequals.outputSchema
    simp [known, Endpoint.advertised, hid, hversion, hdigest, hendpoints, hequals.endpointId,
      hinput, hinputSchema, houtput, houtputSchema, hequals.interactionMode,
      hequals.sideEffectClass, hequals.idempotencyMode, hequals.cancellationSupported,
      hequals.deadlineRequired, hequals.defaultTimeoutMs, hequals.maximumTimeoutMs, hequals.limits]
  · intro h
    obtain ⟨hid, hversion, hdigest, hendpoints⟩ := CapabilityContract.mk.inj h
    obtain ⟨endpoint, hendpoint, hequals⟩ := List.map_eq_singleton_iff.mp hendpoints
    obtain ⟨hendpointId, hinput, houtput, hmode, heffect, hidempotency, hcancel, hdeadline,
      hdefault, hmaximum, hlimits⟩ := CapabilityEndpointContract.mk.inj hequals
    exact ⟨hid, hversion, hdigest, endpoint, hendpoint, hendpointId,
      Option.map_eq_some_iff.mp hinput, Option.map_eq_some_iff.mp houtput, hmode, heffect,
      hidempotency, hcancel, hdeadline, hdefault, hmaximum, hlimits⟩

namespace Generator

open Artifact (Tools)
open Except (bind_eq_ok)

variable {python : Interpreter} {tools : Tools}

/-! ## What is written under a field -/

@[simp] theorem field_cons (a b : String) (v : Value) (entries : List (Text × Value)) :
    field (.dict (((b : Text), v) :: entries)) a =
      if a = b then some v else field (.dict entries) a := by
  by_cases h : a = b
  · simp [field, h]
  · have hne : Text.ofString a ≠ Text.ofString b := fun heq ↦ h (ofString_inj.mp heq)
    simp [field, h, List.lookup_cons, beq_false_of_ne hne]

private theorem ofManifest_reference (reference : Reference) :
    SchemaReference.ofManifest reference.toValue =
      some (schemaReference (ContractMetadata.schemaOf reference)) := by
  simp [SchemaReference.ofManifest, Reference.toValue, naturalField, textField,
    schemaReference, ContractMetadata.schemaOf]

private theorem ofManifest_limits (limits : LimitsEntry) :
    EndpointLimits.ofManifest limits.toValue = some ⟨limits.maximumRequestBytes,
      limits.maximumResponseBytes, limits.maximumConcurrency, limits.maximumStreams,
      limits.maximumStreamChunkBytes, limits.maximumStreamChunkMessages⟩ := by
  simp [EndpointLimits.ofManifest, LimitsEntry.toValue, naturalField]

/-- What a contract of the generator is in the manifest, the runtime is told to expect of the
endpoint it is compiled to. -/
theorem ofEntry_capability (entry : CapabilityEntry) {endpoint_id : Text} {input output : Reference}
    {maximum : ℕ} (hendpoints : entry.endpoints = [endpoint endpoint_id input output maximum]) :
    CapabilityContract.ofEntry entry.toValue = some (ContractMetadata.endpointOf entry
      (endpoint endpoint_id input output maximum)).advertised := by
  simp [CapabilityContract.ofEntry, CapabilityEntry.toValue, CapabilityEntry.refValue, hendpoints,
    CapabilityEndpointContract.ofManifest, EndpointEntry.toValue, endpoint, naturalField, textField,
    boolField, listField, ofManifest_reference, ofManifest_limits, Endpoint.advertised,
    ContractMetadata.endpointOf]

/-! ## Everything fits -/

theorem Referenced.fits {schema_dir : Tree} {key : SchemaKey} {reference : Reference}
    (h : Referenced python tools schema_dir key reference) :
    ContractMetadata.Reference.Fits reference := by
  obtain ⟨_, _, normalized, -, -, -, hfingerprint⟩ := h.document
  refine ⟨?_, ?_, ?_, hfingerprint ▸ fingerprint_lt tools normalized⟩
  · rw [h.messageId]
    cases key <;> decide
  · rw [h.typeName]
    cases key <;> decide +kernel
  · rw [h.schemaVersion]
    decide

/-- A digest is a word and hexadecimal digits. -/
theorem newline_notMem_digest_bytes (bytes : ByteArray) : 0x0A ∉ digest_bytes tools bytes := by
  have hdigit : ∀ d < 16, Json.hexDigit d ≠ 0x0A := by decide
  rw [digest_bytes, List.mem_append, not_or]
  refine ⟨by decide +kernel, fun hmem ↦ ?_⟩
  obtain ⟨b, -, hb⟩ := List.mem_flatMap.mp hmem
  have hlt := b.toNat_lt
  rcases List.mem_pair.mp hb with h | h
  · exact hdigit _ (by omega) h.symm
  · exact hdigit _ (by omega) h.symm

theorem IsCapability.fits {capability_id endpoint_id : Text} {input output : Reference}
    {maximum : ℕ} {entry : CapabilityEntry}
    (h : IsCapability python tools capability_id (endpoint endpoint_id input output maximum) entry)
    (hid : 0x0A ∉ capability_id) (hendpoint : 0x0A ∉ endpoint_id)
    (hinput : ContractMetadata.Reference.Fits input)
    (houtput : ContractMetadata.Reference.Fits output) (hmaximum : maximum < 2 ^ 32) :
    ContractMetadata.EndpointFits entry (endpoint endpoint_id input output maximum) := by
  obtain ⟨bytes, -, hdigest⟩ := h.contractDigest
  exact ⟨h.id ▸ hid, by rw [h.version]; decide, hdigest ▸ newline_notMem_digest_bytes bytes,
    hendpoint, hinput, houtput, (by decide : 30000 < 2 ^ 32), (by decide : 300000 < 2 ^ 32),
    ⟨(by decide : 8388608 < 2 ^ 32), hmaximum, (by decide : 16 < 2 ^ 32), Nat.two_pow_pos 32,
      Nat.two_pow_pos 32, Nat.two_pow_pos 32⟩⟩

/-! ## The header and the manifest -/

/-- The contract a compiler finds in the header made of these. -/
def compiled (references : SchemaKey → Reference) (publish call : CapabilityEntry) :
    Contract where
  kConfiguration := ContractMetadata.schemaOf (references .configuration)
  kPublish := ContractMetadata.endpointOf publish
    (endpoint "publish" (references .publish_input) (references .publish_output) 1048576)
  kService := ContractMetadata.endpointOf call
    (endpoint "call" (references .service_input) (references .service_output) 8388608)

theorem generate_eq {schema_dir : Tree} {references : SchemaKey → Reference}
    {contracts : List CapabilityEntry} {publish call : CapabilityEntry}
    (h : build_contracts python tools schema_dir = .ok (references, contracts))
    (hcontracts : contracts = [call, publish])
    (hbuilt : Built python tools schema_dir references publish call) :
    ContractMetadata.generate python tools schema_dir =
      .ok (ContractMetadata.header (references .configuration)
        (publish, endpoint "publish" (references .publish_input) (references .publish_output)
          1048576)
        (call, endpoint "call" (references .service_input) (references .service_output)
          8388608)) := by
  have hother : ("xgc.ros2.service.call" : Text) ≠ "xgc.ros2.topic.publish" := by decide +kernel
  have hpublish : ContractMetadata.by_id contracts "xgc.ros2.topic.publish" = .ok publish := by
    simp [ContractMetadata.by_id, hcontracts, hbuilt.publish.id]
  have hcall : ContractMetadata.by_id contracts "xgc.ros2.service.call" = .ok call := by
    simp [ContractMetadata.by_id, hcontracts, hbuilt.publish.id, hbuilt.call.id, hother.symm]
  rw [ContractMetadata.generate, h]
  simp only [bind, Except.bind, pure, Except.pure, hpublish, hcall, ContractMetadata.firstEndpoint,
    hbuilt.publish.endpoints, hbuilt.call.endpoints]

theorem generate_of_references {schema_dir : Tree} {references : SchemaKey → Reference}
    (h : ∀ key, schema_reference python tools schema_dir key = .ok (references key)) :
    ∃ source, ContractMetadata.generate python tools schema_dir = .ok source := by
  obtain ⟨contracts, hcontracts⟩ := build_contracts_of_references h
  obtain ⟨publish, call, rfl, hbuilt⟩ := build_contracts_spec hcontracts
  exact ⟨_, generate_eq hcontracts rfl hbuilt⟩

theorem ofSource_generate {schema_dir : Tree} {references : SchemaKey → Reference}
    {contracts : List CapabilityEntry} {publish call : CapabilityEntry} {source : Text}
    (h : build_contracts python tools schema_dir = .ok (references, contracts))
    (hcontracts : contracts = [call, publish])
    (hbuilt : Built python tools schema_dir references publish call)
    (hsource : ContractMetadata.generate python tools schema_dir = .ok source) :
    Contract.ofSource source = some (compiled references publish call) := by
  rw [generate_eq h hcontracts hbuilt] at hsource
  obtain rfl := Except.ok.inj hsource
  have hfits (key : SchemaKey) := (hbuilt.referenced key).fits
  exact ContractMetadata.ofSource_header (hfits .configuration)
    (hbuilt.publish.fits (by decide +kernel) (by decide +kernel) (hfits _) (hfits _) (by decide))
    (hbuilt.call.fits (by decide +kernel) (by decide +kernel) (hfits _) (hfits _) (by decide))

theorem ofManifest_adapterValue {schema_dir : Tree} {references : SchemaKey → Reference}
    {publish call : CapabilityEntry}
    (hbuilt : Built python tools schema_dir references publish call) (definition : Value) :
    CapabilityContract.ofManifest (adapterValue definition [call, publish]) =
      some [(compiled references publish call).kService.advertised,
        (compiled references publish call).kPublish.advertised] := by
  simp [CapabilityContract.ofManifest, adapterValue, capabilityManifest, listField,
    ofEntry_capability _ hbuilt.publish.endpoints, ofEntry_capability _ hbuilt.call.endpoints,
    compiled]

theorem perm_pair {α : Type} {l : List α} {a b : α} :
    l.Perm [a, b] ↔ l = [a, b] ∨ l = [b, a] := by
  constructor
  · intro h
    obtain ⟨x, y, rfl⟩ := List.length_eq_two.mp h.length_eq
    rcases List.mem_pair.mp (h.mem_iff.mp List.mem_cons_self) with rfl | rfl
    · rw [List.perm_cons, List.perm_singleton] at h
      exact Or.inl (by rw [List.singleton_inj.mp h])
    · have hswap := h.trans (List.Perm.swap x a [])
      rw [List.perm_cons, List.perm_singleton] at hswap
      exact Or.inr (by rw [List.singleton_inj.mp hswap])
  · rintro (rfl | rfl)
    · exact List.Perm.refl _
    · exact List.Perm.swap a b []

/-- A configuration advertises the compiled contracts when they are what is known of its own, in
either order. -/
theorem advertises_iff {contract : Contract} {config : ClientConfig} :
    (∃ first second, Advertises contract config first second) ↔
      (config.capabilities.map fun binding ↦ binding.contract.known).Perm
        [contract.kService.advertised, contract.kPublish.advertised] := by
  have hmap (first second : Capability) : InOrder contract config.capabilities [first, second] ↔
      config.capabilities.map (fun binding ↦ binding.contract.known) =
        [(first.expected contract).advertised, (second.expected contract).advertised] := by
    constructor
    · intro h
      obtain ⟨b, _, hb, hrest, hcapabilities⟩ := List.forall₂_cons_right_iff.mp h
      obtain ⟨b', _, hb', hnil, rfl⟩ := List.forall₂_cons_right_iff.mp hrest
      obtain rfl := List.forall₂_nil_right_iff.mp hnil
      rw [hcapabilities, List.map_cons, List.map_cons, List.map_nil,
        CapabilityContract.equals_iff_known.mp hb, CapabilityContract.equals_iff_known.mp hb']
    · intro h
      obtain ⟨b, b', hcapabilities, hb, hb'⟩ : ∃ b b', config.capabilities = [b, b'] ∧
          b.contract.known = (first.expected contract).advertised ∧
            b'.contract.known = (second.expected contract).advertised := by
        obtain ⟨b, rest, hcapabilities, hb, hrest⟩ := List.map_eq_cons_iff.mp h
        obtain ⟨b', rest', rfl, hb', hnil⟩ := List.map_eq_cons_iff.mp hrest
        rw [List.map_eq_nil_iff.mp hnil] at hcapabilities
        exact ⟨b, b', hcapabilities, hb, hb'⟩
      rw [InOrder, hcapabilities]
      exact .cons (CapabilityContract.equals_iff_known.mpr hb)
        (.cons (CapabilityContract.equals_iff_known.mpr hb') .nil)
  rw [perm_pair]
  constructor
  · rintro ⟨first, second, hne, horder⟩
    have hknown := (hmap first second).mp horder
    cases first <;> cases second
    · exact absurd rfl hne
    · exact Or.inr hknown
    · exact Or.inl hknown
    · exact absurd rfl hne
  · rintro (h | h)
    · exact ⟨.service, .publish, by decide, (hmap .service .publish).mpr h⟩
    · exact ⟨.publish, .service, by decide, (hmap .publish .service).mpr h⟩

/-- What is bound, by the contracts a configuration has. -/
theorem accepted_iff_perm {contract : Contract}
    (hids : contract.kPublish.capabilityId ≠ contract.kService.capabilityId)
    {config : ClientConfig} {run : Trace BindCall BindCall.Answer} {a : Acceptance}
    (hrun : Prog.Returns (bindCapabilities contract (some config) true) run a) :
    a.accepted = true ↔ (config.capabilities.map fun binding ↦ binding.contract.known).Perm
      [contract.kService.advertised, contract.kPublish.advertised] ∧
        ∀ e ∈ run, e.answer.accepted = true := by
  rw [(Prog.wp_returns (bindCapabilities_wp hids) hrun).accepted_iff, ← advertises_iff]
  simp

theorem Built.ids {schema_dir : Tree} {references : SchemaKey → Reference}
    {publish call : CapabilityEntry}
    (h : Built python tools schema_dir references publish call) :
    (compiled references publish call).kPublish.capabilityId ≠
      (compiled references publish call).kService.capabilityId := by
  show utf8 publish.id ≠ utf8 call.id
  rw [h.publish.id, h.call.id]
  decide +kernel

/-- **An adapter compiled with the header binds exactly the contracts of the manifest**, when both
were generated from one directory of schemas: in either order, whatever unknown fields they come
with, and provided that the runtime takes both. -/
theorem manifest_agrees_with_header (args : ManifestArguments) (adapter process : Value)
    (source : Text) (hmanifests : build_manifests python tools args = .ok (adapter, process))
    (hsource : ContractMetadata.generate python tools args.schema_dir = .ok source) :
    ∃ contract contracts, Contract.ofSource source = some contract ∧
      CapabilityContract.ofManifest adapter = some contracts ∧
        ∀ (config : ClientConfig) run a,
          Prog.Returns (bindCapabilities contract (some config) true) run a →
            (a.accepted = true ↔
              (config.capabilities.map fun binding ↦ binding.contract.known).Perm contracts ∧
                ∀ e ∈ run, e.answer.accepted = true) := by
  obtain ⟨executable, references, publish, call, trusted, hmade⟩ := build_manifests_spec hmanifests
  have hbuilt := hmade.built
  obtain rfl := hmade.adapter
  refine ⟨_, _, ofSource_generate hmade.contracts rfl hbuilt hsource,
    ofManifest_adapterValue hbuilt _, fun config run a hrun ↦ accepted_iff_perm hbuilt.ids hrun⟩

theorem manifest_agrees_with_header_oneTitle : ∃ adapter process source,
    build_manifests Artifact.plainPython hashTools oneTitleArguments = .ok (adapter, process) ∧
      ContractMetadata.generate Artifact.plainPython hashTools (titledDir oneTitle) = .ok source ∧
        ∃ contract contracts, Contract.ofSource source = some contract ∧
          CapabilityContract.ofManifest adapter = some contracts ∧
            ∀ (config : ClientConfig) run a,
              Prog.Returns (bindCapabilities contract (some config) true) run a →
                (a.accepted = true ↔
                  (config.capabilities.map fun binding ↦ binding.contract.known).Perm contracts ∧
                    ∀ e ∈ run, e.answer.accepted = true) := by
  obtain ⟨adapter, process, hmanifests⟩ := build_manifests_oneTitle
  obtain ⟨source, hsource⟩ := generate_of_references references_oneTitle
  exact ⟨adapter, process, source, hmanifests, hsource,
    manifest_agrees_with_header oneTitleArguments adapter process source hmanifests hsource⟩

end Generator

end Ros2ToolsAdapter
