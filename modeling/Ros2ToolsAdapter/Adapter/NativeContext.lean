import Ros2ToolsAdapter.Adapter.Schemas

/-!
# The native context

An instance is configured for one ROS domain and one middleware, and is named by a scope: a kind, a
key, and a map of attributes that spell the domain and the middleware. `fromInstanceSpec` reads the
configuration and accepts a scope that agrees with it; `validateSubject` accepts the subject of an
invocation that agrees with the context. Neither compares maps. Each looks two keys up and counts
the entries, and `attributesDiffer_iff` is the reason that is enough: the map it accepts is one map,
`canonicalAttributes`, and the context can be read back from it.
-/

namespace Ros2ToolsAdapter

open Json RegularExpression
open Except (bind_eq_ok)

/-- `NativeContext`. -/
structure NativeContext where
  domainId : ℕ
  rmwImplementation : Str
  scopeKey : Str
  deriving DecidableEq

namespace NativeContext

def kMaximumDomainID : ℤ := 232

def kMaximumConfigurationBytes : ℕ := 16 * 1024

/-- `^[A-Za-z][A-Za-z0-9_]*$` -/
def rmwPattern : RegularExpression UInt8 := Request.identifier

/-- `^sha256:[0-9a-f]{64}$` -/
def scopeKeyPattern : RegularExpression UInt8 := literal "sha256:" * oneOf Str.hexDigits ^ 64

/-! ## The configuration -/

/-- The configuration of the spec, if it is JSON under the compiled schema. -/
def requireConfiguration (build : Build) (spec : AdapterInstanceSpec) : Except Exn Payload :=
  match spec.configuration with
  | some configuration =>
    if configuration.encoding = .json ∧
        configuration.schema.any (schemaMatches · build.contract.kConfiguration) then
      .ok configuration
    else .error (permanentError "invalid_configuration"
      "instance configuration must use the compiled NativeContext schema")
  | none => .error (permanentError "invalid_configuration"
      "instance configuration must use the compiled NativeContext schema")

/-- The checks and the conversion of `domainId`. -/
def readDomainId (value : Value) : Except Exn ℤ := do
  throwIf (value.isMember "domainId" = false ∨ (value.get "domainId").isIntegral = false)
    (permanentError "invalid_configuration" "domainId must be between 0 and 232")
  -- throws for an integer above `Json::Int64`, before any limit is looked at
  let signed ← ofStd (value.get "domainId").asInt64
  throwIf (signed < 0)
    (permanentError "invalid_configuration" "domainId must be between 0 and 232")
  let unsigned ← ofStd (value.get "domainId").asUInt64
  throwIf (kMaximumDomainID < unsigned)
    (permanentError "invalid_configuration" "domainId must be between 0 and 232")
  ofStd (value.get "domainId").asUInt

def requiredPossiblyEmptyString (value : Value) (field : Str) : Except Exn Str := do
  throwIf (value.isMember field = false ∨ (value.get field).isString = false)
    (permanentError "invalid_configuration" (field ++ " must be a string"))
  pure (value.get field).asString

/-! ## Scopes and subjects -/

/-- The scope of the spec, if it has the right kind and a digest for a key. -/
def requireScope (spec : AdapterInstanceSpec) : Except Exn Scope :=
  match spec.scope with
  | some scope =>
    if scope.kind = "ros2-native-context" ∧ scopeKeyPattern.rmatch scope.key = true then .ok scope
    else .error (permanentError "invalid_scope"
      "instance scope must be a canonical ros2-native-context")
  | none => .error (permanentError "invalid_scope"
      "instance scope must be a canonical ros2-native-context")

/-- The comparison of a map of attributes with a context, by two lookups and a count. -/
def attributesDiffer (attributes : Attributes) (domainId : ℕ) (rmwImplementation : Str) : Prop :=
  attributes.find "domain-id" ≠ some (Str.ofNat domainId) ∨
    (attributes.find "rmw-implementation").getD [] ≠ rmwImplementation ∨
    attributes.size ≠ 1 + (decide (rmwImplementation ≠ [])).toNat

instance (attributes : Attributes) (domainId : ℕ) (rmwImplementation : Str) :
    Decidable (attributesDiffer attributes domainId rmwImplementation) :=
  inferInstanceAs (Decidable (_ ∨ _))

/-- `NativeContext::FromInstanceSpec`. -/
def fromInstanceSpec (build : Build) (spec : AdapterInstanceSpec) : Except Exn NativeContext := do
  let configuration ← requireConfiguration build spec
  throwIf (kMaximumConfigurationBytes < configuration.value.length ∨ spec.secretsSize ≠ 0)
    (permanentError "invalid_configuration"
      "instance configuration is too large or contains secrets")
  let value ← build.parseStrictJson configuration.value "instance configuration"
  Request.requireObject value "instance configuration"
  Request.rejectUnknownFields value ["domainId", "rmwImplementation"] "instance configuration"
  let domainId ← readDomainId value
  let rmwImplementation ← requiredPossiblyEmptyString value "rmwImplementation"
  throwIf ((rmwImplementation ≠ [] ∧ rmwPattern.rmatch rmwImplementation = false) ∨
      255 < rmwImplementation.length)
    (permanentError "invalid_configuration"
      "rmwImplementation must be a canonical implementation identifier")
  let scope ← requireScope spec
  throwIf (attributesDiffer scope.attributes domainId.toNat rmwImplementation)
    (permanentError "invalid_scope"
      "ROS2 scope attributes do not match instance configuration")
  pure ⟨domainId.toNat, rmwImplementation, scope.key⟩

/-- `NativeContext::operator==`. -/
def equal (context other : NativeContext) : Bool :=
  context.domainId == other.domainId && context.rmwImplementation == other.rmwImplementation &&
    context.scopeKey == other.scopeKey

/-- The subject of the context, if it has the right kind and this key. -/
def requireSubject (native : NativeContext) (context : WorkContext) : Except Exn Scope :=
  match context.subject with
  | some subject =>
    if subject.kind = "ros2-native-context" ∧ subject.key = native.scopeKey then .ok subject
    else .error (permanentError "invalid_subject"
      "invocation subject must match this ROS2 native context")
  | none => .error (permanentError "invalid_subject"
      "invocation subject must match this ROS2 native context")

/-- `ToolsAdapter::validateSubject`. -/
def validateSubject (native : NativeContext) (context : WorkContext) : Except Exn Unit := do
  let subject ← requireSubject native context
  throwIf (attributesDiffer subject.attributes native.domainId native.rmwImplementation)
    (permanentError "invalid_subject"
      "invocation subject does not match this ROS2 native context")

/-! ## Attributes -/

/-- The one map of attributes that spells the domain and the middleware. -/
def canonicalAttributes (domainId : ℕ) (rmwImplementation : Str) : Attributes :=
  if rmwImplementation = [] then Finmap.singleton "domain-id" (Str.ofNat domainId)
  else (Finmap.singleton ("domain-id" : Str) (Str.ofNat domainId)).insert "rmw-implementation"
    rmwImplementation

private theorem domain_ne_rmw : ("domain-id" : Str) ≠ "rmw-implementation" := by decide

private theorem find_canonicalAttributes_domain (domainId : ℕ) (rmwImplementation : Str) :
    (canonicalAttributes domainId rmwImplementation).find "domain-id" =
      some (Str.ofNat domainId) := by
  rw [canonicalAttributes, Attributes.find]
  split
  · exact Finmap.lookup_singleton_eq
  · rw [Finmap.lookup_insert_of_ne _ domain_ne_rmw]
    exact Finmap.lookup_singleton_eq

private theorem find_canonicalAttributes_rmw (domainId : ℕ) (rmwImplementation : Str) :
    (canonicalAttributes domainId rmwImplementation).find "rmw-implementation" =
      if rmwImplementation = [] then none else some rmwImplementation := by
  rw [canonicalAttributes, Attributes.find]
  split
  · exact Finmap.lookup_singleton_of_ne _ domain_ne_rmw.symm
  · exact Finmap.lookup_insert _

private theorem size_canonicalAttributes (domainId : ℕ) (rmwImplementation : Str) :
    (canonicalAttributes domainId rmwImplementation).size =
      1 + (decide (rmwImplementation ≠ [])).toNat := by
  rw [canonicalAttributes, Attributes.size]
  split
  · rename_i hempty
    rw [Finmap.keys_singleton, Finset.card_singleton, hempty]
    rfl
  · rename_i hne
    have hnot : ("rmw-implementation" : Str) ∉
        (Finmap.singleton ("domain-id" : Str) (Str.ofNat domainId) : Attributes) := fun hmem ↦
      domain_ne_rmw.symm ((Finmap.mem_singleton _ _ _).mp hmem)
    rw [Finmap.card_keys_insert_of_notMem _ hnot, Finmap.keys_singleton, Finset.card_singleton,
      decide_eq_true hne]
    rfl

private theorem getD_find_canonicalAttributes_rmw (domainId : ℕ) (rmwImplementation : Str) :
    ((canonicalAttributes domainId rmwImplementation).find "rmw-implementation").getD [] =
      rmwImplementation := by
  rw [find_canonicalAttributes_rmw]
  split
  · rename_i hempty
    rw [hempty, Option.getD_none]
  · exact Option.getD_some

/-- **Two lookups and a count identify the map.** -/
theorem attributesDiffer_iff {attributes : Attributes} {domainId : ℕ} {rmwImplementation : Str} :
    ¬ attributesDiffer attributes domainId rmwImplementation ↔
      attributes = canonicalAttributes domainId rmwImplementation := by
  rw [attributesDiffer, not_or, not_or, not_not, not_not, not_not]
  constructor
  · rintro ⟨hdomain, hrmw, hsize⟩
    refine (Finmap.eq_of_lookup_of_card_le ?_ ?_).symm
    · intro key value hlookup
      -- an entry of the canonical map is one of the two that were looked up
      by_cases hkey : key = "domain-id"
      · subst hkey
        rw [← Attributes.find, find_canonicalAttributes_domain] at hlookup
        rw [← Option.some_injective _ hlookup]
        exact hdomain
      · rw [canonicalAttributes] at hlookup
        split at hlookup
        · rw [Finmap.lookup_singleton_of_ne _ hkey] at hlookup
          exact nomatch hlookup
        · rename_i hne
          by_cases hkey' : key = "rmw-implementation"
          · subst hkey'
            rw [Finmap.lookup_insert] at hlookup
            rw [← Option.some_injective _ hlookup]
            exact (Option.getD_eq_iff.mp hrmw).resolve_right fun h ↦ hne h.2.symm
          · rw [Finmap.lookup_insert_of_ne _ hkey', Finmap.lookup_singleton_of_ne _ hkey]
              at hlookup
            exact nomatch hlookup
    · rw [← Attributes.size, ← Attributes.size, hsize, size_canonicalAttributes]
  · rintro rfl
    exact ⟨find_canonicalAttributes_domain _ _, getD_find_canonicalAttributes_rmw _ _,
      size_canonicalAttributes _ _⟩

private theorem canonicalAttributes_inj {d d' : ℕ} {r r' : Str} :
    canonicalAttributes d r = canonicalAttributes d' r' ↔ d = d' ∧ r = r' := by
  constructor
  · intro h
    have hdomain := find_canonicalAttributes_domain d r
    have hrmw := getD_find_canonicalAttributes_rmw d r
    rw [h, find_canonicalAttributes_domain, Option.some_inj] at hdomain
    rw [h, getD_find_canonicalAttributes_rmw] at hrmw
    exact ⟨(Str.ofNat_injective hdomain).symm, hrmw.symm⟩
  · rintro ⟨rfl, rfl⟩
    rfl

/-! ## Accepted specs -/

theorem requireScope_eq_ok {spec : AdapterInstanceSpec} {scope : Scope}
    (h : requireScope spec = .ok scope) :
    spec.scope = some scope ∧ scope.kind = "ros2-native-context" := by
  rw [requireScope] at h
  split at h
  · split at h
    · rename_i hscope hkind
      obtain rfl := Except.ok.inj h
      exact ⟨hscope, hkind.1⟩
    · exact nomatch h
  · exact nomatch h

/-- An accepted spec has exactly the scope its context spells. -/
theorem scope_of_fromInstanceSpec {build : Build} {spec : AdapterInstanceSpec}
    {native : NativeContext} (h : fromInstanceSpec build spec = .ok native) :
    spec.scope = some ⟨"ros2-native-context", native.scopeKey,
      canonicalAttributes native.domainId native.rmwImplementation⟩ := by
  simp only [fromInstanceSpec, bind_eq_ok, throwIf_eq_ok, exists_const] at h
  obtain ⟨_, -, -, _, -, _, -, _, -, _, -, _, -, -, scope, hscope, hattributes, hnative⟩ := h
  obtain rfl := Except.ok.inj hnative
  obtain ⟨hspec, hkind⟩ := requireScope_eq_ok hscope
  rw [hspec, ← hkind, ← attributesDiffer_iff.mp hattributes]

theorem validateSubject_eq_ok {native : NativeContext} {context : WorkContext} {u : Unit} :
    validateSubject native context = .ok u ↔ context.subject = some ⟨"ros2-native-context",
      native.scopeKey, canonicalAttributes native.domainId native.rmwImplementation⟩ := by
  simp only [validateSubject, bind_eq_ok, throwIf_eq_ok, attributesDiffer_iff, requireSubject]
  constructor
  · rintro ⟨subject, hsubject, hattributes⟩
    split at hsubject
    · split at hsubject
      · rename_i hsome hkind
        obtain rfl := Except.ok.inj hsubject
        rw [hsome, ← hkind.1, ← hkind.2, ← hattributes]
      · exact nomatch hsubject
    · exact nomatch hsubject
  · intro hsubject
    refine ⟨⟨"ros2-native-context", native.scopeKey, _⟩, ?_, rfl⟩
    rw [hsubject]
    exact if_pos ⟨rfl, rfl⟩

theorem validateSubject_raises {native : NativeContext} {context : WorkContext} :
    Raises Exn.IsPermanent (validateSubject native context) := by
  refine Raises.bind ?_ fun _ _ ↦ Raises.throwIf fun _ ↦ Exn.isPermanent_permanentError _ _
  rw [requireSubject]
  split
  · split
    · exact Raises.ok _
    · exact Raises.error.mpr (Exn.isPermanent_permanentError _ _)
  · exact Raises.error.mpr (Exn.isPermanent_permanentError _ _)

theorem equal_iff {native other : NativeContext} : native.equal other = true ↔ native = other := by
  rw [equal, Bool.and_eq_true, Bool.and_eq_true, beq_iff_eq, beq_iff_eq, beq_iff_eq, and_assoc]
  cases native
  cases other
  rw [NativeContext.mk.injEq]

theorem equal_eq_false_iff {native other : NativeContext} :
    native.equal other = false ↔ native ≠ other := by
  rw [← Bool.not_eq_true, equal_iff]

/-- **Scope, context and subject identify the same thing**: a subject passes exactly when it is the
scope, and two contexts are equal exactly when their scopes are. -/
theorem scope_context_subject (build : Build) (spec : AdapterInstanceSpec)
    (native : NativeContext) (h : fromInstanceSpec build spec = .ok native) :
    (∀ context : WorkContext, validateSubject native context = .ok () ↔
        context.subject.isSome = true ∧ context.subject = spec.scope) ∧
      ∀ (spec' : AdapterInstanceSpec) (native' : NativeContext),
        fromInstanceSpec build spec' = .ok native' →
          (native.equal native' = true ↔ spec.scope = spec'.scope) := by
  have hscope := scope_of_fromInstanceSpec h
  constructor
  · intro context
    rw [validateSubject_eq_ok, hscope]
    exact ⟨fun hsubject ↦ ⟨by rw [hsubject]; rfl, hsubject⟩, fun hsubject ↦ hsubject.2⟩
  · intro spec' native' h'
    rw [equal_iff, hscope, scope_of_fromInstanceSpec h', Option.some_inj, Scope.mk.injEq,
      canonicalAttributes_inj]
    cases native
    cases native'
    rw [NativeContext.mk.injEq]
    tauto

/-! ### An accepted spec -/

/-- `{"domainId":42,"rmwImplementation":"rmw_fastrtps_cpp"}` -/
def fastConfiguration : Str := "\x7b\"domainId\":42,\"rmwImplementation\":\"rmw_fastrtps_cpp\"\x7d"

/-- A build whose reader knows the configuration. -/
def fastBuild : Build :=
  Request.referenceBuild (fun _ text ↦ if text = fastConfiguration then
    .value (.object [("domainId", .int ⟨42, by decide⟩),
      ("rmwImplementation", .string "rmw_fastrtps_cpp")]) else .errors []) fun _ _ ↦ []

/-- The context of the configuration. -/
def fastContext : NativeContext :=
  ⟨42, "rmw_fastrtps_cpp", ("sha256:" : Str) ++ List.replicate 64 0x30⟩

/-- The scope of the context. -/
def fastScope : Scope :=
  ⟨"ros2-native-context", fastContext.scopeKey, canonicalAttributes 42 "rmw_fastrtps_cpp"⟩

def fastSpec : AdapterInstanceSpec where
  configuration := some ⟨some (schemaReference fastBuild.contract.kConfiguration), .json,
    fastConfiguration⟩
  scope := some fastScope
  secretsSize := 0

private theorem fastSpec_accepted : fromInstanceSpec fastBuild fastSpec = .ok fastContext := by
  decide +kernel

theorem scope_context_subject_fast :
    (∀ context : WorkContext, validateSubject fastContext context = .ok () ↔
        context.subject.isSome = true ∧ context.subject = fastSpec.scope) ∧
      ∀ (spec' : AdapterInstanceSpec) (native' : NativeContext),
        fromInstanceSpec fastBuild spec' = .ok native' →
          (fastContext.equal native' = true ↔ fastSpec.scope = spec'.scope) :=
  scope_context_subject fastBuild fastSpec fastContext fastSpec_accepted

end NativeContext

end Ros2ToolsAdapter
