import Ros2ToolsAdapter.Adapter.NativeContext

/-!
# The configuration schema

An instance is configured by a JSON object that `native-context.schema.json` describes and
`fromInstanceSpec` reads by hand. `Configures` says what a spec has to be for a context, in terms of
the schema, and the reader accepts exactly that. What it does not accept it refuses with a permanent
error, except for a `domainId` that is an integer above `Json::Int64`: there `asInt64`, which is
asked first, throws an exception of its own.
-/

namespace Ros2ToolsAdapter.NativeContext

open Json RegularExpression Str
open Except (bind_eq_ok bind_eq_error)

/-! ## What is accepted -/

/-- `native-context.schema.json` -/
def nativeContextSchema : ObjectSchema where
  properties := [("domainId", Request.integerSchema 0 232),
    ("rmwImplementation",
      { type := some .string, pattern := some (1 + Request.identifier), maxLength := some 255 })]
  required := ["domainId", "rmwImplementation"]
  additionalProperties := false

/-- The spec has a configuration of this text, JSON under the compiled schema, not too large, and no
secrets. -/
def Encloses (build : Build) (spec : AdapterInstanceSpec) (text : Str) : Prop :=
  ∃ schema, spec.configuration = some ⟨some schema, .json, text⟩ ∧
    schemaMatches schema build.contract.kConfiguration = true ∧
    text.length ≤ kMaximumConfigurationBytes ∧ spec.secretsSize = 0

/-- `sha256:` followed by 64 lowercase hexadecimal digits. -/
def IsScopeKey (key : Str) : Prop :=
  ∃ digest : Str, key = ("sha256:" : Str) ++ digest ∧ digest.length = 64 ∧
    ∀ b ∈ digest, b ∈ hexDigits

/-- The spec, whose configuration reads as `v`, configures the context: `v` is valid and names the
domain and the middleware, and the scope has exactly the attributes that spell them. -/
structure Configures (build : Build) (spec : AdapterInstanceSpec) (v : Value)
    (native : NativeContext) : Prop where
  encloses : ∃ text, Encloses build spec text
  schema : nativeContextSchema.Admits v
  domainId : ∃ w, v.member? "domainId" = some w ∧ w.integer? = some (native.domainId : ℤ)
  rmwImplementation : v.member? "rmwImplementation" = some (.string native.rmwImplementation)
  scope : spec.scope = some ⟨"ros2-native-context", native.scopeKey,
    canonicalAttributes native.domainId native.rmwImplementation⟩
  scopeKey : IsScopeKey native.scopeKey

/-- Everything before the domain is in order, and the domain is an integer above `Json::Int64`. -/
def DomainExceeds (build : Build) (spec : AdapterInstanceSpec) (v : Value) : Prop :=
  (∃ text, Encloses build spec text) ∧ v.isObject = true ∧
    (∀ name ∈ v.getMemberNames, name ∈ (["domainId", "rmwImplementation"] : List Str)) ∧
      ∃ w, v.member? "domainId" = some w ∧ w.ExceedsInt64

/-! ## The checks -/

theorem requireConfiguration_eq_ok {build : Build} {spec : AdapterInstanceSpec} {c : Payload} :
    requireConfiguration build spec = .ok c ↔ spec.configuration = some c ∧ c.encoding = .json ∧
      ∃ schema, c.schema = some schema ∧
        schemaMatches schema build.contract.kConfiguration = true := by
  rw [requireConfiguration]
  cases hconfiguration : spec.configuration with
  | none => simp
  | some c' =>
    dsimp only
    split
    · rename_i h
      rw [Option.any_eq_true] at h
      rw [Except.ok.injEq, Option.some_inj]
      refine ⟨?_, fun h' ↦ h'.1⟩
      rintro rfl
      exact ⟨rfl, h⟩
    · rename_i h
      rw [Option.any_eq_true] at h
      simp only [reduceCtorEq, false_iff]
      rintro ⟨heq, hc⟩
      rw [Option.some_inj.mp heq] at h
      exact h hc

theorem requireConfiguration_raises {build : Build} {spec : AdapterInstanceSpec} :
    Raises Exn.IsPermanent (requireConfiguration build spec) := by
  rw [requireConfiguration]
  split
  · split
    · exact Raises.ok _
    · exact Raises.error.mpr (Exn.isPermanent_permanentError _ _)
  · exact Raises.error.mpr (Exn.isPermanent_permanentError _ _)

theorem readDomainId_eq_ok {v : Value} {n : ℤ} : readDomainId v = .ok n ↔
    ∃ w, v.member? "domainId" = some w ∧ w.integer? = some n ∧ 0 ≤ n ∧ n ≤ kMaximumDomainID := by
  have hmax : kMaximumDomainID = 232 := rfl
  simp only [readDomainId, bind_eq_ok, throwIf_eq_ok, exists_const, ofStd_eq_ok, not_or,
    Bool.not_eq_false, not_lt]
  constructor
  · rintro ⟨⟨hmember, hintegral⟩, signed, hsigned, hneg, unsigned, hunsigned, hle, hresult⟩
    obtain ⟨w, hw⟩ := Value.isMember_iff.mp hmember
    rw [Value.get_of_member? hw] at hintegral hsigned hunsigned hresult
    -- the first accessor settles what the number is, and the other two agree about it
    have hnumber := Value.asInt64_eq_ok_of_nonneg hintegral hsigned hneg
    obtain ⟨m, hm, -, hhi⟩ := Value.isIntegral_iff.mp hintegral
    obtain rfl := Option.some_injective _ (hnumber.symm.trans hm)
    rw [Value.asUInt64_of_lt hnumber hneg hhi] at hunsigned
    obtain rfl := Except.ok.inj hunsigned
    rw [Value.asUInt_of_lt hnumber hneg (by omega)] at hresult
    obtain rfl := Except.ok.inj hresult
    exact ⟨w, hw, hnumber, hneg, hle⟩
  · rintro ⟨w, hw, hn, hlo, hhi⟩
    rw [Value.get_of_member? hw]
    exact ⟨⟨Value.isMember_iff.mpr ⟨w, hw⟩, Value.isIntegral_iff.mpr ⟨n, hn, by omega, by omega⟩⟩,
      n, Value.asInt64_of_lt hn (by omega) (by omega), hlo, n,
      Value.asUInt64_of_lt hn hlo (by omega), hhi, Value.asUInt_of_lt hn hlo (by omega)⟩

/-- What `readDomainId` throws is permanent, or it is the exception of `asInt64`. -/
theorem readDomainId_raises {v : Value} : Raises (fun e ↦ e.IsPermanent ∨
    ∃ w, v.member? "domainId" = some w ∧ w.ExceedsInt64) (readDomainId v) := by
  refine Raises.bind (Raises.throwIf fun _ ↦ Or.inl (Exn.isPermanent_permanentError _ _)) ?_
  intro _ hintegral
  rw [throwIf_eq_ok, not_or, Bool.not_eq_false, Bool.not_eq_false] at hintegral
  obtain ⟨w, hw⟩ := Value.isMember_iff.mp hintegral.1
  rw [Value.get_of_member? hw] at hintegral ⊢
  refine Raises.bind ?_ fun signed hsigned ↦ ?_
  · intro e he
    obtain ⟨what, hwhat, -⟩ := ofStd_eq_error.mp he
    exact Or.inr ⟨w, hw, Value.exceedsInt64_of_asInt64_eq_error hintegral.2 hwhat⟩
  refine Raises.bind (Raises.throwIf fun _ ↦ Or.inl (Exn.isPermanent_permanentError _ _)) ?_
  intro _ hneg
  rw [throwIf_eq_ok, not_lt] at hneg
  -- from here on the number is known, and the accessors are called where they return
  have hnumber := Value.asInt64_eq_ok_of_nonneg hintegral.2 (ofStd_eq_ok.mp hsigned) hneg
  obtain ⟨m, hm, -, hhi⟩ := Value.isIntegral_iff.mp hintegral.2
  obtain rfl := Option.some_injective _ (hnumber.symm.trans hm)
  have hmax : kMaximumDomainID = 232 := rfl
  rw [Value.asUInt64_of_lt hnumber hneg hhi]
  refine Raises.bind (Raises.ok signed) ?_
  rintro unsigned hunsigned
  obtain rfl := Except.ok.inj hunsigned
  refine Raises.bind (Raises.throwIf fun _ ↦ Or.inl (Exn.isPermanent_permanentError _ _)) ?_
  intro _ hle
  rw [throwIf_eq_ok, not_lt] at hle
  rw [Value.asUInt_of_lt hnumber hneg (by omega)]
  exact Raises.ok signed

private theorem readDomainId_of_exceeds {v w : Value} (hw : v.member? "domainId" = some w)
    (h : w.ExceedsInt64) : ∃ what, readDomainId v = .error (.std what) := by
  obtain ⟨hwraps, n, hn, hlo, hhi⟩ := h
  obtain ⟨what, hwhat⟩ := Value.asInt64_of_ge hn hlo hwraps
  refine ⟨what, ?_⟩
  rw [readDomainId, Value.isMember_iff.mpr ⟨w, hw⟩, Value.get_of_member? hw,
    Value.isIntegral_iff.mpr ⟨n, hn, by omega, hhi⟩, hwhat]
  rfl

theorem requiredPossiblyEmptyString_eq_ok {v : Value} {field s : Str} :
    requiredPossiblyEmptyString v field = .ok s ↔ v.member? field = some (.string s) := by
  simp only [requiredPossiblyEmptyString, bind_eq_ok, throwIf_eq_ok, exists_const, not_or,
    Bool.not_eq_false]
  constructor
  · rintro ⟨⟨hmember, hstring⟩, hs⟩
    obtain ⟨w, hw⟩ := Value.isMember_iff.mp hmember
    rw [Value.get_of_member? hw] at hstring hs
    obtain ⟨s', rfl⟩ := Value.isString_iff.mp hstring
    obtain rfl := Except.ok.inj hs
    exact hw
  · intro hw
    rw [Value.get_of_member? hw]
    exact ⟨⟨Value.isMember_iff.mpr ⟨_, hw⟩, rfl⟩, rfl⟩

private theorem isScopeKey_iff {key : Str} :
    scopeKeyPattern.rmatch key = true ↔ IsScopeKey key := by
  rw [rmatch_iff_matches', scopeKeyPattern, matches'_mul, Language.mem_mul]
  constructor
  · rintro ⟨u, hu, digest, hdigest, rfl⟩
    rw [mem_literal.mp hu]
    exact ⟨digest, rfl, mem_oneOf_pow.mp hdigest⟩
  · rintro ⟨digest, rfl, hdigest⟩
    exact ⟨_, mem_literal.mpr rfl, digest, mem_oneOf_pow.mpr hdigest, rfl⟩

private theorem requireScope_eq_ok_iff {spec : AdapterInstanceSpec} {scope : Scope} :
    requireScope spec = .ok scope ↔
      spec.scope = some scope ∧ scope.kind = "ros2-native-context" ∧ IsScopeKey scope.key := by
  rw [requireScope]
  cases hscope : spec.scope with
  | none => simp
  | some scope' =>
    simp only [← isScopeKey_iff]
    split
    · rename_i h
      rw [Except.ok.injEq, Option.some_inj]
      refine ⟨?_, fun h' ↦ h'.1⟩
      rintro rfl
      exact ⟨rfl, h⟩
    · rename_i h
      simp only [reduceCtorEq, false_iff]
      rintro ⟨heq, hc⟩
      rw [Option.some_inj.mp heq] at h
      exact h hc

theorem requireScope_raises {spec : AdapterInstanceSpec} :
    Raises Exn.IsPermanent (requireScope spec) := by
  rw [requireScope]
  split
  · split
    · exact Raises.ok _
    · exact Raises.error.mpr (Exn.isPermanent_permanentError _ _)
  · exact Raises.error.mpr (Exn.isPermanent_permanentError _ _)

/-! ## The schema -/

theorem identifier_over : Request.identifier.Over Request.IsPlain :=
  ⟨over_oneOf (Request.forall_isPlain (by decide)), over_oneOf (Request.forall_isPlain (by decide))⟩

/-- The pattern of the schema allows an empty name, and otherwise is the one that is checked. -/
theorem mem_rmwSchema {s : Str} : s ∈ (1 + Request.identifier).matches' ↔
    s = [] ∨ s ∈ Request.identifier.matches' := by
  rw [matches'_add, Language.mem_add, matches'_epsilon, Language.mem_one]

/-- The check of the name is the schema of the name. -/
theorem rmwCheck_iff {s : Str} : ¬ ((s ≠ [] ∧ rmwPattern.rmatch s = false) ∨ 255 < s.length) ↔
    s ∈ (1 + Request.identifier).matches' ∧ characters s ≤ 255 := by
  have hover : (1 + Request.identifier).Over Request.IsPlain := ⟨trivial, identifier_over⟩
  rw [not_or, not_and_or, not_not, Bool.not_eq_false, not_lt, rmwPattern, rmatch_iff_matches',
    ← mem_rmwSchema]
  refine and_congr_right fun hs ↦ ?_
  rw [Request.characters_of_over hover hs]

/-- A valid value has a domain and a name of a middleware, and nothing else. -/
theorem nativeContextSchema_admits_iff {v : Value} : nativeContextSchema.Admits v ↔
    v.isObject = true ∧
      (∀ name ∈ v.getMemberNames, name ∈ (["domainId", "rmwImplementation"] : List Str)) ∧
      (∃ w n, v.member? "domainId" = some w ∧ w.integer? = some n ∧ 0 ≤ n ∧
        n ≤ kMaximumDomainID) ∧
      ∃ s, v.member? "rmwImplementation" = some (.string s) ∧
        s ∈ (1 + Request.identifier).matches' ∧ characters s ≤ 255 := by
  rw [ObjectSchema.admits_iff rfl rfl]
  simp only [nativeContextSchema, Request.integerSchema, List.map_cons, List.map_nil,
    List.forall_mem_cons, List.not_mem_nil, false_imp_iff, implies_true, and_true,
    PropertySchema.admits_integer_iff, PropertySchema.admits_string_iff]
  refine and_congr_right fun _ ↦ and_congr_right fun _ ↦ and_congr ?_ ?_
  · exact exists_congr fun w ↦ exists_and_left.symm
  · constructor
    · rintro ⟨_, hw, s, rfl, hs⟩
      exact ⟨s, hw, hs⟩
    · rintro ⟨s, hw, hs⟩
      exact ⟨_, hw, s, rfl, hs⟩

/-! ## The reader -/

section Reader

variable {build : Build} {spec : AdapterInstanceSpec} {v : Value}

/-- The configuration of the spec, if it has one, reads as `v`. -/
def ReadsAs (build : Build) (spec : AdapterInstanceSpec) (v : Value) : Prop :=
  ∀ c, spec.configuration = some c → build.parse Build.strictReader c.value = .value v

theorem ReadsAs.parseStrictJson (hparse : ReadsAs build spec v) {c : Payload}
    (hc : spec.configuration = some c) (description : Str) :
    build.parseStrictJson c.value description = .ok v := by
  rw [Build.parseStrictJson, hparse c hc]

theorem fromInstanceSpec_eq_ok_iff (hparse : ReadsAs build spec v) {native : NativeContext} :
    fromInstanceSpec build spec = .ok native ↔ Configures build spec v native := by
  simp only [fromInstanceSpec, bind_eq_ok, throwIf_eq_ok, exists_const, Request.requireObject,
    Request.rejectUnknownFields_eq_ok, requireConfiguration_eq_ok, readDomainId_eq_ok,
    requiredPossiblyEmptyString_eq_ok, requireScope_eq_ok_iff, attributesDiffer_iff, rmwCheck_iff,
    Bool.not_eq_false]
  constructor
  · rintro ⟨c, ⟨hc, hjson, schema, hschema, hmatches⟩, hsize, v', hv', hobject, hnames, n,
      ⟨w, hw, hn, hlo, hhi⟩, rmw, hrmw, hcheck, scope, ⟨hscope, hkind, hkey⟩, hattributes, hnative⟩
    rw [hparse.parseStrictJson hc, Except.ok.injEq] at hv'
    subst hv'
    obtain rfl := Except.ok.inj hnative
    rw [not_or, not_lt, not_not] at hsize
    obtain ⟨_, encoding, text⟩ := c
    obtain rfl : encoding = .json := hjson
    obtain rfl : _ = some schema := hschema
    refine ⟨⟨text, schema, hc, hmatches, hsize⟩, ?_, ⟨w, hw, ?_⟩, hrmw, ?_, hkey⟩
    · exact nativeContextSchema_admits_iff.mpr
        ⟨hobject, hnames, ⟨w, n, hw, hn, hlo, hhi⟩, rmw, hrmw, hcheck⟩
    · rw [hn, Int.toNat_of_nonneg hlo]
    · rw [hscope, ← hkind, ← hattributes]
  · intro h
    obtain ⟨text, schema, hc, hmatches, hsize⟩ := h.encloses
    obtain ⟨hobject, hnames, ⟨w, n, hw, hn, hlo, hhi⟩, rmw, hrmw, hcheck⟩ :=
      nativeContextSchema_admits_iff.mp h.schema
    -- the schema and the context name the same domain and the same middleware
    obtain ⟨w', hw', hdomain⟩ := h.domainId
    obtain rfl := Option.some_injective _ (hw.symm.trans hw')
    obtain rfl := Option.some_injective _ (hn.symm.trans hdomain)
    obtain rfl := Value.string.inj (Option.some_injective _ (hrmw.symm.trans h.rmwImplementation))
    refine ⟨_, ⟨hc, rfl, schema, rfl, hmatches⟩, ?_, v, hparse.parseStrictJson hc _, hobject,
      hnames, _, ⟨w, hw, hn, hlo, hhi⟩, _, hrmw, hcheck, _, ⟨h.scope, rfl, h.scopeKey⟩, rfl, rfl⟩
    rw [not_or, not_lt, not_not]
    exact hsize

/-- What the reader throws is permanent, or the domain exceeds. -/
theorem fromInstanceSpec_raises (hparse : ReadsAs build spec v) :
    Raises (fun e ↦ e.IsPermanent ∨ DomainExceeds build spec v) (fromInstanceSpec build spec) := by
  have hpermanent : ∀ {α : Type} {x : Except Exn α}, Raises Exn.IsPermanent x →
      Raises (fun e ↦ e.IsPermanent ∨ DomainExceeds build spec v) x :=
    fun hx ↦ hx.mono fun _ ↦ Or.inl
  have hcheck : ∀ {c : Prop} [Decidable c] {code : String} {message : Str},
      Raises (fun e ↦ e.IsPermanent ∨ DomainExceeds build spec v)
        (throwIf c (permanentError code message) : Except Exn Unit) :=
    hpermanent (Raises.throwIf fun _ ↦ Exn.isPermanent_permanentError _ _)
  refine Raises.bind (hpermanent requireConfiguration_raises) fun c hc ↦ ?_
  obtain ⟨hspec, hjson, schema, hschema, hmatches⟩ := requireConfiguration_eq_ok.mp hc
  refine Raises.bind hcheck fun _ hsize ↦ ?_
  rw [throwIf_eq_ok, not_or, not_lt, not_not] at hsize
  rw [hparse.parseStrictJson hspec]
  refine Raises.bind (Raises.ok v) fun v' hv' ↦ ?_
  obtain rfl := Except.ok.inj hv'
  refine Raises.bind hcheck fun _ hobject ↦ ?_
  refine Raises.bind (hpermanent Request.rejectUnknownFields_raises) fun _ hnames ↦ ?_
  refine Raises.bind (readDomainId_raises.mono ?_) fun n _ ↦ ?_
  · rintro e (he | hexceeds)
    · exact Or.inl he
    · obtain ⟨_, encoding, text⟩ := c
      obtain rfl : encoding = .json := hjson
      obtain rfl : _ = some schema := hschema
      rw [Request.requireObject, throwIf_eq_ok, Bool.not_eq_false] at hobject
      exact Or.inr ⟨⟨text, schema, hspec, hmatches, hsize⟩, hobject,
        Request.rejectUnknownFields_eq_ok.mp hnames, hexceeds⟩
  refine Raises.bind (Raises.bind hcheck fun _ _ ↦ Raises.ok _) fun rmw _ ↦ ?_
  refine Raises.bind hcheck fun _ _ ↦ ?_
  refine Raises.bind (hpermanent requireScope_raises) fun scope _ ↦ ?_
  exact Raises.bind hcheck fun _ _ ↦ Raises.ok _

private theorem fromInstanceSpec_of_exceeds (hparse : ReadsAs build spec v)
    (h : DomainExceeds build spec v) :
    ∃ what, fromInstanceSpec build spec = .error (.std what) := by
  obtain ⟨⟨text, schema, hc, hmatches, hsize, hsecrets⟩, hobject, hnames, w, hw, hexceeds⟩ := h
  obtain ⟨what, hwhat⟩ := readDomainId_of_exceeds hw hexceeds
  refine ⟨what, ?_⟩
  -- every check before the domain passes
  rw [fromInstanceSpec, bind_eq_error]
  refine Or.inr ⟨_, requireConfiguration_eq_ok.mpr ⟨hc, rfl, schema, rfl, hmatches⟩, ?_⟩
  rw [bind_eq_error]
  refine Or.inr ⟨(), throwIf_eq_ok.mpr ?_, ?_⟩
  · rw [not_or, not_lt, not_not]
    exact ⟨hsize, hsecrets⟩
  rw [bind_eq_error]
  refine Or.inr ⟨v, hparse.parseStrictJson hc _, ?_⟩
  rw [bind_eq_error]
  refine Or.inr ⟨(), throwIf_eq_ok.mpr (by simp [hobject]), ?_⟩
  rw [bind_eq_error]
  refine Or.inr ⟨(), Request.rejectUnknownFields_eq_ok.mpr hnames, ?_⟩
  rw [bind_eq_error]
  exact Or.inl hwhat

end Reader

/-- **The reader accepts exactly what the schema and the scope allow**, with exactly the context
they spell, and refuses everything else with a permanent error but a domain that exceeds: for every
spec and whatever value its configuration reads as. -/
theorem fromInstanceSpec_exact_iff (build : Build) (spec : AdapterInstanceSpec) (v : Value)
    (hparse : ReadsAs build spec v) :
    (∀ native, fromInstanceSpec build spec = .ok native ↔ Configures build spec v native) ∧
      (Raises Exn.IsPermanent (fromInstanceSpec build spec) ↔ ¬ DomainExceeds build spec v) := by
  refine ⟨fun native ↦ fromInstanceSpec_eq_ok_iff hparse, ?_⟩
  constructor
  · intro hraises hexceeds
    obtain ⟨what, hwhat⟩ := fromInstanceSpec_of_exceeds hparse hexceeds
    obtain ⟨error, heq, -⟩ := hraises _ hwhat
    exact Exn.noConfusion heq
  · intro hexceeds
    exact (fromInstanceSpec_raises hparse).mono fun _ he ↦ he.resolve_right hexceeds

/-! ### A domain that exceeds -/

/-- `{"domainId":9223372036854775808,"rmwImplementation":""}` -/
def largeConfiguration : Str :=
  "\x7b\"domainId\":9223372036854775808,\"rmwImplementation\":\"\"\x7d"

/-- What it reads as. -/
def largeDomain : Value :=
  .object [("domainId", .ofUInt64 (2 ^ 63)), ("rmwImplementation", .string [])]

/-- A build whose reader knows the configuration. -/
def largeBuild : Build :=
  Request.referenceBuild (fun _ text ↦ if text = largeConfiguration then .value largeDomain
    else .errors []) fun _ _ ↦ []

def largeSpec : AdapterInstanceSpec where
  configuration := some ⟨some (schemaReference largeBuild.contract.kConfiguration), .json,
    largeConfiguration⟩
  scope := some fastScope
  secretsSize := 0

private theorem largeSpec_readsAs : ReadsAs largeBuild largeSpec largeDomain := by
  rintro c hc
  obtain rfl := Option.some_injective _ hc
  simp only [largeBuild, Request.referenceBuild, if_true]

/-- The spec is refused with an exception that is no `ToolsError`. -/
theorem largeSpec_throws : ReadsAs largeBuild largeSpec largeDomain ∧
    fromInstanceSpec largeBuild largeSpec = .error (.std "LargestUInt out of Int64 range") ∧
    ¬ Raises Exn.IsPermanent (fromInstanceSpec largeBuild largeSpec) := by
  have hthrows : fromInstanceSpec largeBuild largeSpec =
      .error (.std "LargestUInt out of Int64 range") := by
    decide +kernel
  refine ⟨largeSpec_readsAs, hthrows, ?_⟩
  intro hraises
  obtain ⟨error, heq, -⟩ := hraises _ hthrows
  exact Exn.noConfusion heq

theorem fromInstanceSpec_exact_iff_large :
    (∀ native, fromInstanceSpec largeBuild largeSpec = .ok native ↔
        Configures largeBuild largeSpec largeDomain native) ∧
      (Raises Exn.IsPermanent (fromInstanceSpec largeBuild largeSpec) ↔
        ¬ DomainExceeds largeBuild largeSpec largeDomain) :=
  fromInstanceSpec_exact_iff largeBuild largeSpec largeDomain largeSpec_readsAs

end Ros2ToolsAdapter.NativeContext
