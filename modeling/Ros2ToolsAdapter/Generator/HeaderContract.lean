import Ros2ToolsAdapter.Generator.ContractMetadata
import Ros2ToolsAdapter.Python.JsonRoundTrip

/-!
# What the generated header declares

The header is text around initializers. Each of these is the text of a `Cpp.Init`, so it reads as
written, and with the structures declared above it the three constants have the values the contracts
have (`ofSource_header`), provided that numbers fit their members and no string has a line break in
it.
-/

namespace Ros2ToolsAdapter.Generator.ContractMetadata

open Python
open Cpp (Init Member spell word standard)

/-! ## Initializers -/

/-- Backslashes first and then quotes: the second pass leaves the first one's alone. -/
theorem cpp_string_eq (value : Text) : cpp_string value = Cpp.quoted value := by
  have hchar (c : ℕ) : replaceChar 0x22 [0x5C, 0x22] (if c = 0x5C then [0x5C, 0x5C] else [c]) =
      if c = 0x22 ∨ c = 0x5C then [0x5C, c] else [c] := by
    by_cases hbackslash : c = 0x5C
    · rw [hbackslash]
      decide
    · by_cases hquote : c = 0x22
      · rw [hquote]
        decide
      · simp [replaceChar, hbackslash, hquote]
  have hpass : replaceChar 0x22 [0x5C, 0x22] (replaceChar 0x5C [0x5C, 0x5C] value) =
      value.flatMap fun c ↦ if c = 0x22 ∨ c = 0x5C then [0x5C, c] else [c] := by
    induction value with
    | nil => rfl
    | cons c value ih =>
      have hsplit : replaceChar 0x5C [0x5C, 0x5C] (c :: value) =
          (if c = 0x5C then [0x5C, 0x5C] else [c]) ++ replaceChar 0x5C [0x5C, 0x5C] value :=
        List.flatMap_cons
      rw [List.flatMap_cons, ← ih, ← hchar c, hsplit]
      exact List.flatMap_append
  rw [cpp_string, hpass, Cpp.quoted]

private theorem braced_map_text (items : List Init) :
    braced (items.map Init.text) = (Init.braces items).text := by
  have hrest (items : List Init) (t : Text) :
      List.intercalate (", " : Text) (t :: items.map Init.text) = t ++ Init.restText items := by
    induction items generalizing t with
    | nil => simp [Init.restText]
    | cons item items ih =>
      rw [List.map_cons, List.intercalate_cons_cons, ih, Init.restText]
      simp [Text.ofString]
  rw [braced, Init.text]
  cases items with
  | nil => rfl
  | cons item items => rw [List.map_cons, hrest, Init.itemsText]

def schemaInit (value : Reference) : List Init :=
  [.integer (unsigned value.messageId), .string value.typeName,
    .integer (unsigned value.schemaVersion),
    .integer (Text.decimal value.schemaFingerprint ++ ("ULL" : Text))]

def limitsInit (limits : LimitsEntry) : List Init :=
  [.integer (unsigned limits.maximumRequestBytes), .integer (unsigned limits.maximumResponseBytes),
    .integer (unsigned limits.maximumConcurrency), .integer (unsigned limits.maximumStreams),
    .integer (unsigned limits.maximumStreamChunkBytes),
    .integer (unsigned limits.maximumStreamChunkMessages)]

def endpointInit (value : CapabilityEntry) (item : EndpointEntry) : List Init :=
  [.string value.id, .integer (unsigned value.version), .string value.contractDigest,
    .string item.endpointId, .braces (schemaInit item.inputSchema),
    .braces (schemaInit item.outputSchema), .integer (unsigned item.defaultTimeoutMillis),
    .integer (unsigned item.maximumTimeoutMillis), .braces (limitsInit item.limits)]

private theorem schema_eq (value : Reference) :
    schema value = (Init.braces (schemaInit value)).text := by
  rw [← braced_map_text, schema, cpp_string_eq]
  simp only [schemaInit, List.map_cons, List.map_nil, Init.text]

private theorem limitsText_eq (limits : LimitsEntry) :
    limitsText limits = (Init.braces (limitsInit limits)).text := by
  rw [← braced_map_text, limitsText]
  simp only [limitsInit, List.map_cons, List.map_nil, Init.text]

private theorem endpoint_eq (value : CapabilityEntry) (item : EndpointEntry) :
    endpoint value item = (Init.braces (endpointInit value item)).text := by
  rw [← braced_map_text, endpoint, schema_eq, schema_eq, limitsText_eq]
  simp only [endpointInit, List.map_cons, List.map_nil, Init.text, cpp_string_eq]

/-- A number with a suffix is a literal, and worth the number. -/
theorem decimal_suffix (n : ℕ) {suffix : Text} (h : suffix = [0x75] ∨ suffix = [0x55, 0x4C, 0x4C]) :
    (Init.integer (Text.decimal n ++ suffix)).WellFormed ∧
      Cpp.integerValue (Text.decimal n ++ suffix) = some n := by
  have hdigits : ∀ c ∈ Text.decimal n, Cpp.isDigit c = true :=
    fun c hc ↦ Json.isDigit_of_mem_decimal hc
  have hnonempty := Json.decimal_ne_nil n
  have hletters : ∀ c ∈ suffix, (Cpp.isLetter c || Cpp.isDigit c) = true := by
    rcases h with rfl | rfl <;> decide
  refine ⟨⟨?_, fun c hc ↦ ?_⟩, ?_⟩
  · cases hdecimal : Text.decimal n with
    | nil => exact absurd hdecimal hnonempty
    | cons first digits => exact ⟨first, rfl, hdigits first (by simp [hdecimal])⟩
  · rcases List.mem_append.mp hc with hc | hc
    · simp [hdigits c hc]
    · exact hletters c hc
  · rw [Cpp.integerValue_append hdigits hnonempty _ h]
    · exact congrArg some (Json.ofDecimal_decimal n)
    · intro hzero
      rw [Json.decimal_of_head_zero hzero]
      rfl

/-! ## What fits -/

/-- A reference that the members of `Schema` can hold. -/
structure Reference.Fits (value : Reference) : Prop where
  messageId : value.messageId < 2 ^ 32
  typeName : 0x0A ∉ value.typeName
  schemaVersion : value.schemaVersion < 2 ^ 32
  schemaFingerprint : value.schemaFingerprint < 2 ^ 64

/-- Limits that the members of `Limits` can hold. -/
structure LimitsEntry.Fits (limits : LimitsEntry) : Prop where
  maximumRequestBytes : limits.maximumRequestBytes < 2 ^ 32
  maximumResponseBytes : limits.maximumResponseBytes < 2 ^ 32
  maximumConcurrency : limits.maximumConcurrency < 2 ^ 32
  maximumStreams : limits.maximumStreams < 2 ^ 32
  maximumStreamChunkBytes : limits.maximumStreamChunkBytes < 2 ^ 32
  maximumStreamChunkMessages : limits.maximumStreamChunkMessages < 2 ^ 32

/-- A contract and an endpoint that the members of `Endpoint` can hold. -/
structure EndpointFits (value : CapabilityEntry) (item : EndpointEntry) : Prop where
  id : 0x0A ∉ value.id
  version : value.version < 2 ^ 32
  contractDigest : 0x0A ∉ value.contractDigest
  endpointId : 0x0A ∉ item.endpointId
  inputSchema : Reference.Fits item.inputSchema
  outputSchema : Reference.Fits item.outputSchema
  defaultTimeoutMillis : item.defaultTimeoutMillis < 2 ^ 32
  maximumTimeoutMillis : item.maximumTimeoutMillis < 2 ^ 32
  limits : LimitsEntry.Fits item.limits

private theorem wellFormed_unsigned (n : ℕ) : (Init.integer (unsigned n)).WellFormed :=
  (decimal_suffix n (Or.inl rfl)).1

private theorem wellFormed_schemaInit {value : Reference} (h : Reference.Fits value) :
    Init.AllWellFormed (schemaInit value) :=
  ⟨wellFormed_unsigned _, h.typeName, wellFormed_unsigned _,
    (decimal_suffix _ (Or.inr rfl)).1, trivial⟩

private theorem wellFormed_limitsInit (limits : LimitsEntry) :
    Init.AllWellFormed (limitsInit limits) :=
  ⟨wellFormed_unsigned _, wellFormed_unsigned _, wellFormed_unsigned _, wellFormed_unsigned _,
    wellFormed_unsigned _, wellFormed_unsigned _, trivial⟩

private theorem wellFormed_endpointInit {value : CapabilityEntry} {item : EndpointEntry}
    (h : EndpointFits value item) : Init.AllWellFormed (endpointInit value item) :=
  ⟨h.id, wellFormed_unsigned _, h.contractDigest, h.endpointId,
    wellFormed_schemaInit h.inputSchema, wellFormed_schemaInit h.outputSchema,
    wellFormed_unsigned _, wellFormed_unsigned _, wellFormed_limitsInit _, trivial⟩

/-! ## The structures -/

def integer32 (name : String) : Member := ⟨standard "uint32_t", spell name⟩

def chars (name : String) : Member := ⟨[word "const", word "char", .symbol 0x2A], spell name⟩

def schemaMembers : List Member :=
  [integer32 "message_id", chars "type_name", integer32 "version",
    ⟨standard "uint64_t", spell "fingerprint"⟩]

def limitsMembers : List Member :=
  [integer32 "maximum_request_bytes", integer32 "maximum_response_bytes",
    integer32 "maximum_concurrency", integer32 "maximum_streams",
    integer32 "maximum_stream_chunk_bytes", integer32 "maximum_stream_chunk_messages"]

def endpointMembers : List Member :=
  [chars "capability_id", integer32 "contract_version", chars "contract_digest",
    chars "endpoint_id", ⟨[word "Schema"], spell "input_schema"⟩,
    ⟨[word "Schema"], spell "output_schema"⟩, integer32 "default_timeout_ms",
    integer32 "maximum_timeout_ms", ⟨[word "Limits"], spell "limits"⟩]

set_option maxRecDepth 10000 in
private theorem declares_headerStart : Cpp.Declares headerStart
    [.struct (spell "Schema") schemaMembers, .struct (spell "Limits") limitsMembers,
      .struct (spell "Endpoint") endpointMembers] := by
  rw [← Cpp.declarations_eq_some_iff]
  simp only [headerStart, Text.ofString, String.toList_append]
  repeat rw [String.toList_ofList]
  rfl

private theorem declares_headerEnd : Cpp.Declares headerEnd [] := by
  rw [← Cpp.declarations_eq_some_iff, headerEnd, Text.ofString, String.toList_ofList]
  rfl

/-! ## Values -/

/-- The structures where the constants are declared. -/
def structures : Cpp.Structures :=
  [(spell "Endpoint", endpointMembers), (spell "Limits", limitsMembers),
    (spell "Schema", schemaMembers)]

def schemaConst (value : Reference) : Cpp.Const :=
  .object [(spell "message_id", .integer value.messageId),
    (spell "type_name", .string value.typeName), (spell "version", .integer value.schemaVersion),
    (spell "fingerprint", .integer value.schemaFingerprint)]

def limitsConst (limits : LimitsEntry) : Cpp.Const :=
  .object [(spell "maximum_request_bytes", .integer limits.maximumRequestBytes),
    (spell "maximum_response_bytes", .integer limits.maximumResponseBytes),
    (spell "maximum_concurrency", .integer limits.maximumConcurrency),
    (spell "maximum_streams", .integer limits.maximumStreams),
    (spell "maximum_stream_chunk_bytes", .integer limits.maximumStreamChunkBytes),
    (spell "maximum_stream_chunk_messages", .integer limits.maximumStreamChunkMessages)]

def endpointConst (value : CapabilityEntry) (item : EndpointEntry) : Cpp.Const :=
  .object [(spell "capability_id", .string value.id),
    (spell "contract_version", .integer value.version),
    (spell "contract_digest", .string value.contractDigest),
    (spell "endpoint_id", .string item.endpointId),
    (spell "input_schema", schemaConst item.inputSchema),
    (spell "output_schema", schemaConst item.outputSchema),
    (spell "default_timeout_ms", .integer item.defaultTimeoutMillis),
    (spell "maximum_timeout_ms", .integer item.maximumTimeoutMillis),
    (spell "limits", limitsConst item.limits)]

private theorem evaluate_unsigned {n : ℕ} (h : n < 2 ^ 32) (name : String) :
    Cpp.evaluate structures (integer32 name).type (.integer (unsigned n)) = some (.integer n) := by
  have hbound : Cpp.integerBound (integer32 name).type = some (2 ^ 32) := if_pos rfl
  exact Cpp.evaluate_integer hbound (decimal_suffix n (Or.inl rfl)).2 h

private theorem evaluate_fingerprint {n : ℕ} (h : n < 2 ^ 64) :
    Cpp.evaluate structures (standard "uint64_t")
      (.integer (Text.decimal n ++ ("ULL" : Text))) = some (.integer n) := by
  have hbound : Cpp.integerBound (standard "uint64_t") = some (2 ^ 64) := by decide
  exact Cpp.evaluate_integer hbound (decimal_suffix n (Or.inr rfl)).2 h

private theorem evaluate_schema {value : Reference} (h : Reference.Fits value) :
    Cpp.evaluate structures [word "Schema"] (.braces (schemaInit value)) =
      some (schemaConst value) := by
  have hname : structures.lookup (spell "Schema") = some schemaMembers := rfl
  refine Cpp.evaluate_braces hname ?_
  refine Cpp.evaluateMembers_cons (evaluate_unsigned h.messageId _) ?_
  refine Cpp.evaluateMembers_cons (Cpp.evaluate_string _) ?_
  refine Cpp.evaluateMembers_cons (evaluate_unsigned h.schemaVersion _) ?_
  exact Cpp.evaluateMembers_cons (evaluate_fingerprint h.schemaFingerprint) rfl

private theorem evaluate_limits {limits : LimitsEntry} (h : LimitsEntry.Fits limits) :
    Cpp.evaluate structures [word "Limits"] (.braces (limitsInit limits)) =
      some (limitsConst limits) := by
  have hname : structures.lookup (spell "Limits") = some limitsMembers := rfl
  refine Cpp.evaluate_braces hname ?_
  refine Cpp.evaluateMembers_cons (evaluate_unsigned h.maximumRequestBytes _) ?_
  refine Cpp.evaluateMembers_cons (evaluate_unsigned h.maximumResponseBytes _) ?_
  refine Cpp.evaluateMembers_cons (evaluate_unsigned h.maximumConcurrency _) ?_
  refine Cpp.evaluateMembers_cons (evaluate_unsigned h.maximumStreams _) ?_
  refine Cpp.evaluateMembers_cons (evaluate_unsigned h.maximumStreamChunkBytes _) ?_
  exact Cpp.evaluateMembers_cons (evaluate_unsigned h.maximumStreamChunkMessages _) rfl

private theorem evaluate_endpoint {value : CapabilityEntry} {item : EndpointEntry}
    (h : EndpointFits value item) :
    Cpp.evaluate structures [word "Endpoint"] (.braces (endpointInit value item)) =
      some (endpointConst value item) := by
  have hname : structures.lookup (spell "Endpoint") = some endpointMembers := rfl
  refine Cpp.evaluate_braces hname ?_
  refine Cpp.evaluateMembers_cons (Cpp.evaluate_string _) ?_
  refine Cpp.evaluateMembers_cons (evaluate_unsigned h.version _) ?_
  refine Cpp.evaluateMembers_cons (Cpp.evaluate_string _) ?_
  refine Cpp.evaluateMembers_cons (Cpp.evaluate_string _) ?_
  refine Cpp.evaluateMembers_cons (evaluate_schema h.inputSchema) ?_
  refine Cpp.evaluateMembers_cons (evaluate_schema h.outputSchema) ?_
  refine Cpp.evaluateMembers_cons (evaluate_unsigned h.defaultTimeoutMillis _) ?_
  refine Cpp.evaluateMembers_cons (evaluate_unsigned h.maximumTimeoutMillis _) ?_
  exact Cpp.evaluateMembers_cons (evaluate_limits h.limits) rfl

/-! ## The header -/

/-- The schema a reference is compiled to. -/
def schemaOf (value : Reference) : Schema where
  messageId := value.messageId
  typeName := utf8 value.typeName
  version := value.schemaVersion
  fingerprint := value.schemaFingerprint

/-- The endpoint a contract is compiled to. -/
def endpointOf (value : CapabilityEntry) (item : EndpointEntry) : Endpoint where
  capabilityId := utf8 value.id
  contractVersion := value.version
  contractDigest := utf8 value.contractDigest
  endpointId := utf8 item.endpointId
  inputSchema := schemaOf item.inputSchema
  outputSchema := schemaOf item.outputSchema
  defaultTimeoutMs := item.defaultTimeoutMillis
  maximumTimeoutMs := item.maximumTimeoutMillis
  limits := {
    maximumRequestBytes := item.limits.maximumRequestBytes
    maximumResponseBytes := item.limits.maximumResponseBytes
    maximumConcurrency := item.limits.maximumConcurrency }

private theorem ofConst_schemaConst (value : Reference) :
    Schema.ofConst (schemaConst value) = some (schemaOf value) := by
  simp [Schema.ofConst, schemaConst, integerMember, stringMember, Cpp.Const.asInteger,
    Cpp.Const.asString, schemaOf]

private theorem ofConst_limitsConst (limits : LimitsEntry) :
    Limits.ofConst (limitsConst limits) = some {
      maximumRequestBytes := limits.maximumRequestBytes
      maximumResponseBytes := limits.maximumResponseBytes
      maximumConcurrency := limits.maximumConcurrency } := by
  simp [Limits.ofConst, limitsConst, integerMember, Cpp.Const.asInteger]

private theorem ofConst_endpointConst (value : CapabilityEntry) (item : EndpointEntry) :
    Endpoint.ofConst (endpointConst value item) = some (endpointOf value item) := by
  simp [Endpoint.ofConst, endpointConst, integerMember, stringMember, Cpp.Const.asInteger,
    Cpp.Const.asString, endpointOf, ofConst_schemaConst, ofConst_limitsConst]

/-- The tokens of a declaration up to its equals sign. -/
def declarationTokens (type name : String) : List Cpp.Token :=
  [word "inline", word "constexpr", word type, word name, .symbol 0x3D]

private theorem declares_constantText {declaration : Text} {type name : String} {items : List Init}
    (hlex : Cpp.Transduces Cpp.Lexer.step .between declaration (declarationTokens type name)
      .between) (h : Init.AllWellFormed items) :
    Cpp.Declares (constantText declaration (Init.braces items).text)
      [.constant [word type] (spell name) (.braces items)] :=
  Cpp.declares_constant hlex rfl h

theorem constants_header {configuration : Reference}
    {publish call : CapabilityEntry × EndpointEntry}
    (hconfiguration : Reference.Fits configuration) (hpublish : EndpointFits publish.1 publish.2)
    (hcall : EndpointFits call.1 call.2) :
    Cpp.constants (header configuration publish call) =
      some [(spell "kConfiguration", schemaConst configuration),
        (spell "kPublish", endpointConst publish.1 publish.2),
        (spell "kService", endpointConst call.1 call.2)] := by
  have hdeclares : Cpp.Declares (header configuration publish call)
      ([.struct (spell "Schema") schemaMembers, .struct (spell "Limits") limitsMembers,
        .struct (spell "Endpoint") endpointMembers] ++
      [.constant [word "Schema"] (spell "kConfiguration") (.braces (schemaInit configuration))] ++
      [.constant [word "Endpoint"] (spell "kPublish")
        (.braces (endpointInit publish.1 publish.2))] ++
      [.constant [word "Endpoint"] (spell "kService") (.braces (endpointInit call.1 call.2))] ++
      []) := by
    rw [header, schema_eq, endpoint_eq, endpoint_eq]
    refine (((declares_headerStart.append ?_).append ?_).append ?_).append declares_headerEnd
    · exact declares_constantText (by decide +kernel) (wellFormed_schemaInit hconfiguration)
    · exact declares_constantText (by decide +kernel) (wellFormed_endpointInit hpublish)
    · exact declares_constantText (by decide +kernel) (wellFormed_endpointInit hcall)
  have hconstants : Cpp.evaluateAll structures
      [.constant [word "Schema"] (spell "kConfiguration") (.braces (schemaInit configuration)),
        .constant [word "Endpoint"] (spell "kPublish") (.braces (endpointInit publish.1 publish.2)),
        .constant [word "Endpoint"] (spell "kService") (.braces (endpointInit call.1 call.2))] =
      some [(spell "kConfiguration", schemaConst configuration),
        (spell "kPublish", endpointConst publish.1 publish.2),
        (spell "kService", endpointConst call.1 call.2)] := by
    simp [Cpp.evaluateAll, evaluate_schema hconfiguration, evaluate_endpoint hpublish,
      evaluate_endpoint hcall]
  rw [Cpp.constants, Cpp.declarations_eq_some_iff.mpr hdeclares]
  exact hconstants

/-- **The header declares the contracts it was made from.** -/
theorem ofSource_header {configuration : Reference} {publish call : CapabilityEntry × EndpointEntry}
    (hconfiguration : Reference.Fits configuration) (hpublish : EndpointFits publish.1 publish.2)
    (hcall : EndpointFits call.1 call.2) :
    Contract.ofSource (header configuration publish call) = some {
      kConfiguration := schemaOf configuration
      kPublish := endpointOf publish.1 publish.2
      kService := endpointOf call.1 call.2 } := by
  simp [Contract.ofSource, constants_header hconfiguration hpublish hcall, ofConst_schemaConst,
    ofConst_endpointConst]

end Ros2ToolsAdapter.Generator.ContractMetadata
