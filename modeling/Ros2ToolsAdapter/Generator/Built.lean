import Ros2ToolsAdapter.Artifact.Release
import Ros2ToolsAdapter.Generator.RuntimeManifests
import Ros2ToolsAdapter.Python.Hashlib

/-!
# What is built

The references, the contracts and the manifests that `generate_runtime_manifests.py` builds, as
structures that say what each is made of (`Referenced`, `IsCapability`, `Built`, `ManifestsBuilt`).
All their strings are ASCII and all their integers are below `2 ^ 64`, so that JSON and UTF-8 refuse
none of it: once the arguments are checked, only the schemas can fail
(`build_contracts_of_references`, `build_manifests_of_references`).
-/

namespace Ros2ToolsAdapter.Generator

open Interaction Python
open Artifact (Tools hexdigest)
open Except (bind_eq_ok)

variable {python : Interpreter} {tools : Tools}

theorem ofString_inj {a b : String} : Text.ofString a = Text.ofString b ↔ a = b := by
  rw [Text.ofString, Text.ofString, List.map_inj_right fun _ _ h ↦ Char.toNat_inj.mp h,
    String.toList_inj]

private theorem ofString_beq (a b : String) : (Text.ofString a == Text.ofString b) = (a == b) := by
  by_cases h : a = b
  · simp [h]
  · rw [beq_false_of_ne h, beq_false_of_ne fun heq ↦ h (ofString_inj.mp heq)]

variable (tools) in
/-- Eight bytes are less than two to the sixty-fourth. -/
theorem fingerprint_lt (normalized : ByteArray) : fingerprint tools normalized < 2 ^ 64 := by
  set digits := ((tools.sha256 normalized).toList.take 8).reverse.map UInt8.toNat with hdigits
  have hlt : ∀ d ∈ digits, d < 256 := by
    intro d hd
    obtain ⟨b, -, rfl⟩ := List.mem_map.mp hd
    exact b.toNat_lt
  have hlength : digits.length = 8 := by simp [hdigits]
  have hbound := Nat.ofDigits_lt_base_pow_length (by decide : 1 < 256) hlt
  rw [hlength] at hbound
  exact hbound

/-! ## What build_contracts makes -/

/-- A reference is made of a schema document, by the digest of its normal form. -/
structure Referenced (python : Interpreter) (tools : Tools) (schema_dir : Tree) (key : SchemaKey)
    (reference : Reference) : Prop where
  messageId : reference.messageId = (SCHEMAS key).message_id
  typeName : reference.typeName = (SCHEMAS key).type_name
  schemaVersion : reference.schemaVersion = 1
  document : ∃ node schema normalized, openFile schema_dir (SCHEMAS key).filename = .ok node ∧
    node.readText >>= Json.loads python = .ok schema ∧ normalize python schema = .ok normalized ∧
      reference.schemaFingerprint = fingerprint tools normalized

theorem schema_reference_spec {schema_dir : Tree} {key : SchemaKey} {reference : Reference}
    (h : schema_reference python tools schema_dir key = .ok reference) :
    Referenced python tools schema_dir key reference := by
  rw [schema_reference] at h
  obtain ⟨node, hnode, h⟩ := bind_eq_ok.mp h
  obtain ⟨schema, hschema, h⟩ := bind_eq_ok.mp h
  obtain ⟨get, -, h⟩ := bind_eq_ok.mp h
  obtain ⟨_, -, h⟩ := bind_eq_ok.mp h
  obtain ⟨_, -, h⟩ := bind_eq_ok.mp h
  obtain ⟨normalized, hnormalized, h⟩ := bind_eq_ok.mp h
  obtain ⟨_, -, h⟩ := bind_eq_ok.mp h
  obtain rfl := Except.ok.inj h
  exact ⟨rfl, rfl, rfl, node, schema, normalized, hnode, raising_eq_ok.mp hschema,
    raising_eq_ok.mp hnormalized, rfl⟩

/-- A contract with one endpoint, and the digest of everything else in it. -/
structure IsCapability (python : Interpreter) (tools : Tools) (capability_id : Text)
    (value : EndpointEntry) (entry : CapabilityEntry) : Prop where
  id : entry.id = capability_id
  version : entry.version = 1
  endpoints : entry.endpoints = [value]
  contractDigest : ∃ bytes, canonical_json python entry.body = .ok bytes ∧
    entry.contractDigest = digest_bytes tools bytes

theorem capability_spec {capability_id : Text} {value : EndpointEntry} {entry : CapabilityEntry}
    (h : capability python tools capability_id value = .ok entry) :
    IsCapability python tools capability_id value entry := by
  obtain ⟨bytes, hbytes, h⟩ := bind_eq_ok.mp h
  obtain rfl := Except.ok.inj h
  exact ⟨rfl, rfl, rfl, bytes, hbytes, rfl⟩

/-- The two contracts, in the order of their identifiers. -/
structure Built (python : Interpreter) (tools : Tools) (schema_dir : Tree)
    (references : SchemaKey → Reference) (publish call : CapabilityEntry) : Prop where
  referenced : ∀ key, Referenced python tools schema_dir key (references key)
  publish : IsCapability python tools "xgc.ros2.topic.publish"
    (endpoint "publish" (references .publish_input) (references .publish_output) 1048576) publish
  call : IsCapability python tools "xgc.ros2.service.call"
    (endpoint "call" (references .service_input) (references .service_output) 8388608) call

private theorem mergeSort_pair {a b : CapabilityEntry} (h : ¬a.id ≤ b.id) :
    [a, b].mergeSort (fun x y ↦ x.id ≤ y.id) = [b, a] := by
  simp [List.mergeSort, List.MergeSort.Internal.splitInTwo, h]

theorem build_contracts_spec {schema_dir : Tree} {references : SchemaKey → Reference}
    {contracts : List CapabilityEntry}
    (h : build_contracts python tools schema_dir = .ok (references, contracts)) :
    ∃ publish call, contracts = [call, publish] ∧
      Built python tools schema_dir references publish call := by
  obtain ⟨configuration, hconfiguration, h⟩ := bind_eq_ok.mp h
  obtain ⟨publish_input, hpublish_input, h⟩ := bind_eq_ok.mp h
  obtain ⟨publish_output, hpublish_output, h⟩ := bind_eq_ok.mp h
  obtain ⟨service_input, hservice_input, h⟩ := bind_eq_ok.mp h
  obtain ⟨service_output, hservice_output, h⟩ := bind_eq_ok.mp h
  obtain ⟨publish, hpublish, h⟩ := bind_eq_ok.mp h
  obtain ⟨call, hcall, h⟩ := bind_eq_ok.mp h
  obtain ⟨rfl, rfl⟩ := Prod.mk.inj (Except.ok.inj h)
  have hpublish := capability_spec (raising_eq_ok.mp hpublish)
  have hcall := capability_spec (raising_eq_ok.mp hcall)
  refine ⟨publish, call, ?_, ?_, hpublish, hcall⟩
  · refine mergeSort_pair ?_
    rw [hpublish.id, hcall.id]
    decide +kernel
  · intro key
    cases key with
    | configuration => exact schema_reference_spec hconfiguration
    | publish_input => exact schema_reference_spec hpublish_input
    | publish_output => exact schema_reference_spec hpublish_output
    | service_input => exact schema_reference_spec hservice_input
    | service_output => exact schema_reference_spec hservice_output

/-- What the manifests are made of. -/
structure ManifestsBuilt (python : Interpreter) (tools : Tools) (args : ManifestArguments)
    (executable : ByteArray) (references : SchemaKey → Reference) (publish call : CapabilityEntry)
    (trusted : ByteArray) (adapter process : Value) : Prop where
  executable_node : args.executable_node = some (.file executable)
  ros_package : canonicalName.rmatch args.ros_package = true
  ros_executable : canonicalName.rmatch args.ros_executable = true
  version : semanticVersion.rmatch args.version = true
  contracts : build_contracts python tools args.schema_dir = .ok (references, [call, publish])
  built : Built python tools args.schema_dir references publish call
  digested : canonical_json python (capabilityManifest [call, publish]) = .ok trusted
  adapter : adapter = adapterValue (definitionValue args.version (digest_file tools executable)
    (digest_bytes tools trusted) (references .configuration)) [call, publish]
  process : process = processValue args.ros_package args.ros_executable args.version

theorem build_manifests_spec {args : ManifestArguments} {adapter process : Value}
    (h : build_manifests python tools args = .ok (adapter, process)) :
    ∃ executable references publish call trusted,
      ManifestsBuilt python tools args executable references publish call trusted adapter
        process := by
  obtain ⟨executable, hexecutable, h⟩ := bind_eq_ok.mp h
  obtain ⟨_, hpackage, h⟩ := bind_eq_ok.mp h
  obtain ⟨_, hros, h⟩ := bind_eq_ok.mp h
  obtain ⟨_, hversion, h⟩ := bind_eq_ok.mp h
  obtain ⟨⟨references, contracts⟩, hcontracts, h⟩ := bind_eq_ok.mp h
  obtain ⟨trusted, htrusted, h⟩ := bind_eq_ok.mp h
  obtain ⟨hadapter, hprocess⟩ := Prod.mk.inj (Except.ok.inj h)
  obtain ⟨publish, call, rfl, hbuilt⟩ := build_contracts_spec hcontracts
  rw [throwIf_eq_ok, Bool.not_eq_false] at hpackage hros hversion
  refine ⟨executable, references, publish, call, trusted, ?_, hpackage, hros, hversion, hcontracts,
    hbuilt, raising_eq_ok.mp htrusted, hadapter.symm, hprocess.symm⟩
  rw [executableContent] at hexecutable
  split at hexecutable
  · rename_i hnode
    rw [hnode, Except.ok.inj hexecutable]
  · cases hexecutable

/-! ## Values that can be written -/

/-- The ASCII characters. -/
def ascii (c : ℕ) : Bool := c < 0x80

/-- What is checked of the characters of a literal. -/
theorem all_ofList {p : ℕ → Bool} (chars : List Char)
    (h : chars.all (fun c ↦ p c.toNat) = true) :
    (Text.ofString (String.ofList chars)).all p = true := by
  rw [Text.ofString, String.toList_ofList, List.all_map]
  exact h

private theorem ofList_ne {chars chars' : List Char} (h : chars ≠ chars') :
    Text.ofString (String.ofList chars) ≠ Text.ofString (String.ofList chars') := fun heq ↦
  h (String.ofList_inj.mp (ofString_inj.mp heq))

theorem ofList_ne_nil {chars : List Char} (h : chars ≠ []) :
    Text.ofString (String.ofList chars) ≠ [] := by
  rw [Text.ofString, String.toList_ofList]
  simpa using h

/-- The integers of eight bytes. -/
def short (n : ℤ) : Bool := n.natAbs < 2 ^ 64

theorem ofInt_of_short {n : ℤ} (h : short n = true) : ∃ t, Text.ofInt n = .ok t := by
  have hlt : n.natAbs < 10 ^ 20 := (of_decide_eq_true h).trans (by norm_num)
  have hlength : (Text.decimal n.natAbs).length ≤ 4300 := by
    rw [Text.decimal]
    split
    · decide
    · rw [List.length_map, List.length_reverse]
      exact ((Nat.digits_length_le_iff (by decide) _).mpr hlt).trans (by decide)
  exact ⟨_, if_neg (Nat.not_lt.mpr hlength)⟩

variable (python) in
theorem dumps_ok (style : Json.Style) {v : Value} (hv : v.all ascii short = true) :
    ∃ t, style.dumps python v = .ok t ∧ ∀ c ∈ t, c = 0x0A ∨ 0x20 ≤ c ∧ c < 0x80 := by
  obtain ⟨t, ht⟩ := Json.Style.dumpsAt_ok python style (fun _ hn ↦ ofInt_of_short hn) v hv 0
  refine ⟨t, ht, fun c hc ↦ (Json.Style.dumpsAt_printed python style v hv ht c hc).imp_right ?_⟩
  rintro ⟨hlo, hhi | hascii⟩
  · exact ⟨hlo, hhi.trans_lt (by decide)⟩
  · rw [Json.Style.shown, Bool.and_eq_true] at hascii
    exact ⟨hlo, of_decide_eq_true hascii.2⟩

variable (python) in
private theorem canonical_json_ok {v : Value} (hv : v.all ascii short = true) :
    ∃ bytes, canonical_json python v = .ok bytes := by
  obtain ⟨t, ht, hchars⟩ := dumps_ok python ⟨false, false, false⟩ hv
  obtain ⟨bytes, hbytes⟩ := encodeUtf8_eq_ok fun c hc ↦ by
    have := hchars c hc
    omega
  exact ⟨bytes, bind_eq_ok.mpr ⟨t, ht, hbytes⟩⟩

/-! ## The values of the manifests -/

private theorem ascii_type_name (key : SchemaKey) : ((SCHEMAS key).type_name).all ascii = true := by
  cases key <;> simp only [SCHEMAS] <;> exact all_ofList _ rfl

theorem Referenced.all {schema_dir : Tree} {key : SchemaKey} {reference : Reference}
    (h : Referenced python tools schema_dir key reference) :
    reference.toValue.all ascii short = true := by
  obtain ⟨_, _, normalized, -, -, -, hfingerprint⟩ := h.document
  have hbound := fingerprint_lt tools normalized
  have htype : (reference.typeName).all ascii = true := h.typeName ▸ ascii_type_name key
  have hid : short reference.messageId = true := by
    rw [h.messageId]
    cases key <;> decide
  have hshort : short reference.schemaFingerprint = true := by
    rw [hfingerprint]
    exact decide_eq_true (by simpa using hbound)
  simp only [Reference.toValue, Value.all, Value.allEntries, htype, hid, hshort, h.schemaVersion,
    Bool.and_eq_true, and_true]
  repeat' apply And.intro
  all_goals first | exact all_ofList _ rfl | decide

variable (tools) in
/-- A digest is a word and hexadecimal digits. -/
theorem all_digest_bytes (bytes : ByteArray) : (digest_bytes tools bytes).all ascii = true := by
  have hdigit : ∀ d < 16, ascii (Json.hexDigit d) = true := by decide
  rw [digest_bytes, List.all_append, Bool.and_eq_true]
  refine ⟨all_ofList _ rfl, List.all_eq_true.mpr fun c hc ↦ ?_⟩
  obtain ⟨b, -, hb⟩ := List.mem_flatMap.mp hc
  have hlt := b.toNat_lt
  rcases List.mem_pair.mp hb with rfl | rfl
  · exact hdigit _ (by omega)
  · exact hdigit _ (by omega)

private theorem all_endpoint {endpoint_id : Text} {input output : Reference} {maximum : ℕ}
    (hid : endpoint_id.all ascii = true) (hinput : input.toValue.all ascii short = true)
    (houtput : output.toValue.all ascii short = true) (hmaximum : short maximum = true) :
    (endpoint endpoint_id input output maximum).toValue.all ascii short = true := by
  simp only [EndpointEntry.toValue, endpoint, LimitsEntry.toValue, Value.all, Value.allEntries,
    hid, hinput, houtput, hmaximum, Bool.and_eq_true, and_true]
  repeat' apply And.intro
  all_goals first | exact all_ofList _ rfl | decide

theorem IsCapability.all {capability_id : Text} {value : EndpointEntry} {entry : CapabilityEntry}
    (h : IsCapability python tools capability_id value entry)
    (hid : capability_id.all ascii = true) (hvalue : value.toValue.all ascii short = true) :
    entry.toValue.all ascii short = true := by
  obtain ⟨bytes, -, hdigest⟩ := h.contractDigest
  simp only [CapabilityEntry.toValue, CapabilityEntry.refValue, h.id, h.version, h.endpoints,
    hdigest, List.map_cons, List.map_nil, Value.all, Value.allEntries, Value.allItems,
    all_digest_bytes tools, hid, hvalue, Bool.and_eq_true, and_true]
  repeat' apply And.intro
  all_goals first | exact all_ofList _ rfl | decide

theorem Built.all {schema_dir : Tree} {references : SchemaKey → Reference}
    {publish call : CapabilityEntry}
    (h : Built python tools schema_dir references publish call) :
    (capabilityManifest [call, publish]).all ascii short = true := by
  have hreference (key : SchemaKey) := (h.referenced key).all
  have hpublish := h.publish.all (all_ofList _ rfl)
    (all_endpoint (all_ofList _ rfl) (hreference _) (hreference _) (by decide))
  have hcall := h.call.all (all_ofList _ rfl)
    (all_endpoint (all_ofList _ rfl) (hreference _) (hreference _) (by decide))
  simp only [capabilityManifest, List.map_cons, List.map_nil, Value.all, Value.allEntries,
    Value.allItems, hpublish, hcall, Bool.and_eq_true, and_true]
  repeat' apply And.intro
  all_goals first | exact all_ofList _ rfl | decide

/-- A name or a version that was checked is ASCII. -/
theorem all_of_rmatch {P : RegularExpression ℕ} (hP : P.Over fun c ↦ c < 0x80) {t : Text}
    (ht : P.rmatch t = true) : t.all ascii = true :=
  List.all_eq_true.mpr fun c hc ↦
    decide_eq_true (hP.forall_mem ((RegularExpression.rmatch_iff_matches' P t).mp ht) c hc)

theorem over_canonicalName : canonicalName.Over fun c ↦ c < 0x80 :=
  ⟨RegularExpression.over_oneOf (by decide), RegularExpression.over_oneOf (by decide)⟩

theorem over_semanticVersion : semanticVersion.Over fun c ↦ c < 0x80 := by
  have hnumeral : numeral.Over fun c ↦ c < 0x80 :=
    ⟨RegularExpression.over_oneOf (by decide), RegularExpression.over_oneOf (by decide)⟩
  have hpoint : (RegularExpression.literal [0x2E]).Over fun c ↦ c < 0x80 :=
    RegularExpression.over_literal (by decide)
  exact ⟨⟨⟨⟨hnumeral, hpoint⟩, hnumeral⟩, hpoint⟩, hnumeral⟩

theorem all_definitionValue {version buildDigest trustedManifestDigest : Text}
    {configuration : Reference} (hversion : version.all ascii = true)
    (hbuild : buildDigest.all ascii = true) (htrusted : trustedManifestDigest.all ascii = true)
    (hconfiguration : configuration.toValue.all ascii short = true) :
    (definitionValue version buildDigest trustedManifestDigest configuration).all ascii short =
      true := by
  simp only [definitionValue, strings, List.map_cons, List.map_nil, Value.all, Value.allEntries,
    Value.allItems, hversion, hbuild, htrusted, hconfiguration, Bool.and_eq_true, and_true]
  repeat' apply And.intro
  all_goals first | exact all_ofList _ rfl | decide

theorem all_adapterValue {definition : Value} {contracts : List CapabilityEntry}
    (hdefinition : definition.all ascii short = true)
    (hmanifest : (capabilityManifest contracts).all ascii short = true) :
    (adapterValue definition contracts).all ascii short = true := by
  simp only [adapterValue, Value.all, Value.allEntries, Value.allItems, hdefinition, hmanifest,
    Bool.and_eq_true, and_true]
  repeat' apply And.intro
  all_goals exact all_ofList _ rfl

theorem all_processValue {ros_package ros_executable version : Text}
    (hpackage : ros_package.all ascii = true) (hexecutable : ros_executable.all ascii = true)
    (hversion : version.all ascii = true) :
    (processValue ros_package ros_executable version).all ascii short = true := by
  simp only [processValue, commandArgs, strings, List.map_cons, List.map_nil, Value.all,
    Value.allEntries, Value.allItems, hpackage, hexecutable, hversion, Bool.and_eq_true, and_true]
  repeat' apply And.intro
  all_goals first | exact all_ofList _ rfl | decide

/-! ## Nothing else fails -/

variable (python tools) in
private theorem capability_ok (capability_id : Text) (value : EndpointEntry)
    (hid : capability_id.all ascii = true) (hvalue : value.toValue.all ascii short = true) :
    ∃ entry, capability python tools capability_id value = .ok entry := by
  have hbody : (CapabilityEntry.body ⟨capability_id, 1, [], [value]⟩).all ascii short = true := by
    simp only [CapabilityEntry.body, CapabilityEntry.refValue, List.map_cons, List.map_nil,
      Value.all, Value.allEntries, Value.allItems, hid, hvalue, Bool.and_eq_true, and_true]
    repeat' apply And.intro
    all_goals first | exact all_ofList _ rfl | decide
  obtain ⟨bytes, hbytes⟩ := canonical_json_ok python hbody
  exact ⟨_, bind_eq_ok.mpr ⟨bytes, hbytes, rfl⟩⟩

/-- Of references that were made, contracts are built. -/
theorem build_contracts_of_references {schema_dir : Tree} {references : SchemaKey → Reference}
    (h : ∀ key, schema_reference python tools schema_dir key = .ok (references key)) :
    ∃ contracts, build_contracts python tools schema_dir = .ok (references, contracts) := by
  have hall (key : SchemaKey) := (schema_reference_spec (h key)).all
  obtain ⟨publish, hpublish⟩ := capability_ok python tools "xgc.ros2.topic.publish"
    (endpoint "publish" (references .publish_input) (references .publish_output) 1048576)
    (all_ofList _ rfl)
    (all_endpoint (all_ofList _ rfl) (hall .publish_input) (hall .publish_output) (by decide))
  obtain ⟨call, hcall⟩ := capability_ok python tools "xgc.ros2.service.call"
    (endpoint "call" (references .service_input) (references .service_output) 8388608)
    (all_ofList _ rfl)
    (all_endpoint (all_ofList _ rfl) (hall .service_input) (hall .service_output) (by decide))
  have hreferences : forKeys (references .configuration) (references .publish_input)
      (references .publish_output) (references .service_input) (references .service_output) =
        references := by
    funext key
    cases key <;> rfl
  refine ⟨[publish, call].mergeSort fun a b ↦ a.id ≤ b.id, ?_⟩
  refine bind_eq_ok.mpr ⟨_, h .configuration, bind_eq_ok.mpr ⟨_, h .publish_input, ?_⟩⟩
  refine bind_eq_ok.mpr ⟨_, h .publish_output, bind_eq_ok.mpr ⟨_, h .service_input, ?_⟩⟩
  refine bind_eq_ok.mpr ⟨_, h .service_output, bind_eq_ok.mpr ⟨publish, ?_, ?_⟩⟩
  · exact raising_eq_ok.mpr hpublish
  · refine bind_eq_ok.mpr ⟨call, raising_eq_ok.mpr hcall, ?_⟩
    exact congrArg (fun made ↦ Except.ok (made, _)) hreferences

theorem build_manifests_of_references {args : ManifestArguments} {executable : ByteArray}
    {references : SchemaKey → Reference}
    (hexecutable : args.executable_node = some (.file executable))
    (hpackage : canonicalName.rmatch args.ros_package = true)
    (hros : canonicalName.rmatch args.ros_executable = true)
    (hversion : semanticVersion.rmatch args.version = true)
    (h : ∀ key, schema_reference python tools args.schema_dir key = .ok (references key)) :
    ∃ adapter process, build_manifests python tools args = .ok (adapter, process) := by
  obtain ⟨contracts, hcontracts⟩ := build_contracts_of_references h
  obtain ⟨publish, call, rfl, hbuilt⟩ := build_contracts_spec hcontracts
  obtain ⟨trusted, htrusted⟩ := canonical_json_ok python hbuilt.all
  refine ⟨adapterValue (definitionValue args.version (digest_file tools executable)
    (digest_bytes tools trusted) (references .configuration)) [call, publish],
    processValue args.ros_package args.ros_executable args.version, ?_⟩
  refine bind_eq_ok.mpr ⟨executable, by rw [executableContent, hexecutable], ?_⟩
  refine bind_eq_ok.mpr ⟨(), throwIf_eq_ok.mpr (by simp [hpackage]), ?_⟩
  refine bind_eq_ok.mpr ⟨(), throwIf_eq_ok.mpr (by simp [hros]), ?_⟩
  refine bind_eq_ok.mpr ⟨(), throwIf_eq_ok.mpr (by simp [hversion]), ?_⟩
  refine bind_eq_ok.mpr ⟨_, hcontracts, ?_⟩
  exact bind_eq_ok.mpr ⟨trusted, raising_eq_ok.mpr htrusted, rfl⟩

/-! ## A directory of schemas -/

/-- Each schema has a file of its own. -/
theorem filename_beq (key key' : SchemaKey) :
    ((SCHEMAS key).filename == (SCHEMAS key').filename) = decide (key = key') := by
  by_cases h : key = key'
  · simp [h]
  · rw [decide_eq_false h, beq_eq_false_iff_ne]
    cases key <;> cases key' <;> simp only [SCHEMAS] <;>
      first | exact absurd rfl h | exact ofList_ne (by decide)

def titledEntries (title : SchemaKey → Text) (key : SchemaKey) : List (Text × Value) :=
  [("$id", .str (SCHEMAS key).type_name),
    ("$schema", .str "https://json-schema.org/draft/2020-12/schema"), ("title", .str (title key)),
    ("type", .str "object")]

/-- What is found under the name of a key, when the names differ. -/
theorem lookup_file {name : SchemaKey → Text}
    (hname : ∀ key key', (name key == name key') = decide (key = key')) (node : SchemaKey → Node)
    (key : SchemaKey) : List.lookup [name key] [([name .configuration], node .configuration),
      ([name .publish_input], node .publish_input), ([name .publish_output], node .publish_output),
      ([name .service_input], node .service_input),
      ([name .service_output], node .service_output)] = some (node key) := by
  cases key <;> simp [List.lookup_cons, hname]

/-- The least a schema can be, with a title. -/
def titled (title : SchemaKey → Text) (key : SchemaKey) : Value := .dict (titledEntries title key)

def titledContent (title : SchemaKey → Text) (key : SchemaKey) : ByteArray :=
  match canonical_json Artifact.plainPython (titled title key) with
  | .ok bytes => bytes
  | .error _ => .empty

def titledEntry (title : SchemaKey → Text) (key : SchemaKey) : Entry :=
  ([(SCHEMAS key).filename], .file (titledContent title key))

def titledDir (title : SchemaKey → Text) : Tree where
  entries := [titledEntry title .configuration, titledEntry title .publish_input,
    titledEntry title .publish_output, titledEntry title .service_input,
    titledEntry title .service_output]
  nodup := by
    have hne {key key' : SchemaKey} (h : key ≠ key') :
        (SCHEMAS key).filename ≠ (SCHEMAS key').filename := by
      rw [← beq_eq_false_iff_ne, filename_beq, decide_eq_false h]
    simp [titledEntry, hne]
  named := by
    have hname (key : SchemaKey) :
        (SCHEMAS key).filename ≠ [] ∧ 0x2F ∉ (SCHEMAS key).filename := by
      have hplain : ((SCHEMAS key).filename).all (· ≠ 0x2F) = true := by
        cases key <;> simp only [SCHEMAS] <;> exact all_ofList _ rfl
      have hnonempty : (SCHEMAS key).filename ≠ [] := by
        cases key <;> simp only [SCHEMAS] <;> exact ofList_ne_nil (by decide)
      exact ⟨hnonempty, fun hmem ↦ by simpa using List.all_eq_true.mp hplain _ hmem⟩
    simp [titledEntry, hname]
  parents := by simp [titledEntry]

def titledReference (tools : Tools) (title : SchemaKey → Text) (key : SchemaKey) : Reference where
  messageId := (SCHEMAS key).message_id
  typeName := (SCHEMAS key).type_name
  schemaVersion := 1
  schemaFingerprint := fingerprint tools (titledContent title key)

def hashTools : Tools where
  dpkgDeb _ := .error .calledProcessError
  sha256 := Sha256.digest

section Titled

variable {title : SchemaKey → Text} {key : SchemaKey}

theorem openFile_titled (title : SchemaKey → Text) (key : SchemaKey) :
    openFile (titledDir title) (SCHEMAS key).filename = .ok (.file (titledContent title key)) := by
  rw [openFile, titledDir]
  simp only [titledEntry]
  rw [lookup_file filename_beq fun key ↦ Node.file (titledContent title key)]

private theorem sorted_titled (title : SchemaKey → Text) (key : SchemaKey) :
    (titled title key).sorted = titled title key := by
  have hkeys : (["$id", "$schema", "title", "type"] : List Text).Pairwise
      fun a b ↦ decide (a ≤ b) := by decide +kernel
  have hpairwise : (titledEntries title key).Pairwise fun a b ↦ decide (a.1 ≤ b.1) := by
    rw [← List.pairwise_map (R := fun a b ↦ decide (a ≤ b))]
    exact hkeys
  have hentries : Value.sortedEntries (titledEntries title key) = titledEntries title key := rfl
  rw [titled, Value.sorted, Value.sortByKey, hentries, List.mergeSort_of_pairwise hpairwise]

private theorem dumps_titled (style : Json.Style) (hascii : style.ensure_ascii = false)
    (hindent : style.indent = false) {t : Text}
    (ht : Json.Style.dumps Artifact.plainPython ⟨false, false, false⟩ (titled title key) = .ok t) :
    style.dumps Artifact.plainPython (titled title key) = .ok t := by
  have harrange : style.arrange (titled title key) = titled title key := by
    cases hsort : style.sort_keys with
    | false => exact Json.Style.arrange_of_unsorted style hsort _
    | true => rw [Json.Style.arrange_of_sorted style hsort, sorted_titled]
  rw [Json.Style.dumps, Json.Style.dumpsAt_arrange, harrange]
  have hstyle : style.unsorted = ⟨false, false, false⟩ := by
    rw [Json.Style.unsorted, hascii, hindent]
  rwa [hstyle]

private theorem all_titled (htitle : (title key).all ascii = true) :
    (titled title key).all ascii short = true := by
  simp only [titled, titledEntries, Value.all, Value.allEntries, ascii_type_name, htitle,
    Bool.and_eq_true, and_true]
  repeat' apply And.intro
  all_goals exact all_ofList _ rfl

/-- The file holds the schema, in its normal form. -/
theorem titled_spec (htitle : (title key).all ascii = true) :
    (Node.file (titledContent title key)).readText >>= Json.loads Artifact.plainPython =
        .ok (titled title key) ∧
      normalize Artifact.plainPython (titled title key) = .ok (titledContent title key) := by
  obtain ⟨t, ht, hchars⟩ := dumps_ok Artifact.plainPython ⟨false, false, false⟩ (all_titled htitle)
  obtain ⟨bytes, hbytes⟩ := encodeUtf8_eq_ok fun c hc ↦ by
    have := hchars c hc
    omega
  have hcontent : titledContent title key = bytes := by
    have hcanonical : canonical_json Artifact.plainPython (titled title key) = .ok bytes :=
      bind_eq_ok.mpr ⟨t, ht, hbytes⟩
    rw [titledContent, hcanonical]
  have hreturn : 0x0D ∉ t := fun hmem ↦ by
    have := hchars 0x0D hmem
    omega
  have hkeyed : (titled title key).Keyed := by
    simp [titled, titledEntries, Value.Keyed, Value.KeyedEntries, ofString_inj]
  rw [hcontent]
  constructor
  · refine bind_eq_ok.mpr ⟨t, readText_encodeUtf8 hbytes hreturn, ?_⟩
    have hloads := Json.Style.loads_dumps Artifact.plainPython ⟨false, false, false⟩
      (fun c _ ↦ Json.Style.keeps_of_raw rfl c) hkeyed (all_titled htitle)
      (Nat.le_of_ble_eq_true rfl) (List.forall_mem_nil _) ht
    rwa [List.append_nil, Json.Style.arrange_of_unsorted _ rfl] at hloads
  · exact bind_eq_ok.mpr ⟨t, dumps_titled ⟨false, true, false⟩ rfl rfl ht, hbytes⟩

theorem schema_reference_titled (htitle : (title key).all ascii = true)
    (hfingerprint : fingerprint tools (titledContent title key) ≠ 0) :
    schema_reference Artifact.plainPython tools (titledDir title) key =
      .ok (titledReference tools title key) := by
  obtain ⟨hdocument, hnormal⟩ := titled_spec htitle
  refine bind_eq_ok.mpr ⟨_, openFile_titled title key, ?_⟩
  refine bind_eq_ok.mpr ⟨_, raising_eq_ok.mpr hdocument, bind_eq_ok.mpr ⟨_, rfl, ?_⟩⟩
  refine bind_eq_ok.mpr ⟨(), throwIf_eq_ok.mpr ?_, bind_eq_ok.mpr ⟨(), throwIf_eq_ok.mpr ?_, ?_⟩⟩
  · simp [titledEntries, List.lookup_cons, ofString_beq, Value.eq]
  · simp [titledEntries, List.lookup_cons, ofString_beq, Value.eq]
  refine bind_eq_ok.mpr ⟨_, raising_eq_ok.mpr hnormal, ?_⟩
  exact bind_eq_ok.mpr ⟨(), throwIf_eq_ok.mpr hfingerprint, rfl⟩

end Titled

/-- One title for all schemas. -/
def oneTitle : SchemaKey → Text := fun _ ↦ "Schema"

theorem fingerprint_oneTitle (key : SchemaKey) :
    fingerprint hashTools (titledContent oneTitle key) ≠ 0 := by
  cases key <;> decide +kernel

theorem references_oneTitle (key : SchemaKey) :
    schema_reference Artifact.plainPython hashTools (titledDir oneTitle) key =
      .ok (titledReference hashTools oneTitle key) := by
  have htitle : ("Schema" : Text).all ascii = true := all_ofList _ rfl
  exact schema_reference_titled htitle (fingerprint_oneTitle key)

def oneTitleArguments : ManifestArguments where
  executable := ⟨"/", ["adapter"]⟩
  executable_node := some (.file .empty)
  ros_package := "adapter"
  ros_executable := "adapter"
  schema_dir := titledDir oneTitle
  version := "0.1.0"

theorem build_manifests_oneTitle : ∃ adapter process,
    build_manifests Artifact.plainPython hashTools oneTitleArguments = .ok (adapter, process) :=
  build_manifests_of_references rfl (by decide +kernel) (by decide +kernel) (by decide +kernel)
    references_oneTitle

end Ros2ToolsAdapter.Generator
