import Ros2ToolsAdapter.Adapter.Contract
import Ros2ToolsAdapter.Foundation.CppSource
import Ros2ToolsAdapter.Generator.RuntimeManifests

/-!
# The generated contract

`generate_contract_metadata.py` writes `generated_contract.hpp`, which the adapter is compiled with:
three constants, each with braces around its values. `Contract.ofSource` is what a compiler makes of
the file. The structures are declared in the file itself, so that a value under the wrong name, or
one that does not fit its member, would show.
-/

namespace Ros2ToolsAdapter

/-! ## The contract a source file declares -/

/-- A string literal in the execution character set. -/
def utf8 (t : Python.Text) : Str := t.flatMap fun c ↦ String.utf8EncodeChar (Char.ofNat c)

def integerMember (c : Cpp.Const) (name : String) : Option ℕ :=
  (c.member name).bind Cpp.Const.asInteger

def stringMember (c : Cpp.Const) (name : String) : Option Str :=
  ((c.member name).bind Cpp.Const.asString).map utf8

def Schema.ofConst (c : Cpp.Const) : Option Schema := do
  return {
    messageId := ← integerMember c "message_id"
    typeName := ← stringMember c "type_name"
    version := ← integerMember c "version"
    fingerprint := ← integerMember c "fingerprint" }

def Limits.ofConst (c : Cpp.Const) : Option Limits := do
  return {
    maximumRequestBytes := ← integerMember c "maximum_request_bytes"
    maximumResponseBytes := ← integerMember c "maximum_response_bytes"
    maximumConcurrency := ← integerMember c "maximum_concurrency" }

def Endpoint.ofConst (c : Cpp.Const) : Option Endpoint := do
  return {
    capabilityId := ← stringMember c "capability_id"
    contractVersion := ← integerMember c "contract_version"
    contractDigest := ← stringMember c "contract_digest"
    endpointId := ← stringMember c "endpoint_id"
    inputSchema := ← (c.member "input_schema").bind Schema.ofConst
    outputSchema := ← (c.member "output_schema").bind Schema.ofConst
    defaultTimeoutMs := ← integerMember c "default_timeout_ms"
    maximumTimeoutMs := ← integerMember c "maximum_timeout_ms"
    limits := ← (c.member "limits").bind Limits.ofConst }

/-- The constants `tools_adapter.cpp` finds in a header. -/
def Contract.ofSource (text : Python.Text) : Option Contract := do
  let file := Cpp.Const.object (← Cpp.constants text)
  return {
    kConfiguration := ← (file.member "kConfiguration").bind Schema.ofConst
    kPublish := ← (file.member "kPublish").bind Endpoint.ofConst
    kService := ← (file.member "kService").bind Endpoint.ofConst }

namespace Generator.ContractMetadata

open Interaction Python
open Artifact (Tools FileOp)

/-! ## The generator -/

/-- `t.replace(c, new)`, for a character. -/
def replaceChar (c : ℕ) (new : Text) (t : Text) : Text :=
  t.flatMap fun d ↦ if d = c then new else [d]

def cpp_string (value : Text) : Text :=
  0x22 :: (replaceChar 0x22 [0x5C, 0x22] (replaceChar 0x5C [0x5C, 0x5C] value) ++ [0x22])

/-- `f"{n}u"` -/
def unsigned (n : ℕ) : Text := Text.decimal n ++ ("u" : Text)

/-- `"{" + ", ".join(items) + "}"` -/
def braced (items : List Text) : Text := 0x7B :: (List.intercalate (", " : Text) items ++ [0x7D])

def schema (value : Reference) : Text :=
  braced [unsigned value.messageId, cpp_string value.typeName, unsigned value.schemaVersion,
    Text.decimal value.schemaFingerprint ++ ("ULL" : Text)]

def limitsText (limits : LimitsEntry) : Text :=
  braced [unsigned limits.maximumRequestBytes, unsigned limits.maximumResponseBytes,
    unsigned limits.maximumConcurrency, unsigned limits.maximumStreams,
    unsigned limits.maximumStreamChunkBytes, unsigned limits.maximumStreamChunkMessages]

/-- `endpoint`, of a contract and its first endpoint. -/
def endpoint (value : CapabilityEntry) (item : EndpointEntry) : Text :=
  braced [cpp_string value.id, unsigned value.version, cpp_string value.contractDigest,
    cpp_string item.endpointId, schema item.inputSchema, schema item.outputSchema,
    unsigned item.defaultTimeoutMillis, unsigned item.maximumTimeoutMillis, limitsText item.limits]

def firstEndpoint (value : CapabilityEntry) : Except Raised EndpointEntry :=
  match value.endpoints with
  | item :: _ => .ok item
  | [] => .error .indexError

/-- `by_id[id]`; of two items with one identifier the dictionary has the last. -/
def by_id (contracts : List CapabilityEntry) (id : Text) : Except Raised CapabilityEntry :=
  match contracts.reverse.find? fun item ↦ item.id = id with
  | some item => .ok item
  | none => .error .keyError

/-- The text up to the constants. -/
def headerStart : Text :=
  ("#pragma once\n" : Text) ++
  ("#include <cstdint>\n" : Text) ++
  ("namespace xgc_ros2_tools_adapter \x7b namespace contract \x7b\n" : Text) ++
  ("struct Schema \x7b std::uint32_t message_id; const char* type_name; std::uint32_t version; " ++
    "std::uint64_t fingerprint; \x7d;\n" : String) ++
  ("struct Limits \x7b std::uint32_t maximum_request_bytes; " ++
    "std::uint32_t maximum_response_bytes; std::uint32_t maximum_concurrency; " ++
    "std::uint32_t maximum_streams; std::uint32_t maximum_stream_chunk_bytes; " ++
    "std::uint32_t maximum_stream_chunk_messages; \x7d;\n" : String) ++
  ("struct Endpoint \x7b const char* capability_id; std::uint32_t contract_version; " ++
    "const char* contract_digest; const char* endpoint_id; Schema input_schema; " ++
    "Schema output_schema; std::uint32_t default_timeout_ms; std::uint32_t maximum_timeout_ms; " ++
    "Limits limits; \x7d;\n" : String)

def headerEnd : Text := "\x7d \x7d  // namespace xgc_ros2_tools_adapter::contract\n"

/-- A constant, from its declaration to the end of the line. -/
def constantText (declaration : Text) (init : Text) : Text := declaration ++ init ++ (";\n" : Text)

def header (configuration : Reference) (publish : CapabilityEntry × EndpointEntry)
    (call : CapabilityEntry × EndpointEntry) : Text :=
  headerStart ++
  constantText "inline constexpr Schema kConfiguration = " (schema configuration) ++
  constantText "inline constexpr Endpoint kPublish = " (endpoint publish.1 publish.2) ++
  constantText "inline constexpr Endpoint kService = " (endpoint call.1 call.2) ++
  headerEnd

variable (python : Interpreter) (tools : Tools)

def generate (schema_dir : Tree) : Except Raised Text := do
  let (references, contracts) ← build_contracts python tools schema_dir
  let publish ← by_id contracts "xgc.ros2.topic.publish"
  let publishItem ← firstEndpoint publish
  let call ← by_id contracts "xgc.ros2.service.call"
  let callItem ← firstEndpoint call
  return header (references .configuration) (publish, publishItem) (call, callItem)

/-- `main`, with the path of the output. The directory is made before anything is read. -/
def main (schema_dir : Tree) (output : PurePath) : Generating Unit := do
  perform (.mkdir (parent output))
  let text ← liftM (generate python tools schema_dir)
  let content ← liftM (raising Raised.exn (encodeUtf8 text))
  perform (.write_text output content)

end Generator.ContractMetadata

end Ros2ToolsAdapter
