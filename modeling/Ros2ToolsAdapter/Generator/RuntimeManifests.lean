import Ros2ToolsAdapter.Artifact.Manifest
import Ros2ToolsAdapter.Foundation.Pattern
import Ros2ToolsAdapter.Python.JsonStyle

/-!
# Generated manifests

`generate_runtime_manifests.py`: from the five JSON schemas of the repository it makes the two
capability contracts, and around them the manifest the runtime knows the adapter by and the
definition of its process. `generate_contract_metadata.py` makes its C++ header from the same
contracts.

The schema directory and the executable are what the script finds when it starts. The digest is
`Tools.sha256`, as for the build manifests, and so are the writes.
-/

namespace Ros2ToolsAdapter.Generator

open Interaction Python RegularExpression
open Artifact (Tools FileOp orRaise hexdigest)

/-- What ends a generator. -/
inductive Raised
  | exn (e : PyExn)
  /-- A document that is no dictionary has no `get`. -/
  | attributeError
  | keyError
  | indexError
  deriving DecidableEq

def valueError (message : Text) : Raised := .exn (.valueError message)

/-! ## Digests -/

section Digests

variable (python : Interpreter) (tools : Tools)

def canonical_json (value : Value) : Except PyExn ByteArray := do
  encodeUtf8 (← Json.Style.dumps python
    { ensure_ascii := false, sort_keys := false, indent := false } value)

def digest_bytes (value : ByteArray) : Text := ("sha256:" : Text) ++ hexdigest (tools.sha256 value)

/-- The chunks of a file, from a position on: `iter(lambda: stream.read(1024 * 1024), b"")`. -/
def chunks (content : ByteArray) (position : ℕ) : List ByteArray :=
  let chunk := content.extract position (position + 1024 * 1024)
  if chunk.size = 0 then []
  else chunk :: chunks content (position + chunk.size)
termination_by content.size - position
decreasing_by
  rename_i h
  simp only [chunk, ByteArray.size_extract] at h ⊢
  omega

/-- A hash object of `hashlib`: the data it was fed with. -/
structure Hasher where
  data : ByteArray

def Hasher.update (hasher : Hasher) (chunk : ByteArray) : Hasher := ⟨hasher.data ++ chunk⟩

def digest_file (content : ByteArray) : Text :=
  let hasher := (chunks content 0).foldl Hasher.update ⟨.empty⟩
  ("sha256:" : Text) ++ hexdigest (tools.sha256 hasher.data)

end Digests

/-! ## Schemas -/

/-- The keys of `SCHEMAS`. -/
inductive SchemaKey
  | configuration
  | publish_input
  | publish_output
  | service_input
  | service_output
  deriving DecidableEq

/-- A value of `SCHEMAS`. -/
structure SchemaEntry where
  message_id : ℕ
  type_name : Text
  filename : Text

def SCHEMAS : SchemaKey → SchemaEntry
  | .configuration =>
    ⟨4301, "xgc.ros2.tools.v1.NativeContext", "native-context.schema.json"⟩
  | .publish_input =>
    ⟨4302, "xgc.ros2.tools.v1.PublishRequest", "publish-request.schema.json"⟩
  | .publish_output =>
    ⟨4303, "xgc.ros2.tools.v1.PublishResult", "publish-result.schema.json"⟩
  | .service_input =>
    ⟨4304, "xgc.ros2.tools.v1.ServiceCallRequest", "service-call-request.schema.json"⟩
  | .service_output =>
    ⟨4305, "xgc.ros2.tools.v1.ServiceCallResult", "service-call-result.schema.json"⟩

/-- What `schema_reference` returns. -/
structure Reference where
  messageId : ℕ
  typeName : Text
  schemaVersion : ℕ
  schemaFingerprint : ℕ
  deriving DecidableEq

def Reference.toValue (reference : Reference) : Value :=
  .dict [("messageId", .int reference.messageId), ("typeName", .str reference.typeName),
    ("schemaVersion", .int reference.schemaVersion),
    ("schemaFingerprint", .int reference.schemaFingerprint)]

/-- `int.from_bytes(bytes, "big")` -/
def fromBytesBig (bytes : List UInt8) : ℕ := Nat.ofDigits 256 (bytes.reverse.map UInt8.toNat)

section Contracts

variable (python : Interpreter) (tools : Tools)

/-- The first eight bytes of the digest of the schema as it is normalized. -/
def fingerprint (normalized : ByteArray) : ℕ :=
  fromBytesBig ((tools.sha256 normalized).toList.take 8)

def normalize (schema : Value) : Except PyExn ByteArray := do
  encodeUtf8 (← Json.Style.dumps python
    { ensure_ascii := false, sort_keys := true, indent := false } schema)

/-- What a file name leads to. -/
def openFile (directory : Tree) (filename : Text) : Except Raised Node :=
  match directory.entries.lookup [filename] with
  | some node => .ok node
  | none => .error (.exn .osError)

/-- `schema.get`, of a document. -/
def getter : Value → Except Raised (Text → Value)
  | .dict entries => .ok fun name ↦ (entries.lookup name).getD .none
  | _ => .error .attributeError

def schema_reference (schema_dir : Tree) (key : SchemaKey) : Except Raised Reference := do
  let entry := SCHEMAS key
  let node ← openFile schema_dir entry.filename
  let schema ← raising Raised.exn (node.readText >>= Json.loads python)
  let get ← getter schema
  throwIf (Value.eq python (get "$schema") (.str "https://json-schema.org/draft/2020-12/schema") =
      false)
    (valueError (entry.filename ++ (" must use JSON Schema draft 2020-12" : Text)))
  throwIf (Value.eq python (get "$id") (.str entry.type_name) = false ∨
      Value.eq python (get "type") (.str "object") = false)
    (valueError (entry.filename ++ (" identity/root does not match " : Text) ++ entry.type_name))
  let normalized ← raising Raised.exn (normalize python schema)
  throwIf (fingerprint tools normalized = 0)
    (valueError (("zero schema fingerprint for " : Text) ++ entry.filename))
  return {
    messageId := entry.message_id
    typeName := entry.type_name
    schemaVersion := 1
    schemaFingerprint := fingerprint tools normalized }

/-! ## Contracts -/

/-- The limits of an endpoint. -/
structure LimitsEntry where
  maximumRequestBytes : ℕ
  maximumResponseBytes : ℕ
  maximumConcurrency : ℕ
  maximumStreams : ℕ
  maximumStreamChunkBytes : ℕ
  maximumStreamChunkMessages : ℕ

def LimitsEntry.toValue (limits : LimitsEntry) : Value :=
  .dict [("maximumRequestBytes", .int limits.maximumRequestBytes),
    ("maximumResponseBytes", .int limits.maximumResponseBytes),
    ("maximumConcurrency", .int limits.maximumConcurrency),
    ("maximumStreams", .int limits.maximumStreams),
    ("maximumStreamChunkBytes", .int limits.maximumStreamChunkBytes),
    ("maximumStreamChunkMessages", .int limits.maximumStreamChunkMessages)]

/-- What `endpoint` returns. -/
structure EndpointEntry where
  endpointId : Text
  interaction : Text
  inputSchema : Reference
  outputSchema : Reference
  sideEffect : Text
  idempotency : Text
  cancellationSupported : Bool
  deadlineRequired : Bool
  defaultTimeoutMillis : ℕ
  maximumTimeoutMillis : ℕ
  limits : LimitsEntry

def EndpointEntry.toValue (entry : EndpointEntry) : Value :=
  .dict [("endpointId", .str entry.endpointId), ("interaction", .str entry.interaction),
    ("inputSchema", entry.inputSchema.toValue), ("outputSchema", entry.outputSchema.toValue),
    ("sideEffect", .str entry.sideEffect), ("idempotency", .str entry.idempotency),
    ("cancellationSupported", .bool entry.cancellationSupported),
    ("deadlineRequired", .bool entry.deadlineRequired),
    ("defaultTimeoutMillis", .int entry.defaultTimeoutMillis),
    ("maximumTimeoutMillis", .int entry.maximumTimeoutMillis), ("limits", entry.limits.toValue)]

def endpoint (endpoint_id : Text) (input_schema output_schema : Reference)
    (maximum_response_bytes : ℕ) : EndpointEntry where
  endpointId := endpoint_id
  interaction := "operation"
  inputSchema := input_schema
  outputSchema := output_schema
  sideEffect := "non-idempotent"
  idempotency := "required"
  cancellationSupported := true
  deadlineRequired := true
  defaultTimeoutMillis := 30000
  maximumTimeoutMillis := 300000
  limits := {
    maximumRequestBytes := 8388608
    maximumResponseBytes := maximum_response_bytes
    maximumConcurrency := 16
    maximumStreams := 0
    maximumStreamChunkBytes := 0
    maximumStreamChunkMessages := 0 }

/-- What `capability` returns. -/
structure CapabilityEntry where
  id : Text
  version : ℕ
  contractDigest : Text
  endpoints : List EndpointEntry

def CapabilityEntry.refValue (entry : CapabilityEntry) : Value :=
  .dict [("id", .str entry.id), ("version", .int entry.version)]

def CapabilityEntry.toValue (entry : CapabilityEntry) : Value :=
  .dict [("ref", entry.refValue), ("contractDigest", .str entry.contractDigest),
    ("endpoints", .list (entry.endpoints.map EndpointEntry.toValue))]

/-- The part of a contract that its digest is about. -/
def CapabilityEntry.body (entry : CapabilityEntry) : Value :=
  .dict [("ref", entry.refValue), ("endpoints", .list (entry.endpoints.map EndpointEntry.toValue))]

def capability (capability_id : Text) (value : EndpointEntry) : Except PyExn CapabilityEntry := do
  let entry : CapabilityEntry := ⟨capability_id, 1, [], [value]⟩
  return { entry with contractDigest := digest_bytes tools (← canonical_json python entry.body) }

/-- A dictionary with all keys of `SCHEMAS`. -/
def forKeys {α : Type}
    (configuration publish_input publish_output service_input service_output : α) : SchemaKey → α
  | .configuration => configuration
  | .publish_input => publish_input
  | .publish_output => publish_output
  | .service_input => service_input
  | .service_output => service_output

/-- The references and the contracts, these in the order of their identifiers. -/
def build_contracts (schema_dir : Tree) :
    Except Raised ((SchemaKey → Reference) × List CapabilityEntry) := do
  let configuration ← schema_reference python tools schema_dir .configuration
  let publish_input ← schema_reference python tools schema_dir .publish_input
  let publish_output ← schema_reference python tools schema_dir .publish_output
  let service_input ← schema_reference python tools schema_dir .service_input
  let service_output ← schema_reference python tools schema_dir .service_output
  let references := forKeys configuration publish_input publish_output service_input service_output
  let publish ← raising Raised.exn (capability python tools "xgc.ros2.topic.publish"
    (endpoint "publish" publish_input publish_output 1048576))
  let call ← raising Raised.exn (capability python tools "xgc.ros2.service.call"
    (endpoint "call" service_input service_output 8388608))
  return (references, [publish, call].mergeSort fun a b ↦ a.id ≤ b.id)

end Contracts

/-! ## Manifests -/

/-- The code points from `lo` to `hi`. -/
def codeRange (lo hi : ℕ) : List ℕ := List.range' lo (hi + 1 - lo)

/-- `[a-z][a-z0-9_]*` -/
def canonicalName : RegularExpression ℕ :=
  oneOf (codeRange 0x61 0x7A) *
    (oneOf (codeRange 0x61 0x7A ++ codeRange 0x30 0x39 ++ [0x5F])).star

/-- `[0-9]+` -/
def numeral : RegularExpression ℕ :=
  oneOf (codeRange 0x30 0x39) * (oneOf (codeRange 0x30 0x39)).star

/-- `[0-9]+\.[0-9]+\.[0-9]+` -/
def semanticVersion : RegularExpression ℕ :=
  numeral * literal [0x2E] * numeral * literal [0x2E] * numeral

/-- The manifest of the capabilities. -/
def capabilityManifest (contracts : List CapabilityEntry) : Value :=
  .dict [("formatVersion", .int 1), ("capabilities", .list (contracts.map CapabilityEntry.toValue))]

/-- A list of strings. -/
def strings (items : List Text) : Value := .list (items.map .str)

/-- `definition`, with the digests it holds. -/
def definitionValue (version buildDigest trustedManifestDigest : Text)
    (configuration : Reference) : Value :=
  .dict [("id", .str "xgc2-ros2-tools-adapter"), ("version", .str version),
    ("processDefinitionId", .str "xgc2-ros2-tools-adapter"), ("buildDigest", .str buildDigest),
    ("trustedManifestDigest", .str trustedManifestDigest),
    ("configuration", .dict [("schema", configuration.toValue),
      ("allowedEncodings", strings ["json"])]),
    ("activation", .dict [("mode", .str "on-demand"), ("idleTimeoutNanos", .int 300000000000)]),
    ("scope", .dict [("kind", .str "ros2-native-context"),
      ("requiredAttributes", strings ["domain-id"]),
      ("optionalAttributes", strings ["rmw-implementation"]),
      ("allowAdditionalAttributes", .bool false), ("sharing", .str "shared")])]

def adapterValue (definition : Value) (contracts : List CapabilityEntry) : Value :=
  .dict [("apiVersion", .str "xgc.adapter.definition/v1"),
    ("adapters", .list [.dict [("definition", definition),
      ("capabilityManifest", capabilityManifest contracts)]])]

/-- The arguments of the process, in which the runtime puts the path of the bootstrap file. -/
def commandArgs (ros_package ros_executable : Text) : List Text :=
  ["run", ros_package, ros_executable, "--adapter-bootstrap-file", "${adapterBootstrapFile}"]

def processValue (ros_package ros_executable version : Text) : Value :=
  .dict [("apiVersion", .str "xgc.execution.process/v1"),
    ("definitions", .list [.dict [("id", .str "xgc2-ros2-tools-adapter"),
      ("version", .str version), ("label", .str "XGC2 ROS2 Tools Adapter"),
      ("description", .str
        "Typed ROS2 topic publish and service call capabilities for Adapter Runtime."),
      ("drivers", strings ["host"]),
      ("parameters", .dict [
        ("properties", .dict [("adapterBootstrapFile", .dict [("type", .str "string"),
          ("description", .str "Trusted mode-0600 binary AdapterProcessBootstrap path.")])]),
        ("required", strings ["adapterBootstrapFile"]), ("additionalProperties", .bool false)]),
      ("command", .dict [("executable", .str "ros2"),
        ("args", strings (commandArgs ros_package ros_executable))]),
      ("readiness", .dict [("kind", .str "process")]),
      ("liveness", .dict [("kind", .str "process")]),
      ("stop", .dict [("gracePeriod", .int 5000000000)]),
      ("restart", .dict [("mode", .str "never")]), ("internal", .bool true)]])]

/-- The arguments of `build_manifests`, with what the two paths lead to. -/
structure ManifestArguments where
  executable : PurePath
  executable_node : Option Node
  ros_package : Text
  ros_executable : Text
  schema_dir : Tree
  version : Text

/-- `executable.is_file()`, and then the content of the file. -/
def executableContent (args : ManifestArguments) : Except Raised ByteArray :=
  match args.executable_node with
  | some (.file content) => .ok content
  | _ => .error (valueError
      (("Adapter executable does not exist: " : Text) ++ args.executable.str))

section Manifests

variable (python : Interpreter) (tools : Tools)

def build_manifests (args : ManifestArguments) : Except Raised (Value × Value) := do
  let content ← executableContent args
  throwIf (canonicalName.rmatch args.ros_package = false)
    (valueError "ROS package name must be canonical")
  throwIf (canonicalName.rmatch args.ros_executable = false)
    (valueError "ROS executable name must be canonical")
  throwIf (semanticVersion.rmatch args.version = false)
    (valueError "version must use MAJOR.MINOR.PATCH")
  let (references, contracts) ← build_contracts python tools args.schema_dir
  let trusted ← raising Raised.exn (canonical_json python (capabilityManifest contracts))
  let definition := definitionValue args.version (digest_file tools content)
    (digest_bytes tools trusted) (references .configuration)
  return (adapterValue definition contracts,
    processValue args.ros_package args.ros_executable args.version)

/-! ## Writing -/

abbrev Generating := Proc Raised FileOp (fun _ ↦ Bool)

def perform (op : FileOp) : Generating Unit :=
  Proc.attempt op id (.exn .osError)

/-- `path.parent` -/
def parent (path : PurePath) : PurePath := { path with parts := path.parts.dropLast }

/-- The content of a manifest file. -/
def manifestContent (value : Value) : Except PyExn ByteArray := do
  encodeUtf8 ((← Json.Style.dumps python
    { ensure_ascii := false, sort_keys := false, indent := true } value) ++ [0x0A])

def write_json (path : PurePath) (value : Value) : Generating Unit := do
  perform (.mkdir (parent path))
  let content ← liftM (raising Raised.exn (manifestContent python value))
  perform (.write_text path content)

/-- `main`, with the paths of the two outputs. -/
def main (args : ManifestArguments) (adapter_output process_output : PurePath) :
    Generating Unit := do
  let (adapter, process) ← liftM (build_manifests python tools args)
  write_json python adapter_output adapter
  write_json python process_output process

end Manifests

end Ros2ToolsAdapter.Generator
