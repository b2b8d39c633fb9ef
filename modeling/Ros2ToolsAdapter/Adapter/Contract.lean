import Ros2ToolsAdapter.Adapter.Error
import Ros2ToolsAdapter.Foundation.FiniteMap
import Ros2ToolsAdapter.JsonCpp.Value

/-!
# Messages, the compiled contract, and what is linked in

The protobuf messages the adapter reads, with the fields it reads of them; the constants the build
generates into `generated_contract.hpp`; and the four library functions whose code is not part of
the repository. The last two are one parameter, `Build`, of everything that follows: a result holds
for every contract and for every library, and where it needs a law of a library the law is a
hypothesis under its own name.
-/

namespace Ros2ToolsAdapter

/-! ## Protobuf messages -/

/-- `xgc.v1.SchemaReference`. A serialized message carries the fields its reader did not know, so
they are part of it. -/
structure SchemaReference where
  messageId : ℕ
  typeName : Str
  schemaVersion : ℕ
  schemaFingerprint : ℕ
  unknownFields : Str := []
  deriving DecidableEq

/-- `xgc.v1.PayloadEncoding`, an open enumeration of which one value matters. -/
inductive PayloadEncoding
  | json
  | other (value : ℤ)
  deriving DecidableEq

/-- `xgc.v1.Payload`. -/
structure Payload where
  schema : Option SchemaReference
  encoding : PayloadEncoding
  value : Str
  deriving DecidableEq

/-- A protobuf `map<string, string>`. -/
abbrev Attributes := Finmap fun _ : Str ↦ Str

namespace Attributes

def find (attributes : Attributes) (key : Str) : Option Str := attributes.lookup key

def size (attributes : Attributes) : ℕ := attributes.keys.card

end Attributes

/-- The kind, key and attributes that identify an instance scope or an invocation subject. -/
structure Scope where
  kind : Str
  key : Str
  attributes : Attributes
  deriving DecidableEq

/-- `xgc.adapter.v1.AdapterInstanceSpec`. -/
structure AdapterInstanceSpec where
  configuration : Option Payload
  scope : Option Scope
  secretsSize : ℕ

/-- `xgc.adapter.v1.WorkContext`. -/
structure WorkContext where
  capabilityId : Str
  contractVersion : ℕ
  contractDigest : Str
  endpointId : Str
  deadlineUnixNanos : ℤ
  subject : Option Scope

/-- `xgc.adapter.v1.OperationRequest`. -/
structure OperationRequest where
  context : WorkContext
  input : Payload

/-- `xgc.adapter.v1.EnabledCapability`. -/
structure EnabledCapability where
  capabilityId : Str
  contractVersion : ℕ
  contractDigest : Str
  enabledEndpointIds : List Str

/-! ## The compiled contract -/

/-- `contract::Schema`. -/
structure Schema where
  messageId : ℕ
  typeName : Str
  version : ℕ
  fingerprint : ℕ

/-- `contract::Limits`, less the stream limits, which nothing reads. -/
structure Limits where
  maximumRequestBytes : ℕ
  maximumResponseBytes : ℕ
  maximumConcurrency : ℕ

/-- `contract::Endpoint`. -/
structure Endpoint where
  capabilityId : Str
  contractVersion : ℕ
  contractDigest : Str
  endpointId : Str
  inputSchema : Schema
  outputSchema : Schema
  defaultTimeoutMs : ℕ
  maximumTimeoutMs : ℕ
  limits : Limits

/-- The constants of `generated_contract.hpp`. -/
structure Contract where
  kConfiguration : Schema
  kPublish : Endpoint
  kService : Endpoint

def schemaMatches (actual : SchemaReference) (expected : Schema) : Bool :=
  actual.messageId == expected.messageId && actual.typeName == expected.typeName &&
    actual.schemaVersion == expected.version && actual.schemaFingerprint == expected.fingerprint

def schemaReference (value : Schema) : SchemaReference where
  messageId := value.messageId
  typeName := value.typeName
  schemaVersion := value.version
  schemaFingerprint := value.fingerprint

/-! ## The build -/

/-- What `rmw_validate_full_topic_name` reports: its return code and the validation result, each
zero on success. -/
structure RmwValidation where
  ret : ℤ
  validationResult : ℤ
  deriving DecidableEq

/-- The settings of a `Json::StreamWriterBuilder`, at the defaults `setDefaults` gives them. -/
structure StreamWriterBuilder where
  commentStyle : String := "All"
  indentation : String := "\t"
  enableYAMLCompatibility : Bool := false
  dropNullPlaceholders : Bool := false
  useSpecialFloats : Bool := false
  emitUTF8 : Bool := false
  precision : ℕ := 17
  precisionType : String := "significant"

/-- What the program is built with: the generated contract, JsonCpp's reader and writer, protobuf's
serialization of a schema reference, and the topic-name check of rmw. -/
structure Build where
  contract : Contract
  parse : Json.CharReaderBuilder → Str → Json.ParseResult
  writeString : StreamWriterBuilder → Json.Value → Str
  serializeAsString : SchemaReference → Str
  rmwValidateFullTopicName : Str → RmwValidation

namespace Build

variable (build : Build)

/-- The settings `parseStrictJson` reads with. -/
def strictReader : Json.CharReaderBuilder where
  collectComments := false
  allowComments := false
  allowTrailingCommas := false
  strictRoot := true
  rejectDupKeys := true
  stackLimit := 128

def parseStrictJson (input description : Str) : Except Exn Json.Value :=
  match build.parse strictReader input with
  | .value v => .ok v
  | .errors text =>
    .error (permanentError "invalid_json" (description ++ " is not strict JSON: " ++ text))
  | .throws what => .error (.std what)

def writeJson (value : Json.Value) : Str :=
  build.writeString { indentation := "", commentStyle := "None" } value

end Build

end Ros2ToolsAdapter
