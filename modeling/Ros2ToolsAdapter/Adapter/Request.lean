import Ros2ToolsAdapter.Adapter.Contract
import Ros2ToolsAdapter.Codec.Leaf
import Ros2ToolsAdapter.Foundation.Pattern

/-!
# Reading a request

The checks an operation makes of its input before it touches ROS: `parseInput` on the payload, then
the fields of the JSON object one after another. All of it is a function of the request and the
build, so it is an `Except`, and what it can throw is a `ToolsError` unless JsonCpp's reader throws.

Each check has an equation for when it returns; the fields of a request are then the conjunction of
their checks.
-/

namespace Ros2ToolsAdapter.Request

open Json RegularExpression Str
open Except (bind_eq_ok)

/-! ## Limits and patterns -/

def kMaximumWaitMilliseconds : ℕ := 300000

def kMaximumRosNameBytes : ℕ := 1024

def kMaximumRosTypeBytes : ℕ := 256

/-- `[A-Za-z][A-Za-z0-9_]*` -/
def identifier : RegularExpression UInt8 := oneOf letters * (oneOf nameBytes).star

/-- `^[A-Za-z][A-Za-z0-9_]*/msg/[A-Za-z][A-Za-z0-9_]*$` -/
def messageTypePattern : RegularExpression UInt8 := identifier * literal "/msg/" * identifier

/-- `^[A-Za-z][A-Za-z0-9_]*/srv/[A-Za-z][A-Za-z0-9_]*$` -/
def serviceTypePattern : RegularExpression UInt8 := identifier * literal "/srv/" * identifier

/-! ## Checks -/

def requireObject (value : Value) (field : Str) : Except Exn Unit :=
  throwIf (value.isObject = false)
    (permanentError "invalid_request" (field ++ " must be a JSON object"))

def rejectUnknownFields (value : Value) (allowed : List Str) (description : Str) :
    Except Exn Unit :=
  forM value.getMemberNames fun member ↦
    throwIf (allowed.contains member = false)
      (permanentError "invalid_request"
        (description ++ " contains unknown field '" ++ member ++ "'"))

def requiredString (value : Value) (field : Str) : Except Exn Str := do
  throwIf (value.isMember field = false ∨ (value.get field).isString = false ∨
      (value.get field).asString = [])
    (permanentError "invalid_request" (field ++ " must be a non-empty string"))
  pure (value.get field).asString

def requiredUInt (value : Value) (field : Str) (minimum maximum : ℕ) : Except Exn ℕ := do
  throwIf (value.isMember field = false)
    (permanentError "invalid_request" (field ++ " must be an unsigned integer"))
  let parsed ← readUnsigned (value.get field)
    (permanentError "invalid_request" (field ++ " must be an unsigned integer"))
  throwIf (parsed < minimum ∨ maximum < parsed)
    (permanentError "invalid_request"
      (field ++ " must be between " ++ Str.ofNat minimum ++ " and " ++ Str.ofNat maximum))
  pure parsed.toNat

/-- A value that must be present and an object. -/
def requiredObject (value : Value) (field : Str) : Except Exn Value := do
  throwIf (value.isMember field = false)
    (permanentError "invalid_request" (field ++ " is required"))
  requireObject (value.get field) field
  pure (value.get field)

/-- A string that must be one of two. -/
def requireOneOf (value : Str) (first second : Str) (field : Str) : Except Exn Unit :=
  throwIf (value ≠ first ∧ value ≠ second)
    (permanentError "invalid_request" (field ++ " is unsupported"))

/-- The name is looked at through `c_str()`, its length is not. -/
def validateGraphName (build : Build) (value field : Str) : Except Exn Unit := do
  throwIf (value = [] ∨ value.head? ≠ some 0x2F ∨ kMaximumRosNameBytes < value.length)
    (permanentError "invalid_ros_name" (field ++ " must be an absolute ROS2 graph name"))
  let validation := build.rmwValidateFullTopicName (cString value)
  throwIf (validation.ret ≠ 0 ∨ validation.validationResult ≠ 0)
    (permanentError "invalid_ros_name" (field ++ " is not a valid absolute ROS2 graph name"))

def validateType (value : Str) (pattern : RegularExpression UInt8) (field syntaxText : Str) :
    Except Exn Unit :=
  throwIf (kMaximumRosTypeBytes < value.length ∨ pattern.rmatch value = false)
    (permanentError "invalid_ros_type" (field ++ " must use " ++ syntaxText))

/-! ## The two requests -/

/-- `ToolsAdapter::parseInput`. -/
def parseInput (build : Build) (payload : Payload) (expectedSchema : SchemaReference)
    (maximumRequestBytes : ℕ) : Except Exn Value := do
  throwIf (payload.encoding ≠ .json ∨ payload.schema.isSome = false ∨
      payload.schema.map build.serializeAsString ≠ some (build.serializeAsString expectedSchema))
    (permanentError "unsupported_input_contract"
      "capability input must use its compiled JSON schema")
  throwIf (maximumRequestBytes < payload.value.length)
    (resourceExhaustedError "request_too_large" "capability input exceeds its request limit")
  let value ← build.parseStrictJson payload.value "capability input"
  requireObject value "capability input"
  pure value

/-- The fields of a publish request. -/
structure PublishFields where
  topic : Str
  messageType : Str
  message : Value
  depth : ℕ
  reliability : Str
  durability : Str
  waitMs : ℕ

def publishFieldNames : List Str :=
  ["topic", "messageType", "message", "qosDepth", "reliability", "durability",
    "waitForSubscribersMs"]

/-- The field checks of `ToolsAdapter::Publish`. -/
def publishFields (build : Build) (input : Value) : Except Exn PublishFields := do
  rejectUnknownFields input publishFieldNames "publish request"
  let topic ← requiredString input "topic"
  let messageType ← requiredString input "messageType"
  validateGraphName build topic "topic"
  validateType messageType messageTypePattern "messageType" "pkg/msg/Type syntax"
  let message ← requiredObject input "message"
  let depth ← requiredUInt input "qosDepth" 1 1000
  let reliability ← requiredString input "reliability"
  let durability ← requiredString input "durability"
  let waitMs ← requiredUInt input "waitForSubscribersMs" 0 kMaximumWaitMilliseconds
  requireOneOf reliability "reliable" "best-effort" "reliability"
  requireOneOf durability "volatile" "transient-local" "durability"
  pure { topic, messageType, message, depth, reliability, durability, waitMs }

/-- The fields of a service call request. -/
structure ServiceFields where
  service : Str
  serviceType : Str
  request : Value
  waitMs : ℕ
  callMs : ℕ

def serviceFieldNames : List Str :=
  ["service", "serviceType", "request", "waitForServiceMs", "callTimeoutMs"]

/-- The field checks of `ToolsAdapter::CallService`. -/
def serviceFields (build : Build) (input : Value) : Except Exn ServiceFields := do
  rejectUnknownFields input serviceFieldNames "service request"
  let service ← requiredString input "service"
  let serviceType ← requiredString input "serviceType"
  validateGraphName build service "service"
  validateType serviceType serviceTypePattern "serviceType" "pkg/srv/Type syntax"
  let request ← requiredObject input "request"
  let waitMs ← requiredUInt input "waitForServiceMs" 0 kMaximumWaitMilliseconds
  let callMs ← requiredUInt input "callTimeoutMs" 1 kMaximumWaitMilliseconds
  pure { service, serviceType, request, waitMs, callMs }

/-! ## When the checks pass -/

section Checks

variable {v : Value} {field : Str}

theorem rejectUnknownFields_eq_ok {allowed : List Str} {description : Str} {u : Unit} :
    rejectUnknownFields v allowed description = .ok u ↔
      ∀ name ∈ v.getMemberNames, name ∈ allowed := by
  rw [rejectUnknownFields, forM_eq_ok]
  simp only [throwIf_eq_ok, Bool.not_eq_false, List.contains_iff_mem]

theorem requiredString_eq_ok {s : Str} :
    requiredString v field = .ok s ↔ v.member? field = some (.string s) ∧ s ≠ [] := by
  simp only [requiredString, bind_eq_ok, throwIf_eq_ok, exists_const, not_or, Bool.not_eq_false]
  constructor
  · rintro ⟨⟨hmember, hstring, hne⟩, hs⟩
    obtain ⟨w, hw⟩ := Value.isMember_iff.mp hmember
    rw [Value.get_of_member? hw] at hstring hne hs
    obtain ⟨s', rfl⟩ := Value.isString_iff.mp hstring
    obtain rfl := Except.ok.inj hs
    exact ⟨hw, hne⟩
  · rintro ⟨hw, hne⟩
    rw [Value.get_of_member? hw]
    exact ⟨⟨Value.isMember_iff.mpr ⟨_, hw⟩, rfl, hne⟩, rfl⟩

theorem requiredUInt_eq_ok {lo hi n : ℕ} (hhi : hi < 2 ^ 64) :
    requiredUInt v field lo hi = .ok n ↔ ∃ w, v.member? field = some w ∧
      w.integer? = some (n : ℤ) ∧ lo ≤ n ∧ n ≤ hi := by
  simp only [requiredUInt, bind_eq_ok, throwIf_eq_ok, exists_const, readUnsigned_eq_ok,
    Bool.not_eq_false, not_or, not_lt]
  constructor
  · rintro ⟨hmember, k, ⟨hk, hpos, -⟩, ⟨hlo, hhi⟩, hn⟩
    obtain ⟨w, hw⟩ := Value.isMember_iff.mp hmember
    rw [Value.get_of_member? hw] at hk
    obtain rfl := Except.ok.inj hn
    exact ⟨w, hw, by rw [hk, Int.toNat_of_nonneg hpos], by omega, by omega⟩
  · rintro ⟨w, hw, hn, hlo, hhi⟩
    rw [Value.get_of_member? hw]
    exact ⟨Value.isMember_iff.mpr ⟨w, hw⟩, n, ⟨hn, by omega, by omega⟩, ⟨by omega, by omega⟩, rfl⟩

theorem requiredObject_eq_ok {w : Value} :
    requiredObject v field = .ok w ↔ v.member? field = some w ∧ w.isObject = true := by
  simp only [requiredObject, requireObject, bind_eq_ok, throwIf_eq_ok, exists_const,
    Bool.not_eq_false]
  constructor
  · rintro ⟨hmember, hobject, hw⟩
    obtain ⟨w', hw'⟩ := Value.isMember_iff.mp hmember
    rw [Value.get_of_member? hw'] at hobject hw
    obtain rfl := Except.ok.inj hw
    exact ⟨hw', hobject⟩
  · rintro ⟨hw, hobject⟩
    rw [Value.get_of_member? hw]
    exact ⟨Value.isMember_iff.mpr ⟨w, hw⟩, hobject, rfl⟩

theorem requireOneOf_eq_ok {s first second : Str} {u : Unit} :
    requireOneOf s first second field = .ok u ↔ s = first ∨ s = second := by
  rw [requireOneOf, throwIf_eq_ok]
  tauto

/-- What `validateGraphName` accepts of a name. -/
def AcceptsName (build : Build) (s : Str) : Prop :=
  s.head? = some 0x2F ∧ s.length ≤ kMaximumRosNameBytes ∧
    build.rmwValidateFullTopicName (cString s) = ⟨0, 0⟩

theorem validateGraphName_eq_ok {build : Build} {s : Str} {u : Unit} :
    validateGraphName build s field = .ok u ↔ AcceptsName build s := by
  simp only [validateGraphName, bind_eq_ok, throwIf_eq_ok, exists_const, not_or, not_not, not_lt,
    AcceptsName]
  constructor
  · rintro ⟨⟨-, hhead, hlength⟩, hret, hresult⟩
    refine ⟨hhead, hlength, ?_⟩
    cases h : build.rmwValidateFullTopicName (cString s)
    simp_all
  · rintro ⟨hhead, hlength, hrmw⟩
    refine ⟨⟨?_, hhead, hlength⟩, by rw [hrmw], by rw [hrmw]⟩
    intro hnil
    simp [hnil] at hhead

theorem validateType_eq_ok {s syntaxText : Str} {pattern : RegularExpression UInt8} {u : Unit} :
    validateType s pattern field syntaxText = .ok u ↔
      s.length ≤ kMaximumRosTypeBytes ∧ s ∈ pattern.matches' := by
  rw [validateType, throwIf_eq_ok, not_or, not_lt, Bool.not_eq_false, rmatch_iff_matches']

end Checks

/-- The integer under that name, between these bounds. -/
def HasUInt (v : Value) (field : Str) (lo hi n : ℕ) : Prop :=
  ∃ w, v.member? field = some w ∧ w.integer? = some (n : ℤ) ∧ lo ≤ n ∧ n ≤ hi

/-- The value is a publish request with these fields. -/
structure PublishFields.ReadFrom (p : PublishFields) (build : Build) (v : Value) : Prop where
  names : ∀ name ∈ v.getMemberNames, name ∈ publishFieldNames
  topic : v.member? "topic" = some (.string p.topic) ∧ AcceptsName build p.topic
  messageType : v.member? "messageType" = some (.string p.messageType) ∧
    p.messageType.length ≤ kMaximumRosTypeBytes ∧ p.messageType ∈ messageTypePattern.matches'
  message : v.member? "message" = some p.message ∧ p.message.isObject = true
  depth : HasUInt v "qosDepth" 1 1000 p.depth
  reliability : v.member? "reliability" = some (.string p.reliability) ∧
    (p.reliability = "reliable" ∨ p.reliability = "best-effort")
  durability : v.member? "durability" = some (.string p.durability) ∧
    (p.durability = "volatile" ∨ p.durability = "transient-local")
  waitMs : HasUInt v "waitForSubscribersMs" 0 kMaximumWaitMilliseconds p.waitMs

/-- The value is a service call request with these fields. -/
structure ServiceFields.ReadFrom (p : ServiceFields) (build : Build) (v : Value) : Prop where
  names : ∀ name ∈ v.getMemberNames, name ∈ serviceFieldNames
  service : v.member? "service" = some (.string p.service) ∧ AcceptsName build p.service
  serviceType : v.member? "serviceType" = some (.string p.serviceType) ∧
    p.serviceType.length ≤ kMaximumRosTypeBytes ∧ p.serviceType ∈ serviceTypePattern.matches'
  request : v.member? "request" = some p.request ∧ p.request.isObject = true
  waitMs : HasUInt v "waitForServiceMs" 0 kMaximumWaitMilliseconds p.waitMs
  callMs : HasUInt v "callTimeoutMs" 1 kMaximumWaitMilliseconds p.callMs

theorem AcceptsName.ne_nil {build : Build} {s : Str} (h : AcceptsName build s) : s ≠ [] := by
  rintro rfl
  simp [AcceptsName] at h

private theorem ne_nil_of_mem_typePattern {kind s : Str}
    (h : s ∈ (identifier * literal kind * identifier).matches') : s ≠ [] := by
  rintro rfl
  have hidentifier : identifier.matchEpsilon = false := by decide
  have hempty : ((identifier.matchEpsilon && (literal kind).matchEpsilon) &&
      identifier.matchEpsilon) = true := (rmatch_iff_matches' _ _).mpr h
  rw [hidentifier, Bool.and_false] at hempty
  exact Bool.noConfusion hempty

theorem publishFields_eq_ok {build : Build} {v : Value} {p : PublishFields} :
    publishFields build v = .ok p ↔ p.ReadFrom build v := by
  have hwait : kMaximumWaitMilliseconds < 2 ^ 64 := by decide
  simp only [publishFields, bind_eq_ok, exists_const, rejectUnknownFields_eq_ok,
    requiredString_eq_ok, validateGraphName_eq_ok, validateType_eq_ok, requiredObject_eq_ok,
    requiredUInt_eq_ok hwait, requiredUInt_eq_ok (show 1000 < 2 ^ 64 by decide),
    requireOneOf_eq_ok]
  constructor
  · rintro ⟨hnames, topic, ⟨htopic, -⟩, messageType, ⟨hmessageType, -⟩, hname, htype, message,
      hmessage, depth, hdepth, reliability, ⟨hreliability, -⟩, durability, ⟨hdurability, -⟩, waitMs,
      hwaitMs, hreliable, hdurable, hp⟩
    obtain rfl := Except.ok.inj hp
    exact ⟨hnames, ⟨htopic, hname⟩, ⟨hmessageType, htype⟩, hmessage, hdepth,
      ⟨hreliability, hreliable⟩, ⟨hdurability, hdurable⟩, hwaitMs⟩
  · intro h
    -- the checks for an empty string are implied by the later ones on the same field
    have hreliability : p.reliability ≠ [] := by
      rcases h.reliability.2 with heq | heq <;> rw [heq] <;> decide
    have hdurability : p.durability ≠ [] := by
      rcases h.durability.2 with heq | heq <;> rw [heq] <;> decide
    exact ⟨h.names, p.topic, ⟨h.topic.1, h.topic.2.ne_nil⟩, p.messageType,
      ⟨h.messageType.1, ne_nil_of_mem_typePattern h.messageType.2.2⟩, h.topic.2, h.messageType.2,
      p.message, h.message, p.depth, h.depth, p.reliability, ⟨h.reliability.1, hreliability⟩,
      p.durability, ⟨h.durability.1, hdurability⟩, p.waitMs, h.waitMs, h.reliability.2,
      h.durability.2, rfl⟩

theorem serviceFields_eq_ok {build : Build} {v : Value} {p : ServiceFields} :
    serviceFields build v = .ok p ↔ p.ReadFrom build v := by
  have hwait : kMaximumWaitMilliseconds < 2 ^ 64 := by decide
  simp only [serviceFields, bind_eq_ok, exists_const, rejectUnknownFields_eq_ok,
    requiredString_eq_ok, validateGraphName_eq_ok, validateType_eq_ok, requiredObject_eq_ok,
    requiredUInt_eq_ok hwait]
  constructor
  · rintro ⟨hnames, service, ⟨hservice, -⟩, serviceType, ⟨hserviceType, -⟩, hname, htype, request,
      hrequest, waitMs, hwaitMs, callMs, hcallMs, hp⟩
    obtain rfl := Except.ok.inj hp
    exact ⟨hnames, ⟨hservice, hname⟩, ⟨hserviceType, htype⟩, hrequest, hwaitMs, hcallMs⟩
  · intro h
    exact ⟨h.names, p.service, ⟨h.service.1, h.service.2.ne_nil⟩, p.serviceType,
      ⟨h.serviceType.1, ne_nil_of_mem_typePattern h.serviceType.2.2⟩, h.service.2, h.serviceType.2,
      p.request, h.request, p.waitMs, h.waitMs, p.callMs, h.callMs, rfl⟩

/-! ## What the checks throw -/

section Raising

variable {v : Value} {field : Str}

private theorem permanent (code : String) (message : Str) :
    (permanentError code message).IsPermanent := Exn.isPermanent_permanentError code message

theorem requiredString_raises : Raises Exn.IsPermanent (requiredString v field) :=
  Raises.bind (Raises.throwIf fun _ ↦ permanent _ _) fun _ _ ↦ Raises.ok _

theorem requiredUInt_raises {lo hi : ℕ} : Raises Exn.IsPermanent (requiredUInt v field lo hi) :=
  Raises.bind (Raises.throwIf fun _ ↦ permanent _ _) fun _ _ ↦
    Raises.bind (readUnsigned_raises (permanent _ _)) fun _ _ ↦
      Raises.bind (Raises.throwIf fun _ ↦ permanent _ _) fun _ _ ↦ Raises.ok _

theorem requiredObject_raises : Raises Exn.IsPermanent (requiredObject v field) :=
  Raises.bind (Raises.throwIf fun _ ↦ permanent _ _) fun _ _ ↦
    Raises.bind (Raises.throwIf fun _ ↦ permanent _ _) fun _ _ ↦ Raises.ok _

theorem rejectUnknownFields_raises {allowed : List Str} {description : Str} :
    Raises Exn.IsPermanent (rejectUnknownFields v allowed description) :=
  Raises.forM fun _ _ ↦ Raises.throwIf fun _ ↦ permanent _ _

theorem validateGraphName_raises {build : Build} {s : Str} :
    Raises Exn.IsPermanent (validateGraphName build s field) :=
  Raises.bind (Raises.throwIf fun _ ↦ permanent _ _) fun _ _ ↦
    Raises.throwIf fun _ ↦ permanent _ _

/-- The field checks of a publish request throw permanent errors only. -/
theorem publishFields_raises {build : Build} :
    Raises Exn.IsPermanent (publishFields build v) :=
  Raises.bind rejectUnknownFields_raises fun _ _ ↦
    Raises.bind requiredString_raises fun _ _ ↦
    Raises.bind requiredString_raises fun _ _ ↦
    Raises.bind validateGraphName_raises fun _ _ ↦
    Raises.bind (Raises.throwIf fun _ ↦ permanent _ _) fun _ _ ↦
    Raises.bind requiredObject_raises fun _ _ ↦
    Raises.bind requiredUInt_raises fun _ _ ↦
    Raises.bind requiredString_raises fun _ _ ↦
    Raises.bind requiredString_raises fun _ _ ↦
    Raises.bind requiredUInt_raises fun _ _ ↦
    Raises.bind (Raises.throwIf fun _ ↦ permanent _ _) fun _ _ ↦
    Raises.bind (Raises.throwIf fun _ ↦ permanent _ _) fun _ _ ↦ Raises.ok _

/-- So do those of a service call request. -/
theorem serviceFields_raises {build : Build} :
    Raises Exn.IsPermanent (serviceFields build v) :=
  Raises.bind rejectUnknownFields_raises fun _ _ ↦
    Raises.bind requiredString_raises fun _ _ ↦
    Raises.bind requiredString_raises fun _ _ ↦
    Raises.bind validateGraphName_raises fun _ _ ↦
    Raises.bind (Raises.throwIf fun _ ↦ permanent _ _) fun _ _ ↦
    Raises.bind requiredObject_raises fun _ _ ↦
    Raises.bind requiredUInt_raises fun _ _ ↦
    Raises.bind requiredUInt_raises fun _ _ ↦ Raises.ok _

end Raising

/-! ## Unsigned integers -/

private theorem requiredUInt_readsExactly {lo hi : ℕ} (hhi : hi < 2 ^ 64) (v : Value)
    (field : Str) : ReadsExactly Nat.cast ((v.member? field).bind Value.integer?) lo hi
      (requiredUInt v field lo hi) where
  returns := by
    simp only [requiredUInt_eq_ok hhi, Option.bind_eq_some_iff]
    constructor
    · rintro ⟨n, w, hw, hn, hlo, hhi⟩
      exact ⟨n, ⟨w, hw, hn⟩, by omega, by omega⟩
    · rintro ⟨n, ⟨w, hw, hn⟩, hlo, hhi⟩
      obtain ⟨k, rfl⟩ := Int.eq_ofNat_of_zero_le (show 0 ≤ n by omega)
      exact ⟨k, w, hw, hn, by omega, by omega⟩
  exact n hn := by
    obtain ⟨w, hw, hinteger, -⟩ := (requiredUInt_eq_ok hhi).mp hn
    rw [hw, Option.bind_some, hinteger]
  raises := requiredUInt_raises

/-- **Unsigned integers are read exactly**, as fields of a message and as members of a request. -/
theorem unsigned_read_exact :
    (∀ (t : UnsignedType) (bound : ℕ) (value : Value) (path : Str),
      ReadsExactly Subtype.val value.integer? 0 t.max (assignUnsigned t.max value path) ∧
      ReadsExactly t.value value.integer? 0 t.max (assignScalar bound t.scalar value path)) ∧
    ∀ (members : List (Str × Value)) (field : Str) (minimum maximum : UInt32),
      ReadsExactly Nat.cast ((members.lookup field).bind Value.integer?) minimum.toNat
        maximum.toNat
        (requiredUInt (.object members) field minimum.toNat maximum.toNat) := by
  refine ⟨fun t bound value path ↦ ⟨?_, assignScalar_readsExactly t bound value path⟩, ?_⟩
  · exact assignUnsigned_readsExactly t.max_le value path
  · intro members field minimum maximum
    have hmaximum : maximum.toNat < 2 ^ 64 := maximum.toNat_lt.trans (by decide)
    exact requiredUInt_readsExactly hmaximum (.object members) field

end Ros2ToolsAdapter.Request
