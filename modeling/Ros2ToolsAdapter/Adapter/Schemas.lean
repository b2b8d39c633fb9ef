import Ros2ToolsAdapter.Adapter.Request
import Ros2ToolsAdapter.JsonCpp.Schema

/-!
# The advertised schemas

A capability advertises its request as a JSON Schema, and the operation checks the request by hand.
The two are compared here. They agree about most of a request — the keys, the type, the message, the
depth and the enumerations — and differ in three respects: the time limits, a name with a NUL in it,
of which rmw sees the part before, and a name that is longer than rmw allows. `PublishDrift` and
`ServiceDrift` say which requests are affected, and on every other the two agree.

What is assumed of rmw is `ValidatesFullTopicNames`.
-/

namespace Ros2ToolsAdapter.Request

open Json RegularExpression Str

/-! ## Names -/

/-- `[A-Za-z_][A-Za-z0-9_]*` -/
def tokenPattern : RegularExpression UInt8 := oneOf nameStart * (oneOf nameBytes).star

/-- `^/[A-Za-z_][A-Za-z0-9_]*(?:/[A-Za-z_][A-Za-z0-9_]*)*$` -/
def namePattern : RegularExpression UInt8 :=
  literal "/" * tokenPattern * (literal "/" * tokenPattern).star

/-- A token of a name: not empty, of letters, digits and underscores, not starting with a digit. -/
def IsToken (s : Str) : Prop :=
  s ≠ [] ∧ (∀ b ∈ s, b ∈ nameBytes) ∧ ∀ b ∈ s.head?, b ∉ digits

/-- An absolute name, made of tokens, without a trailing slash. -/
def IsFullTopicName (s : Str) : Prop :=
  ∃ tokens : List Str, tokens ≠ [] ∧ (∀ t ∈ tokens, IsToken t) ∧
    s = (tokens.map fun t ↦ (0x2F : UInt8) :: t).flatten

def kRmwTopicMaxNameLength : ℕ := 247

/-- What `rmw_validate_full_topic_name` accepts of a C string. -/
def ValidatesFullTopicNames (build : Build) : Prop :=
  ∀ s, 0 ∉ s → (build.rmwValidateFullTopicName s = ⟨0, 0⟩ ↔
    IsFullTopicName s ∧ s.length ≤ kRmwTopicMaxNameLength)

private theorem mem_nameStart {b : UInt8} : b ∈ nameStart ↔ b ∈ nameBytes ∧ b ∉ digits := by
  have hstart : nameStart.all (fun b ↦ nameBytes.contains b && !digits.contains b) = true := by
    decide
  constructor
  · intro hb
    simpa using List.all_eq_true.mp hstart b hb
  · rintro ⟨hbytes, hdigit⟩
    simp only [nameStart, nameBytes, List.mem_append] at hbytes ⊢
    rcases hbytes with (hletter | hdigit') | hunderscore
    · exact Or.inl hletter
    · exact absurd hdigit' hdigit
    · exact Or.inr hunderscore

private theorem mem_tokenPattern {s : Str} : s ∈ tokenPattern.matches' ↔ IsToken s := by
  rw [tokenPattern, matches'_mul, Language.mem_mul]
  constructor
  · rintro ⟨u, hu, w, hw, rfl⟩
    obtain ⟨b, hb, rfl⟩ := mem_oneOf.mp hu
    have hrest := mem_star_oneOf.mp hw
    rw [mem_nameStart] at hb
    refine ⟨by simp, ?_, ?_⟩
    · simpa using ⟨hb.1, hrest⟩
    · simpa using hb.2
  · rintro ⟨hne, hbytes, hhead⟩
    obtain _ | ⟨b, w⟩ := s
    · exact absurd rfl hne
    · refine ⟨[b], mem_oneOf.mpr ⟨b, ?_, rfl⟩, w, mem_star_oneOf.mpr ?_, rfl⟩
      · exact mem_nameStart.mpr ⟨hbytes b List.mem_cons_self, hhead b rfl⟩
      · exact fun c hc ↦ hbytes c (List.mem_cons_of_mem b hc)

private theorem mem_slashToken {s : Str} :
    s ∈ (literal "/" * tokenPattern).matches' ↔ ∃ t, IsToken t ∧ s = 0x2F :: t := by
  rw [matches'_mul, Language.mem_mul]
  constructor
  · rintro ⟨u, hu, t, ht, rfl⟩
    rw [mem_literal.mp hu]
    exact ⟨t, mem_tokenPattern.mp ht, rfl⟩
  · rintro ⟨t, ht, rfl⟩
    exact ⟨_, mem_literal.mpr rfl, t, mem_tokenPattern.mpr ht, rfl⟩

/-- The pattern of the schemas is the grammar of names. -/
theorem mem_namePattern {s : Str} : s ∈ namePattern.matches' ↔ IsFullTopicName s := by
  rw [namePattern, matches'_mul, Language.mem_mul]
  constructor
  · rintro ⟨u, hu, w, hw, rfl⟩
    obtain ⟨t, ht, rfl⟩ := mem_slashToken.mp hu
    obtain ⟨words, rfl, hwords⟩ := Language.mem_kstar.mp hw
    have hdrop : ∀ word ∈ words, IsToken word.tail ∧ 0x2F :: word.tail = word := by
      intro word hword
      obtain ⟨t', ht', rfl⟩ := mem_slashToken.mp (hwords word hword)
      exact ⟨ht', rfl⟩
    -- the tokens are the words of the repetition without their slashes
    refine ⟨t :: words.map List.tail, by simp, ?_, ?_⟩
    · simpa using ⟨ht, fun word hword ↦ (hdrop word hword).1⟩
    · rw [List.map_cons, List.map_map, List.flatten_cons]
      congr 2
      exact (List.map_id'' (fun _ ↦ rfl) words).symm.trans
        (List.map_congr_left fun word hword ↦ (hdrop word hword).2.symm)
  · rintro ⟨tokens, hne, htokens, rfl⟩
    obtain _ | ⟨t, tokens⟩ := tokens
    · exact absurd rfl hne
    · refine ⟨0x2F :: t, mem_slashToken.mpr ⟨t, htokens t List.mem_cons_self, rfl⟩, _,
        Language.mem_kstar.mpr ⟨tokens.map fun t ↦ 0x2F :: t, rfl, ?_⟩, rfl⟩
      intro word hword
      obtain ⟨t', ht', rfl⟩ := List.mem_map.mp hword
      exact mem_slashToken.mpr ⟨t', htokens t' (List.mem_cons_of_mem t ht'), rfl⟩

/-- The bytes of ASCII other than NUL. -/
def IsPlain (b : UInt8) : Prop := 0 < b ∧ b < 0x80

theorem forall_isPlain {bytes : List UInt8} (h : bytes.all (fun b ↦ 0 < b && b < 0x80) = true) :
    ∀ b ∈ bytes, IsPlain b := by
  intro b hb
  simpa [IsPlain] using List.all_eq_true.mp h b hb

private theorem namePattern_over : namePattern.Over IsPlain := by
  have hstart : (oneOf nameStart).Over IsPlain := over_oneOf (forall_isPlain (by decide))
  have hbytes : (oneOf nameBytes).Over IsPlain := over_oneOf (forall_isPlain (by decide))
  have hslash : (literal "/" : RegularExpression UInt8).Over IsPlain :=
    over_literal (forall_isPlain (by decide))
  exact ⟨⟨hslash, hstart, hbytes⟩, hslash, hstart, hbytes⟩

private theorem typePattern_over {kind : Str} (hkind : ∀ b ∈ kind, IsPlain b) :
    (identifier * literal kind * identifier).Over IsPlain := by
  have hidentifier : identifier.Over IsPlain :=
    ⟨over_oneOf (forall_isPlain (by decide)), over_oneOf (forall_isPlain (by decide))⟩
  exact ⟨⟨hidentifier, over_literal hkind⟩, hidentifier⟩

/-- A string of plain bytes has as many characters as bytes. -/
theorem characters_of_over {r : RegularExpression UInt8} (hr : r.Over IsPlain) {s : Str}
    (hs : s ∈ r.matches') : characters s = s.length :=
  characters_eq_length fun b hb ↦ (hr.forall_mem hs b hb).2

theorem IsFullTopicName.zero_notMem {s : Str} (h : IsFullTopicName s) : 0 ∉ s := fun hzero ↦
  absurd (namePattern_over.forall_mem (mem_namePattern.mpr h) 0 hzero).1 (by decide)

/-- What the operations accept of a name, when rmw is as assumed. -/
theorem acceptsName_iff {build : Build} (hrmw : ValidatesFullTopicNames build) {s : Str} :
    AcceptsName build s ↔ s.length ≤ kMaximumRosNameBytes ∧ IsFullTopicName (cString s) ∧
      (cString s).length ≤ kRmwTopicMaxNameLength := by
  rw [AcceptsName, hrmw _ (zero_notMem_cString s)]
  refine ⟨fun h ↦ h.2, fun h ↦ ⟨?_, h⟩⟩
  -- the check of the first byte adds nothing: a name of the grammar starts with a slash
  obtain ⟨tokens, hne, -, hflatten⟩ := h.2.1
  obtain _ | ⟨t, tokens⟩ := tokens
  · exact absurd rfl hne
  · obtain _ | ⟨b, s⟩ := s
    · simp [cString] at hflatten
    · rw [cString, List.takeWhile_cons] at hflatten
      split at hflatten
      · simpa using (List.cons.inj hflatten).1
      · simp at hflatten

/-! ## The schemas -/

/-- The schema of a name. -/
def nameSchema : PropertySchema :=
  { type := some .string, pattern := some namePattern, maxLength := some 1024 }

/-- The schema of an interface type. -/
def typeSchema (pattern : RegularExpression UInt8) : PropertySchema :=
  { type := some .string, pattern := some pattern, maxLength := some 256 }

/-- The schema of a number. -/
def integerSchema (minimum maximum : ℤ) : PropertySchema :=
  { type := some .integer, minimum := some minimum, maximum := some maximum }

/-- `publish-request.schema.json` -/
def publishRequestSchema : ObjectSchema where
  properties := [("topic", nameSchema), ("messageType", typeSchema messageTypePattern),
    ("message", { type := some .object }), ("qosDepth", integerSchema 1 1000),
    ("reliability", { enum := some ["reliable", "best-effort"] }),
    ("durability", { enum := some ["volatile", "transient-local"] }),
    ("waitForSubscribersMs", integerSchema 0 60000)]
  required := ["topic", "messageType", "message", "qosDepth", "reliability", "durability",
    "waitForSubscribersMs"]
  additionalProperties := false

/-- `service-call-request.schema.json` -/
def serviceCallRequestSchema : ObjectSchema where
  properties := [("service", nameSchema), ("serviceType", typeSchema serviceTypePattern),
    ("request", { type := some .object }), ("waitForServiceMs", integerSchema 0 60000),
    ("callTimeoutMs", integerSchema 1 120000)]
  required := ["service", "serviceType", "request", "waitForServiceMs", "callTimeoutMs"]
  additionalProperties := false

private theorem nameSchema_admits_iff {w : Value} :
    nameSchema.Admits w ↔ ∃ s, w = .string s ∧ IsFullTopicName s ∧ s.length ≤ 1024 := by
  rw [nameSchema, PropertySchema.admits_string_iff]
  refine exists_congr fun s ↦ and_congr_right fun _ ↦ ?_
  constructor
  · rintro ⟨hs, hlength⟩
    rw [characters_of_over namePattern_over hs] at hlength
    exact ⟨mem_namePattern.mp hs, hlength⟩
  · rintro ⟨hs, hlength⟩
    have hmem := mem_namePattern.mpr hs
    exact ⟨hmem, by rwa [characters_of_over namePattern_over hmem]⟩

private theorem typeSchema_admits_iff {kind : Str} (hkind : ∀ b ∈ kind, IsPlain b) {w : Value} :
    (typeSchema (identifier * literal kind * identifier)).Admits w ↔
      ∃ s, w = .string s ∧ s.length ≤ kMaximumRosTypeBytes ∧
        s ∈ (identifier * literal kind * identifier).matches' := by
  rw [typeSchema, PropertySchema.admits_string_iff]
  refine exists_congr fun s ↦ and_congr_right fun _ ↦ ?_
  constructor
  · rintro ⟨hs, hlength⟩
    rw [characters_of_over (typePattern_over hkind) hs] at hlength
    exact ⟨hlength, hs⟩
  · rintro ⟨hlength, hs⟩
    exact ⟨hs, by rwa [characters_of_over (typePattern_over hkind) hs]⟩

private theorem integerSchema_admits_iff (v : Value) (field : Str) (lo hi : ℕ) :
    (∃ w, v.member? field = some w ∧ (integerSchema lo hi).Admits w) ↔
      ∃ n, HasUInt v field lo hi n := by
  simp only [integerSchema, PropertySchema.admits_integer_iff, HasUInt]
  constructor
  · rintro ⟨w, hw, n, hn, hlo, hhi⟩
    exact ⟨n.toNat, w, hw, by rw [hn, Int.toNat_of_nonneg (by omega)], by omega, by omega⟩
  · rintro ⟨n, w, hw, hn, hlo, hhi⟩
    exact ⟨w, hw, n, hn, by omega, by omega⟩

/-! ## Where they agree -/

/-- A publish request in every respect but two: its topic is any string and its time limit is the
operation's own. -/
structure PublishShape (v : Value) (topic : Str) (waitMs : ℕ) : Prop where
  names : ∀ name ∈ v.getMemberNames, name ∈ publishFieldNames
  topic : v.member? "topic" = some (.string topic)
  messageType : ∃ s, v.member? "messageType" = some (.string s) ∧
    s.length ≤ kMaximumRosTypeBytes ∧ s ∈ messageTypePattern.matches'
  message : ∃ w, v.member? "message" = some w ∧ w.isObject = true
  depth : ∃ n, HasUInt v "qosDepth" 1 1000 n
  reliability : ∃ s, v.member? "reliability" = some (.string s) ∧
    (s = "reliable" ∨ s = "best-effort")
  durability : ∃ s, v.member? "durability" = some (.string s) ∧
    (s = "volatile" ∨ s = "transient-local")
  waitMs : HasUInt v "waitForSubscribersMs" 0 kMaximumWaitMilliseconds waitMs

/-- The same of a service call request. -/
structure ServiceShape (v : Value) (service : Str) (waitMs callMs : ℕ) : Prop where
  names : ∀ name ∈ v.getMemberNames, name ∈ serviceFieldNames
  service : v.member? "service" = some (.string service)
  serviceType : ∃ s, v.member? "serviceType" = some (.string s) ∧
    s.length ≤ kMaximumRosTypeBytes ∧ s ∈ serviceTypePattern.matches'
  request : ∃ w, v.member? "request" = some w ∧ w.isObject = true
  waitMs : HasUInt v "waitForServiceMs" 0 kMaximumWaitMilliseconds waitMs
  callMs : HasUInt v "callTimeoutMs" 1 kMaximumWaitMilliseconds callMs

theorem HasUInt.unique {v : Value} {field : Str} {lo hi lo' hi' m n : ℕ}
    (hm : HasUInt v field lo hi m) (hn : HasUInt v field lo' hi' n) : m = n := by
  obtain ⟨w, hw, hwm, -⟩ := hm
  obtain ⟨w', hw', hwn, -⟩ := hn
  obtain rfl := Option.some_injective _ (hw.symm.trans hw')
  exact_mod_cast Option.some_injective _ (hwm.symm.trans hwn)

private theorem HasUInt.widen {v : Value} {field : Str} {lo hi hi' n : ℕ}
    (h : HasUInt v field lo hi n) (hle : n ≤ hi') : HasUInt v field lo hi' n := by
  obtain ⟨w, hw, hn, hlo, -⟩ := h
  exact ⟨w, hw, hn, hlo, hle⟩

theorem HasUInt.le {v : Value} {field : Str} {lo hi n : ℕ} (h : HasUInt v field lo hi n) :
    n ≤ hi := by
  obtain ⟨w, hw, hn, -, hhi⟩ := h
  exact hhi

private theorem publishFields_iff {build : Build} {v : Value} :
    (∃ p, publishFields build v = .ok p) ↔
      ∃ topic waitMs, PublishShape v topic waitMs ∧ AcceptsName build topic := by
  simp only [publishFields_eq_ok]
  constructor
  · rintro ⟨p, h⟩
    exact ⟨p.topic, p.waitMs, ⟨h.names, h.topic.1, ⟨_, h.messageType⟩, ⟨_, h.message⟩,
      ⟨_, h.depth⟩, ⟨_, h.reliability⟩, ⟨_, h.durability⟩, h.waitMs⟩, h.topic.2⟩
  · rintro ⟨topic, waitMs, h, haccepts⟩
    obtain ⟨messageType, hmessageType⟩ := h.messageType
    obtain ⟨message, hmessage⟩ := h.message
    obtain ⟨depth, hdepth⟩ := h.depth
    obtain ⟨reliability, hreliability⟩ := h.reliability
    obtain ⟨durability, hdurability⟩ := h.durability
    exact ⟨⟨topic, messageType, message, depth, reliability, durability, waitMs⟩,
      ⟨h.names, ⟨h.topic, haccepts⟩, hmessageType, hmessage, hdepth, hreliability, hdurability,
        h.waitMs⟩⟩

private theorem serviceFields_iff {build : Build} {v : Value} :
    (∃ p, serviceFields build v = .ok p) ↔
      ∃ service waitMs callMs,
        ServiceShape v service waitMs callMs ∧ AcceptsName build service := by
  simp only [serviceFields_eq_ok]
  constructor
  · rintro ⟨p, h⟩
    exact ⟨p.service, p.waitMs, p.callMs, ⟨h.names, h.service.1, ⟨_, h.serviceType⟩,
      ⟨_, h.request⟩, h.waitMs, h.callMs⟩, h.service.2⟩
  · rintro ⟨service, waitMs, callMs, h, haccepts⟩
    obtain ⟨serviceType, hserviceType⟩ := h.serviceType
    obtain ⟨request, hrequest⟩ := h.request
    exact ⟨⟨service, serviceType, request, waitMs, callMs⟩,
      ⟨h.names, ⟨h.service, haccepts⟩, hserviceType, hrequest, h.waitMs, h.callMs⟩⟩

section Schemas

variable {v : Value} {field : Str}

private theorem exists_name_iff : (∃ w, v.member? field = some w ∧ nameSchema.Admits w) ↔
    ∃ s, v.member? field = some (.string s) ∧ IsFullTopicName s ∧ s.length ≤ 1024 := by
  simp only [nameSchema_admits_iff]
  constructor
  · rintro ⟨_, hw, s, rfl, hs⟩
    exact ⟨s, hw, hs⟩
  · rintro ⟨s, hw, hs⟩
    exact ⟨_, hw, s, rfl, hs⟩

private theorem exists_type_iff (field kind : Str) (hkind : ∀ b ∈ kind, IsPlain b) :
    (∃ w, v.member? field = some w ∧
        (typeSchema (identifier * literal kind * identifier)).Admits w) ↔
      ∃ s, v.member? field = some (.string s) ∧ s.length ≤ kMaximumRosTypeBytes ∧
        s ∈ (identifier * literal kind * identifier).matches' := by
  simp only [typeSchema_admits_iff hkind]
  constructor
  · rintro ⟨_, hw, s, rfl, hs⟩
    exact ⟨s, hw, hs⟩
  · rintro ⟨s, hw, hs⟩
    exact ⟨_, hw, s, rfl, hs⟩

private theorem exists_enum_iff {a b : Str} :
    (∃ w, v.member? field = some w ∧ PropertySchema.Admits { enum := some [a, b] } w) ↔
      ∃ s, v.member? field = some (.string s) ∧ (s = a ∨ s = b) := by
  simp only [PropertySchema.admits_enum_iff, List.mem_cons, List.not_mem_nil, or_false]
  constructor
  · rintro ⟨_, hw, s, hs, rfl⟩
    exact ⟨s, hw, hs⟩
  · rintro ⟨s, hw, hs⟩
    exact ⟨_, hw, s, hs, rfl⟩

private theorem publishRequestSchema_iff (hv : v.isObject = true) :
    publishRequestSchema.Admits v ↔ ∃ topic waitMs, PublishShape v topic waitMs ∧
      (IsFullTopicName topic ∧ topic.length ≤ 1024) ∧ waitMs ≤ 60000 := by
  have hproperties :=
    ObjectSchema.admits_iff (v := v) (show publishRequestSchema.required = _ from rfl) rfl
  have htype := exists_type_iff (v := v) "messageType" "/msg/"
    (forall_isPlain (by decide))
  have hdepth := integerSchema_admits_iff v "qosDepth" 1 1000
  have hwait := integerSchema_admits_iff v "waitForSubscribersMs" 0 60000
  simp only [publishRequestSchema, List.forall_mem_cons, exists_name_iff, exists_enum_iff,
    PropertySchema.admits_object_iff] at hproperties
  rw [publishRequestSchema, hproperties]
  constructor
  · rintro ⟨-, hnames, ⟨topic, htopic, hname⟩, hmessageType, hmessage, hd, hreliability,
      hdurability, hw, -⟩
    obtain ⟨n, hn⟩ := hwait.mp hw
    exact ⟨topic, n, ⟨hnames, htopic, htype.mp hmessageType, hmessage, hdepth.mp hd, hreliability,
      hdurability, hn.widen (hn.le.trans (by decide))⟩, hname, hn.le⟩
  · rintro ⟨topic, n, h, hname, hn⟩
    exact ⟨hv, h.names, ⟨topic, h.topic, hname⟩, htype.mpr h.messageType, h.message,
      hdepth.mpr h.depth, h.reliability, h.durability, hwait.mpr ⟨n, h.waitMs.widen hn⟩, by simp⟩

private theorem serviceCallRequestSchema_iff (hv : v.isObject = true) :
    serviceCallRequestSchema.Admits v ↔ ∃ service waitMs callMs,
      ServiceShape v service waitMs callMs ∧ (IsFullTopicName service ∧ service.length ≤ 1024) ∧
        waitMs ≤ 60000 ∧ callMs ≤ 120000 := by
  have hproperties := ObjectSchema.admits_iff (v := v)
    (show serviceCallRequestSchema.required = _ from rfl) rfl
  have htype := exists_type_iff (v := v) "serviceType" "/srv/"
    (forall_isPlain (by decide))
  have hwait := integerSchema_admits_iff v "waitForServiceMs" 0 60000
  have hcall := integerSchema_admits_iff v "callTimeoutMs" 1 120000
  simp only [serviceCallRequestSchema, List.forall_mem_cons, exists_name_iff,
    PropertySchema.admits_object_iff] at hproperties
  rw [serviceCallRequestSchema, hproperties]
  constructor
  · rintro ⟨-, hnames, ⟨service, hservice, hname⟩, hserviceType, hrequest, hw, hc, -⟩
    obtain ⟨n, hn⟩ := hwait.mp hw
    obtain ⟨m, hm⟩ := hcall.mp hc
    exact ⟨service, n, m, ⟨hnames, hservice, htype.mp hserviceType, hrequest,
      hn.widen (hn.le.trans (by decide)), hm.widen (hm.le.trans (by decide))⟩, hname, hn.le, hm.le⟩
  · rintro ⟨service, n, m, h, hname, hn, hm⟩
    exact ⟨hv, h.names, ⟨service, h.service, hname⟩, htype.mpr h.serviceType, h.request,
      hwait.mpr ⟨n, h.waitMs.widen hn⟩, hcall.mpr ⟨m, h.callMs.widen hm⟩, by simp⟩

end Schemas

/-! ## Where they differ -/

/-- A name, with time limits that are or are not within those of the schema, on which the operation
and the schema differ: a NUL after a valid name, or a valid name with too long a time limit, or a
name longer than rmw allows. -/
def NameDrift (name : Str) (timely : Prop) : Prop :=
  (0 ∈ name ∧ name.length ≤ kMaximumRosNameBytes ∧ IsFullTopicName (cString name) ∧
      (cString name).length ≤ kRmwTopicMaxNameLength) ∨
    (IsFullTopicName name ∧ name.length ≤ kRmwTopicMaxNameLength ∧ ¬ timely) ∨
    (IsFullTopicName name ∧ kRmwTopicMaxNameLength < name.length ∧
      name.length ≤ kMaximumRosNameBytes ∧ timely)

/-- A publish request whose topic and time limit drift. -/
def PublishDrift (v : Value) : Prop :=
  ∃ topic waitMs, PublishShape v topic waitMs ∧ NameDrift topic (waitMs ≤ 60000)

/-- A service call request whose service name and time limits drift. -/
def ServiceDrift (v : Value) : Prop :=
  ∃ service waitMs callMs, ServiceShape v service waitMs callMs ∧
    NameDrift service (waitMs ≤ 60000 ∧ callMs ≤ 120000)

private theorem nameDrift_iff {build : Build} (hrmw : ValidatesFullTopicNames build) (name : Str)
    (timely : Prop) :
    (AcceptsName build name ↔ (IsFullTopicName name ∧ name.length ≤ 1024) ∧ timely) ↔
      ¬ NameDrift name timely := by
  have hlimits : kMaximumRosNameBytes = 1024 ∧ kRmwTopicMaxNameLength = 247 := ⟨rfl, rfl⟩
  rw [acceptsName_iff hrmw, NameDrift]
  by_cases hzero : 0 ∈ name
  -- with a NUL in it the schema rejects, and only rmw's view of the name is left to decide
  · have hnot : ¬ IsFullTopicName name := fun h ↦ h.zero_notMem hzero
    simp only [hzero, hnot, true_and, false_and, or_false, iff_false]
  · rw [cString_eq_self.mpr hzero]
    simp only [hzero, false_and, false_or]
    by_cases hname : IsFullTopicName name
    · by_cases htimely : timely
      · simp only [hname, htimely, true_and, and_true, not_true_eq_false, and_false, false_or]
        omega
      · simp only [hname, htimely, true_and, and_false, iff_false, not_false_eq_true, and_true,
          or_false]
        omega
    · simp only [hname, false_and, and_false, or_false, not_false_eq_true]

/-- Two conditions on the one element of a kind agree exactly when they do not differ on it. -/
private theorem agree_iff_of_unique {α : Type} {S A B D : α → Prop}
    (hunique : ∀ a b, S a → S b → a = b) (h : ∀ a, (A a ↔ B a) ↔ ¬ D a) :
    ((∃ a, S a ∧ A a) ↔ ∃ a, S a ∧ B a) ↔ ¬ ∃ a, S a ∧ D a := by
  by_cases hS : ∃ a, S a
  · obtain ⟨a, ha⟩ := hS
    have key : ∀ C : α → Prop, (∃ b, S b ∧ C b) ↔ C a := fun C ↦
      ⟨fun ⟨b, hb, hC⟩ ↦ hunique b a hb ha ▸ hC, fun hC ↦ ⟨a, ha, hC⟩⟩
    rw [key, key, key, h]
  · have key : ∀ C : α → Prop, ¬ ∃ b, S b ∧ C b := fun C ⟨b, hb, _⟩ ↦ hS ⟨b, hb⟩
    exact iff_of_true (iff_of_false (key A) (key B)) (key D)

theorem PublishShape.unique {v : Value} {s s' : Str} {n n' : ℕ} (h : PublishShape v s n)
    (h' : PublishShape v s' n') : s = s' ∧ n = n' :=
  ⟨by simpa using h.topic.symm.trans h'.topic, h.waitMs.unique h'.waitMs⟩

theorem ServiceShape.unique {v : Value} {s s' : Str} {n n' m m' : ℕ} (h : ServiceShape v s n m)
    (h' : ServiceShape v s' n' m') : s = s' ∧ n = n' ∧ m = m' :=
  ⟨by simpa using h.service.symm.trans h'.service, h.waitMs.unique h'.waitMs,
    h.callMs.unique h'.callMs⟩

/-- **The operations and the schemas agree** exactly on the requests that do not drift. -/
theorem requests_agree_iff (build : Build) (hrmw : ValidatesFullTopicNames build) (v : Value)
    (hv : v.isObject = true) :
    (((∃ p, publishFields build v = .ok p) ↔ publishRequestSchema.Admits v) ↔
        ¬ PublishDrift v) ∧
      (((∃ p, serviceFields build v = .ok p) ↔ serviceCallRequestSchema.Admits v) ↔
        ¬ ServiceDrift v) := by
  rw [publishFields_iff, publishRequestSchema_iff hv, serviceFields_iff,
    serviceCallRequestSchema_iff hv]
  constructor
  · simpa only [Prod.exists, PublishDrift] using
      agree_iff_of_unique (S := fun x : Str × ℕ ↦ PublishShape v x.1 x.2)
        (fun _ _ h h' ↦ Prod.ext (h.unique h').1 (h.unique h').2)
        (fun x ↦ nameDrift_iff hrmw x.1 (x.2 ≤ 60000))
  · simpa only [Prod.exists, ServiceDrift] using
      agree_iff_of_unique (S := fun x : Str × ℕ × ℕ ↦ ServiceShape v x.1 x.2.1 x.2.2)
        (fun _ _ h h' ↦ Prod.ext (h.unique h').1
          (Prod.ext (h.unique h').2.1 (h.unique h').2.2))
        (fun x ↦ nameDrift_iff hrmw x.1 (x.2.1 ≤ 60000 ∧ x.2.2 ≤ 120000))

/-! ### A build, and a request it accepts too late -/

/-- The topic-name check as it is assumed, with one code for all that is invalid. -/
def rmwReference (s : Str) : RmwValidation :=
  if namePattern.rmatch s = true ∧ s.length ≤ kRmwTopicMaxNameLength then ⟨0, 0⟩ else ⟨0, 4⟩

/-- An endpoint of the contract, with the schemas' identities left small. -/
def referenceEndpoint (capability : Str) (message : ℕ) : Endpoint where
  capabilityId := capability
  contractVersion := 1
  contractDigest := "sha256:0"
  endpointId := "call"
  inputSchema := ⟨message, "request", 1, 1⟩
  outputSchema := ⟨message + 1, "result", 1, 1⟩
  defaultTimeoutMs := 30000
  maximumTimeoutMs := 60000
  limits := ⟨1048576, 1048576, 4⟩

/-- A build with the given reader and writer. -/
def referenceBuild (parse : CharReaderBuilder → Str → ParseResult)
    (writeString : StreamWriterBuilder → Value → Str) : Build where
  contract := ⟨⟨1, "configuration", 1, 1⟩, referenceEndpoint "publish" 2,
    referenceEndpoint "service" 4⟩
  parse := parse
  writeString := writeString
  serializeAsString reference :=
    Str.ofNat reference.messageId ++ "," ++ reference.typeName ++ "," ++
    Str.ofNat reference.schemaVersion ++ "," ++ Str.ofNat reference.schemaFingerprint ++ "," ++
    reference.unknownFields
  rmwValidateFullTopicName := rmwReference

theorem referenceBuild_validates (parse : CharReaderBuilder → Str → ParseResult)
    (writeString : StreamWriterBuilder → Value → Str) :
    ValidatesFullTopicNames (referenceBuild parse writeString) := by
  intro s _
  have hcode : rmwReference s = ⟨0, 0⟩ ↔
      namePattern.rmatch s = true ∧ s.length ≤ kRmwTopicMaxNameLength := by
    unfold rmwReference
    split <;> simp_all
  rw [← mem_namePattern, ← rmatch_iff_matches']
  exact hcode

/-- A publish request for one message, with a time limit. -/
def publishRequest (message : Value) (waitMs : ℕ) : Value :=
  .object [("durability", .string "volatile"), ("message", message),
    ("messageType", .string "p/msg/T"), ("qosDepth", .ofInt64 1),
    ("reliability", .string "reliable"), ("topic", .string "/t"),
    ("waitForSubscribersMs", .ofInt64 waitMs)]

private theorem reference_acceptsName (parse : CharReaderBuilder → Str → ParseResult)
    (writeString : StreamWriterBuilder → Value → Str) :
    AcceptsName (referenceBuild parse writeString) "/t" :=
  ⟨rfl, by decide, show rmwReference "/t" = ⟨0, 0⟩ by decide +kernel⟩

private theorem reference_messageType : ("p/msg/T" : Str).length ≤ kMaximumRosTypeBytes ∧
    ("p/msg/T" : Str) ∈ messageTypePattern.matches' :=
  ⟨by decide, (rmatch_iff_matches' _ _).mp (by decide +kernel)⟩

theorem publishRequest_readFrom (parse : CharReaderBuilder → Str → ParseResult)
    (writeString : StreamWriterBuilder → Value → Str) {message : Value}
    (hmessage : message.isObject = true) {waitMs : ℕ} (hwait : waitMs ≤ kMaximumWaitMilliseconds) :
    (⟨"/t", "p/msg/T", message, 1, "reliable", "volatile", waitMs⟩ : PublishFields).ReadFrom
      (referenceBuild parse writeString) (publishRequest message waitMs) where
  names := show ∀ name ∈ (["durability", "message", "messageType", "qosDepth", "reliability",
    "topic", "waitForSubscribersMs"] : List Str), name ∈ publishFieldNames by decide
  topic := ⟨rfl, reference_acceptsName parse writeString⟩
  messageType := ⟨rfl, reference_messageType⟩
  message := ⟨rfl, hmessage⟩
  depth := ⟨_, rfl, rfl, le_refl 1, show 1 ≤ 1000 by decide⟩
  reliability := ⟨rfl, Or.inl rfl⟩
  durability := ⟨rfl, Or.inl rfl⟩
  waitMs := by
    have hlimit : kMaximumWaitMilliseconds = 300000 := rfl
    exact ⟨_, rfl, Value.integer?_ofInt64 (by omega) (by omega), Nat.zero_le _, hwait⟩

/-- A build that reads nothing. -/
def blindBuild : Build := referenceBuild (fun _ _ ↦ .errors []) fun _ _ ↦ []

/-- A publish request whose time limit is the operation's and not the schema's. -/
def latePublishRequest : Value := publishRequest (.object []) 60001

/-- The operation accepts a request that its schema rejects. -/
theorem latePublishRequest_drifts :
    ValidatesFullTopicNames blindBuild ∧ latePublishRequest.isObject = true ∧
      ¬ ((∃ p, publishFields blindBuild latePublishRequest = .ok p) ↔
        publishRequestSchema.Admits latePublishRequest) := by
  refine ⟨referenceBuild_validates _ _, rfl, ?_⟩
  intro h
  have hlate : HasUInt latePublishRequest "waitForSubscribersMs" 0 60001 60001 :=
    ⟨_, rfl, rfl, by decide, by decide⟩
  have haccepted := publishFields_eq_ok.mpr (publishRequest_readFrom (fun _ _ ↦ .errors [])
    (fun _ _ ↦ []) (show (Value.object []).isObject = true from rfl) (show 60001 ≤ _ by decide))
  obtain ⟨topic, waitMs, hshape, -, hlimit⟩ :=
    (publishRequestSchema_iff rfl).mp (h.mp ⟨_, haccepted⟩)
  have hwait := hshape.waitMs.unique hlate
  omega

theorem requests_agree_iff_latePublishRequest :
    (((∃ p, publishFields blindBuild latePublishRequest = .ok p) ↔
        publishRequestSchema.Admits latePublishRequest) ↔ ¬ PublishDrift latePublishRequest) ∧
      (((∃ p, serviceFields blindBuild latePublishRequest = .ok p) ↔
        serviceCallRequestSchema.Admits latePublishRequest) ↔ ¬ ServiceDrift latePublishRequest) :=
  requests_agree_iff blindBuild (referenceBuild_validates _ _) latePublishRequest rfl

end Ros2ToolsAdapter.Request
