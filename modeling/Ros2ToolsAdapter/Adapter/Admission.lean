import Ros2ToolsAdapter.Adapter.Result
import Ros2ToolsAdapter.Adapter.Schemas
import Ros2ToolsAdapter.Codec.Conformance

/-!
# Failures the request determines

A request goes through three stages that look at nothing but the request, the build and the message
type: the payload is parsed, the fields are checked, the message is decoded. Whatever fails there
fails again on every retry, so the exception ought to be one that `failure` does not call transient.

It is, but for three ways out, all of them exceptions of a library that pass through a stage
unchanged: JsonCpp's reader throws, the message type's `init_function` throws, or the decoder meets
an integer at a signed field on which `asInt64` throws. `Escapes` says when one of them is reached.
-/

namespace Ros2ToolsAdapter

open Json
open Except (bind_eq_ok)

/-! ## Decoding -/

/-- A type that is complete and whose `init_function` throws. -/
def MessageSupport.InitThrows (support : MessageSupport) : Prop :=
  support.finiFunction = true ∧ support.sizeOf ≠ 0 ∧
    ∃ what, support.initFunction = some (.error what)

/-- The decoder throws an exception that is not its own. -/
def MessageEscapes (support : MessageSupport) (v : Value) : Prop :=
  IsObjectOf support.members.names v ∧ (support.InitThrows ∨
    ∃ d, support.construct = .ok d ∧ support.members.Overflows d v (support.members.initial d))

/-- Construction returns, or throws what `init_function` throws, or finds the type incomplete. -/
theorem construct_cases (support : MessageSupport) : (∃ d, support.construct = .ok d) ∨
    (support.InitThrows ∧ ∃ what, support.construct = .error (.std what)) ∨
    (¬ support.InitThrows ∧ ∃ code message,
      support.construct = .error (permanentError code message)) := by
  by_cases hcomplete : support.finiFunction = true ∧ support.sizeOf ≠ 0
  -- `init_function` is called only where nothing else is missing
  · cases hinit : support.initFunction with
    | none =>
      refine Or.inr (Or.inr ⟨?_, _, _, by rw [MessageSupport.construct, hinit]⟩)
      rintro ⟨-, -, what, hwhat⟩
      rw [hinit] at hwhat
      exact nomatch hwhat
    | some init =>
      cases init with
      | ok d => exact Or.inl ⟨d, by rw [MessageSupport.construct, hinit]; exact if_pos hcomplete⟩
      | error what =>
        refine Or.inr (Or.inl ⟨⟨hcomplete.1, hcomplete.2, what, hinit⟩, what, ?_⟩)
        rw [MessageSupport.construct, hinit]
        exact if_pos hcomplete
  · have hnot : ¬ support.InitThrows := fun h ↦ hcomplete ⟨h.1, h.2.1⟩
    refine Or.inr (Or.inr ⟨hnot, "ros_type_support_invalid",
      "ROS2 message introspection is incomplete", ?_⟩)
    rw [MessageSupport.construct]
    split
    · exact if_neg hcomplete
    · rfl

/-- The decoder, on any type: what it throws is permanent unless it escapes. -/
theorem messageFromJson_escapes (support : MessageSupport) (v : Value) :
    ∃ F, Does (messageFromJson support v) F (MessageEscapes support v) fun _ ↦ True := by
  rcases construct_cases support with ⟨d, hd⟩ | ⟨hthrows, what, herror⟩ |
    ⟨hnot, code, message, herror⟩
  · refine ⟨_, (messageFromJson_does hd v).congr Iff.rfl (and_congr_right ?_)
      fun _ _ _ ↦ trivial⟩
    intro _
    constructor
    · exact fun h ↦ Or.inr ⟨d, hd, h⟩
    · rintro (hthrows | ⟨d', hd', h⟩)
      · obtain ⟨hfini, hsize, what, hwhat⟩ := hthrows
        rw [MessageSupport.construct, hwhat] at hd
        simp [hfini, hsize, Except.mapError] at hd
      · obtain rfl := Except.ok.inj (hd.symm.trans hd')
        exact h
  · rw [messageFromJson, herror]
    refine ⟨_, (object_does _ v _ (Does.std (H := fun _ ↦ True) what)).congr Iff.rfl
      (and_congr_right ?_) fun _ _ h ↦ h⟩
    intro _
    exact iff_of_true trivial (Or.inl hthrows)
  · rw [messageFromJson, herror]
    refine ⟨_, (object_does _ v _ (Does.permanent (H := fun _ ↦ True) code message)).congr Iff.rfl
      (and_congr_right ?_) fun _ _ h ↦ h⟩
    intro _
    refine iff_of_false id ?_
    rintro (hthrows | ⟨d, hd, -⟩)
    · exact hnot hthrows
    · rw [herror] at hd
      cases hd

/-- It never throws an uncertain one. -/
theorem messageFromJson_raises {support : MessageSupport} {v : Value} :
    Raises (fun e ↦ ¬ e.IsUncertain) (messageFromJson support v) := by
  obtain ⟨F, hdoes⟩ := messageFromJson_escapes support v
  intro e he
  rcases hdoes.raises e he with ⟨hpermanent, -⟩ | ⟨⟨what, rfl⟩, -⟩
  · exact hpermanent.isFinal.not_isUncertain
  · exact Exn.not_isUncertain_std what

/-! ## Requests -/

namespace Request

/-- The payload passes the checks before the reader is called. -/
def Admitted (build : Build) (payload : Payload) (endpoint : Endpoint) : Prop :=
  payload.encoding = .json ∧ payload.schema.isSome = true ∧
    payload.schema.map build.serializeAsString =
      some (build.serializeAsString (schemaReference endpoint.inputSchema)) ∧
    payload.value.length ≤ endpoint.limits.maximumRequestBytes

/-- `parseInput` as an operation calls it. -/
def parseRequest (build : Build) (payload : Payload) (endpoint : Endpoint) : Except Exn Value :=
  parseInput build payload (schemaReference endpoint.inputSchema)
    endpoint.limits.maximumRequestBytes

theorem parseRequest_eq_ok {build : Build} {payload : Payload} {endpoint : Endpoint} {v : Value} :
    parseRequest build payload endpoint = .ok v ↔ Admitted build payload endpoint ∧
      build.parse Build.strictReader payload.value = .value v ∧ v.isObject = true := by
  simp only [parseRequest, parseInput, bind_eq_ok, throwIf_eq_ok, exists_const, requireObject,
    Admitted, not_or, not_not, not_lt, Bool.not_eq_false]
  constructor
  · rintro ⟨⟨hencoding, hschema, hsame⟩, hsize, v', hparse, hobject, hv⟩
    obtain rfl := Except.ok.inj hv
    refine ⟨⟨hencoding, hschema, hsame, hsize⟩, ?_, hobject⟩
    rw [Build.parseStrictJson] at hparse
    cases h : build.parse Build.strictReader payload.value with
    | value v' =>
      rw [h] at hparse
      rw [Except.ok.inj hparse]
    | errors text =>
      rw [h] at hparse
      cases hparse
    | throws what =>
      rw [h] at hparse
      cases hparse
  · rintro ⟨⟨hencoding, hschema, hsame, hsize⟩, hparse, hobject⟩
    exact ⟨⟨hencoding, hschema, hsame⟩, hsize, v, by rw [Build.parseStrictJson, hparse], hobject,
      rfl⟩

/-- What `parseInput` throws is final, or is what the reader throws on an admitted payload. -/
theorem parseRequest_raises {build : Build} {payload : Payload} {endpoint : Endpoint} :
    Raises (fun e ↦ e.IsFinal ∨ Admitted build payload endpoint ∧
        ∃ what, e = .std what ∧ build.parse Build.strictReader payload.value = .throws what)
      (parseRequest build payload endpoint) := by
  have hpermanent : ∀ code message, (permanentError code message).IsFinal := fun _ _ ↦
    (Exn.isPermanent_permanentError _ _).isFinal
  refine Raises.bind (Raises.throwIf fun _ ↦ Or.inl (hpermanent _ _)) fun _ hcontract ↦ ?_
  refine Raises.bind (Raises.throwIf fun _ ↦
    Or.inl (Exn.isFinal_resourceExhaustedError _ _)) fun _ hsize ↦ ?_
  refine Raises.bind ?_ fun _ _ ↦
    Raises.bind (Raises.throwIf fun _ ↦ Or.inl (hpermanent _ _)) fun _ _ ↦ Raises.ok _
  rw [throwIf_eq_ok, not_or, not_or, not_not, not_not, Bool.not_eq_false] at hcontract
  rw [throwIf_eq_ok, not_lt] at hsize
  rw [Build.parseStrictJson]
  cases hparse : build.parse Build.strictReader payload.value with
  | value v => exact Raises.ok v
  | errors text => exact Raises.error.mpr (Or.inl (hpermanent _ _))
  | throws what =>
    exact Raises.error.mpr
      (Or.inr ⟨⟨hcontract.1, hcontract.2.1, hcontract.2.2, hsize⟩, what, rfl, rfl⟩)

private theorem parseRequest_of_throws {build : Build} {payload : Payload} {endpoint : Endpoint}
    {what : Str}
    (hadmitted : Admitted build payload endpoint)
    (hparse : build.parse Build.strictReader payload.value = .throws what) :
    parseRequest build payload endpoint = .error (.std what) := by
  obtain ⟨hencoding, hschema, hsame, hsize⟩ := hadmitted
  rw [parseRequest, parseInput, throwIf, if_neg (by simp [hencoding, hschema, hsame]), throwIf,
    if_neg (Nat.not_lt.mpr hsize), Build.parseStrictJson, hparse]
  rfl

section Stages

variable {α : Type} (build : Build) (payload : Payload) (endpoint : Endpoint)
  (fields : Value → Except Exn α) (reads : α → Value → Prop) (content : α → Value)
  (support : MessageSupport)

/-- The exceptions the three stages fail with, for an operation that reads its fields with `fields`
and decodes the member `content`. -/
def Fails (e : Exn) : Prop :=
  parseRequest build payload endpoint = .error e ∨
    ∃ v, parseRequest build payload endpoint = .ok v ∧ (fields v = .error e ∨
      ∃ a, fields v = .ok a ∧ messageFromJson support (content a) = .error e)

/-- An exception of a library gets out: the reader's, or the decoder's after everything before it
passed. -/
def Escapes : Prop :=
  Admitted build payload endpoint ∧
    ((∃ what, build.parse Build.strictReader payload.value = .throws what) ∨
      ∃ v a, build.parse Build.strictReader payload.value = .value v ∧ v.isObject = true ∧
        reads a v ∧ MessageEscapes support (content a))

variable {build payload endpoint fields reads content support}

private theorem fails_final_iff (hfields : ∀ v a, fields v = .ok a ↔ reads a v)
    (hraises : ∀ v, Raises Exn.IsPermanent (fields v)) :
    (∀ e, Fails build payload endpoint fields content support e → e.IsFinal) ↔
      ¬ Escapes build payload endpoint reads content support := by
  constructor
  · rintro hfinal ⟨hadmitted, ⟨what, hparse⟩ | ⟨v, a, hparse, hobject, hreads, hescapes⟩⟩
    · exact Exn.not_isFinal_std what (hfinal _ (Or.inl (parseRequest_of_throws hadmitted hparse)))
    · obtain ⟨F, hdoes⟩ := messageFromJson_escapes support (content a)
      obtain ⟨what, hwhat⟩ := hdoes.throws hescapes
      exact Exn.not_isFinal_std what (hfinal _ (Or.inr ⟨v,
        parseRequest_eq_ok.mpr ⟨hadmitted, hparse, hobject⟩, Or.inr ⟨a, (hfields v a).mpr hreads,
          hwhat⟩⟩))
  · rintro hescapes e (hparse | ⟨v, hv, hfail | ⟨a, ha, hfail⟩⟩)
    · refine (parseRequest_raises e hparse).resolve_right ?_
      rintro ⟨hadmitted, what, -, hthrows⟩
      exact hescapes ⟨hadmitted, Or.inl ⟨what, hthrows⟩⟩
    · exact (hraises v e hfail).isFinal
    · obtain ⟨hadmitted, hparse, hobject⟩ := parseRequest_eq_ok.mp hv
      obtain ⟨F, hdoes⟩ := messageFromJson_escapes support (content a)
      refine (hdoes.isPermanent ?_ e hfail).isFinal
      intro hmessage
      exact hescapes ⟨hadmitted, Or.inr ⟨v, a, hparse, hobject, (hfields v a).mp ha, hmessage⟩⟩

/-- Where nothing escapes, no failure invites a retry. -/
theorem fails_not_transient (hfields : ∀ v a, fields v = .ok a ↔ reads a v)
    (hraises : ∀ v, Raises Exn.IsPermanent (fields v))
    (hescapes : ¬ Escapes build payload endpoint reads content support) {e : Exn}
    (he : Fails build payload endpoint fields content support e) :
    (failure e).errorClass? ≠ some .transient := by
  have hfinal : e.IsFinal := (fails_final_iff hfields hraises).mpr hescapes e he
  rcases failure_of_isFinal hfinal with hclass | hclass
  · simp [hclass]
  · simp [hclass]

end Stages

/-- The exceptions a publish request fails with, for the message type it names. -/
def PublishFails (build : Build) (payload : Payload) (support : MessageSupport) (e : Exn) : Prop :=
  Fails build payload build.contract.kPublish (publishFields build) PublishFields.message support e

/-- A library's exception gets out of a publish request. -/
def PublishEscapes (build : Build) (payload : Payload) (support : MessageSupport) : Prop :=
  Escapes build payload build.contract.kPublish (fun p v ↦ PublishFields.ReadFrom p build v)
    PublishFields.message support

/-- The exceptions a service call request fails with, for the request type of its service. -/
def ServiceFails (build : Build) (payload : Payload) (support : MessageSupport) (e : Exn) : Prop :=
  Fails build payload build.contract.kService (serviceFields build) ServiceFields.request support e

/-- A library's exception gets out of a service call request. -/
def ServiceEscapes (build : Build) (payload : Payload) (support : MessageSupport) : Prop :=
  Escapes build payload build.contract.kService (fun p v ↦ ServiceFields.ReadFrom p build v)
    ServiceFields.request support

/-- **A failure the request determines is final**, exactly when no exception of a library escapes:
for every payload, every build and every type. -/
theorem request_failures_final_iff (build : Build) (payload : Payload) (support : MessageSupport) :
    ((∀ e, PublishFails build payload support e → e.IsFinal) ↔
        ¬ PublishEscapes build payload support) ∧
      ((∀ e, ServiceFails build payload support e → e.IsFinal) ↔
        ¬ ServiceEscapes build payload support) :=
  ⟨fails_final_iff (fun _ _ ↦ publishFields_eq_ok) fun _ ↦ publishFields_raises,
    fails_final_iff (fun _ _ ↦ serviceFields_eq_ok) fun _ ↦ serviceFields_raises⟩

/-- So the caller is not told to try again. -/
theorem request_failures_not_transient (build : Build) (payload : Payload)
    (support : MessageSupport) :
    (¬ PublishEscapes build payload support → ∀ e, PublishFails build payload support e →
        (failure e).errorClass? ≠ some .transient) ∧
      (¬ ServiceEscapes build payload support → ∀ e, ServiceFails build payload support e →
        (failure e).errorClass? ≠ some .transient) :=
  ⟨fun hescapes _ he ↦ fails_not_transient (fun _ _ ↦ publishFields_eq_ok)
      (fun _ ↦ publishFields_raises) hescapes he,
    fun hescapes _ he ↦ fails_not_transient (fun _ _ ↦ serviceFields_eq_ok)
      (fun _ ↦ serviceFields_raises) hescapes he⟩

/-! ### An integer above `Json::Int64` -/

/-- A message with one `int64` field, `data`. -/
def int64Support : MessageSupport where
  members := .scalar ⟨"data", 0, none⟩ .int64 .nil
  initFunction := some (.ok (ScalarType.fresh .int64, ()))
  finiFunction := true
  sizeOf := 8

/-- A publish request for `{"data": 9223372036854775808}`. -/
def largeRequestText : Str :=
  "\x7b\"topic\":\"/t\",\"messageType\":\"p/msg/T\",\"message\":\x7b\"data\":9223372036854775808\x7d,\"qosDepth\":1,\"reliability\":\"reliable\",\"durability\":\"volatile\",\"waitForSubscribersMs\":0\x7d"

def largeRequest : Value := publishRequest (.object [("data", .ofUInt64 (2 ^ 63))]) 0

/-- A build whose reader knows the request. -/
def largeBuild : Build :=
  referenceBuild (fun _ text ↦ if text = largeRequestText then .value largeRequest else .errors [])
    fun _ _ ↦ []

/-- The payload of the request, under the compiled schema. -/
def largePayload : Payload :=
  ⟨some (schemaReference largeBuild.contract.kPublish.inputSchema), .json, largeRequestText⟩

/-- The request fails, on every attempt, with an exception that becomes transient. -/
theorem largeRequest_transient : ∃ e, PublishFails largeBuild largePayload int64Support e ∧
    ¬ e.IsFinal ∧ (failure e).errorClass? = some .transient := by
  have hread := publishRequest_readFrom (fun _ text ↦ if text = largeRequestText then
    .value largeRequest else .errors []) (fun _ _ ↦ [])
    (show (Value.object [("data", .ofUInt64 (2 ^ 63))]).isObject = true from rfl) (Nat.zero_le _)
  have hparse : largeBuild.parse Build.strictReader largePayload.value = .value largeRequest := by
    simp only [largeBuild, largePayload, referenceBuild, if_true]
  refine ⟨.std "LargestUInt out of Int64 range", Or.inr ⟨largeRequest,
    parseRequest_eq_ok.mpr ⟨⟨rfl, rfl, rfl, by decide +kernel⟩, hparse, rfl⟩,
    Or.inr ⟨_, publishFields_eq_ok.mpr hread, rfl⟩⟩, Exn.not_isFinal_std _, rfl⟩

end Request

end Ros2ToolsAdapter
