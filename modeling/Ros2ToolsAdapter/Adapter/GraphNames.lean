import Ros2ToolsAdapter.Adapter.CallService

/-!
# The names an operation uses

A topic or service name has two lengths: `validateGraphName` and the result of the operation look at
the whole string, rmw and ROS at what stands before its first NUL. The two agree when there is no
NUL, and a NUL can come in as an escape of a JSON string. `EscapedNul` says of which strings the
part before the NUL is a name, and those are the ones that pass the check and are not names.
-/

namespace Ros2ToolsAdapter

open Interaction Json Request Str
open Except (bind_eq_ok)

/-- A string that is a name up to its first NUL, and goes on. -/
def EscapedNul (s : Str) : Prop :=
  0 ∈ s ∧ s.length ≤ kMaximumRosNameBytes ∧ IsFullTopicName (cString s) ∧
    (cString s).length ≤ kRmwTopicMaxNameLength

private theorem acceptsName_whole_iff {build : Build} (hrmw : ValidatesFullTopicNames build)
    (s : Str) : (AcceptsName build s → IsFullTopicName s ∧ cString s = s) ↔ ¬ EscapedNul s := by
  rw [acceptsName_iff hrmw, EscapedNul]
  by_cases hzero : 0 ∈ s
  -- with a NUL in it no string is a name, so the check must not pass
  · have hnot : ¬ (IsFullTopicName s ∧ cString s = s) := fun h ↦ h.1.zero_notMem hzero
    simp only [hnot, imp_false, hzero, true_and]
  · have hself := cString_eq_self.mpr hzero
    refine iff_of_true ?_ fun h ↦ hzero h.1
    rintro ⟨-, hname, -⟩
    rw [hself] at hname
    exact ⟨hname, hself⟩

/-! ## What is made of a name -/

/-- A successful result has the name in that field of its payload. -/
def Echoes (build : Build) (field name : Str) : OperationResult → Prop
  | .success payload _ => ∃ output, payload.value = build.writeJson output ∧
      output.member? field = some (.string name)
  | .failure .. => True

/-- The fields the request has been read as. -/
def ReadAs {α : Type} (build : Build) (request : OperationRequest) (fields : Value → Except Exn α)
    (a : α) : Prop :=
  ∃ v, build.parse Build.strictReader request.input.value = .value v ∧ fields v = .ok a

theorem ReadAs.unique {α : Type} {build : Build} {request : OperationRequest}
    {fields : Value → Except Exn α} {a b : α} (ha : ReadAs build request fields a)
    (hb : ReadAs build request fields b) : a = b := by
  obtain ⟨v, hv, ha⟩ := ha
  obtain ⟨w, hw, hb⟩ := hb
  obtain rfl := ParseResult.value.inj (hv.symm.trans hw)
  exact Except.ok.inj (ha.symm.trans hb)

private theorem Admits.readAs {α : Type} {build : Build} {native : NativeContext}
    {request : OperationRequest} {endpoint : Endpoint} {fields : Value → Except Exn α} {a : α}
    (h : Admits build native request endpoint fields a) : ReadAs build request fields a := by
  obtain ⟨v, hv, -, ha⟩ := h.fields
  exact ⟨v, hv, ha⟩

/-- The call gives ROS no name, or one that the request has been read with. -/
def Names {α : Type} (build : Build) (request : OperationRequest) (fields : Value → Except Exn α)
    (name : α → Str) (call : Call) : Prop :=
  ∀ s, call.graphName? = some s → ∃ a, ReadAs build request fields a ∧ s = name a

private theorem names_of_none {α : Type} {build : Build} {request : OperationRequest}
    {fields : Value → Except Exn α} {name : α → Str} {call : Call} (h : call.graphName? = none) :
    Names build request fields name call := by
  intro s hs
  rw [h] at hs
  exact nomatch hs

section Blocks

variable {P : Call → Prop} {α : Type}

private theorem callStd_making {call : Call} {result : call.Answer → Except Str α} (h : P call) :
    (Phase.making P).Passes (callStd call result) fun _ _ ↦ True :=
  (Phase.making_invoke h).mono fun _ _ _ _ ↦ trivial

variable (hP : ∀ call, call.graphName? = none → P call)

include hP

private theorem awaitResponse_making (context : WorkContext) (callUntil : ℤ) :
    (Phase.making P).Passes (awaitResponse context callUntil) fun _ _ ↦ True := by
  have habandon : ∀ (c : Prop) [Decidable c] (e : Exn),
      (Phase.making P).Passes (abandonIf c e) fun _ _ ↦ True := by
    intro c _ e
    rw [abandonIf]
    split
    · exact Phase.Passes.bind (Phase.making_perform (hP _ rfl)) fun _ _ _ _ ↦ Phase.making_throw e
    · exact Phase.Passes.pure trivial
  refine (Phase.Passes.whileDo (C := fun _ ↦ True) (R := fun _ ↦ True) (X := fun _ ↦ True)
    ?_ ?_).mono fun _ _ _ _ ↦ trivial
  · refine Phase.Passes.bind (callStd_making (hP _ rfl)) fun _ _ _ _ ↦ ?_
    exact Phase.Passes.pure ⟨fun _ ↦ trivial, fun _ ↦ trivial⟩
  · intro _ _ _
    refine Phase.Passes.bind (Phase.making_perform (hP _ rfl)) fun _ _ _ _ ↦ ?_
    refine Phase.Passes.bind (habandon _ _) fun _ _ _ _ ↦ ?_
    refine Phase.Passes.bind (P := fun _ _ ↦ True) ?_ fun _ _ _ _ ↦ habandon _ _
    refine Phase.Passes.bind (Phase.making_perform (hP _ rfl)) fun _ _ _ _ ↦ ?_
    split
    · exact Phase.Passes.pure trivial
    · refine Phase.Passes.bind (Phase.making_perform (hP _ rfl)) fun _ _ _ _ ↦ ?_
      exact Phase.Passes.pure trivial

private theorem readResponse_making (members : MessageMembers) :
    (Phase.making P).Passes (readResponse members) fun _ _ ↦ True := by
  refine Phase.Passes.bind (callStd_making (hP _ rfl)) fun _ response _ _ ↦ ?_
  cases response with
  | none => exact Phase.making_throw _
  | some message => exact (Phase.making_lift _).mono fun _ _ _ _ ↦ trivial

end Blocks

/-! ## The two operations -/

section Operations

variable {build : Build} {native : NativeContext} {request : OperationRequest}

private theorem success_echoes {output : Value} {schema : SchemaReference} {limit : ℕ}
    {result : OperationResult} {field name : Str}
    (h : success build output schema limit = .ok result)
    (hname : output.member? field = some (.string name)) : Echoes build field name result := by
  obtain ⟨-, -, hresult⟩ := bind_eq_ok.mp h
  obtain rfl := Except.ok.inj hresult
  exact ⟨output, rfl, hname⟩

private theorem failure_echoes (e : Exn) (field name : Str) :
    Echoes build field name (failure e) := by
  cases e <;> trivial

private theorem publishOutput_topic (prepared : PreparedPublish) :
    (publishOutput prepared).member? "topic" = some (.string prepared.fields.topic) := rfl

private theorem callOutput_service (prepared : PreparedCall) (response : Value) (now : ℤ) :
    (callOutput prepared response now).member? "service" =
      some (.string prepared.fields.service) := rfl

/-- A publish operation makes a publisher for its own topic only, and echoes that topic. -/
theorem publish_names {run : Run} {result : OperationResult}
    (hrun : Prog.Returns (publish build native request) run result) :
    (∀ e ∈ run, Names build request (publishFields build) PublishFields.topic e.op) ∧
      ∀ fields, ReadAs build request (publishFields build) fields →
        Echoes build "topic" fields.topic result := by
  have hP : ∀ call : Call, call.graphName? = none →
      Names build request (publishFields build) PublishFields.topic call := fun _ ↦ names_of_none
  have hprepare := preparePublish_passes build native
    (hosts_making hP request.context.deadlineUnixNanos) fun fields hadmits _ _ s hs ↦
      ⟨fields, hadmits.readAs, (Option.some_injective _ hs).symm⟩
  refine Phase.making_returns (R := fun result ↦ ∀ fields,
    ReadAs build request (publishFields build) fields → Echoes build "topic" fields.topic result)
    (Phase.Passes.bind hprepare fun _ prepared _ hprepared ↦ ?_)
    (fun e fields _ ↦ failure_echoes e _ _) hrun
  refine Phase.Passes.bind (P := fun _ _ ↦ True)
    (Phase.Passes.rethrowing (callStd_making (hP _ rfl)) fun _ ↦ trivial) fun _ _ _ _ ↦ ?_
  refine (Phase.making_lift _).mono ?_
  rintro _ result - ⟨-, hresult⟩ fields hfields
  rw [← hprepared.admitted.readAs.unique hfields]
  exact success_echoes hresult (publishOutput_topic prepared)

/-- A service call makes a client for its own service only, and echoes that service. -/
theorem callService_names {run : Run} {result : OperationResult}
    (hrun : Prog.Returns (callService build native request) run result) :
    (∀ e ∈ run, Names build request (serviceFields build) ServiceFields.service e.op) ∧
      ∀ fields, ReadAs build request (serviceFields build) fields →
        Echoes build "service" fields.service result := by
  have hP : ∀ call : Call, call.graphName? = none →
      Names build request (serviceFields build) ServiceFields.service call := fun _ ↦ names_of_none
  have hprepare := prepareCall_passes build native
    (hosts_making hP request.context.deadlineUnixNanos) fun fields hadmits _ s hs ↦
      ⟨fields, hadmits.readAs, (Option.some_injective _ hs).symm⟩
  refine Phase.making_returns (R := fun result ↦ ∀ fields,
    ReadAs build request (serviceFields build) fields →
      Echoes build "service" fields.service result)
    (Phase.Passes.bind hprepare fun _ prepared _ hprepared ↦ ?_)
    (fun e fields _ ↦ failure_echoes e _ _) hrun
  refine Phase.Passes.bind (callStd_making (hP _ rfl)) fun _ _ _ _ ↦ ?_
  refine Phase.Passes.bind (awaitResponse_making hP _ _) fun _ _ _ _ ↦ ?_
  refine Phase.Passes.bind (readResponse_making hP _) fun _ response _ _ ↦ ?_
  refine Phase.Passes.bind (Phase.making_perform (hP _ rfl)) fun _ _ _ _ ↦ ?_
  refine (Phase.making_lift _).mono ?_
  rintro _ result - ⟨-, hresult⟩ fields hfields
  rw [← hprepared.admitted.readAs.unique hfields]
  exact success_echoes hresult (callOutput_service prepared response _)

end Operations

/-- **A name that passes is a name**, unless it is one only up to a NUL: for every string. What
passes is what ROS is given through a C string and what the result echoes, in every run of either
operation. -/
theorem graph_name_whole_iff (build : Build) (hrmw : ValidatesFullTopicNames build) :
    (∀ s field, (validateGraphName build s field = .ok () → IsFullTopicName s ∧ cString s = s) ↔
        ¬ EscapedNul s) ∧
      (∀ native request run result, Prog.Returns (publish build native request) run result →
        ∀ e ∈ run, ∀ topic, e.op.graphName? = some topic →
          validateGraphName build topic "topic" = .ok () ∧ Echoes build "topic" topic result) ∧
      ∀ native request run result, Prog.Returns (callService build native request) run result →
        ∀ e ∈ run, ∀ service, e.op.graphName? = some service →
          validateGraphName build service "service" = .ok () ∧
            Echoes build "service" service result := by
  refine ⟨?_, ?_, ?_⟩
  · intro s field
    rw [validateGraphName_eq_ok]
    exact acceptsName_whole_iff hrmw s
  · intro native request run result hrun e he topic htopic
    obtain ⟨hnames, hechoes⟩ := publish_names hrun
    obtain ⟨fields, hfields, rfl⟩ := hnames e he topic htopic
    have hread := hfields
    obtain ⟨v, -, hv⟩ := hread
    exact ⟨validateGraphName_eq_ok.mpr (publishFields_eq_ok.mp hv).topic.2, hechoes fields hfields⟩
  · intro native request run result hrun e he service hservice
    obtain ⟨hnames, hechoes⟩ := callService_names hrun
    obtain ⟨fields, hfields, rfl⟩ := hnames e he service hservice
    have hread := hfields
    obtain ⟨v, -, hv⟩ := hread
    exact ⟨validateGraphName_eq_ok.mpr (serviceFields_eq_ok.mp hv).service.2,
      hechoes fields hfields⟩

/-- `/t`, a NUL, and a character no name has. -/
def nulName : Str := ("/t" : Str) ++ [0, 0x3F]

/-- The check passes a string that is no name, of which ROS sees another. -/
theorem nulName_accepted : validateGraphName blindBuild nulName "topic" = .ok () ∧
    ¬ IsFullTopicName nulName ∧ cString nulName = "/t" ∧ cString nulName ≠ nulName := by
  refine ⟨?_, ?_, by decide +kernel, by decide +kernel⟩
  · rw [validateGraphName_eq_ok]
    exact ⟨rfl, by decide +kernel,
      show rmwReference (cString nulName) = ⟨0, 0⟩ by decide +kernel⟩
  · intro h
    exact h.zero_notMem (by decide +kernel)

theorem graph_name_whole_iff_plain :
    ((validateGraphName plainBuild nulName "topic" = .ok () →
        IsFullTopicName nulName ∧ cString nulName = nulName) ↔ ¬ EscapedNul nulName) ∧
      Echoes plainBuild "topic" "/t" plainResult := by
  obtain ⟨hwhole, hpublish, -⟩ := graph_name_whole_iff plainBuild (referenceBuild_validates _ _)
  have hnamed : ∃ e ∈ plainRun, (e.op.graphName? == some ("/t" : Str)) = true :=
    List.any_eq_true.mp (by decide +kernel)
  obtain ⟨e, he, hname⟩ := hnamed
  exact ⟨hwhole _ _, (hpublish _ _ _ _ publish_plain e he _ (eq_of_beq hname)).2⟩

end Ros2ToolsAdapter
