import Ros2ToolsAdapter.Adapter.Calls
import Ros2ToolsAdapter.Foundation.Phase

/-!
# Before the dispatch

Up to the dispatch an operation makes only `prelude` calls, and it goes on only while nothing it
polled has said to stop: no cancellation, no reading of the clock at or past the deadline. What it
throws there is never uncertain. The three conditions are the phase `beforeDispatch`.

More than one thing is to be said of this stretch, so what a shared block does is stated here for
every phase that `Hosts` it, with the segment of calls it passes the phase with.
-/

namespace Ros2ToolsAdapter

open Interaction Json

/-- The calls that neither hand anything to ROS nor change a flag. -/
def Call.harmless : Call → Bool
  | .publish _ | .asyncSendRequest .. | .store .. | .compareExchange .. => false
  | _ => true

/-- The calls made before the dispatch. -/
def Call.prelude : Call → Bool
  | .waitFor _ | .removePendingRequest | .futureGet _ => false
  | call => call.harmless

/-- The prelude calls whose answers cannot stop the operation. -/
def Call.plain : Call → Bool
  | .isCancellationRequested | .systemNow => false
  | call => call.prelude

/-- The event does not stop an operation with this deadline: a poll that found no cancellation, a
reading before the deadline, or another prelude call. -/
def GoesOn (deadline : ℤ) : CallEvent → Prop
  | ⟨.isCancellationRequested, cancelled⟩ => cancelled = false
  | ⟨.systemNow, now⟩ => now < deadline
  | e => e.op.prelude = true

theorem GoesOn.prelude {deadline : ℤ} {e : CallEvent} (h : GoesOn deadline e) :
    e.op.prelude = true := by
  obtain ⟨call, answer⟩ := e
  cases call <;> first | exact h | rfl

private theorem goesOn_of_plain {deadline : ℤ} {call : Call} (h : call.plain = true)
    (answer : call.Answer) : GoesOn deadline ⟨call, answer⟩ := by
  cases call <;> first | exact h | exact nomatch h

private theorem prelude_of_plain {call : Call} (h : call.plain = true) : call.prelude = true := by
  cases call <;> first | exact h | rfl

theorem Call.harmless_of_prelude {call : Call} (h : call.prelude = true) :
    call.harmless = true := by
  cases call <;> first | rfl | exact nomatch h

theorem Call.not_harmless_of_dispatches {call : Call} (h : call.dispatches = true) :
    ¬ call.harmless = true := by
  cases call <;> first | exact Bool.false_ne_true | exact nomatch h

/-- The phase of an operation with this deadline that ends with the dispatch. -/
def beforeDispatch (deadline : ℤ) : Phase Exn Call Call.Answer where
  allowed call := call.prelude = true
  quiet := GoesOn deadline
  raised e := ¬ e.IsUncertain
  allowed_of_quiet _ := GoesOn.prelude

theorem not_dispatched_of_stays {deadline : ℤ} {run : Run}
    (h : (beforeDispatch deadline).Stays run) : ¬ Dispatched run := by
  rintro ⟨e, he, hdispatch⟩
  exact Call.not_harmless_of_dispatches hdispatch (Call.harmless_of_prelude (h e he))

/-! ## Phases that host the prelude -/

/-- The name a call gives to ROS. -/
def Call.graphName? : Call → Option Str
  | .createGenericPublisher topic .. => some topic
  | .createGenericClient service _ => some service
  | _ => none

/-- There is room in the phase for whatever an operation with this deadline does before the
dispatch, but for the two calls that give ROS a name, where it may depend on the name. -/
structure Hosts (φ : Phase Exn Call Call.Answer) (deadline : ℤ) : Prop where
  allowed : ∀ {call : Call}, call.prelude = true → call.graphName? = none → φ.allowed call
  quiet : ∀ {e : CallEvent}, GoesOn deadline e → e.op.graphName? = none → φ.quiet e
  raised : ∀ {e : Exn}, ¬ e.IsUncertain → φ.raised e

theorem hosts_beforeDispatch (deadline : ℤ) : Hosts (beforeDispatch deadline) deadline where
  allowed hcall _ := hcall
  quiet hgoesOn _ := hgoesOn
  raised he := he

theorem hosts_making {P : Call → Prop} (hP : ∀ call, call.graphName? = none → P call)
    (deadline : ℤ) : Hosts (Phase.making P) deadline where
  allowed _ hname := hP _ hname
  quiet _ hname := hP _ hname
  raised _ := trivial

/-! ## Rules for the shared blocks -/

section Rules

variable {φ : Phase Exn Call Call.Answer} {deadline : ℤ} {α : Type}

theorem throwIf_passes {c : Prop} [Decidable c] {e : Exn} (he : φ.raised e) :
    φ.Passes (throwIf c e) fun s _ ↦ s = [] ∧ ¬ c := by
  rw [throwIf]
  split
  · exact Phase.Passes.throw he
  · exact Phase.Passes.pure ⟨rfl, ‹_›⟩

theorem callStd_passes {call : Call} {result : call.Answer → Except Str α}
    (hallowed : φ.allowed call) (hquiet : ∀ a, φ.quiet ⟨call, a⟩)
    (hraised : ∀ what, φ.raised (.std what)) :
    φ.Passes (callStd call result) fun s r ↦ ∃ a, s = [⟨call, a⟩] ∧ result a = .ok r := by
  refine (Phase.Passes.invoke hallowed (fun a _ _ ↦ hquiet a) ?_).mono ?_
  · intro a e he
    obtain ⟨what, -, rfl⟩ := ofStd_eq_error.mp he
    exact hraised what
  · rintro s r - ⟨a, hs, hr⟩
    exact ⟨a, hs, ofStd_eq_ok.mp hr⟩

namespace Hosts

private theorem quiet_of_plain (hosts : Hosts φ deadline) {call : Call} (hcall : call.plain = true)
    (hname : call.graphName? = none) (a : call.Answer) : φ.quiet ⟨call, a⟩ :=
  hosts.quiet (goesOn_of_plain hcall a) hname

theorem raised_std (hosts : Hosts φ deadline) (what : Str) : φ.raised (.std what) :=
  hosts.raised (Exn.not_isUncertain_std what)

private theorem raised_unavailable (hosts : Hosts φ deadline) (what typeName reason : Str) :
    φ.raised (typeSupportUnavailable what typeName reason) :=
  hosts.raised (by simp [typeSupportUnavailable, permanentError])

/-- A plain call. -/
theorem performs (hosts : Hosts φ deadline) {call : Call} (hcall : call.plain = true)
    (hname : call.graphName? = none) :
    φ.Passes (Proc.perform call) fun s a ↦ s = [⟨call, a⟩] :=
  Phase.Passes.perform (hosts.quiet_of_plain hcall hname)

/-- A plain call of a library that may throw. -/
theorem calls (hosts : Hosts φ deadline) {call : Call} {result : call.Answer → Except Str α}
    (hcall : call.plain = true) (hname : call.graphName? = none) :
    φ.Passes (callStd call result) fun s r ↦ ∃ a, s = [⟨call, a⟩] ∧ result a = .ok r :=
  callStd_passes (hosts.allowed (prelude_of_plain hcall) hname) (hosts.quiet_of_plain hcall hname)
    hosts.raised_std

/-- A computation without calls. -/
theorem lifts (hosts : Hosts φ deadline) {x : Except Exn α}
    (hx : Raises (fun e ↦ ¬ e.IsUncertain) x) :
    φ.Passes (liftM x) fun s a ↦ s = [] ∧ x = .ok a :=
  Phase.Passes.lift fun e he ↦ hosts.raised (hx e he)

private theorem lifts_of_isPermanent (hosts : Hosts φ deadline) {x : Except Exn α}
    (hx : Raises Exn.IsPermanent x) : φ.Passes (liftM x) fun s a ↦ s = [] ∧ x = .ok a :=
  hosts.lifts (hx.mono fun _ he ↦ he.isFinal.not_isUncertain)

/-- A call, and a check of its answer: the phase goes on with the answers that pass. -/
theorem polls (hosts : Hosts φ deadline) {call : Call} {c : call.Answer → Prop}
    [DecidablePred c] {e : Exn} (hcall : call.prelude = true) (hname : call.graphName? = none)
    (hquiet : ∀ a, ¬ c a → GoesOn deadline ⟨call, a⟩) (he : ¬ e.IsUncertain) :
    φ.Passes (do let a ← Proc.perform call; throwIf (c a) e)
      fun s _ ↦ ∃ a, s = [⟨call, a⟩] ∧ ¬ c a := by
  have hallowed : φ.allowed call := hosts.allowed hcall hname
  intro I E h hlenient hh
  rw [Proc.wp_bind, Proc.wp_perform]
  intro a
  refine ⟨hlenient.allowed h _ hallowed, ?_⟩
  rw [throwIf]
  split
  · exact hlenient.raised _ e (hh.stays.concat hallowed) (hosts.raised he)
  · rename_i hc
    have hgoesOn := hosts.quiet (hquiet a hc) hname
    exact ⟨[⟨call, a⟩], rfl, Phase.quiet_singleton.mpr hgoesOn, a, rfl, hc⟩

end Hosts

theorem requireNotCancelled_passes (hosts : Hosts φ deadline) (code : String) (message : Str) :
    φ.Passes (requireNotCancelled code message) fun s _ ↦
      s = [⟨.isCancellationRequested, false⟩] := by
  refine (hosts.polls rfl rfl ?_ ?_).mono ?_
  · intro a ha
    exact Bool.eq_false_iff.mpr ha
  · simp [cancelledError]
  · rintro s - - ⟨a, rfl, ha⟩
    rw [Bool.eq_false_iff.mpr ha]

theorem requireBeforeDeadline_passes {context : WorkContext}
    (hosts : Hosts φ context.deadlineUnixNanos) (code : String) (message : Str) :
    φ.Passes (requireBeforeDeadline context code message) fun s _ ↦
      ∃ now, s = [⟨.systemNow, now⟩] := by
  refine (hosts.polls rfl rfl ?_ ?_).mono ?_
  · intro now hnow
    exact not_le.mp hnow
  · simp [deadlineError]
  · rintro s - - ⟨now, rfl, -⟩
    exact ⟨now, rfl⟩

/-- The members of a message type come from its introspection data. -/
theorem loadMessageType_passes (hosts : Hosts φ deadline) (typeName : Str) :
    φ.Passes (loadMessageType typeName) fun s members ↦
      ⟨.getMessageIntrospection typeName, .ok (some (some members))⟩ ∈ s := by
  refine Phase.Passes.bind (Phase.Passes.rethrowing (P := fun s r ↦
    ⟨.getMessageIntrospection typeName, .ok r.1⟩ ∈ s) ?_ fun e ↦
      hosts.raised_unavailable _ _ _) ?_
  · refine Phase.Passes.bind (hosts.calls rfl rfl) fun s₁ _ _ _ ↦ ?_
    refine Phase.Passes.bind (hosts.calls rfl rfl) fun s₂ introspection _ h₂ ↦ ?_
    refine Phase.Passes.bind (hosts.calls rfl rfl) fun s₃ _ _ _ ↦ ?_
    refine Phase.Passes.bind (hosts.calls rfl rfl) fun s₄ _ _ _ ↦ ?_
    obtain ⟨answer, rfl, hanswer⟩ := h₂
    refine Phase.Passes.pure ?_
    simp [← hanswer]
  · rintro s ⟨introspection, serialization⟩ - hs
    -- no handle, a handle without data, or the data
    rcases introspection with _ | _ | members
    · exact Phase.Passes.throw (hosts.raised_unavailable _ _ _)
    · exact Phase.Passes.throw (hosts.raised_unavailable _ _ _)
    · cases serialization with
      | none => exact Phase.Passes.throw (hosts.raised_unavailable _ _ _)
      | some _ => exact Phase.Passes.pure (by simpa using hs)

/-- The members of a service type come from its introspection data, where neither is missing. -/
theorem loadServiceType_passes (hosts : Hosts φ deadline) (typeName : Str) :
    φ.Passes (loadServiceType typeName) fun s members ↦
      ⟨.getServiceIntrospection typeName,
        .ok (some (some ⟨some members.1, some members.2⟩))⟩ ∈ s := by
  refine Phase.Passes.bind (Phase.Passes.rethrowing (P := fun s r ↦
    ⟨.getServiceIntrospection typeName, .ok r⟩ ∈ s) ?_ fun e ↦
      hosts.raised_unavailable _ _ _) ?_
  · refine Phase.Passes.bind (hosts.calls rfl rfl) fun s₁ _ _ _ ↦ ?_
    refine (hosts.calls rfl rfl).mono ?_
    rintro s₂ r - ⟨answer, rfl, hanswer⟩
    simp [← hanswer]
  · rintro s introspection - hs
    have hincomplete : φ.raised (permanentError "ros_type_support_invalid"
        ("ROS2 service introspection is incomplete for " ++ typeName)) :=
      hosts.raised (by simp [permanentError])
    -- no handle, a handle without data, or data of which either part may be missing
    rcases introspection with _ | _ | ⟨request, response⟩
    · exact Phase.Passes.throw (hosts.raised_unavailable _ _ _)
    · exact Phase.Passes.throw (hosts.raised_unavailable _ _ _)
    · cases request with
      | none => exact Phase.Passes.throw hincomplete
      | some request =>
        cases response with
        | none => exact Phase.Passes.throw hincomplete
        | some response => exact Phase.Passes.pure (by simpa using hs)

/-- What `admitRequest` has checked when it returns the fields `a`. -/
structure Admits (build : Build) (native : NativeContext) (request : OperationRequest)
    (endpoint : Endpoint) (fields : Value → Except Exn α) (a : α) : Prop where
  context : request.context.capabilityId = endpoint.capabilityId ∧
    request.context.contractVersion = endpoint.contractVersion ∧
    request.context.contractDigest = endpoint.contractDigest ∧
    request.context.endpointId = endpoint.endpointId
  subject : request.context.subject = some ⟨"ros2-native-context", native.scopeKey,
    NativeContext.canonicalAttributes native.domainId native.rmwImplementation⟩
  payload : Request.Admitted build request.input endpoint
  fields : ∃ v, build.parse Build.strictReader request.input.value = .value v ∧
    v.isObject = true ∧ fields v = .ok a

private theorem parseRequest_not_isUncertain {build : Build} {payload : Payload}
    {endpoint : Endpoint} :
    Raises (fun e ↦ ¬ e.IsUncertain) (Request.parseRequest build payload endpoint) := by
  intro e he
  rcases Request.parseRequest_raises e he with hfinal | ⟨-, what, rfl, -⟩
  · exact hfinal.not_isUncertain
  · exact Exn.not_isUncertain_std what

theorem admitRequest_passes (hosts : Hosts φ deadline) {build : Build} {native : NativeContext}
    {request : OperationRequest} {endpoint : Endpoint} {flag : Flag} {disabled : Exn}
    {fields : Value → Except Exn α} (hdisabled : ¬ disabled.IsUncertain)
    (hfields : ∀ v, Raises Exn.IsPermanent (fields v)) :
    φ.Passes (admitRequest build native request endpoint flag disabled fields)
      fun s a ↦ s = [⟨.load flag, true⟩] ∧ Admits build native request endpoint fields a := by
  -- after the load no call is made, so each check adds nothing to the segment
  refine Phase.Passes.bind (hosts.performs rfl rfl) fun _ enabled _ h ↦ ?_
  obtain rfl := h
  refine Phase.Passes.bind (throwIf_passes (hosts.raised hdisabled)) fun _ _ _ henabled ↦ ?_
  obtain ⟨rfl, henabled⟩ := henabled
  refine Phase.Passes.bind (hosts.lifts_of_isPermanent ?_) fun _ _ _ hcontext ↦ ?_
  · exact Raises.throwIf fun _ ↦ Exn.isPermanent_permanentError _ _
  obtain ⟨rfl, hcontext⟩ := hcontext
  refine Phase.Passes.bind (hosts.lifts_of_isPermanent NativeContext.validateSubject_raises)
    fun _ _ _ hsubject ↦ ?_
  obtain ⟨rfl, hsubject⟩ := hsubject
  refine Phase.Passes.bind (hosts.lifts parseRequest_not_isUncertain) fun _ v _ hparse ↦ ?_
  obtain ⟨rfl, hparse⟩ := hparse
  refine (hosts.lifts_of_isPermanent (hfields v)).mono ?_
  rintro _ a - ⟨rfl, ha⟩
  obtain ⟨hadmitted, hvalue, hobject⟩ := Request.parseRequest_eq_ok.mp hparse
  rw [validateInvocationContext, throwIf_eq_ok, not_not] at hcontext
  refine ⟨?_, hcontext, NativeContext.validateSubject_eq_ok.mp hsubject, hadmitted, v, hvalue,
    hobject, ha⟩
  rw [Bool.not_eq_false] at henabled
  simp [henabled]

end Rules

end Ros2ToolsAdapter
