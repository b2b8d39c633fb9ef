import Ros2ToolsAdapter.Adapter.Publish
import Ros2ToolsAdapter.Codec.Projection

/-!
# Calling a service

`ToolsAdapter::CallService`. The dispatch is `async_send_request`, and unlike in `Publish` most of
the operation comes after it: a second wait loop, the response, and its projection to JSON.

What is thrown there on purpose is uncertain. What a ROS call throws, and what the encoder throws on
a response without a spelling, passes through to the same handler and comes out transient or
permanent, although the service may have acted. `Sound` names the runs in which neither happens, and
`callService_committed_iff` says that those are the runs whose result can be trusted.
-/

namespace Ros2ToolsAdapter

open Interaction Json

/-! ## The operation -/

/-- The loop that waits for the service. -/
def awaitService (context : WorkContext) (waitUntil : ℤ) : Code Unit :=
  Proc.whileDo
    (do
      let ready ← callStd .serviceIsReady id
      pure (!ready))
    (do
      requireNotCancelled "service_call_cancelled" "service call was cancelled before dispatch"
      requireBeforeDeadline context "service_wait_deadline_elapsed" "service wait deadline elapsed"
      let now ← Proc.perform .steadyNow
      throwIf (waitUntil ≤ now)
        (transientError "service_unavailable"
          "ROS2 service was unavailable before the wait timeout")
      let _ ← callStd (.waitForService 20) id)

/-- What a service call knows when it hands the request to ROS. -/
structure PreparedCall where
  fields : Request.ServiceFields
  requestMembers : MessageSupport
  responseMembers : MessageSupport
  message : requestMembers.members.Message
  started : ℤ

/-- `CallService` up to the dispatch. -/
def prepareCall (build : Build) (native : NativeContext) (request : OperationRequest) :
    Code PreparedCall := do
  let fields ← admitRequest build native request build.contract.kService .serviceEnabled
    (rejectedError "service_capability_disabled" "ROS2 service capability is not active")
    (Request.serviceFields build)
  let (requestMembers, responseMembers) ← loadServiceType fields.serviceType
  let message ← liftM (messageFromJson requestMembers fields.request)
  callStd (.createGenericClient fields.service fields.serviceType) id
  let now ← Proc.perform .steadyNow
  awaitService request.context (now + fields.waitMs * 1000000)
  requireNotCancelled "service_call_cancelled" "service call was cancelled before dispatch"
  requireBeforeDeadline request.context "service_call_deadline_elapsed"
    "service call deadline elapsed before dispatch"
  -- the time of the call counts from here, as does the duration in the result
  let started ← Proc.perform .steadyNow
  pure { fields, requestMembers, responseMembers, message, started }

/-- `if (c) { client->remove_pending_request(..); uncertainError(..); }` -/
def abandonIf (c : Prop) [Decidable c] (e : Exn) : Code Unit :=
  if c then do
    let _ ← Proc.perform .removePendingRequest
    throw e
  else pure ()

/-- The time of the call or of the work is up. -/
def responseOverdue (context : WorkContext) (callUntil : ℤ) : Code Bool := do
  let steady ← Proc.perform .steadyNow
  -- `||`: the deadline of the work is looked at only while the call has time left
  if callUntil ≤ steady then pure true
  else do
    let now ← Proc.perform .systemNow
    pure (decide (context.deadlineUnixNanos ≤ now))

/-- The loop that waits for the response. -/
def awaitResponse (context : WorkContext) (callUntil : ℤ) : Code Unit :=
  Proc.whileDo
    (do
      let ready ← callStd (.waitFor 20) id
      pure (!ready))
    (do
      let cancelled ← Proc.perform .isCancellationRequested
      abandonIf (cancelled = true)
        (uncertainError "service_outcome_unknown_after_cancel"
          "service request was dispatched before cancellation")
      let overdue ← responseOverdue context callUntil
      abandonIf (overdue = true)
        (uncertainError "service_outcome_unknown_after_timeout"
          "service request was dispatched before its timeout"))

/-- The response, as JSON. -/
def readResponse (members : MessageMembers) : Code Value := do
  let response ← callStd (.futureGet members) id
  match response with
  | none => throw (uncertainError "service_response_missing"
      "ROS2 service completed without a response object")
  | some message => liftM (messageToJson members message)

/-- The result of a service call. -/
def callOutput (prepared : PreparedCall) (response : Value) (now : ℤ) : Value :=
  ((((Value.object []).set "event" (.string "response")).set "service"
    (.string prepared.fields.service)).set "serviceType" (.string prepared.fields.serviceType)).set
    "response" response |>.set
    "durationMs" (Value.ofUInt64 ((now - prepared.started).tdiv 1000000))

/-- `ToolsAdapter::CallService`. -/
def callService (build : Build) (native : NativeContext) (request : OperationRequest) :
    Prog Call Call.Answer OperationResult :=
  Proc.catching (do
    let prepared ← prepareCall build native request
    -- no handler of its own, unlike around `publish`: what is thrown from here on gets to `failure`
    callStd (.asyncSendRequest prepared.requestMembers.members prepared.message) id
    awaitResponse request.context (prepared.started + prepared.fields.callMs * 1000000)
    let response ← readResponse prepared.responseMembers.members
    let now ← Proc.perform .steadyNow
    liftM (success build (callOutput prepared response now)
      (schemaReference build.contract.kService.outputSchema)
      build.contract.kService.limits.maximumResponseBytes))
    failure

/-! ## What is known at the dispatch -/

/-- One round of the wait loop that went on: the service was not ready, there was no cancellation,
and there was time left. -/
def ServiceRound (waitUntil : ℤ) (s : Run) : Prop :=
  ∃ system steady answer, steady < waitUntil ∧ s = [⟨.serviceIsReady, .ok false⟩,
    ⟨.isCancellationRequested, false⟩, ⟨.systemNow, system⟩, ⟨.steadyNow, steady⟩,
    ⟨.waitForService 20, .ok answer⟩]

theorem awaitService_passes {φ : Phase Exn Call Call.Answer} {context : WorkContext}
    (hosts : Hosts φ context.deadlineUnixNanos) (waitUntil : ℤ) :
    φ.Passes (awaitService context waitUntil)
      fun s _ ↦ ∃ rounds exit, s = List.flatten rounds ++ exit ∧
        (∀ r ∈ rounds, ServiceRound waitUntil r) ∧ exit = [⟨.serviceIsReady, .ok true⟩] := by
  refine Phase.Passes.whileDo (C := fun s : Run ↦ s = [⟨.serviceIsReady, .ok false⟩]) ?_ ?_
  · refine Phase.Passes.bind (hosts.calls rfl rfl) fun s ready _ hready ↦ ?_
    obtain ⟨answer, rfl, rfl : answer = .ok ready⟩ := hready
    refine Phase.Passes.pure ⟨?_, ?_⟩
    · intro hnot
      obtain rfl : ready = false := by simpa using hnot
      rfl
    · intro hyes
      obtain rfl : ready = true := by simpa using hyes
      rfl
  · rintro _ - rfl
    refine Phase.Passes.bind (requireNotCancelled_passes hosts _ _) fun _ _ _ hcancel ↦ ?_
    refine Phase.Passes.bind (requireBeforeDeadline_passes hosts _ _) fun _ _ _ hdeadline ↦ ?_
    refine Phase.Passes.bind (hosts.performs rfl rfl) fun _ steady _ hsteady ↦ ?_
    refine Phase.Passes.bind (throwIf_passes (hosts.raised (by simp [transientError])))
      fun _ _ _ htime ↦ ?_
    refine Phase.Passes.bind (hosts.calls rfl rfl) fun _ _ _ hwait ↦ ?_
    refine Phase.Passes.pure ?_
    obtain ⟨system, rfl⟩ := hdeadline
    obtain ⟨rfl, htime⟩ := htime
    obtain ⟨answer, rfl, rfl⟩ := hwait
    exact ⟨system, steady, _, not_le.mp htime, by rw [hcancel, hsteady]; rfl⟩

/-- Everything that has happened when a service call hands its request to ROS. -/
structure ServiceReady (build : Build) (native : NativeContext) (request : OperationRequest)
    (prepared : PreparedCall) (run : Run) : Prop where
  entry : run.head? = some ⟨.load .serviceEnabled, true⟩
  admitted : Admits build native request build.contract.kService (Request.serviceFields build)
    prepared.fields
  message : ⟨.getServiceIntrospection prepared.fields.serviceType,
      .ok (some (some ⟨some prepared.requestMembers, some prepared.responseMembers⟩))⟩ ∈ run ∧
    messageFromJson prepared.requestMembers prepared.fields.request = .ok prepared.message
  waited : ∃ before start rounds system,
    run = before ++ ⟨.steadyNow, start⟩ :: (List.flatten rounds ++
      [⟨.serviceIsReady, .ok true⟩, ⟨.isCancellationRequested, false⟩, ⟨.systemNow, system⟩,
        ⟨.steadyNow, prepared.started⟩]) ∧
      ∀ r ∈ rounds, ServiceRound (start + prepared.fields.waitMs * 1000000) r

/-- The prelude of a service call ends ready, or with an exception that is not uncertain, as far as
the phase has room for its client. -/
theorem prepareCall_passes {φ : Phase Exn Call Call.Answer} (build : Build)
    (native : NativeContext) {request : OperationRequest}
    (hosts : Hosts φ request.context.deadlineUnixNanos)
    (hclient : ∀ fields, Admits build native request build.contract.kService
      (Request.serviceFields build) fields → ∀ answer,
        φ.quiet ⟨.createGenericClient fields.service fields.serviceType, answer⟩) :
    φ.Passes (prepareCall build native request)
      fun s prepared ↦ ServiceReady build native request prepared s := by
  refine Phase.Passes.bind (admitRequest_passes hosts (by simp [rejectedError])
    fun _ ↦ Request.serviceFields_raises) fun s₀ fields _ hadmit ↦ ?_
  have hquiet := hclient fields hadmit.2
  refine Phase.Passes.bind (loadServiceType_passes hosts _) fun s₁ type _ htype ↦ ?_
  refine Phase.Passes.bind (hosts.lifts messageFromJson_raises) fun s₂ message _ hmessage ↦ ?_
  refine Phase.Passes.bind (callStd_passes (φ.allowed_of_quiet _ (hquiet (.ok ()))) hquiet
    hosts.raised_std) fun s₃ _ _ _ ↦ ?_
  refine Phase.Passes.bind (hosts.performs rfl rfl) fun s₄ start _ hstart ↦ ?_
  refine Phase.Passes.bind (awaitService_passes hosts _) fun s₅ _ _ hwait ↦ ?_
  refine Phase.Passes.bind (requireNotCancelled_passes hosts _ _) fun s₆ _ _ hcancel ↦ ?_
  refine Phase.Passes.bind (requireBeforeDeadline_passes hosts _ _) fun s₇ _ _ hdeadline ↦ ?_
  refine Phase.Passes.bind (hosts.performs rfl rfl) fun s₈ started _ hstarted ↦ ?_
  refine Phase.Passes.pure ?_
  obtain ⟨rfl, hadmit⟩ := hadmit
  obtain ⟨rfl, hmessage⟩ := hmessage
  obtain ⟨rounds, exit, rfl, hrounds, rfl⟩ := hwait
  obtain ⟨system, rfl⟩ := hdeadline
  refine ⟨rfl, hadmit, ⟨?_, hmessage⟩, ⟨⟨.load .serviceEnabled, true⟩ :: s₁ ++ s₃, start, rounds,
    system, ?_, hrounds⟩⟩
  · simp [htype]
  · simp [hstart, hcancel, hstarted]

/-! ## After the dispatch -/

/-- The run has handed a request to ROS. -/
def Requested (run : Run) : Prop :=
  ∃ members request answer, ⟨.asyncSendRequest members request, answer⟩ ∈ run

/-- The event is not one whose exception gets out after the dispatch: no ROS call throws, and a
response has a spelling. -/
def SoundEvent : CallEvent → Prop
  | ⟨.asyncSendRequest .., .error _⟩ | ⟨.waitFor _, .error _⟩ | ⟨.futureGet _, .error _⟩ => False
  | ⟨.futureGet members, .ok (some message)⟩ => members.Projects message
  | _ => True

/-- No exception gets out after the dispatch. -/
def Sound (run : Run) : Prop := ∀ e ∈ run, SoundEvent e

private theorem soundEvent_of_prelude {e : CallEvent} (h : e.op.prelude = true) : SoundEvent e := by
  obtain ⟨call, answer⟩ := e
  cases call <;> trivial

private theorem sound_concat {run : Run} {e : CallEvent} :
    Sound (run ++ [e]) ↔ Sound run ∧ SoundEvent e := by
  simp [Sound, or_imp, forall_and]

theorem Requested.concat {run : Run} (h : Requested run) (e : CallEvent) :
    Requested (run ++ [e]) := by
  obtain ⟨members, request, answer, hmem⟩ := h
  exact ⟨members, request, answer, List.mem_append_left _ hmem⟩

/-- The call hands a request to ROS. -/
def Call.requests : Call → Bool
  | .asyncSendRequest .. => true
  | _ => false

private theorem requested_iff {run : Run} :
    Requested run ↔ run.any (fun e ↦ e.op.requests) = true := by
  rw [List.any_eq_true]
  constructor
  · rintro ⟨members, request, answer, hmem⟩
    exact ⟨_, hmem, rfl⟩
  · rintro ⟨⟨call, answer⟩, hmem, hrequests⟩
    cases call <;> first | exact ⟨_, _, _, hmem⟩ | exact nomatch hrequests

theorem Requested.dispatched {run : Run} : Requested run → Dispatched run := by
  rintro ⟨members, request, answer, hmem⟩
  exact ⟨_, hmem, rfl⟩

/-- After the dispatch, with nothing thrown so far. -/
def Pending (run : Run) : Prop := Requested run ∧ Sound run

theorem Pending.concat {run : Run} {e : CallEvent} (h : Pending run) (he : SoundEvent e) :
    Pending (run ++ [e]) :=
  ⟨h.1.concat e, sound_concat.mpr ⟨h.2, he⟩⟩

/-- How a run ended, by whether it was committed: before the dispatch it was not, and after it it
was exactly when the run is sound. -/
def Settled (run : Run) (committed : Prop) : Prop :=
  (Requested run ∧ (committed ↔ Sound run)) ∨ (¬ Requested run ∧ Sound run ∧ ¬ committed)

private theorem Pending.settled {run : Run} {committed : Prop} (h : Pending run) (hc : committed) :
    Settled run committed :=
  Or.inl ⟨h.1, iff_of_true hc h.2⟩

section Rules

variable {I : Run → CallEvent → Prop} {α : Type} {h : Run}

/-- The guard lets calls pass that do no harm. -/
def Tolerant (I : Run → CallEvent → Prop) : Prop := ∀ h e, e.op.harmless = true → I h e

private theorem wp_callStd_pending {call : Call} {result : call.Answer → Except Str α}
    {Q : Run → α → Prop} (hI : Tolerant I) (hcall : call.harmless = true)
    (hsound : ∀ answer what, result answer = .error what → ¬ SoundEvent ⟨call, answer⟩)
    (hh : Pending h)
    (hQ : ∀ answer a, result answer = .ok a → Q (h ++ [⟨call, answer⟩]) a) :
    Proc.wp I (callStd call result) Q (fun h e ↦ Settled h e.IsUncertain) h := by
  rw [callStd, Proc.wp_invoke]
  intro answer
  refine ⟨hI h _ hcall, ?_⟩
  cases hresult : result answer with
  | ok a => exact hQ answer a hresult
  -- the exception is not uncertain, and the event that threw it is what makes the run unsound
  | error what =>
    refine Or.inl ⟨hh.1.concat _, iff_of_false (Exn.not_isUncertain_std what) ?_⟩
    intro hall
    exact hsound answer what hresult (sound_concat.mp hall).2

private theorem wp_abandonIf {c : Prop} [Decidable c] {e : Exn} (hI : Tolerant I)
    (he : e.IsUncertain) (hh : Pending h) :
    Proc.wp I (abandonIf c e) (fun h' _ ↦ Pending h') (fun h e ↦ Settled h e.IsUncertain) h := by
  rw [abandonIf]
  split
  · rw [Proc.wp_bind, Proc.wp_perform]
    intro answer
    refine ⟨hI h _ rfl, ?_⟩
    have hremoved : Pending (h ++ [⟨.removePendingRequest, answer⟩]) := hh.concat trivial
    exact hremoved.settled he
  · exact hh

private theorem wp_responseOverdue {context : WorkContext} {callUntil : ℤ} (hI : Tolerant I)
    (hh : Pending h) :
    Proc.wp I (responseOverdue context callUntil) (fun h' _ ↦ Pending h')
      (fun h e ↦ Settled h e.IsUncertain) h := by
  rw [responseOverdue, Proc.wp_bind, Proc.wp_perform]
  intro steady
  refine ⟨hI h _ rfl, ?_⟩
  have hsteady : Pending (h ++ [⟨.steadyNow, steady⟩]) := hh.concat trivial
  split
  · exact hsteady
  · rw [Proc.wp_bind, Proc.wp_perform]
    intro now
    exact ⟨hI _ _ rfl, hsteady.concat trivial⟩

/-- The wait for the response keeps the run pending, round after round. -/
theorem wp_awaitResponse {context : WorkContext} {callUntil : ℤ} (hI : Tolerant I)
    (hh : Pending h) :
    Proc.wp I (awaitResponse context callUntil) (fun h' _ ↦ Pending h')
      (fun h e ↦ Settled h e.IsUncertain) h := by
  refine Proc.wp_whileDo Pending hh ?_
  intro h' hh'
  refine Proc.wp_bind_of (R := fun h'' _ ↦ Pending h'') ?_ fun h'' ready hh'' ↦ ?_
  · refine wp_callStd_pending hI rfl ?_ hh' ?_
    · rintro _ what rfl
      exact id
    · rintro _ ready rfl
      exact hh'.concat trivial
  · refine ⟨fun _ ↦ ?_, fun _ ↦ hh''⟩
    rw [Proc.wp_bind, Proc.wp_perform]
    intro cancelled
    refine ⟨hI _ _ rfl, ?_⟩
    refine Proc.wp_bind_of (wp_abandonIf hI (by simp [uncertainError]) (hh''.concat trivial))
      fun h₁ _ hh₁ ↦ ?_
    refine Proc.wp_bind_of (wp_responseOverdue hI hh₁) fun h₂ overdue hh₂ ↦ ?_
    exact wp_abandonIf hI (by simp [uncertainError]) hh₂

/-- The response is read, or what is thrown says whether it could be. -/
theorem wp_readResponse {members : MessageMembers} (hI : Tolerant I) (hh : Pending h) :
    Proc.wp I (readResponse members) (fun h' _ ↦ Pending h')
      (fun h e ↦ Settled h e.IsUncertain) h := by
  refine Proc.wp_bind_of (R := fun h' response ↦
    h' = h ++ [⟨.futureGet members, .ok response⟩]) ?_ ?_
  · refine wp_callStd_pending hI rfl ?_ hh ?_
    · rintro _ what rfl
      exact id
    · rintro _ response rfl
      rfl
  · rintro _ response rfl
    cases response with
    | none =>
      have hmissing : Pending (h ++ [⟨.futureGet members, .ok none⟩]) := hh.concat trivial
      exact hmissing.settled (by simp [uncertainError])
    | some message =>
      refine (Proc.wp_lift _).mpr ?_
      cases hjson : messageToJson members message with
      | ok json => exact hh.concat (messageToJson_returns_iff.mp ⟨json, hjson⟩)
      | error e =>
        have hpermanent : e.IsPermanent := messageToJson_raises e hjson
        refine Or.inl ⟨hh.1.concat _, iff_of_false hpermanent.isFinal.not_isUncertain ?_⟩
        intro hall
        -- a sound run has a response the encoder returns on
        obtain ⟨json, hjson'⟩ := messageToJson_returns_iff.mpr (sound_concat.mp hall).2
        rw [hjson] at hjson'
        cases hjson'

end Rules

/-! ## Every run -/

/-- A call does no harm, or hands a request to ROS from an operation that is ready and has not been
stopped. -/
def ServiceGuard (build : Build) (native : NativeContext) (request : OperationRequest) (h : Run)
    (e : CallEvent) : Prop :=
  e.op.harmless = true ∨ ∃ prepared : PreparedCall,
    e.op = .asyncSendRequest prepared.requestMembers.members prepared.message ∧
      ServiceReady build native request prepared h ∧
        (beforeDispatch request.context.deadlineUnixNanos).Quiet h

theorem ServiceGuard.ready {build : Build} {native : NativeContext} {request : OperationRequest}
    {h : Run} {e : CallEvent} (hguard : ServiceGuard build native request h e)
    (hdispatches : e.op.dispatches = true) :
    ∃ prepared : PreparedCall,
      e.op = .asyncSendRequest prepared.requestMembers.members prepared.message ∧
        ServiceReady build native request prepared h ∧
          (beforeDispatch request.context.deadlineUnixNanos).Quiet h :=
  hguard.resolve_left (Call.not_harmless_of_dispatches hdispatches)

/-- Every call of a service call meets the guard, and every result is settled. -/
theorem callService_wp (build : Build) (native : NativeContext) (request : OperationRequest) :
    Prog.wp (ServiceGuard build native request) (callService build native request)
      (fun run result ↦ Settled run result.Committed) [] := by
  have hI : Tolerant (ServiceGuard build native request) := fun _ _ ↦ Or.inl
  have hlenient : (beforeDispatch request.context.deadlineUnixNanos).Lenient
      (ServiceGuard build native request) (fun h e ↦ Settled h e.IsUncertain) := by
    refine ⟨fun h e he ↦ hI h e (Call.harmless_of_prelude he), ?_⟩
    intro h e hstays he
    exact Or.inr ⟨fun hrequested ↦ not_dispatched_of_stays hstays hrequested.dispatched,
      fun e' he' ↦ soundEvent_of_prelude (hstays e' he'), he⟩
  have hprepare := prepareCall_passes build native
    (hosts_beforeDispatch request.context.deadlineUnixNanos) fun _ _ _ ↦ rfl
  refine Proc.wp_catching (Proc.wp_mono (fun _ _ hresult ↦ hresult) ?_
    (Proc.wp_bind_of (hprepare _ _ [] hlenient (by simp [Phase.Quiet])) ?_))
  · intro h e he
    rwa [failure_committed_iff]
  rintro s prepared ⟨_, rfl, hquiet, hready⟩
  have hsound : Sound s := fun e he ↦ soundEvent_of_prelude (hquiet.stays e he)
  -- from the dispatch on the run is pending, until something is thrown
  refine Proc.wp_bind_of (R := fun h' _ ↦ Pending h') ?_ fun h₁ _ hh₁ ↦ ?_
  · rw [callStd, Proc.wp_invoke]
    intro answer
    refine ⟨Or.inr ⟨prepared, rfl, hready, hquiet⟩, ?_⟩
    have hrequested : Requested (s ++ [⟨.asyncSendRequest prepared.requestMembers.members
        prepared.message, answer⟩]) := ⟨_, _, answer, by simp⟩
    cases answer with
    | ok _ => exact ⟨hrequested, sound_concat.mpr ⟨hsound, trivial⟩⟩
    | error what =>
      exact Or.inl ⟨hrequested, iff_of_false (Exn.not_isUncertain_std what)
        fun hall ↦ (sound_concat.mp hall).2⟩
  refine Proc.wp_bind_of (wp_awaitResponse hI hh₁) fun h₂ _ hh₂ ↦ ?_
  refine Proc.wp_bind_of (wp_readResponse hI hh₂) fun h₃ response hh₃ ↦ ?_
  rw [Proc.wp_bind, Proc.wp_perform]
  intro now
  refine ⟨hI _ _ rfl, ?_⟩
  have hh₄ : Pending (h₃ ++ [⟨.steadyNow, now⟩]) := hh₃.concat trivial
  rw [Proc.wp_lift]
  cases hsuccess : success build (callOutput prepared response now) _ _ with
  | ok result => exact hh₄.settled (success_committed hsuccess)
  | error e => exact hh₄.settled (success_raises e hsuccess)

theorem callService_guarded (build : Build) (native : NativeContext) (request : OperationRequest)
    {run : Run} {rest : Prog Call Call.Answer OperationResult}
    (hrun : Prog.Reaches (callService build native request) run rest) :
    Prog.Guarded (ServiceGuard build native request) run :=
  (Prog.wp_sound (callService_wp build native request) hrun).1

/-- **The result of a service call is final exactly when the request was handed to ROS**, in the
sound runs and in no others. -/
theorem callService_committed_iff {build : Build} {native : NativeContext}
    {request : OperationRequest} {run : Run} {result : OperationResult}
    (hrun : Prog.Returns (callService build native request) run result) :
    (result.Committed ↔ Requested run) ↔ Sound run := by
  rcases Prog.wp_returns (callService_wp build native request) hrun with
    ⟨hrequested, hcommitted⟩ | ⟨hrequested, hsound, hcommitted⟩
  · rw [iff_true_right hrequested, hcommitted]
  · exact iff_of_true (iff_of_false hcommitted hrequested) hsound

/-! ### Two runs with a request -/

/-- A call of `/s` with the request `{"data": 5}` that does not wait for the service. -/
def plainCallText : Str :=
  "\x7b\"service\":\"/s\",\"serviceType\":\"p/srv/T\",\"request\":\x7b\"data\":5\x7d,\"waitForServiceMs\":0,\"callTimeoutMs\":1\x7d"

/-- A build whose reader knows the request. -/
def callBuild : Build :=
  Request.referenceBuild (fun _ text ↦ if text = plainCallText then
    .value (.object [("callTimeoutMs", .ofInt64 1), ("request", .object [("data", .ofInt64 5)]),
      ("service", .string "/s"), ("serviceType", .string "p/srv/T"),
      ("waitForServiceMs", .ofInt64 0)]) else .errors []) fun _ _ ↦ []

def callWork : OperationRequest where
  context := ⟨"service", 1, "sha256:0", "call", 1000000000, some NativeContext.fastScope⟩
  input := ⟨some (schemaReference callBuild.contract.kService.inputSchema), .json, plainCallText⟩

/-- The calls of the plain request, when the service completes without a response. -/
def calmCallRun : Run :=
  (Prog.exec calmEnvironment 30 (callService callBuild NativeContext.fastContext callWork) []).1

theorem callService_calm :
    Prog.Returns (callService callBuild NativeContext.fastContext callWork) calmCallRun
      (.failure .uncertain "service_response_missing"
        "ROS2 service completed without a response object") :=
  Prog.returns_exec (by decide +kernel)

theorem callService_committed_iff_calm :
    ((OperationResult.failure .uncertain "service_response_missing"
        "ROS2 service completed without a response object").Committed ↔ Requested calmCallRun) ↔
      Sound calmCallRun :=
  callService_committed_iff callService_calm

/-- A message with one wide string, `data`. -/
def wideSupport : MessageSupport where
  members := .scalar ⟨"data", 0, none⟩ .wstring .nil
  initFunction := some (.ok ([], ()))
  finiFunction := true
  sizeOf := 32

/-- The service answers with a wide string that is not ASCII. -/
def wideEnvironment (h : Run) : (call : Call) → call.Answer
  | .getServiceIntrospection _ =>
    .ok (some (some ⟨some Request.int64Support, some wideSupport⟩))
  | .futureGet members =>
    if heq : members = wideSupport.members then .ok (some (heq ▸ ([0xe9], ()))) else .ok none
  | call => calmEnvironment h call

def wideCallRun : Run :=
  (Prog.exec wideEnvironment 30 (callService callBuild NativeContext.fastContext callWork) []).1

private theorem callService_wide :
    Prog.Returns (callService callBuild NativeContext.fastContext callWork) wideCallRun
      (.failure .permanent "unsupported_message_field"
        "message.data contains a non-ASCII wide string") :=
  Prog.returns_exec (by decide +kernel)

/-- The request was handed to ROS, and the result says that it failed for good. -/
theorem wideCallRun_permanent :
    ∃ run result,
      Prog.Returns (callService callBuild NativeContext.fastContext callWork) run result ∧
      Requested run ∧ result.errorClass? = some .permanent ∧
        ¬ (Requested run → result.Committed) := by
  have hrequested : Requested wideCallRun := requested_iff.mpr (by decide +kernel)
  refine ⟨wideCallRun, _, callService_wide, hrequested, rfl, ?_⟩
  intro h
  exact absurd (h hrequested) (by decide)

end Ros2ToolsAdapter
