import Ros2ToolsAdapter.Adapter.Prelude

/-!
# Publishing

`ToolsAdapter::Publish`. One call in the middle of it hands the message to ROS. What comes before is
the prelude: checks, and a loop that polls for a subscriber. After it only the result is built.

The rest of the module places every exit of the operation on its side of that call, for every
environment: `publish_committed_iff` for the result, `publish_guarded` for what is known when the
call is made.
-/

namespace Ros2ToolsAdapter

open Interaction Json

/-! ## The operation -/

/-- The loop that waits for a subscriber. -/
def awaitSubscribers (context : WorkContext) (waitUntil : ℤ) : Code Unit :=
  Proc.whileDo
    (do
      let count ← callStd .getSubscriptionCount id
      -- `&&`: the clock is read only where there is no subscriber
      if count = 0 then
        let now ← Proc.perform .steadyNow
        pure (decide (now < waitUntil))
      else
        pure false)
    (do
      requireNotCancelled "publish_cancelled"
        "publish was cancelled while waiting for subscribers"
      requireBeforeDeadline context "publish_deadline_elapsed"
        "publish deadline elapsed while waiting for subscribers"
      Proc.perform (Call.sleepFor 20))

/-- What a publish operation knows when it hands the message to ROS. -/
structure PreparedPublish where
  fields : Request.PublishFields
  serialized : Str
  subscriberCount : ℕ

/-- `Publish` up to the dispatch. -/
def preparePublish (build : Build) (native : NativeContext) (request : OperationRequest) :
    Code PreparedPublish := do
  let fields ← admitRequest build native request build.contract.kPublish .publishEnabled
    (rejectedError "publish_capability_disabled" "ROS2 publish capability is not active")
    (Request.publishFields build)
  requireNotCancelled "publish_cancelled" "publish was cancelled before dispatch"
  requireBeforeDeadline request.context "publish_deadline_elapsed"
    "publish deadline elapsed before dispatch"
  let type ← loadMessageType fields.messageType
  let message ← liftM (messageFromJson type fields.message)
  let serialized ← callStd (.serializeMessage type.members message) id
  callStd (.createGenericPublisher fields.topic fields.messageType
    ⟨fields.depth, fields.reliability = "reliable", fields.durability = "volatile"⟩) id
  let now ← Proc.perform .steadyNow
  awaitSubscribers request.context (now + fields.waitMs * 1000000)
  -- the count is read anew, and may be zero although the loop has seen a subscriber
  let subscriberCount ← callStd .getSubscriptionCount id
  throwIf (0 < fields.waitMs ∧ subscriberCount = 0)
    (transientError "subscriber_unavailable"
      "no ROS2 subscriber matched before the wait timeout")
  requireNotCancelled "publish_cancelled" "publish was cancelled before dispatch"
  requireBeforeDeadline request.context "publish_deadline_elapsed"
    "publish deadline elapsed before dispatch"
  pure { fields, serialized, subscriberCount }

/-- The result of a publish operation. -/
def publishOutput (prepared : PreparedPublish) : Value :=
  ((((Value.object []).set "event" (.string "published")).set "topic"
    (.string prepared.fields.topic)).set "messageType" (.string prepared.fields.messageType)).set
    "serializedBytes" (Value.ofUInt64 prepared.serialized.length) |>.set
    "subscriberCount" (Value.ofUInt64 prepared.subscriberCount)

/-- `ToolsAdapter::Publish`. -/
def publish (build : Build) (native : NativeContext) (request : OperationRequest) :
    Prog Call Call.Answer OperationResult :=
  Proc.catching (do
    let prepared ← preparePublish build native request
    Proc.rethrowing (callStd (.publish prepared.serialized) id) fun e ↦
      uncertainError "publish_outcome_unknown" ("ROS2 publish outcome is unknown: " ++ e.what)
    liftM (success build (publishOutput prepared)
      (schemaReference build.contract.kPublish.outputSchema)
      build.contract.kPublish.limits.maximumResponseBytes))
    failure

/-! ## What is known at the dispatch -/

/-- One round of the wait loop that went on: no subscriber and time left, and then no cancellation
and time left before the deadline. -/
def SubscriberRound (waitUntil : ℤ) (s : Run) : Prop :=
  ∃ steady system, steady < waitUntil ∧ s = [⟨.getSubscriptionCount, .ok 0⟩, ⟨.steadyNow, steady⟩,
    ⟨.isCancellationRequested, false⟩, ⟨.systemNow, system⟩, ⟨.sleepFor 20, ()⟩]

/-- The last look of the wait loop: a subscriber, or no time left. -/
def SubscriberExit (waitUntil : ℤ) (s : Run) : Prop :=
  (∃ count, 0 < count ∧ s = [⟨.getSubscriptionCount, .ok count⟩]) ∨
    ∃ steady, waitUntil ≤ steady ∧ s = [⟨.getSubscriptionCount, .ok 0⟩, ⟨.steadyNow, steady⟩]

theorem awaitSubscribers_passes {φ : Phase Exn Call Call.Answer} {context : WorkContext}
    (hosts : Hosts φ context.deadlineUnixNanos) (waitUntil : ℤ) :
    φ.Passes (awaitSubscribers context waitUntil)
      fun s _ ↦ ∃ rounds exit, s = List.flatten rounds ++ exit ∧
        (∀ r ∈ rounds, SubscriberRound waitUntil r) ∧ SubscriberExit waitUntil exit := by
  refine Phase.Passes.whileDo (C := fun s : Run ↦ ∃ steady, steady < waitUntil ∧
    s = [⟨.getSubscriptionCount, .ok 0⟩, ⟨.steadyNow, steady⟩]) ?_ ?_
  · refine Phase.Passes.bind (hosts.calls rfl rfl) fun s count _ hcount ↦ ?_
    obtain ⟨answer, rfl, rfl : answer = .ok count⟩ := hcount
    split
    · rename_i hzero
      refine Phase.Passes.bind (hosts.performs rfl rfl) fun _ steady _ hsteady ↦ ?_
      refine Phase.Passes.pure ⟨?_, ?_⟩
      · intro hbefore
        exact ⟨steady, of_decide_eq_true hbefore, by rw [hsteady, hzero]; rfl⟩
      · intro hafter
        exact Or.inr ⟨steady, not_lt.mp (of_decide_eq_false hafter), by rw [hsteady, hzero]; rfl⟩
    · rename_i hcount
      refine Phase.Passes.pure ⟨nofun, ?_⟩
      intro _
      exact Or.inl ⟨count, Nat.pos_of_ne_zero hcount, rfl⟩
  · rintro s - ⟨steady, hsteady, rfl⟩
    refine Phase.Passes.bind (requireNotCancelled_passes hosts _ _) fun _ _ _ hcancel ↦ ?_
    refine Phase.Passes.bind (requireBeforeDeadline_passes hosts _ _) fun _ _ _ hdeadline ↦ ?_
    refine (hosts.performs rfl rfl).mono ?_
    rintro _ _ - rfl
    obtain ⟨system, rfl⟩ := hdeadline
    exact ⟨steady, system, hsteady, by rw [hcancel]; rfl⟩

/-- Everything that has happened when a publish operation hands its message to ROS. -/
structure PublishReady (build : Build) (native : NativeContext) (request : OperationRequest)
    (prepared : PreparedPublish) (run : Run) : Prop where
  entry : run.head? = some ⟨.load .publishEnabled, true⟩
  admitted : Admits build native request build.contract.kPublish (Request.publishFields build)
    prepared.fields
  message : ∃ support message,
    ⟨.getMessageIntrospection prepared.fields.messageType, .ok (some (some support))⟩ ∈ run ∧
      messageFromJson support prepared.fields.message = .ok message ∧
        ⟨.serializeMessage support.members message, .ok prepared.serialized⟩ ∈ run
  waited : ∃ before start rounds exit system,
    run = before ++ ⟨.steadyNow, start⟩ :: (List.flatten rounds ++ exit ++
      [⟨.getSubscriptionCount, .ok prepared.subscriberCount⟩, ⟨.isCancellationRequested, false⟩,
        ⟨.systemNow, system⟩]) ∧
      (∀ r ∈ rounds, SubscriberRound (start + prepared.fields.waitMs * 1000000) r) ∧
        SubscriberExit (start + prepared.fields.waitMs * 1000000) exit
  subscribed : prepared.fields.waitMs = 0 ∨ 0 < prepared.subscriberCount

/-- The prelude of a publish operation ends ready, or with an exception that is not uncertain, as
far as the phase has room for its publisher. -/
theorem preparePublish_passes {φ : Phase Exn Call Call.Answer} (build : Build)
    (native : NativeContext) {request : OperationRequest}
    (hosts : Hosts φ request.context.deadlineUnixNanos)
    (hpublisher : ∀ fields, Admits build native request build.contract.kPublish
      (Request.publishFields build) fields → ∀ qos answer,
        φ.quiet ⟨.createGenericPublisher fields.topic fields.messageType qos, answer⟩) :
    φ.Passes (preparePublish build native request)
      fun s prepared ↦ PublishReady build native request prepared s := by
  refine Phase.Passes.bind (admitRequest_passes hosts (by simp [rejectedError])
    fun _ ↦ Request.publishFields_raises) fun s₀ fields _ hadmit ↦ ?_
  have hquiet := hpublisher fields hadmit.2
  refine Phase.Passes.bind (requireNotCancelled_passes hosts _ _) fun s₁ _ _ _ ↦ ?_
  refine Phase.Passes.bind (requireBeforeDeadline_passes hosts _ _) fun s₂ _ _ _ ↦ ?_
  refine Phase.Passes.bind (loadMessageType_passes hosts _) fun s₃ type _ htype ↦ ?_
  refine Phase.Passes.bind (hosts.lifts messageFromJson_raises) fun s₄ message _ hmessage ↦ ?_
  refine Phase.Passes.bind (hosts.calls rfl rfl) fun s₅ serialized _ hserialized ↦ ?_
  refine Phase.Passes.bind (callStd_passes (φ.allowed_of_quiet _ (hquiet _ (.ok ()))) (hquiet _)
    hosts.raised_std) fun s₆ _ _ _ ↦ ?_
  refine Phase.Passes.bind (hosts.performs rfl rfl) fun s₇ start _ hstart ↦ ?_
  refine Phase.Passes.bind (awaitSubscribers_passes hosts _) fun s₈ _ _ hwait ↦ ?_
  refine Phase.Passes.bind (hosts.calls rfl rfl) fun s₉ count _ hcount ↦ ?_
  refine Phase.Passes.bind (throwIf_passes (hosts.raised (by simp [transientError])))
    fun s₁₀ _ _ hsub ↦ ?_
  refine Phase.Passes.bind (requireNotCancelled_passes hosts _ _) fun s₁₁ _ _ hcancel ↦ ?_
  refine Phase.Passes.bind (requireBeforeDeadline_passes hosts _ _) fun s₁₂ _ _ hdeadline ↦ ?_
  refine Phase.Passes.pure ?_
  -- what is left is where in the run each of these segments stands
  obtain ⟨rfl, hadmit⟩ := hadmit
  obtain ⟨rfl, hmessage⟩ := hmessage
  obtain ⟨_, rfl, rfl⟩ := hserialized
  obtain ⟨rounds, exit, rfl, hrounds, hexit⟩ := hwait
  obtain ⟨_, rfl, rfl⟩ := hcount
  obtain ⟨rfl, hsub⟩ := hsub
  obtain ⟨system, rfl⟩ := hdeadline
  refine ⟨rfl, hadmit, ⟨type, message, ?_, hmessage, ?_⟩, ⟨⟨.load .publishEnabled, true⟩ :: s₁ ++
    s₂ ++ s₃ ++ [⟨.serializeMessage type.members message, .ok serialized⟩] ++ s₆, start, rounds,
    exit, system, ?_, hrounds, hexit⟩, ?_⟩
  · simp [htype]
  · simp
  · simp [hstart, hcancel]
  · rw [not_and_or, Nat.not_lt, Nat.le_zero] at hsub
    exact hsub.imp_right Nat.pos_of_ne_zero

/-! ## Every run -/

/-- The run has handed a message to ROS. -/
def Published (run : Run) : Prop := ∃ serialized answer, ⟨.publish serialized, answer⟩ ∈ run

theorem Published.dispatched {run : Run} : Published run → Dispatched run := by
  rintro ⟨serialized, answer, hmem⟩
  exact ⟨_, hmem, rfl⟩

/-- A call does no harm, or hands a message to ROS from an operation that is ready and has not been
stopped. -/
def PublishGuard (build : Build) (native : NativeContext) (request : OperationRequest) (h : Run)
    (e : CallEvent) : Prop :=
  e.op.harmless = true ∨ ∃ prepared, e.op = .publish prepared.serialized ∧
    PublishReady build native request prepared h ∧
      (beforeDispatch request.context.deadlineUnixNanos).Quiet h

theorem PublishGuard.ready {build : Build} {native : NativeContext} {request : OperationRequest}
    {h : Run} {e : CallEvent} (hguard : PublishGuard build native request h e)
    (hdispatches : e.op.dispatches = true) :
    ∃ prepared, e.op = .publish prepared.serialized ∧
      PublishReady build native request prepared h ∧
        (beforeDispatch request.context.deadlineUnixNanos).Quiet h :=
  hguard.resolve_left (Call.not_harmless_of_dispatches hdispatches)

/-- Every call of a publish operation meets the guard, and every result is on its side of the
dispatch. -/
theorem publish_wp (build : Build) (native : NativeContext) (request : OperationRequest) :
    Prog.wp (PublishGuard build native request) (publish build native request)
      (fun run result ↦ result.Committed ↔ Published run) [] := by
  have hlenient : (beforeDispatch request.context.deadlineUnixNanos).Lenient
      (PublishGuard build native request) (fun h e ↦ (failure e).Committed ↔ Published h) := by
    refine ⟨fun h e he ↦ Or.inl (Call.harmless_of_prelude he), ?_⟩
    intro h e hstays he
    rw [failure_committed_iff]
    exact iff_of_false he fun hpublished ↦ not_dispatched_of_stays hstays hpublished.dispatched
  have hprepare := preparePublish_passes build native
    (hosts_beforeDispatch request.context.deadlineUnixNanos) fun _ _ _ _ ↦ rfl
  refine Proc.wp_catching (Proc.wp_bind_of
    (hprepare _ _ [] hlenient (by simp [Phase.Quiet])) ?_)
  rintro s prepared ⟨_, rfl, hquiet, hready⟩
  -- from the dispatch on, whatever is thrown is uncertain
  refine Proc.wp_bind_of (R := fun h' _ ↦ Published h') (Proc.wp_rethrowing ?_) ?_
  · rw [callStd, Proc.wp_invoke]
    intro answer
    refine ⟨Or.inr ⟨prepared, rfl, hready, hquiet⟩, ?_⟩
    have hpublished : Published (s ++ [⟨.publish prepared.serialized, answer⟩]) :=
      ⟨prepared.serialized, answer, by simp⟩
    cases answer with
    | ok _ => exact hpublished
    | error what =>
      refine iff_of_true ?_ hpublished
      simp [failure_committed_iff, uncertainError]
  · rintro h' - hpublished
    rw [Proc.wp_lift]
    cases hsuccess : success build (publishOutput prepared) _ _ with
    | ok result => exact iff_of_true (success_committed hsuccess) hpublished
    | error e =>
      exact iff_of_true (failure_committed_iff.mpr (success_raises e hsuccess)) hpublished

theorem publish_guarded (build : Build) (native : NativeContext) (request : OperationRequest)
    {run : Run} {rest : Prog Call Call.Answer OperationResult}
    (hrun : Prog.Reaches (publish build native request) run rest) :
    Prog.Guarded (PublishGuard build native request) run :=
  (Prog.wp_sound (publish_wp build native request) hrun).1

/-- **A publish result is final exactly when the message was handed to ROS**: success and uncertain
after it, and every class a caller may retry before it. -/
theorem publish_committed_iff {build : Build} {native : NativeContext} {request : OperationRequest}
    {run : Run} {result : OperationResult}
    (hrun : Prog.Returns (publish build native request) run result) :
    result.Committed ↔ Published run :=
  Prog.wp_returns (publish_wp build native request) hrun

/-! ### A run that publishes -/

/-- A publish request for `{"data": 5}` that does not wait. -/
def plainRequestText : Str :=
  "\x7b\"topic\":\"/t\",\"messageType\":\"p/msg/T\",\"message\":\x7b\"data\":5\x7d,\"qosDepth\":1,\"reliability\":\"reliable\",\"durability\":\"volatile\",\"waitForSubscribersMs\":0\x7d"

/-- A build whose reader knows the request. -/
def plainBuild : Build :=
  Request.referenceBuild (fun _ text ↦ if text = plainRequestText then
    .value (Request.publishRequest (.object [("data", .ofInt64 5)]) 0) else .errors []) fun _ _ ↦ []

/-- The work of the request, under the compiled contract, with one second on the clock. -/
def plainWork : OperationRequest where
  context := ⟨"publish", 1, "sha256:0", "call", 1000000000, some NativeContext.fastScope⟩
  input := ⟨some (schemaReference plainBuild.contract.kPublish.inputSchema), .json,
    plainRequestText⟩

/-- An environment in which nothing fails and no time passes. -/
def calmEnvironment (_ : Run) : (call : Call) → call.Answer
  | .load _ => true
  | .store .. => ()
  | .compareExchange .. => true
  | .isCancellationRequested => false
  | .systemNow => 0
  | .steadyNow => 0
  | .sleepFor _ => ()
  | .getTypesupportLibrary .. => .ok ()
  | .getMessageIntrospection _ => .ok (some (some Request.int64Support))
  | .getMessageSerialization _ => .ok (some ())
  | .getServiceIntrospection _ =>
    .ok (some (some ⟨some Request.int64Support, some Request.int64Support⟩))
  | .serializeMessage .. => .ok [5]
  | .createGenericPublisher .. => .ok ()
  | .getSubscriptionCount => .ok 1
  | .publish _ => .ok ()
  | .createGenericClient .. => .ok ()
  | .serviceIsReady => .ok true
  | .waitForService _ => .ok true
  | .asyncSendRequest .. => .ok ()
  | .waitFor _ => .ok true
  | .removePendingRequest => true
  | .futureGet _ => .ok none

/-- The calls of the plain request in the calm environment. -/
def plainRun : Run :=
  (Prog.exec calmEnvironment 30 (publish plainBuild NativeContext.fastContext plainWork) []).1

/-- Its result; the reference writer writes nothing. -/
def plainResult : OperationResult :=
  .success ⟨some (schemaReference plainBuild.contract.kPublish.outputSchema), .json, []⟩ true

theorem publish_plain :
    Prog.Returns (publish plainBuild NativeContext.fastContext plainWork) plainRun plainResult :=
  Prog.returns_exec (by decide +kernel)

theorem publish_committed_iff_plain :
    (plainResult.Committed ↔ Published plainRun) ∧ Published plainRun :=
  have hiff := publish_committed_iff publish_plain
  ⟨hiff, hiff.mp (Or.inl rfl)⟩

end Ros2ToolsAdapter
