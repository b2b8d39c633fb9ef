import Ros2ToolsAdapter.Adapter.Admission
import Ros2ToolsAdapter.Adapter.NativeContext
import Ros2ToolsAdapter.Foundation.Throwing

/-!
# What the adapter calls

Everything outside the adapter that an operation or a lifecycle call touches, as one signature of
calls: the three atomic flags, the cancellation token, the two clocks, the type-support libraries,
and ROS. The answers are the environment's, so a flag may have been changed by another thread, a
clock may jump, and a ROS call may throw.

A program over these calls is the adapter's code; this module has the parts that both operations
share.
-/

namespace Ros2ToolsAdapter

open Interaction Json

/-! ## The signature -/

/-- The three `std::atomic<bool>` of a `ToolsAdapter`. -/
inductive Flag
  | instanceSpecApplied
  | publishEnabled
  | serviceEnabled
  deriving DecidableEq

/-- The quality of service of a publisher. -/
structure QoS where
  depth : ℕ
  reliable : Bool
  volatile : Bool
  deriving DecidableEq

/-- A `ServiceMembers` table; either of its message types may be null. -/
structure ServiceSupport where
  requestMembers : Option MessageSupport
  responseMembers : Option MessageSupport

/-- A call of the adapter to what is outside of it. -/
inductive Call
  | load (flag : Flag)
  | store (flag : Flag) (value : Bool)
  | compareExchange (flag : Flag) (expected desired : Bool)
  | isCancellationRequested
  | systemNow
  | steadyNow
  | sleepFor (milliseconds : ℕ)
  | getTypesupportLibrary (typeName identifier : Str)
  | getMessageIntrospection (typeName : Str)
  | getMessageSerialization (typeName : Str)
  | getServiceIntrospection (typeName : Str)
  | serializeMessage (members : MessageMembers) (message : members.Message)
  | createGenericPublisher (topic messageType : Str) (qos : QoS)
  | getSubscriptionCount
  | publish (serialized : Str)
  | createGenericClient (service serviceType : Str)
  | serviceIsReady
  | waitForService (milliseconds : ℕ)
  | asyncSendRequest (members : MessageMembers) (request : members.Message)
  | waitFor (milliseconds : ℕ)
  | removePendingRequest
  | futureGet (members : MessageMembers)

/-- What a call returns. A time is in nanoseconds; a type-support handle may be null, and so may its
data; a call of a library that can throw returns an `Except` with the text of the exception. -/
@[reducible] def Call.Answer : Call → Type
  | .load _ => Bool
  | .store .. => Unit
  | .compareExchange .. => Bool
  | .isCancellationRequested => Bool
  | .systemNow => ℤ
  | .steadyNow => ℤ
  | .sleepFor _ => Unit
  | .getTypesupportLibrary .. => Except Str Unit
  | .getMessageIntrospection _ => Except Str (Option (Option MessageSupport))
  | .getMessageSerialization _ => Except Str (Option Unit)
  | .getServiceIntrospection _ => Except Str (Option (Option ServiceSupport))
  | .serializeMessage .. => Except Str Str
  | .createGenericPublisher .. => Except Str Unit
  | .getSubscriptionCount => Except Str ℕ
  | .publish _ => Except Str Unit
  | .createGenericClient .. => Except Str Unit
  | .serviceIsReady => Except Str Bool
  | .waitForService _ => Except Str Bool
  | .asyncSendRequest .. => Except Str Unit
  | .waitFor _ => Except Str Bool
  | .removePendingRequest => Bool
  | .futureGet members => Except Str (Option members.Message)

/-- A block of the adapter's code. -/
abbrev Code := Proc Exn Call Call.Answer

/-- A call with its answer. -/
abbrev CallEvent := Event Call Call.Answer

/-- A run of the adapter's code. -/
abbrev Run := Trace Call Call.Answer

/-- The call hands a message or a request to ROS. -/
def Call.dispatches : Call → Bool
  | .publish _ | .asyncSendRequest .. => true
  | _ => false

/-- The run has reached the dispatch. -/
def Dispatched (run : Run) : Prop := ∃ e ∈ run, e.op.dispatches = true

/-! ## Shared blocks -/

/-- Call a library, and throw what it throws. -/
def callStd {α : Type} (call : Call) (result : call.Answer → Except Str α) : Code α :=
  Proc.invoke call fun answer ↦ ofStd (result answer)

def validateInvocationContext (context : WorkContext) (expected : Endpoint) : Except Exn Unit :=
  throwIf (¬ (context.capabilityId = expected.capabilityId ∧
      context.contractVersion = expected.contractVersion ∧
      context.contractDigest = expected.contractDigest ∧
      context.endpointId = expected.endpointId))
    (permanentError "invalid_work_context"
      "work context does not match its capability endpoint")

/-- `if (cancellation.IsCancellationRequested()) cancelledError(..)` -/
def requireNotCancelled (code : String) (message : Str) : Code Unit := do
  let cancelled ← Proc.perform .isCancellationRequested
  throwIf (cancelled = true) (cancelledError code message)

def requireBeforeDeadline (context : WorkContext) (code : String) (message : Str) : Code Unit := do
  let now ← Proc.perform .systemNow
  throwIf (context.deadlineUnixNanos ≤ now) (deadlineError code message)

/-- The error of a type whose type support is missing. -/
def typeSupportUnavailable (what typeName : Str) (reason : Str) : Exn :=
  permanentError "ros_type_support_unavailable"
    ("ROS2 " ++ what ++ " type support is unavailable for " ++ typeName ++ reason)

/-- `JsonCodec::loadMessageType`. -/
def loadMessageType (typeName : Str) : Code MessageSupport := do
  let (introspection, serialization) ← Proc.rethrowing (do
      callStd (.getTypesupportLibrary typeName "rosidl_typesupport_introspection_cpp") id
      let introspection ← callStd (.getMessageIntrospection typeName) id
      callStd (.getTypesupportLibrary typeName "rosidl_typesupport_cpp") id
      let serialization ← callStd (.getMessageSerialization typeName) id
      pure (introspection, serialization) : Code _)
    fun e : Exn ↦ typeSupportUnavailable "message" typeName (": " ++ e.what)
  -- both handles and the introspection data have to be there
  match introspection, serialization with
  | some (some members), some () => pure members
  | _, _ => throw (typeSupportUnavailable "message" typeName "")

/-- `JsonCodec::loadServiceType`. -/
def loadServiceType (typeName : Str) : Code (MessageSupport × MessageSupport) := do
  let introspection ← Proc.rethrowing (do
      callStd (.getTypesupportLibrary typeName "rosidl_typesupport_introspection_cpp") id
      callStd (.getServiceIntrospection typeName) id : Code _)
    fun e : Exn ↦ typeSupportUnavailable "service" typeName (": " ++ e.what)
  match introspection with
  | some (some service) =>
    match service.requestMembers, service.responseMembers with
    | some request, some response => pure (request, response)
    | _, _ => throw (permanentError "ros_type_support_invalid"
        ("ROS2 service introspection is incomplete for " ++ typeName))
  | _ => throw (typeSupportUnavailable "service" typeName "")

/-- The checks an operation starts with: its flag, the work context, the subject, the payload, and
the fields of the request. -/
def admitRequest {α : Type} (build : Build) (native : NativeContext) (request : OperationRequest)
    (endpoint : Endpoint) (flag : Flag) (disabled : Exn) (fields : Value → Except Exn α) :
    Code α := do
  let enabled ← Proc.perform (.load flag)
  throwIf (enabled = false) disabled
  liftM (validateInvocationContext request.context endpoint)
  liftM (native.validateSubject request.context)
  let input ← liftM (Request.parseRequest build request.input endpoint)
  liftM (fields input)

end Ros2ToolsAdapter
