import Ros2ToolsAdapter.Adapter.Contract

/-!
# Results

How an operation ends: with a payload, or with an error class that tells the caller what it may do.
The class is carried through the code as a string in a `ToolsError` and translated once, in
`failure`; any other exception becomes transient there, which invites a retry.
-/

namespace Ros2ToolsAdapter

open Except (bind_eq_ok)

/-- `xgc.adapter.v1.ErrorClass`, the classes the adapter uses. -/
inductive ErrorClass
  | transient
  | permanent
  | uncertain
  | rejected
  | resourceExhausted
  | cancelled
  | deadline
  deriving DecidableEq

/-- `xgc2::adapter_runtime::OperationResult`. -/
inductive OperationResult
  | success (payload : Payload) (final : Bool)
  | failure (errorClass : ErrorClass) (code : String) (message : Str)
  deriving DecidableEq

/-- The chain of comparisons in `failure`; what it does not know is permanent. -/
def ErrorClass.ofString (errorClass : String) : ErrorClass :=
  if errorClass = "transient" then .transient
  else if errorClass = "uncertain" then .uncertain
  else if errorClass = "rejected" then .rejected
  else if errorClass = "resource-exhausted" then .resourceExhausted
  else if errorClass = "cancelled" then .cancelled
  else if errorClass = "deadline" then .deadline
  else .permanent

/-- `ToolsAdapter::failure`. -/
def failure (e : Exn) : OperationResult :=
  match e with
  | .std _ => .failure .transient "internal_error" e.what
  | .tools typed => .failure (.ofString typed.errorClass) typed.code e.what

/-- `ToolsAdapter::success`. -/
def success (build : Build) (value : Json.Value) (outputSchema : SchemaReference)
    (maximumResponseBytes : ℕ) : Except Exn OperationResult := do
  let payload : Payload := ⟨some outputSchema, .json, build.writeJson value⟩
  throwIf (maximumResponseBytes < payload.value.length)
    (uncertainError "operation_result_too_large"
      "native side effect committed but its result is too large")
  pure (.success payload true)

namespace OperationResult

/-- The class of a failure. -/
def errorClass? : OperationResult → Option ErrorClass
  | .success .. => none
  | .failure errorClass .. => some errorClass

/-- What a caller must not retry because the side effect may have happened. -/
def Committed (result : OperationResult) : Prop :=
  result.errorClass? = none ∨ result.errorClass? = some .uncertain

instance (result : OperationResult) : Decidable result.Committed :=
  inferInstanceAs (Decidable (_ ∨ _))

end OperationResult

private theorem ErrorClass.ofString_eq_uncertain {s : String} :
    ErrorClass.ofString s = .uncertain ↔ s = "uncertain" := by
  unfold ofString
  split_ifs <;> simp_all

/-- A failure is uncertain when its exception is. -/
theorem failure_committed_iff {e : Exn} : (failure e).Committed ↔ e.IsUncertain := by
  cases e <;> simp [failure, OperationResult.Committed, OperationResult.errorClass?,
    ErrorClass.ofString_eq_uncertain]

/-- An exception that must not be retried does not become transient. -/
theorem failure_of_isFinal {e : Exn} (h : e.IsFinal) :
    (failure e).errorClass? = some .permanent ∨
      (failure e).errorClass? = some .resourceExhausted := by
  obtain ⟨typed, rfl, hclass | hclass⟩ := h
  · left
    rw [failure, hclass]
    rfl
  · right
    rw [failure, hclass]
    rfl

/-- `success` throws nothing but the uncertain error. -/
theorem success_raises {build : Build} {value : Json.Value} {schema : SchemaReference} {limit : ℕ} :
    Raises Exn.IsUncertain (success build value schema limit) :=
  Raises.bind (Raises.throwIf fun _ ↦ Exn.isUncertain_tools.mpr rfl) fun _ _ ↦ Raises.ok _

theorem success_committed {build : Build} {value : Json.Value} {schema : SchemaReference}
    {limit : ℕ} {result : OperationResult} (h : success build value schema limit = .ok result) :
    result.Committed := by
  obtain ⟨-, -, hresult⟩ := bind_eq_ok.mp h
  obtain rfl := Except.ok.inj hresult
  exact Or.inl rfl

end Ros2ToolsAdapter
