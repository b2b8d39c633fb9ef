import Ros2ToolsAdapter.Adapter.CallService

/-!
# The dispatch

What holds of every run of the two operations, finished or not, at the moment it hands a message or
a request to ROS. Both are read off the guard of their weakest precondition: a guarded run
dispatches only from a history that is ready and quiet, and since such a history has no dispatch in
it, at most once.
-/

namespace Ros2ToolsAdapter

open Interaction

/-- A run that dispatches only where nothing has been dispatched does so at most once. -/
theorem countP_dispatches_le_one {run : Run}
    (h : Prog.Guarded (fun before e ↦ e.op.dispatches = true → ¬ Dispatched before) run) :
    run.countP (fun e ↦ e.op.dispatches) ≤ 1 := by
  refine (h.mono fun before e hguard hdispatches e' he' ↦ ?_).countP_le_one
  rw [← Bool.not_eq_true]
  exact fun hdispatched ↦ hguard hdispatches ⟨e', he', hdispatched⟩

/-- **What is known when an operation dispatches**: in every run of either, finished or not, the
dispatch happens at most once, from a history that is ready and in which nothing said to stop. -/
theorem dispatches_ready (build : Build) (native : NativeContext) (request : OperationRequest) :
    (∀ run rest, Prog.Reaches (publish build native request) run rest →
      run.countP (fun e ↦ e.op.dispatches) ≤ 1 ∧
        ∀ before e after, run = before ++ e :: after → e.op.dispatches = true →
          ∃ prepared : PreparedPublish, e.op = .publish prepared.serialized ∧
            PublishReady build native request prepared before ∧
              ∀ e' ∈ before, GoesOn request.context.deadlineUnixNanos e') ∧
    (∀ run rest, Prog.Reaches (callService build native request) run rest →
      run.countP (fun e ↦ e.op.dispatches) ≤ 1 ∧
        ∀ before e after, run = before ++ e :: after → e.op.dispatches = true →
          ∃ prepared : PreparedCall,
            e.op = .asyncSendRequest prepared.requestMembers.members prepared.message ∧
              ServiceReady build native request prepared before ∧
                ∀ e' ∈ before, GoesOn request.context.deadlineUnixNanos e') := by
  constructor
  · intro run rest hrun
    have hguarded := publish_guarded build native request hrun
    refine ⟨countP_dispatches_le_one (hguarded.mono ?_),
      fun before e after heq hdispatches ↦ (hguarded before e after heq).ready hdispatches⟩
    intro h e hguard hdispatches
    obtain ⟨prepared, -, -, hquiet⟩ := hguard.ready hdispatches
    exact not_dispatched_of_stays hquiet.stays
  · intro run rest hrun
    have hguarded := callService_guarded build native request hrun
    refine ⟨countP_dispatches_le_one (hguarded.mono ?_),
      fun before e after heq hdispatches ↦ (hguarded before e after heq).ready hdispatches⟩
    intro h e hguard hdispatches
    obtain ⟨prepared, -, -, hquiet⟩ := hguard.ready hdispatches
    exact not_dispatched_of_stays hquiet.stays

theorem dispatches_ready_plain :
    (∃ before e after prepared, plainRun = before ++ e :: after ∧
      e.op = .publish prepared.serialized ∧
        PublishReady plainBuild NativeContext.fastContext plainWork prepared before) ∧
    ∃ before e after, ∃ prepared : PreparedCall, calmCallRun = before ++ e :: after ∧
      e.op = .asyncSendRequest prepared.requestMembers.members prepared.message ∧
        ServiceReady callBuild NativeContext.fastContext callWork prepared before := by
  constructor
  · have hdispatched : ∃ e ∈ plainRun, e.op.dispatches = true :=
      List.any_eq_true.mp (by decide +kernel)
    obtain ⟨e, hmem, hdispatches⟩ := hdispatched
    obtain ⟨before, after, hsplit⟩ := List.append_of_mem hmem
    obtain ⟨prepared, hop, hready, -⟩ :=
      ((dispatches_ready plainBuild NativeContext.fastContext plainWork).1 plainRun _
        publish_plain).2 before e after hsplit hdispatches
    exact ⟨before, e, after, prepared, hsplit, hop, hready⟩
  · have hdispatched : ∃ e ∈ calmCallRun, e.op.dispatches = true :=
      List.any_eq_true.mp (by decide +kernel)
    obtain ⟨e, hmem, hdispatches⟩ := hdispatched
    obtain ⟨before, after, hsplit⟩ := List.append_of_mem hmem
    obtain ⟨prepared, hop, hready, -⟩ :=
      ((dispatches_ready callBuild NativeContext.fastContext callWork).2 calmCallRun _
        callService_calm).2 before e after hsplit hdispatches
    exact ⟨before, e, after, prepared, hsplit, hop, hready⟩

end Ros2ToolsAdapter
