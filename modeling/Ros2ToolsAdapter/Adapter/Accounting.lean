import Ros2ToolsAdapter.Adapter.Lifecycle

/-!
# What was handed to ROS, and what was reported

A runtime that retries what it may retry counts on the results: as many messages and requests have
gone to ROS as it holds results that say so. Any number of operations and lifecycle calls may run at
once; `dispatches_accounted` compares what ROS was given under a capability, over the whole history
of the adapter, with the results of the operations of that capability. Nothing is lost and nothing
is sent twice, and what is not accounted for yet is owed by operations still at work, or by service
calls from which an exception got out after the dispatch.
-/

namespace Ros2ToolsAdapter

open Interaction

/-! ## One operation -/

namespace Invocation

/-- The capability of an operation. -/
def capability : Invocation → Option Flag
  | .publish _ => some .publishEnabled
  | .callService _ => some .serviceEnabled
  | _ => none

/-- What an operation returns. -/
def outcome : (k : Invocation) → k.Result → Option OperationResult
  | .publish _, r | .callService _, r => some r
  | .applyInstanceSpec _, _ | .clearInstanceSpec, _ | .startPublishCapability .., _
  | .stopPublishCapability, _ | .startServiceCapability .., _ | .stopServiceCapability, _ => none

end Invocation

/-- The call hands something to ROS under the capability. -/
def handsOver (flag : Flag) (e : CallEvent) : Bool := e.op.capability == some flag

section Threads

variable {build : Build} {native : NativeContext}

/-- The operation has returned, and says that what it was asked for may have happened. -/
def ReportsCommitted (flag : Flag) (t : (toolsAdapter build native).Thread) : Prop :=
  t.invocation.capability = some flag ∧
    ∃ r, t.rest.result?.bind t.invocation.outcome = some r ∧ r.Committed

/-- The operation is at work, or an exception got out of it after the dispatch. -/
def Owes (flag : Flag) (t : (toolsAdapter build native).Thread) : Prop :=
  t.invocation.capability = some flag ∧
    (¬ t.Returned ∨ flag = .serviceEnabled ∧ ¬ Sound t.trace)

private theorem capability_of_harmless {call : Call} (h : call.harmless = true) :
    call.capability = none := by
  cases call <;> first | rfl | cases h

variable (build native) in
/-- Something is handed to ROS by operations only, each under its own capability. -/
theorem capability_guarded : (toolsAdapter build native).Guards fun k _ e ↦
    e.op.capability = none ∨ e.op.capability = k.capability := by
  intro k run rest hrun
  cases k with
  | applyInstanceSpec spec => exact (Prog.wp_sound (applyInstanceSpec_wp (Or.inl rfl)) hrun).1
  | clearInstanceSpec =>
    exact (Prog.wp_sound (clearInstanceSpec_wp (Or.inl rfl) (Or.inl rfl) (Or.inl rfl)) hrun).1
  | startPublishCapability spec grant | startServiceCapability spec grant =>
    exact (Prog.wp_sound (startCapability_wp (fun _ ↦ Or.inl rfl) fun _ _ _ ↦ Or.inl rfl) hrun).1
  | stopPublishCapability | stopServiceCapability =>
    exact (Prog.wp_sound (stop_wp (Or.inl rfl)) hrun).1
  | publish request =>
    refine (publish_guarded build native request hrun).mono fun h e hguard ↦ ?_
    refine hguard.imp capability_of_harmless ?_
    rintro ⟨prepared, hop, -, -⟩
    rw [hop]
    rfl
  | callService request =>
    refine (callService_guarded build native request hrun).mono fun h e hguard ↦ ?_
    refine hguard.imp capability_of_harmless ?_
    rintro ⟨prepared, hop, -, -⟩
    rw [hop]
    rfl

private theorem capability_of_mem {t : (toolsAdapter build native).Thread} {e : CallEvent}
    (he : e ∈ t.trace) {flag : Flag} (hflag : handsOver flag e = true) :
    t.invocation.capability = some flag := by
  have hcapability : e.op.capability = some flag := by simpa [handsOver] using hflag
  obtain ⟨before, after, hsplit⟩ := List.append_of_mem he
  rcases capability_guarded build native _ _ _ t.reaches before e after hsplit with hnone | heq
  · exact nomatch hnone.symm.trans hcapability
  · exact heq.symm.trans hcapability

private theorem dispatches_of_handsOver {flag : Flag} {e : CallEvent}
    (h : handsOver flag e = true) : e.op.dispatches = true := by
  obtain ⟨call, answer⟩ := e
  cases call <;> first | rfl | simp [handsOver, Call.capability] at h

/-- An operation hands over once at most. -/
theorem countP_handsOver_le_one (flag : Flag) (t : (toolsAdapter build native).Thread) :
    t.trace.countP (handsOver flag) ≤ 1 := by
  by_cases hflag : t.invocation.capability = some flag
  · refine (List.countP_mono_left fun e _ ↦ dispatches_of_handsOver).trans ?_
    obtain ⟨k, trace, rest, hreaches⟩ := t
    cases k with
    | publish request =>
      refine countP_dispatches_le_one ((publish_guarded build native request hreaches).mono ?_)
      intro h e hguard hdispatches
      obtain ⟨-, -, -, hquiet⟩ := hguard.ready hdispatches
      exact not_dispatched_of_stays hquiet.stays
    | callService request =>
      refine countP_dispatches_le_one ((callService_guarded build native request hreaches).mono ?_)
      intro h e hguard hdispatches
      obtain ⟨-, -, -, hquiet⟩ := hguard.ready hdispatches
      exact not_dispatched_of_stays hquiet.stays
    | _ => cases hflag
  · have hnone : t.trace.countP (handsOver flag) = 0 :=
      List.countP_eq_zero.mpr fun e he hover ↦ hflag (capability_of_mem he hover)
    omega

private theorem published_iff_handsOver {run : Run} :
    Published run ↔ ∃ e ∈ run, handsOver .publishEnabled e = true := by
  constructor
  · rintro ⟨serialized, answer, hmem⟩
    exact ⟨_, hmem, rfl⟩
  · rintro ⟨⟨call, answer⟩, hmem, hover⟩
    cases call with
    | publish serialized => exact ⟨serialized, answer, hmem⟩
    | _ => simp [handsOver, Call.capability] at hover

private theorem requested_iff_handsOver {run : Run} :
    Requested run ↔ ∃ e ∈ run, handsOver .serviceEnabled e = true := by
  constructor
  · rintro ⟨members, request, answer, hmem⟩
    exact ⟨_, hmem, rfl⟩
  · rintro ⟨⟨call, answer⟩, hmem, hover⟩
    cases call with
    | asyncSendRequest members request => exact ⟨members, request, answer, hmem⟩
    | _ => simp [handsOver, Call.capability] at hover

/-- What a result that was returned says about the hand-over. -/
theorem outcome_of_returned {flag : Flag} {t : (toolsAdapter build native).Thread}
    {r : OperationResult} (hflag : t.invocation.capability = some flag)
    (hr : t.rest.result?.bind t.invocation.outcome = some r) :
    (r.Committed → ∃ e ∈ t.trace, handsOver flag e = true) ∧
      ((∃ e ∈ t.trace, handsOver flag e = true) →
        r.Committed ∨ flag = .serviceEnabled ∧ ¬ Sound t.trace) := by
  obtain ⟨result, hresult, houtcome⟩ := Option.bind_eq_some_iff.mp hr
  have hreturns := System.Thread.returns hresult
  obtain ⟨k, trace, rest, hreaches⟩ := t
  cases k with
  | publish request =>
    obtain rfl := Option.some.inj hflag
    obtain rfl := Option.some.inj houtcome
    have hcommitted := Prog.wp_returns (publish_wp build native request) hreturns
    rw [← published_iff_handsOver]
    exact ⟨hcommitted.mp, fun hpublished ↦ Or.inl (hcommitted.mpr hpublished)⟩
  | callService request =>
    obtain rfl := Option.some.inj hflag
    obtain rfl := Option.some.inj houtcome
    rw [← requested_iff_handsOver]
    rcases Prog.wp_returns (callService_wp build native request) hreturns with
      ⟨hrequested, hcommitted⟩ | ⟨hrequested, -, hcommitted⟩
    · refine ⟨fun _ ↦ hrequested, fun _ ↦ ?_⟩
      by_cases hsound : Sound trace
      · exact Or.inl (hcommitted.mpr hsound)
      · exact Or.inr ⟨rfl, hsound⟩
    · exact ⟨fun h ↦ absurd h hcommitted, fun h ↦ absurd h hrequested⟩
  | _ => cases hflag

private theorem reports_or_owes {flag : Flag} {t : (toolsAdapter build native).Thread}
    (h : ∃ e ∈ t.trace, handsOver flag e = true) : ReportsCommitted flag t ∨ Owes flag t := by
  obtain ⟨e, he, hover⟩ := h
  have hflag := capability_of_mem he hover
  cases hr : t.rest.result?.bind t.invocation.outcome with
  | some r =>
    rcases (outcome_of_returned hflag hr).2 ⟨e, he, hover⟩ with hcommitted | hunsound
    · exact Or.inl ⟨hflag, r, hr, hcommitted⟩
    · exact Or.inr ⟨hflag, Or.inr hunsound⟩
  | none =>
    refine Or.inr ⟨hflag, Or.inl fun hreturned ↦ ?_⟩
    obtain ⟨result, hresult⟩ := Option.isSome_iff_exists.mp hreturned
    rw [hresult, Option.bind_some] at hr
    -- an operation returns an outcome
    obtain ⟨k, trace, rest, hreaches⟩ := t
    cases k with
    | publish | callService => cases hr
    | _ => cases hflag

end Threads

/-! ## All of them -/

section Accounting

variable {build : Build} {native : NativeContext}

open scoped Classical in
/-- **What went to ROS is accounted for.** In every state that is reached, by whatever calls at
once, there are at least as many hand-overs under a capability as results that say so, and at most
as many more as there are operations that owe one. -/
theorem dispatches_accounted {c : (toolsAdapter build native).Config}
    (hrun : System.Reachable (constructed build native) c) (flag : Flag) :
    c.threads.countP (fun t ↦ ReportsCommitted flag t) ≤
        c.history.countP (fun ie ↦ handsOver flag ie.2) ∧
      c.history.countP (fun ie ↦ handsOver flag ie.2) ≤
        c.threads.countP (fun t ↦ ReportsCommitted flag t) +
          c.threads.countP (fun t ↦ Owes flag t) := by
  have hhistory : c.history.countP (fun ie ↦ handsOver flag ie.2) =
      (c.threads.flatMap System.Thread.trace).countP (handsOver flag) := by
    rw [← (System.history_perm hrun).countP_eq, List.countP_map]
    rfl
  rw [hhistory]
  constructor
  · refine System.countP_le_countP_flatMap ?_
    rintro t - ⟨hflag, r, hr, hcommitted⟩
    exact List.countP_pos_iff.mpr ((outcome_of_returned hflag hr).1 hcommitted)
  · refine System.countP_flatMap_le_add (fun t _ ↦ countP_handsOver_le_one flag t)
      fun t _ hworth ↦ ?_
    exact reports_or_owes (List.countP_pos_iff.mp hworth)

end Accounting

open scoped Classical in
theorem dispatches_accounted_staleDispatch :
    ∃ c : fastAdapter.Config, System.Reachable (constructed _ _) c ∧
      c.history.countP (fun ie ↦ handsOver .publishEnabled ie.2) = 1 ∧
        1 ≤ c.threads.countP (fun t ↦ ReportsCommitted .publishEnabled t) +
          c.threads.countP (fun t ↦ Owes .publishEnabled t) := by
  have hstate : ∃ c : fastAdapter.Config, System.Reachable (constructed _ _) c ∧
      c.history.countP (fun ie ↦ handsOver .publishEnabled ie.2) = 1 :=
    ⟨fastState (staleDispatch ++ [.step 2]), reachable_fastState _, by decide +kernel⟩
  obtain ⟨c, hrun, hone⟩ := hstate
  exact ⟨c, hrun, hone, hone ▸ (dispatches_accounted hrun .publishEnabled).2⟩

end Ros2ToolsAdapter
