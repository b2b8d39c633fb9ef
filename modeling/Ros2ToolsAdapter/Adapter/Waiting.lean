import Ros2ToolsAdapter.Adapter.CallService
import Ros2ToolsAdapter.Foundation.Total

/-!
# How long an operation can wait

Both operations wait in polling loops: for a subscriber, for the service, for the response. Nothing
in the code counts their rounds. What ends them is the steady clock, and what ties the clock to the
rounds is that every round pauses for 20 ms.

`Timely` says what is expected of the clock: between two looks at it, it goes on by the pauses that
were asked for, except for `slack` milliseconds by which waits came back early. A wait of a ROS
client may: the service has been found, or the context has been shut down.

Against such a clock an operation always comes back, whatever the other answers are, and the number
of the calls it makes on the way is bounded by the largest wait a request can ask for.
-/

namespace Ros2ToolsAdapter

open Interaction Json

/-! ## The clock -/

/-- The milliseconds a call is asked to pause for. -/
def Call.pauseMs : Call → ℕ
  | .sleepFor milliseconds | .waitForService milliseconds | .waitFor milliseconds => milliseconds
  | _ => 0

/-- The milliseconds the calls of a run were asked to pause for. -/
def pausedMs (run : Run) : ℕ := (run.map fun e ↦ e.op.pauseMs).sum

@[simp] theorem pausedMs_append (s t : Run) : pausedMs (s ++ t) = pausedMs s + pausedMs t := by
  simp [pausedMs]

@[simp] theorem pausedMs_cons (e : CallEvent) (t : Run) :
    pausedMs (e :: t) = e.op.pauseMs + pausedMs t := by
  simp [pausedMs]

@[simp] theorem pausedMs_nil : pausedMs [] = 0 := rfl

/-- The steady clock has gone on by the pauses since an earlier look at it, less the slack. -/
def Timely (slack : ℕ) (h : Run) (e : CallEvent) : Prop :=
  ∀ now, e = ⟨.steadyNow, now⟩ → ∀ before start after,
    h = before ++ ⟨.steadyNow, start⟩ :: after →
      start + ((pausedMs after : ℤ) - slack) * 1000000 ≤ now

/-! ## What is left of a wait -/

/-- The wait until that time began at a look at the clock, and after `k` more rounds of 20 ms its
time is up. -/
def WaitLeft (slack wait : ℕ) (waitUntil : ℤ) (k : ℕ) (h : Run) : Prop :=
  ∃ before start after, h = before ++ ⟨.steadyNow, start⟩ :: after ∧
    waitUntil = start + wait * 1000000 ∧ wait + slack ≤ 20 * k + pausedMs after

section WaitLeft

variable {slack wait k : ℕ} {waitUntil : ℤ} {h : Run}

theorem WaitLeft.start (hk : wait + slack ≤ 20 * k) (h : Run) (start : ℤ) :
    WaitLeft slack wait (start + wait * 1000000) k (h ++ [⟨.steadyNow, start⟩]) :=
  ⟨h, start, [], rfl, rfl, by simpa using hk⟩

theorem WaitLeft.append (hleft : WaitLeft slack wait waitUntil k h) (s : Run) :
    WaitLeft slack wait waitUntil k (h ++ s) := by
  obtain ⟨before, start, after, rfl, huntil, hk⟩ := hleft
  refine ⟨before, start, after ++ s, by simp, huntil, ?_⟩
  rw [pausedMs_append]
  omega

/-- A pause of a round is a round less. -/
theorem WaitLeft.pause (hleft : WaitLeft slack wait waitUntil k h) {s : Run}
    (hs : 20 ≤ pausedMs s) : WaitLeft slack wait waitUntil (k - 1) (h ++ s) := by
  obtain ⟨before, start, after, rfl, huntil, hk⟩ := hleft
  refine ⟨before, start, after ++ s, by simp, huntil, ?_⟩
  rw [pausedMs_append]
  omega

/-- Where the clock shows that there is time left, there is a round left. -/
theorem WaitLeft.pos_of_lt (hleft : WaitLeft slack wait waitUntil k h) {s : Run} {now : ℤ}
    (htimely : Timely slack (h ++ s) ⟨.steadyNow, now⟩) (hnow : now < waitUntil) : 0 < k := by
  obtain ⟨before, start, after, rfl, rfl, hk⟩ := hleft
  have hclock := htimely now rfl before start (after ++ s) (by simp)
  rw [pausedMs_append] at hclock
  omega

end WaitLeft

/-- More than the rounds of the longest wait. -/
def waitRounds (slack : ℕ) : ℕ := (Request.kMaximumWaitMilliseconds + slack) / 20 + 1

private theorem le_waitRounds (slack : ℕ) {wait : ℕ}
    (hwait : wait ≤ Request.kMaximumWaitMilliseconds) : wait + slack ≤ 20 * waitRounds slack := by
  rw [waitRounds]
  omega

/-! ## Calls of the shared blocks -/

section Blocks

open Proc (Takes)

variable {R : Run → CallEvent → Prop} {h : Run}

private theorem takes_callStd {α : Type} (call : Call) (result : call.Answer → Except Str α) :
    Takes R h (callStd call result) 1 fun s _ ↦ ∃ answer, s = [⟨call, answer⟩] :=
  (Takes.invoke call _).mono (Nat.le_refl 1) fun _ _ ⟨answer, hs, _⟩ ↦ ⟨answer, hs⟩

private theorem takes_throwIf {c : Prop} [Decidable c] {e : Exn} :
    Takes R h (throwIf c e : Code Unit) 0 fun s _ ↦ s = [] ∧ ¬ c := by
  rw [throwIf]
  split
  · exact Takes.throw e
  · exact Takes.pure ⟨rfl, ‹_›⟩

private theorem takes_requireNotCancelled (code : String) (message : Str) :
    Takes R h (requireNotCancelled code message) 1 fun _ _ ↦ True :=
  (Takes.perform _).bind (m := 0) fun _ _ _ ↦
    takes_throwIf.mono (Nat.le_refl 0) fun _ _ _ ↦ trivial

private theorem takes_requireBeforeDeadline (context : WorkContext) (code : String)
    (message : Str) : Takes R h (requireBeforeDeadline context code message) 1 fun _ _ ↦ True :=
  (Takes.perform _).bind (m := 0) fun _ _ _ ↦
    takes_throwIf.mono (Nat.le_refl 0) fun _ _ _ ↦ trivial

private theorem takes_loadMessageType (typeName : Str) :
    Takes R h (loadMessageType typeName) 4 fun _ _ ↦ True := by
  refine Takes.bind (n := 4) (m := 0) (P := fun _ _ ↦ True) (Takes.rethrowing ?_ _) ?_
  · refine (takes_callStd _ _).bind (m := 3) fun _ _ _ ↦ ?_
    refine (takes_callStd _ _).bind (m := 2) fun _ _ _ ↦ ?_
    refine (takes_callStd _ _).bind (m := 1) fun _ _ _ ↦ ?_
    exact (takes_callStd _ _).bind (m := 0) fun _ _ _ ↦ Takes.pure trivial
  · rintro _ ⟨introspection, serialization⟩ -
    dsimp only
    split
    · exact Takes.pure trivial
    · exact Takes.throw _

private theorem takes_loadServiceType (typeName : Str) :
    Takes R h (loadServiceType typeName) 2 fun _ _ ↦ True := by
  refine Takes.bind (n := 2) (m := 0) (P := fun _ _ ↦ True) (Takes.rethrowing ?_ _) ?_
  · refine (takes_callStd _ _).bind (m := 1) fun _ _ _ ↦ ?_
    exact (takes_callStd _ _).mono (Nat.le_refl 1) fun _ _ _ ↦ trivial
  · rintro _ introspection -
    split
    · split
      · exact Takes.pure trivial
      · exact Takes.throw _
    · exact Takes.throw _

private theorem takes_admitRequest {α : Type} (build : Build) (native : NativeContext)
    (request : OperationRequest) (endpoint : Endpoint) (flag : Flag) (disabled : Exn)
    (fields : Value → Except Exn α) :
    Takes R h (admitRequest build native request endpoint flag disabled fields) 1
      fun _ a ↦ ∃ input, fields input = .ok a := by
  refine (Takes.perform _).bind (m := 0) fun _ _ _ ↦ ?_
  refine takes_throwIf.bind (m := 0) fun _ _ _ ↦ ?_
  refine Takes.lift.bind (m := 0) fun _ _ _ ↦ ?_
  refine Takes.lift.bind (m := 0) fun _ _ _ ↦ ?_
  refine Takes.lift.bind (m := 0) fun _ input _ ↦ ?_
  exact Takes.lift.mono (Nat.le_refl 0) fun _ a hP ↦ ⟨input, hP.2⟩

end Blocks

/-! ## Publishing -/

section Operations

open Proc (Takes)

variable {slack wait k : ℕ} {waitUntil : ℤ} {h : Run}

private theorem takes_awaitSubscribers (context : WorkContext)
    (hleft : WaitLeft slack wait waitUntil k h) :
    Takes (Timely slack) h (awaitSubscribers context waitUntil) ((k + 1) * 5) fun _ _ ↦ True := by
  refine Takes.whileDo (n := 2) (m := 3) (WaitLeft slack wait waitUntil) hleft ?_
  intro k h hleft
  -- the clock is read in the condition
  have hcond : Takes (Timely slack) h (do
      let count ← callStd .getSubscriptionCount id
      if count = 0 then
        let now ← Proc.perform .steadyNow
        pure (decide (now < waitUntil))
      else
        pure false : Code Bool) 2 fun _ go ↦ go = true → 0 < k := by
    refine (takes_callStd _ _).bind (m := 1) fun s count _ ↦ ?_
    split
    · refine (Takes.perform _).bind (m := 0) fun _ now htimely ↦ Takes.pure fun hgo ↦ ?_
      exact hleft.pos_of_lt htimely.2 (of_decide_eq_true hgo)
    · exact (Takes.pure nofun).mono (Nat.zero_le 1) fun _ _ hP ↦ hP
  refine hcond.mono (Nat.le_refl 2) fun s go hgo hgoes ↦ ?_
  have hpos := hgo hgoes
  refine (takes_requireNotCancelled _ _).bind (m := 2) fun s₁ _ _ ↦ ?_
  refine (takes_requireBeforeDeadline _ _ _).bind (m := 1) fun s₂ _ _ ↦ ?_
  refine (Takes.perform _).mono (Nat.le_refl 1) ?_
  rintro s₃ _ ⟨rfl, -⟩
  refine ⟨k - 1, by omega, hleft.pause ?_⟩
  simp [Call.pauseMs]
  omega

private theorem takes_preparePublish (build : Build) (native : NativeContext)
    (request : OperationRequest) :
    Takes (Timely slack) h (preparePublish build native request)
      (13 + (waitRounds slack + 1) * 5) fun _ _ ↦ True := by
  refine Takes.mono (n := 1 + (1 + (1 + (4 + (0 + (1 + (1 + (1 + ((waitRounds slack + 1) * 5 +
    (1 + (0 + (1 + (1 + 0))))))))))))) (P := fun _ _ ↦ True) ?_ (by omega) fun _ _ _ ↦ trivial
  refine (takes_admitRequest _ _ _ _ _ _ _).bind fun s₀ fields hfields ↦ ?_
  obtain ⟨input, hfields⟩ := hfields
  obtain ⟨_, _, _, _, hmaximum⟩ := (Request.publishFields_eq_ok.mp hfields).waitMs
  refine (takes_requireNotCancelled _ _).bind fun _ _ _ ↦ ?_
  refine (takes_requireBeforeDeadline _ _ _).bind fun _ _ _ ↦ ?_
  refine (takes_loadMessageType _).bind fun _ type _ ↦ ?_
  refine Takes.lift.bind fun _ message _ ↦ ?_
  refine (takes_callStd _ _).bind fun _ serialized _ ↦ ?_
  refine (takes_callStd _ _).bind fun _ _ _ ↦ ?_
  refine (Takes.perform _).bind fun s start hstart ↦ ?_
  obtain ⟨rfl, -⟩ := hstart
  refine (takes_awaitSubscribers _ (WaitLeft.start (le_waitRounds slack hmaximum) _ _)).bind
    fun _ _ _ ↦ ?_
  refine (takes_callStd _ _).bind fun _ count _ ↦ ?_
  refine takes_throwIf.bind fun _ _ _ ↦ ?_
  refine (takes_requireNotCancelled _ _).bind fun _ _ _ ↦ ?_
  refine (takes_requireBeforeDeadline _ _ _).bind fun _ _ _ ↦ ?_
  exact Takes.pure trivial

/-- The calls of a publish operation: 14 and those of one wait. -/
def publishCalls (slack : ℕ) : ℕ := 14 + (waitRounds slack + 1) * 5

private theorem takes_publish (build : Build) (native : NativeContext)
    (request : OperationRequest) : Prog.twp (Timely slack) (publish build native request)
      (fun run _ ↦ run.length ≤ publishCalls slack) [] := by
  have hcalls : 13 + (waitRounds slack + 1) * 5 + (1 + 0) = publishCalls slack := by
    rw [publishCalls]
    omega
  rw [← hcalls]
  refine Takes.catching failure (P := fun _ _ ↦ True) ?_
  refine (takes_preparePublish build native request).bind fun _ prepared _ ↦ ?_
  refine ((takes_callStd _ _).rethrowing _).bind fun _ _ _ ↦ ?_
  exact Takes.lift.mono (Nat.le_refl 0) fun _ _ _ ↦ trivial

/-- **A publish operation comes back.** Against every environment whose steady clock goes on by the
pauses, less the slack, it returns, after no more calls than the longest wait accounts for. -/
theorem publish_ends (build : Build) (native : NativeContext) (request : OperationRequest)
    (slack : ℕ) (env : Run → (call : Call) → call.Answer)
    (htimely : ∀ n, Prog.Guarded (Timely slack)
      (Prog.exec env n (publish build native request) []).1) :
    ∃ n result, (Prog.exec env n (publish build native request) []).2 = .ret result ∧
      (Prog.exec env n (publish build native request) []).1.length ≤ publishCalls slack :=
  Prog.twp_sound (takes_publish build native request) fun n ↦ Prog.kept_nil_iff.mpr (htimely n)

/-! ## Calling a service -/

private theorem takes_awaitService (context : WorkContext)
    (hleft : WaitLeft slack wait waitUntil k h) :
    Takes (Timely slack) h (awaitService context waitUntil) ((k + 1) * 5) fun _ _ ↦ True := by
  refine Takes.whileDo (n := 1) (m := 4) (WaitLeft slack wait waitUntil) hleft ?_
  intro k h hleft
  refine (takes_callStd _ _).bind (m := 0) fun s ready _ ↦ Takes.pure fun _ ↦ ?_
  refine (takes_requireNotCancelled _ _).bind (m := 3) fun s₁ _ _ ↦ ?_
  refine (takes_requireBeforeDeadline _ _ _).bind (m := 2) fun s₂ _ _ ↦ ?_
  refine (Takes.perform _).bind (m := 1) fun s₃ now hnow ↦ ?_
  refine takes_throwIf.bind (m := 1) fun s₄ _ hbefore ↦ ?_
  have hpos : 0 < k := by
    refine hleft.pos_of_lt (s := s ++ [] ++ s₁ ++ s₂) ?_ (not_le.mp hbefore.2)
    simpa using hnow.2
  refine (takes_callStd _ _).bind (m := 0) fun s₅ _ hwait ↦ Takes.pure ?_
  obtain ⟨answer, rfl⟩ := hwait
  refine ⟨k - 1, by omega, hleft.pause ?_⟩
  simp [Call.pauseMs]
  omega

private theorem takes_prepareCall (build : Build) (native : NativeContext)
    (request : OperationRequest) : Takes (Timely slack) h (prepareCall build native request)
      (8 + (waitRounds slack + 1) * 5) fun s prepared ↦
        s.getLast? = some ⟨.steadyNow, prepared.started⟩ ∧
          prepared.fields.callMs ≤ Request.kMaximumWaitMilliseconds := by
  refine Takes.mono (n := 1 + (2 + (0 + (1 + (1 + ((waitRounds slack + 1) * 5 +
    (1 + (1 + (1 + 0)))))))))  ?_ (by omega) fun _ _ hP ↦ hP
  refine (takes_admitRequest _ _ _ _ _ _ _).bind fun s₀ fields hfields ↦ ?_
  obtain ⟨input, hfields⟩ := hfields
  have hread := Request.serviceFields_eq_ok.mp hfields
  obtain ⟨_, _, _, _, hmaximum⟩ := hread.waitMs
  obtain ⟨_, _, _, _, hcallMs⟩ := hread.callMs
  refine (takes_loadServiceType _).bind fun _ type _ ↦ ?_
  refine Takes.lift.bind fun _ message _ ↦ ?_
  refine (takes_callStd _ _).bind fun _ _ _ ↦ ?_
  refine (Takes.perform _).bind fun s start hstart ↦ ?_
  obtain ⟨rfl, -⟩ := hstart
  refine (takes_awaitService _ (WaitLeft.start (le_waitRounds slack hmaximum) _ _)).bind
    fun _ _ _ ↦ ?_
  refine (takes_requireNotCancelled _ _).bind fun _ _ _ ↦ ?_
  refine (takes_requireBeforeDeadline _ _ _).bind fun _ _ _ ↦ ?_
  refine (Takes.perform _).bind fun s started hstarted ↦ Takes.pure ?_
  obtain ⟨rfl, -⟩ := hstarted
  exact ⟨by simp only [List.append_nil, ← List.append_assoc, List.getLast?_concat], hcallMs⟩

private theorem takes_abandonIf {R : Run → CallEvent → Prop} {c : Prop} [Decidable c] {e : Exn} :
    Takes R h (abandonIf c e) 1 fun _ _ ↦ ¬ c := by
  rw [abandonIf]
  split
  · exact (Takes.perform _).bind (m := 0) fun _ _ _ ↦ Takes.throw e
  · exact (Takes.pure ‹_›).mono (Nat.zero_le 1) fun _ _ hP ↦ hP

private theorem takes_responseOverdue (context : WorkContext) (callUntil : ℤ) :
    Takes (Timely slack) h (responseOverdue context callUntil) 2 fun _ overdue ↦
      overdue = false → ∃ steady < callUntil, Timely slack h ⟨.steadyNow, steady⟩ := by
  refine (Takes.perform _).bind (m := 1) fun s steady hsteady ↦ ?_
  split
  · exact (Takes.pure nofun).mono (Nat.zero_le 1) fun _ _ hP ↦ hP
  · rename_i hbefore
    refine (Takes.perform _).bind (m := 0) fun _ _ _ ↦ Takes.pure fun _ ↦ ?_
    exact ⟨steady, not_le.mp hbefore, hsteady.2⟩

/-- Here the pause comes first, in the condition, and the clock is looked at after it. -/
theorem takes_awaitResponse (context : WorkContext) (hleft : WaitLeft slack wait waitUntil k h) :
    Takes (Timely slack) h (awaitResponse context waitUntil) ((k + 1) * 6) fun _ _ ↦ True := by
  refine Takes.whileDo (n := 1) (m := 5) (WaitLeft slack wait waitUntil) hleft ?_
  intro k h hleft
  refine (takes_callStd _ _).bind (m := 0) fun s ready hwait ↦ Takes.pure fun _ ↦ ?_
  obtain ⟨answer, rfl⟩ := hwait
  refine (Takes.perform _).bind (m := 4) fun s₁ _ _ ↦ ?_
  refine takes_abandonIf.bind (m := 3) fun s₂ _ _ ↦ ?_
  refine (takes_responseOverdue _ _).bind (m := 1) fun s₃ overdue hsteady ↦ ?_
  refine takes_abandonIf.mono (Nat.le_refl 1) fun s₄ _ hoverdue ↦ ?_
  obtain ⟨steady, hbefore, htimely⟩ := hsteady (Bool.not_eq_true _ ▸ hoverdue)
  have hpaused := hleft.pause (s := [⟨.waitFor 20, answer⟩] ++ [] ++ s₁ ++ s₂)
    (by simp [Call.pauseMs])
  have hpos : 0 < k - 1 := by
    refine hpaused.pos_of_lt (s := []) ?_ hbefore
    simpa using htimely
  refine ⟨k - 1, by omega, hleft.pause ?_⟩
  simp [Call.pauseMs]

private theorem takes_readResponse {R : Run → CallEvent → Prop} (members : MessageMembers) :
    Takes R h (readResponse members) 1 fun _ _ ↦ True := by
  refine (takes_callStd _ _).bind (m := 0) fun _ response _ ↦ ?_
  cases response with
  | none => exact Takes.throw _
  | some message => exact Takes.lift.mono (Nat.le_refl 0) fun _ _ _ ↦ trivial

/-- The calls of a service call: 11 and those of two waits. -/
def serviceCalls (slack : ℕ) : ℕ := 11 + (waitRounds slack + 1) * 11

private theorem takes_callService (build : Build) (native : NativeContext)
    (request : OperationRequest) : Prog.twp (Timely slack) (callService build native request)
      (fun run _ ↦ run.length ≤ serviceCalls slack) [] := by
  have hcalls : 8 + (waitRounds slack + 1) * 5 +
      (1 + ((waitRounds slack + 1) * 6 + (1 + (1 + 0)))) = serviceCalls slack := by
    rw [serviceCalls]
    omega
  rw [← hcalls]
  refine Takes.catching failure (P := fun _ _ ↦ True) ?_
  refine (takes_prepareCall build native request).bind fun s prepared hprepared ↦ ?_
  obtain ⟨hlast, hcallMs⟩ := hprepared
  obtain ⟨before, rfl⟩ := List.getLast?_eq_some_iff.mp hlast
  -- the time of the call has been running since before the dispatch
  have hleft := WaitLeft.start (le_waitRounds slack hcallMs) before prepared.started
  refine (takes_callStd _ _).bind fun s₁ _ hs₁ ↦ ?_
  refine (takes_awaitResponse _ (hleft.append s₁)).bind fun _ _ _ ↦ ?_
  refine (takes_readResponse _).bind fun _ response _ ↦ ?_
  refine (Takes.perform _).bind fun _ now _ ↦ ?_
  exact Takes.lift.mono (Nat.le_refl 0) fun _ _ _ ↦ trivial

/-- **A service call comes back**, too: neither a service that never becomes ready nor one that
never answers can hold it. -/
theorem callService_ends (build : Build) (native : NativeContext) (request : OperationRequest)
    (slack : ℕ) (env : Run → (call : Call) → call.Answer)
    (htimely : ∀ n, Prog.Guarded (Timely slack)
      (Prog.exec env n (callService build native request) []).1) :
    ∃ n result, (Prog.exec env n (callService build native request) []).2 = .ret result ∧
      (Prog.exec env n (callService build native request) []).1.length ≤ serviceCalls slack :=
  Prog.twp_sound (takes_callService build native request) fun n ↦ Prog.kept_nil_iff.mpr (htimely n)

end Operations

/-! ## A clock that pauses move -/

/-- An environment in which time passes by pauses only, there is no subscriber, and no service ever
becomes ready or answers. -/
def idleEnvironment (h : Run) : (call : Call) → call.Answer
  | .steadyNow => pausedMs h * 1000000
  | .getSubscriptionCount => .ok 0
  | .serviceIsReady => .ok false
  | .waitForService _ => .ok false
  | .waitFor _ => .ok false
  | call => calmEnvironment h call

private theorem idleEnvironment_timely {α : Type} (p : Prog Call Call.Answer α) (n : ℕ) :
    Prog.Guarded (Timely 0) (Prog.exec idleEnvironment n p []).1 := by
  have hanswers := Prog.guarded_exec idleEnvironment n p (Prog.guarded_nil _)
  rintro h e after heq now rfl before start between rfl
  have hpaused : pausedMs (before ++ ⟨.steadyNow, start⟩ :: between) =
      pausedMs before + pausedMs between := by
    simp [Call.pauseMs]
  have hnow : Eq (α := ℤ) now ((pausedMs before + pausedMs between) * 1000000) := by
    rw [← Nat.cast_add, ← hpaused]
    exact hanswers _ _ _ heq
  have hstart : Eq (α := ℤ) start (pausedMs before * 1000000) := by
    refine hanswers before ⟨.steadyNow, start⟩ (between ++ ⟨.steadyNow, now⟩ :: after) ?_
    rw [heq, List.append_assoc, List.cons_append]
  rw [hnow, hstart]
  omega

theorem publish_ends_idle :
    ∃ n result, (Prog.exec idleEnvironment n
        (publish plainBuild NativeContext.fastContext plainWork) []).2 = .ret result ∧
      (Prog.exec idleEnvironment n
        (publish plainBuild NativeContext.fastContext plainWork) []).1.length ≤ publishCalls 0 :=
  publish_ends plainBuild NativeContext.fastContext plainWork 0 idleEnvironment
    (idleEnvironment_timely _)

theorem callService_ends_idle :
    ∃ n result, (Prog.exec idleEnvironment n
        (callService callBuild NativeContext.fastContext callWork) []).2 = .ret result ∧
      (Prog.exec idleEnvironment n
        (callService callBuild NativeContext.fastContext callWork) []).1.length ≤ serviceCalls 0 :=
  callService_ends callBuild NativeContext.fastContext callWork 0 idleEnvironment
    (idleEnvironment_timely _)

end Ros2ToolsAdapter
