import Ros2ToolsAdapter.Adapter.Configuration
import Ros2ToolsAdapter.Process.Main

/-!
# How the process starts and ends

Two calls of `main` depend on everything before them. `rclcpp::init` reads the environment, so the
environment must say what the context says by then. The executor thread must not be left joinable by
an exception, so it is spawned last. `MainGuard` is what is known at these calls, and `Ends` lists
the ways in which a run can end; both are read off one weakest precondition, `main_wp`.
-/

namespace Ros2ToolsAdapter.Process

open Interaction

/-! ## The environment -/

/-- The variables of a process. -/
abbrev Environ := Str → Option Str

namespace Environ

/-- What a call makes of the variables. -/
def step (vars : Environ) : CallEvent → Environ
  | ⟨.setenv name value, .ok _⟩ => Function.update vars name (some value)
  | ⟨.unsetenv name, .ok _⟩ => Function.update vars name none
  | _ => vars

def after (vars : Environ) (run : Run) : Environ := run.foldl step vars

/-- The variables as they are for a context, all others unchanged. -/
def configured (vars : Environ) (native : NativeContext) : Environ :=
  Function.update
    (Function.update vars "ROS_DOMAIN_ID" (some (Str.ofNat native.domainId))) "RMW_IMPLEMENTATION"
    (if native.rmwImplementation = [] then none else some native.rmwImplementation)

end Environ

/-- The call that puts the middleware of a context into the environment. -/
def rmwEvent (native : NativeContext) : CallEvent :=
  if native.rmwImplementation = [] then ⟨.unsetenv "RMW_IMPLEMENTATION", .ok ()⟩
  else ⟨.setenv "RMW_IMPLEMENTATION" native.rmwImplementation, .ok ()⟩

/-! ## What has happened -/

/-- The executor thread has been spawned. -/
def Spawned (run : Run) : Prop := ⟨.spawnExecutorThread, .ok ()⟩ ∈ run

/-- It has been joined. -/
def Joined (run : Run) : Prop := ⟨.joinExecutorThread, .ok ()⟩ ∈ run

/-- The bootstrap has been read, and the environment is that of the context it configures. -/
structure Configured (build : Build) (argv : List Str) (config : RuntimeConfig)
    (native : NativeContext) (run : Run) : Prop where
  context : NativeContext.fromInstanceSpec build config.initialSpec = .ok native
  calls : ∃ program path : Str, argv = [program, "--adapter-bootstrap-file", path] ∧ path ≠ [] ∧
    run = [⟨.fromBootstrapFile path, .ok config⟩,
      ⟨.setenv "ROS_DOMAIN_ID" (Str.ofNat native.domainId), .ok ()⟩, rmwEvent native]

/-- The node is up, both capabilities are bound, and the runtime has accepted the session, all in
this order. -/
structure Booted (build : Build) (argv : List Str) (native : NativeContext) (run : Run) :
    Prop where
  calls : ∃ config configuring binds bound started,
    Configured build argv config native configuring ∧
    Bound build.contract (some config.client) true binds bound ∧ bound.accepted = true ∧
    started.accepted = true ∧
    run = configuring ++ [⟨.rclcppInit native.domainId, .ok ()⟩,
      ⟨.makeNode "xgc_ros2_tools_adapter", .ok ()⟩, ⟨.makeExecutor 4, .ok ()⟩,
      ⟨.addNode, .ok ()⟩] ++ bindEmbedding.trace binds ++
      [⟨.signal .sigint .handleSignal, ()⟩, ⟨.signal .sigterm .handleSignal, ()⟩,
        ⟨.makeClient { config with dispatchWorkers := 16 } callbacks, .ok ()⟩,
        ⟨.runtimeStart, .ok started⟩]

/-- What is known at the two calls that depend on what was called before; the flags are for others
to set. -/
def MainGuard (build : Build) (argv : List Str) (h : Run) (e : CallEvent) : Prop :=
  match e.op with
  | .rclcppInit domainId => ∃ config native, Configured build argv config native h ∧
      domainId = native.domainId
  | .spawnExecutorThread => ∃ native, Booted build argv native h
  | .store .. => False
  | _ => True

/-- The call has to do with the executor thread. -/
def Call.handlesThread : Call → Bool
  | .spawnExecutorThread | .joinExecutorThread => true
  | _ => false

def Call.spawns : Call → Bool
  | .spawnExecutorThread => true
  | _ => false

private theorem Call.spawns_eq_false {call : Call} (h : call.handlesThread = false) :
    call.spawns = false := by
  cases call <;> first | rfl | exact nomatch h

/-- There is no executor thread so far. -/
def Threadless (run : Run) : Prop := ∀ e ∈ run, e.op.handlesThread = false

theorem Threadless.concat {run : Run} {e : CallEvent} (h : Threadless run)
    (he : e.op.handlesThread = false) : Threadless (run ++ [e]) := by
  intro e' he'
  rcases List.mem_append.mp he' with hmem | hmem
  · exact h e' hmem
  · rwa [List.mem_singleton.mp hmem]

private theorem Threadless.not_spawned {run : Run} (h : Threadless run) : ¬ Spawned run :=
  fun hmem ↦ Bool.false_ne_true (h _ hmem).symm

private theorem Threadless.not_joined {run : Run} (h : Threadless run) : ¬ Joined run :=
  fun hmem ↦ Bool.false_ne_true (h _ hmem).symm

private theorem Threadless.spawned_append {tail : Run} (h : Threadless tail) (run : Run) :
    Spawned (run ++ tail) ↔ Spawned run :=
  List.mem_append.trans (or_iff_left h.not_spawned)

private theorem Threadless.joined_append {tail : Run} (h : Threadless tail) (run : Run) :
    Joined (run ++ tail) ↔ Joined run :=
  List.mem_append.trans (or_iff_left h.not_joined)

private theorem handlesThread_rmwEvent (native : NativeContext) :
    (rmwEvent native).op.handlesThread = false := by
  rw [rmwEvent]
  split <;> rfl

theorem Configured.threadless {build : Build} {argv : List Str} {config : RuntimeConfig}
    {native : NativeContext} {run : Run} (h : Configured build argv config native run) :
    Threadless run := by
  obtain ⟨_, _, -, -, rfl⟩ := h.calls
  intro e he
  simp only [List.mem_cons, List.not_mem_nil, or_false] at he
  rcases he with rfl | rfl | rfl
  · rfl
  · rfl
  · exact handlesThread_rmwEvent native

theorem Booted.threadless {build : Build} {argv : List Str} {native : NativeContext} {run : Run}
    (h : Booted build argv native run) : Threadless run := by
  obtain ⟨config, configuring, binds, bound, started, hconfigured, -, -, -, rfl⟩ := h.calls
  intro e he
  simp only [List.mem_append, List.mem_cons, List.not_mem_nil, or_false] at he
  rcases he with ((he | rfl | rfl | rfl | rfl) | he) | rfl | rfl | rfl | rfl
  · exact hconfigured.threadless e he
  all_goals first | rfl | skip
  obtain ⟨e', -, rfl⟩ := List.mem_map.mp he
  rfl

/-! ## How a run ends -/

/-- The arguments ask for help, and it has been given. -/
def Helped (argv : List Str) (run : Run) : Prop :=
  (∃ program flag : Str, argv = [program, flag] ∧ (flag = "--help" ∨ flag = "-h")) ∧
    run = [⟨.writeOut usage, ()⟩]

/-- What is known of the run that an interrupt cuts short. -/
def Interrupted (argv : List Str) (run : Run) : Interrupt → Prop
  | .exception _ => Spawned run → Joined run
  | .exit code => Helped argv run ∧ code = 0
  | .terminate => Spawned run ∧ ¬ Joined run

/-- One round of the wait that went on: ROS is up and nobody has asked the process to stop. -/
def StopRound (s : Run) : Prop :=
  s = [⟨.rclcppOk, .ok true⟩, ⟨.load .stopRequested, false⟩, ⟨.sleepFor 50, ()⟩]

/-- The last look of the wait: ROS is down, or the process is to stop. -/
def StopExit (s : Run) : Prop :=
  s = [⟨.rclcppOk, .ok false⟩] ∨ s = [⟨.rclcppOk, .ok true⟩, ⟨.load .stopRequested, true⟩]

/-- The process was booted, waited, and has shut the session and the executor down. -/
def Served (build : Build) (argv : List Str) (run : Run) : Prop :=
  ∃ native before rounds exit, Booted build argv native before ∧ (∀ r ∈ rounds, StopRound r) ∧
    StopExit exit ∧
    run = before ++ [⟨.spawnExecutorThread, .ok ()⟩, ⟨.log Handler.adapterLogger .info
        "XGC2 ROS2 Tools Adapter is ready", .ok ()⟩] ++ List.flatten rounds ++ exit ++
      [⟨.runtimeStop, .ok ()⟩, ⟨.executorCancel, .ok ()⟩, ⟨.joinExecutorThread, .ok ()⟩]

/-- The run came to the end of the `try` block with this exit code. -/
def Finished (build : Build) (argv : List Str) (run : Run) (code : ℕ) : Prop :=
  ∃ served lost, Served build argv served ∧ code = (if lost = true then 2 else 0) ∧
    run = served ++ [⟨.removeNode, .ok ()⟩, ⟨.rclcppShutdown, .ok ()⟩, ⟨.load .sessionLost, lost⟩]

/-- What is written about an exception. -/
def reportText (e : Exn) : Str := "xgc_ros2_tools_adapter: " ++ e.what ++ "\n"

/-- The ways in which a run of `main` ends. -/
inductive Ends (build : Build) (argv : List Str) : Run → Outcome → Prop
  | helped {run : Run} : Helped argv run → Ends build argv run (.exited 0)
  | finished {run : Run} {code : ℕ} : Finished build argv run code →
      Ends build argv run (.returned code)
  | reported {before : Run} {e : Exn} : (Spawned before → Joined before) →
      Ends build argv (before ++ [⟨.writeErr (reportText e), ()⟩, ⟨.rclcppOk, .ok false⟩])
        (.returned 1)
  | reportedAndShutDown {before : Run} {e : Exn} : (Spawned before → Joined before) →
      Ends build argv (before ++ [⟨.writeErr (reportText e), ()⟩, ⟨.rclcppOk, .ok true⟩,
        ⟨.rclcppShutdown, .ok ()⟩]) (.returned 1)
  /-- The thread was destroyed joinable. -/
  | abandoned {run : Run} : Spawned run → ¬ Joined run → Ends build argv run .terminated
  /-- The handler of `main` threw. -/
  | escaped {before : Run} {e : Exn} {what : Str} : (Spawned before → Joined before) →
      Ends build argv (before ++ [⟨.writeErr (reportText e), ()⟩, ⟨.rclcppOk, .error what⟩])
        .terminated
  | escapedShutDown {before : Run} {e : Exn} {what : Str} : (Spawned before → Joined before) →
      Ends build argv (before ++ [⟨.writeErr (reportText e), ()⟩, ⟨.rclcppOk, .ok true⟩,
        ⟨.rclcppShutdown, .error what⟩]) .terminated

/-! ## Every run -/

section Rules

variable {I : Run → CallEvent → Prop} {h : Run} {α : Type} {Q : Run → α → Prop}
  {E : Run → Interrupt → Prop}

/-- A call of a library that throws, or returns. -/
theorem wp_callStd {call : Call} {result : call.Answer → Except Str α}
    (hguard : ∀ answer, I h ⟨call, answer⟩)
    (hthrow : ∀ answer what, result answer = .error what →
      E (h ++ [⟨call, answer⟩]) (.exception (.std what)))
    (hreturn : ∀ answer a, result answer = .ok a → Q (h ++ [⟨call, answer⟩]) a) :
    Proc.wp I (callStd call result) Q E h := by
  rw [callStd, Proc.wp_invoke]
  intro answer
  refine ⟨hguard answer, ?_⟩
  cases hresult : result answer with
  | ok a => exact hreturn answer a hresult
  | error what => exact hthrow answer what hresult

/-- A call of the startup: it throws while there is no thread. -/
theorem wp_starting {argv : List Str} {call : Call} {result : call.Answer → Except Str α}
    (hh : Threadless h) (hcall : call.handlesThread = false)
    (hguard : ∀ answer, I h ⟨call, answer⟩)
    (hreturn : ∀ answer a, result answer = .ok a → Threadless (h ++ [⟨call, answer⟩]) →
      Q (h ++ [⟨call, answer⟩]) a) :
    Proc.wp I (callStd call result) Q (Interrupted argv) h := by
  refine wp_callStd hguard ?_ fun answer a ha ↦ hreturn answer a ha (hh.concat hcall)
  intro answer what _ hspawned
  exact absurd hspawned (hh.concat hcall).not_spawned

private theorem wp_raise {argv : List Str} {what : Str} (hh : Threadless h) :
    Proc.wp I (raise what : Code α) Q (Interrupted argv) h :=
  fun hspawned ↦ absurd hspawned hh.not_spawned

end Rules

section Main

variable {build : Build} {argv : List Str} {h : Run}

theorem parseBootstrapPath_wp : Proc.wp (MainGuard build argv) (parseBootstrapPath argv)
    (fun h path ↦ h = [] ∧ path ≠ [] ∧
      ∃ program : Str, argv = [program, "--adapter-bootstrap-file", path])
    (Interrupted argv) [] := by
  have hbare : Threadless [] := by simp [Threadless]
  unfold parseBootstrapPath
  split
  · rename_i program flag
    refine (Proc.wp_ite _ _ _).mpr ⟨fun hhelp ↦ ?_, fun _ ↦ wp_raise hbare⟩
    rw [Proc.wp_bind, Proc.wp_perform]
    exact fun _ ↦ ⟨trivial, ⟨⟨program, flag, rfl, hhelp⟩, rfl⟩, rfl⟩
  · rename_i program flag path
    refine (Proc.wp_ite _ _ _).mpr ⟨?_, fun _ ↦ wp_raise hbare⟩
    rintro ⟨rfl, hpath⟩
    exact ⟨rfl, hpath, program, rfl⟩
  · exact wp_raise hbare

/-- A context is spelled without zero bytes, so the C interface sees its middleware whole. -/
theorem cString_rmwImplementation {spec : AdapterInstanceSpec} {native : NativeContext}
    (h : NativeContext.fromInstanceSpec build spec = .ok native) :
    Str.cString native.rmwImplementation = native.rmwImplementation := by
  simp only [NativeContext.fromInstanceSpec, Except.bind_eq_ok, throwIf_eq_ok, exists_const] at h
  obtain ⟨_, -, -, _, -, _, -, _, -, _, -, rmw, -, hcheck, scope, -, -, hnative⟩ := h
  obtain rfl := Except.ok.inj hnative
  have hover : (1 + Request.identifier).Over Request.IsPlain :=
    ⟨trivial, NativeContext.identifier_over⟩
  have hplain := hover.forall_mem (NativeContext.rmwCheck_iff.mp hcheck).1
  exact Str.cString_eq_self.mpr fun hzero ↦ absurd (hplain 0 hzero).1 (by decide)

/-- A variable is put into the environment, or taken out of it. -/
theorem setEnvironment_wp {name value : Str} {Q : Run → Unit → Prop} (hh : Threadless h)
    (hunset : value = [] → Q (h ++ [⟨.unsetenv name, .ok ()⟩]) ())
    (hset : value ≠ [] → Q (h ++ [⟨.setenv name (Str.cString value), .ok ()⟩]) ()) :
    Proc.wp (MainGuard build argv) (setEnvironment name value) Q (Interrupted argv) h := by
  have hdone {result : Except Str Unit} {text : Str → Str} {u : Unit}
      (hresult : result.mapError text = .ok u) : result = .ok () := by
    cases result with
    | ok u => rfl
    | error e => cases hresult
  refine (Proc.wp_ite _ _ _).mpr ⟨fun hempty ↦ ?_, fun hvalue ↦ ?_⟩
  · refine wp_starting hh rfl (fun _ ↦ trivial) fun answer _ hanswer _ ↦ ?_
    obtain rfl := hdone hanswer
    exact hunset hempty
  · refine wp_starting hh rfl (fun _ ↦ trivial) fun answer _ hanswer _ ↦ ?_
    obtain rfl := hdone hanswer
    exact hset hvalue

/-- The bootstrap is read before anything else is done. -/
theorem configure_wp {Q : Run → NativeContext → Prop} {rest : RuntimeConfig → NativeContext →
      Code NativeContext} {path : Str} (hpath : path ≠ [])
    (hargv : ∃ program : Str, argv = [program, "--adapter-bootstrap-file", path])
    (hrest : ∀ h config native, Configured build argv config native h →
      Proc.wp (MainGuard build argv) (rest config native) Q (Interrupted argv) h) :
    Proc.wp (MainGuard build argv) (do
      let config ← callStd (.fromBootstrapFile path) id
      let native ← liftM ((NativeContext.fromInstanceSpec build config.initialSpec).mapError
        Interrupt.exception)
      applyEnvironment native
      rest config native) Q (Interrupted argv) [] := by
  have hbare : Threadless [] := by simp [Threadless]
  rw [Proc.wp_bind]
  refine wp_starting hbare rfl (fun _ ↦ trivial) fun answer config hconfig hread ↦ ?_
  obtain rfl : answer = .ok config := hconfig
  rw [Proc.wp_bind, Proc.wp_lift]
  cases hcontext : NativeContext.fromInstanceSpec build config.initialSpec with
  | error e => exact fun hspawned ↦ absurd hspawned hread.not_spawned
  | ok native =>
    show Proc.wp _ (applyEnvironment native >>= fun _ ↦ rest config native) _ _ _
    rw [Proc.wp_bind, applyEnvironment, Proc.wp_bind]
    refine setEnvironment_wp hread (fun hempty ↦ absurd hempty (Str.ofNat_ne_nil _)) fun _ ↦ ?_
    have hdomain : Threadless ([⟨.fromBootstrapFile path, .ok config⟩] ++
        [⟨.setenv "ROS_DOMAIN_ID" (Str.cString (Str.ofNat native.domainId)), .ok ()⟩]) :=
      hread.concat rfl
    rw [Str.cString_ofNat] at hdomain ⊢
    have hconfigured (rmw : CallEvent) (hrmw : rmw = rmwEvent native) :
        Proc.wp (MainGuard build argv) (rest config native) Q (Interrupted argv)
          ([⟨.fromBootstrapFile path, .ok config⟩] ++
            [⟨.setenv "ROS_DOMAIN_ID" (Str.ofNat native.domainId), .ok ()⟩] ++ [rmw]) := by
      obtain ⟨program, rfl⟩ := hargv
      refine hrest _ config native ⟨hcontext, program, path, rfl, hpath, ?_⟩
      rw [hrmw]
      rfl
    refine setEnvironment_wp hdomain (fun hempty ↦ ?_) fun hrmw ↦ ?_
    · exact hconfigured _ (if_pos hempty).symm
    · rw [cString_rmwImplementation hcontext]
      exact hconfigured _ (if_neg hrmw).symm

theorem bind_wp (hids : build.contract.kPublish.capabilityId ≠ build.contract.kService.capabilityId)
    {config : RuntimeConfig} {Q : Run → Acceptance → Prop}
    (hQ : ∀ binds bound, Bound build.contract (some config.client) true binds bound →
      Q (h ++ bindEmbedding.trace binds) bound) :
    Proc.wp (MainGuard build argv) (Proc.lift ((bindCapabilities build.contract
      (some config.client) true).embed bindEmbedding)) Q (Interrupted argv) h := by
  have hbinds : Prog.wp (ConfigGuard build.contract (some config.client))
      (bindCapabilities build.contract (some config.client) true)
      (Bound build.contract (some config.client) true) [] := bindCapabilities_wp hids
  have hembed := Prog.wp_embed bindEmbedding hbinds h
  rw [Embedding.trace_nil, List.append_nil] at hembed
  refine Proc.wp_lift_prog.mpr (Prog.wp_mono ?_ (Prog.wp_guard_mono ?_ hembed))
  · rintro _ bound ⟨binds, rfl, hbound⟩
    exact hQ binds bound hbound
  · rintro h' _ ⟨s, e, -, rfl, -⟩
    trivial

private theorem threadless_binds (hh : Threadless h) (binds : Trace BindCall BindCall.Answer) :
    Threadless (h ++ bindEmbedding.trace binds) := by
  intro e he
  rcases List.mem_append.mp he with hmem | hmem
  · exact hh e hmem
  · obtain ⟨e', -, rfl⟩ := List.mem_map.mp hmem
    rfl

theorem startup_wp
    (hids : build.contract.kPublish.capabilityId ≠ build.contract.kService.capabilityId) :
    Proc.wp (MainGuard build argv) (startup build argv)
      (fun h native ↦ Booted build argv native h) (Interrupted argv) [] := by
  rw [startup, Proc.wp_bind]
  refine Proc.wp_mono ?_ (fun _ _ he ↦ he) parseBootstrapPath_wp
  rintro _ path ⟨rfl, hpath, hargv⟩
  refine configure_wp hpath hargv fun configuring config native hconfigured ↦ ?_
  rw [Proc.wp_bind]
  refine wp_starting hconfigured.threadless rfl (fun _ ↦ ⟨config, native, hconfigured, rfl⟩)
    fun _ _ hinit h₁ ↦ ?_
  rw [Proc.wp_bind]
  refine wp_starting h₁ rfl (fun _ ↦ trivial) fun _ _ hnode h₂ ↦ ?_
  rw [Proc.wp_bind]
  refine wp_starting h₂ rfl (fun _ ↦ trivial) fun _ _ hexecutor h₃ ↦ ?_
  rw [Proc.wp_bind]
  refine wp_starting h₃ rfl (fun _ ↦ trivial) fun _ _ hadd h₄ ↦ ?_
  rw [Proc.wp_bind, constructToolsAdapter, if_neg (by decide), Proc.wp_pure, Proc.wp_bind]
  refine bind_wp hids fun binds bound hbound ↦ ?_
  have h₅ := threadless_binds h₄ binds
  refine (Proc.wp_ite _ _ _).mpr ⟨fun _ ↦ wp_raise h₅, fun haccepted ↦ ?_⟩
  rw [Proc.wp_bind, Proc.wp_perform]
  refine fun _ ↦ ⟨trivial, ?_⟩
  rw [Proc.wp_bind, Proc.wp_perform]
  refine fun _ ↦ ⟨trivial, ?_⟩
  rw [Proc.wp_bind]
  refine wp_starting ((h₅.concat rfl).concat rfl) rfl (fun _ ↦ trivial) fun _ _ hclient h₆ ↦ ?_
  rw [Proc.wp_bind]
  refine wp_starting h₆ rfl (fun _ ↦ trivial) fun _ started hstart h₇ ↦ ?_
  refine (Proc.wp_ite _ _ _).mpr ⟨fun _ ↦ wp_raise h₇, fun hstarted ↦ ?_⟩
  rw [Bool.not_eq_false] at haccepted hstarted
  refine ⟨config, configuring, binds, bound, started, hconfigured, hbound, haccepted, hstarted, ?_⟩
  obtain rfl := hinit
  obtain rfl := hnode
  obtain rfl := hexecutor
  obtain rfl := hadd
  obtain rfl := hclient
  obtain rfl := hstart
  simp only [List.append_assoc, List.cons_append, List.nil_append]

/-- The executor thread runs and has not been joined. -/
def Running (run : Run) : Prop := Spawned run ∧ ¬ Joined run

theorem Running.concat {run : Run} (h : Running run) {e : CallEvent}
    (he : e ≠ ⟨.joinExecutorThread, .ok ()⟩) : Running (run ++ [e]) := by
  refine ⟨List.mem_append_left _ h.1, ?_⟩
  intro hjoined
  rcases List.mem_append.mp hjoined with hmem | hmem
  · exact h.2 hmem
  · exact he (List.mem_singleton.mp hmem).symm

/-- An exception on its way out of the scope of the thread. -/
def Unwinding (run : Run) (interrupt : Interrupt) : Prop :=
  Running run ∧ ∃ e, interrupt = .exception e

/-- A call while the thread is joinable: it ends the process, or returns. -/
theorem wp_running {α : Type} {call : Call} {result : call.Answer → Except Str α}
    {Q : Run → α → Prop} (hh : Running h) (hcall : call ≠ .joinExecutorThread)
    (hguard : ∀ answer, MainGuard build argv h ⟨call, answer⟩)
    (hreturn : ∀ answer a, result answer = .ok a → Running (h ++ [⟨call, answer⟩]) →
      Q (h ++ [⟨call, answer⟩]) a) :
    Proc.wp (MainGuard build argv) (callStd call result) Q Unwinding h := by
  have hne (answer : call.Answer) :
      (⟨call, answer⟩ : CallEvent) ≠ ⟨.joinExecutorThread, .ok ()⟩ :=
    fun heq ↦ hcall (congrArg Event.op heq)
  exact wp_callStd hguard (fun answer _ _ ↦ ⟨hh.concat (hne answer), _, rfl⟩)
    fun answer a ha ↦ hreturn answer a ha (hh.concat (hne answer))

theorem awaitStop_wp (hh : Running h) : Proc.wp (MainGuard build argv) awaitStop
    (fun h' _ ↦ Running h' ∧ ∃ rounds exit, h' = h ++ List.flatten rounds ++ exit ∧
      (∀ r ∈ rounds, StopRound r) ∧ StopExit exit) Unwinding h := by
  -- the invariant: since entry there have been finished rounds and nothing else
  refine Proc.wp_whileDo (fun h' ↦ Running h' ∧ ∃ rounds, h' = h ++ List.flatten rounds ∧
    ∀ r ∈ rounds, StopRound r) ⟨hh, [], by simp, by simp⟩ ?_
  rintro _ ⟨hrunning, rounds, rfl, hrounds⟩
  rw [Proc.wp_bind]
  refine wp_running hrunning (by simp) (fun _ ↦ trivial) fun answer ok hok h₁ ↦ ?_
  obtain rfl : answer = .ok ok := hok
  refine (Proc.wp_ite _ _ _).mpr ⟨?_, fun hdown ↦ ?_⟩
  · rintro rfl
    rw [Proc.wp_bind, Proc.wp_perform]
    intro stop
    have h₂ := h₁.concat (e := ⟨.load .stopRequested, stop⟩) (by simp)
    refine ⟨trivial, fun hgoes ↦ ?_, fun hstops ↦ ?_⟩
    · obtain rfl : stop = false := by simpa using hgoes
      refine fun _ ↦ ⟨trivial, h₂.concat (by simp), rounds ++ [[⟨.rclcppOk, .ok true⟩,
        ⟨.load .stopRequested, false⟩, ⟨.sleepFor 50, ()⟩]], ?_, ?_⟩
      · rw [List.flatten_append, List.flatten_singleton, List.append_assoc, List.append_assoc,
          List.append_assoc]
        rfl
      · intro r hr
        rcases List.mem_append.mp hr with hr | hr
        · exact hrounds r hr
        · exact List.mem_singleton.mp hr
    · obtain rfl : stop = true := by simpa using hstops
      exact ⟨h₂, rounds, _, List.append_assoc _ _ _, hrounds, Or.inr rfl⟩
  · obtain rfl : ok = false := by simpa using hdown
    exact ⟨nofun, fun _ ↦ ⟨h₁, rounds, _, rfl, hrounds, Or.inl rfl⟩⟩

theorem serve_wp {native : NativeContext} (hbooted : Booted build argv native h) :
    Proc.wp (MainGuard build argv) serve (fun h' _ ↦ Served build argv h' ∧ Joined h')
      (Interrupted argv) h := by
  have hbare := hbooted.threadless
  rw [serve, Proc.wp_bind]
  refine wp_callStd (fun _ ↦ ⟨native, hbooted⟩) ?_ fun answer _ hspawn ↦ ?_
  · -- a thread that could not be spawned is not one
    rintro answer what rfl hspawned
    rcases List.mem_append.mp hspawned with hmem | hmem
    · exact absurd hmem hbare.not_spawned
    · simp at hmem
  obtain rfl : answer = .ok () := hspawn
  have hrunning : Running (h ++ [⟨.spawnExecutorThread, .ok ()⟩]) := by
    refine ⟨by simp [Spawned], ?_⟩
    intro hjoined
    rcases List.mem_append.mp hjoined with hmem | hmem
    · exact hbare.not_joined hmem
    · simp at hmem
  refine Proc.wp_rethrowing (Proc.wp_mono (E := Unwinding) (fun _ _ hq ↦ hq) ?_ ?_)
  · rintro h' _ ⟨hunwinding, e, rfl⟩
    exact hunwinding
  rw [Proc.wp_bind]
  refine wp_running hrunning (by simp) (fun _ ↦ trivial) fun _ _ hready h₁ ↦ ?_
  obtain rfl := hready
  rw [Proc.wp_bind]
  refine Proc.wp_mono ?_ (fun _ _ he ↦ he) (awaitStop_wp h₁)
  rintro _ - ⟨h₂, rounds, exit, rfl, hrounds, hexit⟩
  rw [Proc.wp_bind]
  refine wp_running h₂ (by simp) (fun _ ↦ trivial) fun _ _ hstop h₃ ↦ ?_
  obtain rfl := hstop
  rw [Proc.wp_bind]
  refine wp_running h₃ (by simp) (fun _ ↦ trivial) fun _ _ hcancel h₄ ↦ ?_
  obtain rfl := hcancel
  refine wp_callStd (fun _ ↦ trivial) ?_ fun _ _ hjoin ↦ ?_
  · rintro answer what rfl
    exact ⟨h₄.concat (by simp), _, rfl⟩
  obtain rfl := hjoin
  refine ⟨⟨native, h, rounds, exit, hbooted, hrounds, hexit, ?_⟩, by simp [Joined]⟩
  simp only [List.append_assoc, List.cons_append, List.nil_append]

theorem finish_wp (hserved : Served build argv h) (hjoined : Joined h) :
    Proc.wp (MainGuard build argv) finish (Finished build argv) (Interrupted argv) h := by
  have hstill (run : Run) : Joined (h ++ run) := List.mem_append_left _ hjoined
  rw [finish, Proc.wp_bind]
  refine wp_callStd (fun _ ↦ trivial) (fun _ _ _ _ ↦ hstill _) fun _ _ hremove ↦ ?_
  obtain rfl := hremove
  rw [Proc.wp_bind]
  refine wp_callStd (fun _ ↦ trivial) (fun _ _ _ _ ↦ ?_) fun _ _ hshutdown ↦ ?_
  · exact List.mem_append_left _ (hstill _)
  obtain rfl := hshutdown
  rw [Proc.wp_bind, Proc.wp_perform]
  refine fun lost ↦ ⟨trivial, h, lost, hserved, rfl, ?_⟩
  simp only [List.append_assoc, List.cons_append, List.nil_append]

/-- What the handler of `main` makes of an interrupt. -/
theorem report_wp {interrupt : Interrupt} (hinterrupted : Interrupted argv h interrupt) :
    Proc.wp (MainGuard build argv) (report interrupt)
      (fun h' code ↦ Ends build argv h' (.returned code))
      (fun h' interrupt ↦ Ends build argv h' interrupt.outcome) h := by
  cases interrupt with
  | exit code =>
    obtain ⟨hhelped, rfl⟩ := hinterrupted
    exact Ends.helped hhelped
  | terminate => exact Ends.abandoned hinterrupted.1 hinterrupted.2
  | exception e =>
    rw [report, Proc.wp_bind, Proc.wp_perform]
    refine fun _ ↦ ⟨trivial, ?_⟩
    rw [Proc.wp_bind]
    refine wp_callStd (fun _ ↦ trivial) ?_ fun answer ok hok ↦ ?_
    · rintro answer what rfl
      rw [List.append_assoc]
      exact Ends.escaped hinterrupted
    obtain rfl : answer = .ok ok := hok
    refine (Proc.wp_ite _ _ _).mpr ⟨?_, fun hdown ↦ ?_⟩
    · rintro rfl
      rw [Proc.wp_bind]
      refine wp_callStd (fun _ ↦ trivial) ?_ fun answer _ hshutdown ↦ ?_
      · rintro answer what rfl
        rw [List.append_assoc, List.append_assoc]
        exact Ends.escapedShutDown hinterrupted
      · obtain rfl : answer = .ok () := hshutdown
        rw [List.append_assoc, List.append_assoc]
        exact Ends.reportedAndShutDown hinterrupted
    · obtain rfl : ok = false := by simpa using hdown
      rw [List.append_assoc]
      exact Ends.reported hinterrupted

theorem main_wp
    (hids : build.contract.kPublish.capabilityId ≠ build.contract.kService.capabilityId) :
    Prog.wp (MainGuard build argv) (main build argv) (Ends build argv) [] := by
  have hbody : Proc.wp (MainGuard build argv) (do
      let _ ← startup build argv
      serve
      finish) (Finished build argv) (Interrupted argv) [] := by
    refine Proc.wp_bind_of (startup_wp hids) fun h native hbooted ↦ ?_
    refine Proc.wp_bind_of (serve_wp hbooted) fun h' _ hserved ↦ ?_
    exact finish_wp hserved.1 hserved.2
  refine Proc.wp_catching ?_
  rw [Proc.wp_bind, Proc.wp_tryCatch]
  refine Proc.wp_mono (fun _ _ hfinished ↦ Ends.finished hfinished) ?_ hbody
  intro h interrupt hinterrupted
  exact report_wp hinterrupted

/-! ## The order of the calls -/

private theorem after_configured {config : RuntimeConfig} {native : NativeContext}
    (hconfigured : Configured build argv config native h) (vars : Environ) :
    vars.after h = vars.configured native := by
  obtain ⟨_, _, -, -, rfl⟩ := hconfigured.calls
  rw [Environ.configured]
  by_cases hempty : native.rmwImplementation = []
  · rw [if_pos hempty, rmwEvent, if_pos hempty]
    rfl
  · rw [if_neg hempty, rmwEvent, if_neg hempty]
    rfl

end Main

/-- **Everything is in place when it is needed.** In every run of `main`, finished or not: when ROS
is initialised, the environment is that of the configured context and nothing else in it has
changed; when the executor thread is spawned, the process is booted; and it is spawned once. -/
theorem main_order (build : Build) (argv : List Str)
    (hids : build.contract.kPublish.capabilityId ≠ build.contract.kService.capabilityId) (run : Run)
    (rest : Prog Call Call.Answer Outcome) (hrun : Prog.Reaches (main build argv) run rest) :
    (∀ before domainId answer after, run = before ++ ⟨.rclcppInit domainId, answer⟩ :: after →
      ∃ config native, Configured build argv config native before ∧ domainId = native.domainId ∧
        ∀ vars : Environ, vars.after before = vars.configured native) ∧
    (∀ before answer after, run = before ++ ⟨.spawnExecutorThread, answer⟩ :: after →
      ∃ native, Booted build argv native before) ∧
    run.countP (fun e ↦ e.op.spawns) ≤ 1 := by
  have hguarded := (Prog.wp_sound (main_wp hids) hrun).1
  refine ⟨?_, ?_, (hguarded.mono ?_).countP_le_one⟩
  · intro before domainId answer after heq
    obtain ⟨config, native, hconfigured, hdomain⟩ := hguarded before _ after heq
    exact ⟨config, native, hconfigured, hdomain, after_configured hconfigured⟩
  · exact fun before answer after heq ↦ hguarded before _ after heq
  · rintro h ⟨call, answer⟩ hguard hspawns e he
    cases call with
    | spawnExecutorThread =>
      obtain ⟨native, hbooted⟩ := hguard
      exact Call.spawns_eq_false (hbooted.threadless e he)
    | _ => exact nomatch hspawns

/-- The handler of `main` threw while it was reporting an exception. -/
def HandlerThrew (run : Run) : Prop :=
  ∃ (before : Run) (e : Exn) (what : Str),
    run = before ++ [⟨.writeErr (reportText e), ()⟩, ⟨.rclcppOk, .error what⟩] ∨
      run = before ++ [⟨.writeErr (reportText e), ()⟩, ⟨.rclcppOk, .ok true⟩,
        ⟨.rclcppShutdown, .error what⟩]

theorem Served.joined {build : Build} {argv : List Str} {run : Run} (h : Served build argv run) :
    Joined run := by
  obtain ⟨_, _, _, _, -, -, -, rfl⟩ := h
  simp [Joined]

theorem Finished.joined {build : Build} {argv : List Str} {run : Run} {code : ℕ}
    (h : Finished build argv run code) : Joined run := by
  obtain ⟨_, _, hserved, -, rfl⟩ := h
  exact List.mem_append_left _ hserved.joined

/-- What is written about an exception and what is asked of ROS has to do with no thread. -/
theorem threadless_report {before : Run} (h : Spawned before → Joined before) {e : Exn}
    {tail : Run} (htail : Threadless tail) :
    Spawned (before ++ ⟨.writeErr (reportText e), ()⟩ :: tail) →
      Joined (before ++ ⟨.writeErr (reportText e), ()⟩ :: tail) := by
  have hreport : Threadless (⟨.writeErr (reportText e), ()⟩ :: tail) :=
    List.forall_mem_cons.mpr ⟨rfl, htail⟩
  rw [hreport.spawned_append, hreport.joined_append]
  exact h

/-- A run that is not terminated leaves no thread behind. -/
theorem Ends.joined {build : Build} {argv : List Str} {run : Run} {outcome : Outcome}
    (h : Ends build argv run outcome) (houtcome : outcome ≠ .terminated) :
    Spawned run → Joined run := by
  cases h with
  | helped hhelped =>
    obtain ⟨-, rfl⟩ := hhelped
    simp [Spawned]
  | finished hfinished => exact fun _ ↦ hfinished.joined
  | reported hbefore => exact threadless_report hbefore (by simp [Threadless, Call.handlesThread])
  | reportedAndShutDown hbefore =>
    exact threadless_report hbefore (by simp [Threadless, Call.handlesThread])
  | abandoned | escaped | escapedShutDown => exact absurd rfl houtcome

/-- The last call of a run that is not terminated did not throw. -/
theorem Ends.not_handlerThrew {build : Build} {argv : List Str} {run : Run} {outcome : Outcome}
    (h : Ends build argv run outcome) (houtcome : outcome ≠ .terminated) :
    ¬ HandlerThrew run := by
  rintro ⟨before', e', what, hthrew⟩
  have hlast : run.getLast? = some ⟨.rclcppOk, .error what⟩ ∨
      run.getLast? = some ⟨.rclcppShutdown, .error what⟩ := by
    rcases hthrew with rfl | rfl
    · exact Or.inl (by simp)
    · exact Or.inr (by simp)
  cases h with
  | helped hhelped =>
    obtain ⟨-, rfl⟩ := hhelped
    simp at hlast
  | finished hfinished =>
    obtain ⟨_, _, -, -, rfl⟩ := hfinished
    simp at hlast
  | reported | reportedAndShutDown => simp at hlast
  | abandoned | escaped | escapedShutDown => exact absurd rfl houtcome

/-- **The ends of a run**, one by one, and what follows for the executor thread: when `main` returns
no thread is left behind, and the process is terminated exactly when an exception met the joinable
thread or the handler threw; so a failure of the bootstrap, before there is a thread, is reported
and returns 1. -/
theorem main_ends (build : Build) (argv : List Str)
    (hids : build.contract.kPublish.capabilityId ≠ build.contract.kService.capabilityId) (run : Run)
    (outcome : Outcome) (hrun : Prog.Returns (main build argv) run outcome) :
    Ends build argv run outcome ∧
      (∀ code, outcome = .returned code → Spawned run → Joined run) ∧
      (outcome = .terminated ↔ (Spawned run ∧ ¬ Joined run) ∨ HandlerThrew run) := by
  have hends := Prog.wp_returns (main_wp hids) hrun
  refine ⟨hends, ?_, ?_⟩
  · rintro code rfl
    exact hends.joined nofun
  · constructor
    · rintro rfl
      cases hends with
      | abandoned hspawned hjoined => exact Or.inl ⟨hspawned, hjoined⟩
      | @escaped before e what => exact Or.inr ⟨before, e, what, Or.inl rfl⟩
      | @escapedShutDown before e what => exact Or.inr ⟨before, e, what, Or.inr rfl⟩
    · intro hterminated
      by_contra houtcome
      rcases hterminated with ⟨hspawned, hjoined⟩ | hthrew
      · exact hjoined (hends.joined houtcome hspawned)
      · exact hends.not_handlerThrew houtcome hthrew

/-! ### A process that is asked to stop at once -/

/-- What the bootstrap file of the fast context says. -/
def fastConfig : RuntimeConfig where
  client := swappedConfig sharedBuild.contract
  initialSpec := NativeContext.fastSpec
  dispatchWorkers := 4

def fastArgv : List Str := ["xgc_ros2_tools_adapter_node", "--adapter-bootstrap-file", "/b"]

/-- An environment in which nothing fails and the stop has been requested. -/
def calmEnvironment (_ : Run) : (call : Call) → call.Answer
  | .writeOut _ | .writeErr _ | .signal .. | .store .. | .sleepFor _ => ()
  | .fromBootstrapFile _ => .ok fastConfig
  | .bind _ => ⟨true, none⟩
  | .runtimeStart => .ok ⟨true, none⟩
  | .rclcppOk => .ok true
  | .load flag => flag = .stopRequested
  | .setenv .. | .unsetenv _ | .rclcppInit _ | .makeNode _ | .makeExecutor _ | .addNode
  | .makeClient .. | .spawnExecutorThread | .log .. | .runtimeStop | .executorCancel
  | .joinExecutorThread | .removeNode | .rclcppShutdown => .ok ()

def calmRun : Run := (Prog.exec calmEnvironment 40 (main sharedBuild fastArgv) []).1

private theorem main_calm : Prog.Returns (main sharedBuild fastArgv) calmRun (.returned 0) :=
  Prog.returns_exec (by decide +kernel)

private theorem Ends.spawned {build : Build} {argv : List Str} {run : Run}
    (h : Ends build argv run (.returned 0)) : Spawned run := by
  cases h with
  | finished hfinished =>
    obtain ⟨_, _, ⟨_, _, _, _, -, -, -, rfl⟩, -, rfl⟩ := hfinished
    simp [Spawned]

private theorem spawned_calmRun : Spawned calmRun :=
  Ends.spawned (Prog.wp_returns (main_wp sharedBuild_ids) main_calm)

/-- Where the thread is spawned in it, the process is booted. -/
theorem main_order_calm : ∃ before after native,
    calmRun = before ++ ⟨.spawnExecutorThread, .ok ()⟩ :: after ∧
      Booted sharedBuild fastArgv native before := by
  obtain ⟨before, after, hsplit⟩ := List.append_of_mem spawned_calmRun
  obtain ⟨native, hbooted⟩ :=
    (main_order sharedBuild fastArgv sharedBuild_ids calmRun _ main_calm).2.1 _ _ _ hsplit
  exact ⟨before, after, native, hsplit, hbooted⟩

theorem main_ends_calm : Ends sharedBuild fastArgv calmRun (.returned 0) ∧
    (Spawned calmRun → Joined calmRun) :=
  have hends := main_ends sharedBuild fastArgv sharedBuild_ids calmRun _ main_calm
  ⟨hends.1, hends.2.1 0 rfl⟩

end Ros2ToolsAdapter.Process
