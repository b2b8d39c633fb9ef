import Ros2ToolsAdapter.Process.Startup

/-!
# Why the process stopped

`main` polls one flag and decides its exit code by another. A signal, a request of the runtime and
the loss of the session set them, from other threads and in any interleaving with `main`. The loss
of the session sets both, and the order in which it does is what makes the exit code right: `main`
reads them in the opposite order, so whoever is woken by a lost session finds it lost.
-/

namespace Ros2ToolsAdapter.Process

open Interaction

/-! ## The process as a system -/

/-- A thread of the process, or a signal. -/
inductive Activity
  | main (argv : List Str)
  | handler (handler : Handler)

namespace Activity

@[reducible] def Result : Activity → Type
  | .main _ => Outcome
  | .handler _ => Except Interrupt Unit

def code (build : Build) : (k : Activity) → Prog Call Call.Answer k.Result
  | .main argv => Process.main build argv
  | .handler k => k.code.run

end Activity

/-- The two flags. -/
abbrev Flags := Flag → Bool

namespace Flags

/-- A load returns the flag. Nothing is known about the other answers. -/
def legal (flags : Flags) : (call : Call) → call.Answer → Prop
  | .load flag, value => value = flags flag
  | _, _ => True

def effect (flags : Flags) : (call : Call) → call.Answer → Flags
  | .store flag value, _ => Function.update flags flag value
  | _, _ => flags

end Flags

/-- One process: `main`, and any number of handlers at any time. -/
@[reducible] def process (build : Build) : System Call Call.Answer where
  Memory := Flags
  Invocation := Activity
  Result := Activity.Result
  code := Activity.code build
  legal := Flags.legal
  effect := Flags.effect

/-- Before `main`. -/
def loaded (build : Build) : (process build).Config := System.initial fun _ ↦ false

/-! ## What the threads do to the flags -/

/-- The handler may set the flag after these calls. -/
def Handler.Sets (handler : Handler) (h : Run) : Flag → Prop
  | .sessionLost => ∃ reason, handler = .sessionLost reason
  | .stopRequested => handler = .handleSignal ∨ (∃ reason, handler = .stopRequested reason) ∨
      (∃ reason, handler = .sessionLost reason) ∧ ⟨.store .sessionLost true, ()⟩ ∈ h

/-- Flags are set, never reset, by handlers, and a lost session is marked as such before the process
is asked to stop for it. -/
def SessionGuard (k : Activity) (h : Run) (e : CallEvent) : Prop :=
  match e.op with
  | .store flag value => value = true ∧ ∃ handler, k = .handler handler ∧ handler.Sets h flag
  | _ => True

theorem handler_wp (handler : Handler) :
    Proc.wp (SessionGuard (.handler handler)) handler.code (fun _ _ ↦ True)
      (fun _ _ ↦ True) [] := by
  cases handler with
  | handleSignal => exact fun _ ↦ ⟨⟨rfl, _, rfl, Or.inl rfl⟩, trivial⟩
  | stopRequested reason =>
    rw [Handler.code, Proc.wp_bind]
    refine wp_callStd (fun _ ↦ trivial) (fun _ _ _ ↦ trivial) fun _ _ _ ↦ ?_
    exact fun _ ↦ ⟨⟨rfl, _, rfl, Or.inr (Or.inl ⟨reason, rfl⟩)⟩, trivial⟩
  | sessionLost reason =>
    rw [Handler.code, Proc.wp_bind]
    refine wp_callStd (fun _ ↦ trivial) (fun _ _ _ ↦ trivial) fun _ _ _ ↦ ?_
    rw [Proc.wp_bind, Proc.wp_perform]
    refine fun _ ↦ ⟨⟨rfl, _, rfl, reason, rfl⟩, ?_⟩
    exact fun _ ↦ ⟨⟨rfl, _, rfl, Or.inr (Or.inr ⟨⟨reason, rfl⟩, by simp⟩)⟩, trivial⟩
  | logRuntime level message =>
    exact wp_callStd (fun _ ↦ trivial) (fun _ _ _ ↦ trivial) fun _ _ _ ↦ trivial

private theorem sessionGuard_of_mainGuard {build : Build} {argv : List Str} {k : Activity} {h : Run}
    {e : CallEvent} (hguard : MainGuard build argv h e) : SessionGuard k h e := by
  obtain ⟨call, answer⟩ := e
  cases call with
  | store flag value => exact hguard.elim
  | _ => trivial

theorem session_guarded (build : Build)
    (hids : build.contract.kPublish.capabilityId ≠ build.contract.kService.capabilityId) :
    (process build).Guards SessionGuard := by
  intro k run rest hrun
  cases k with
  | main argv =>
    exact ((Prog.wp_sound (main_wp hids) hrun).1).mono fun _ _ ↦ sessionGuard_of_mainGuard
  | handler handler => exact (Prog.wp_sound (handler_wp handler) hrun).1

/-! ## The flags and the history -/

section History

variable {build : Build}

/-- Nobody resets a flag. -/
def OnlySets (history : System.History Call Call.Answer) : Prop :=
  ∀ ie ∈ history, ∀ flag value, ie.2.op = .store flag value → value = true

/-- A flag that nobody resets is set exactly when somebody has set it. -/
theorem replay_eq_true_iff {history : System.History Call Call.Answer} (h : OnlySets history)
    (flag : Flag) :
    (process build).replay (fun _ ↦ false) history flag = true ↔
      ∃ j, (j, ⟨.store flag true, ()⟩) ∈ history := by
  induction history using List.reverseRecOn with
  | nil => simp [System.replay]
  | append_singleton history ie ih =>
    have hinit : OnlySets history := fun ie' hie' ↦ h ie' (List.mem_append_left _ hie')
    have hlast := h ie (by simp)
    rw [System.replay_concat]
    simp only [List.mem_append, List.mem_singleton, exists_or, ← ih hinit]
    obtain ⟨j, call, answer⟩ := ie
    by_cases hstore : ∃ value, call = .store flag value
    · obtain ⟨value, rfl⟩ := hstore
      obtain rfl := hlast flag value rfl
      exact iff_of_true (Function.update_self _ _ _) (Or.inr ⟨j, rfl⟩)
    · -- any other call leaves the flag, and is not the one asked for
      have hnone : ¬ ∃ j', (j', (⟨.store flag true, ()⟩ : CallEvent)) = (j, ⟨call, answer⟩) := by
        rintro ⟨j', heq⟩
        exact hstore ⟨true, (congrArg (fun ie ↦ ie.2.op) heq).symm⟩
      rw [or_iff_left hnone]
      cases call with
      | store flag' value =>
        have hne : flag ≠ flag' := by
          rintro rfl
          exact hstore ⟨value, rfl⟩
        exact iff_of_eq (congrArg (· = true) (Function.update_of_ne hne _ _))
      | _ => exact Iff.rfl

/-- Everybody keeps to setting flags. -/
theorem onlySets {c : (process build).Config}
    (hids : build.contract.kPublish.capabilityId ≠ build.contract.kService.capabilityId)
    (hc : System.Consistent (fun _ ↦ false) c) : OnlySets c.history := by
  rintro ⟨j, e⟩ hmem flag value hop
  obtain ⟨k, before, hguard⟩ := hc.guard (session_guarded build hids) hmem
  rw [SessionGuard, hop] at hguard
  exact hguard.1

/-- Who set a flag that is found set: a handler that may, after what it did before. -/
theorem setter_of_load {c : (process build).Config}
    (hids : build.contract.kPublish.capabilityId ≠ build.contract.kService.capabilityId)
    (hc : System.Consistent (fun _ ↦ false) c) {past future : System.History Call Call.Answer}
    {i : ℕ} {flag : Flag} (hsplit : c.history = past ++ (i, ⟨.load flag, true⟩) :: future) :
    ∃ j t handler earlier later, c.threads[j]? = some t ∧ t.invocation = .handler handler ∧
      past = earlier ++ (j, ⟨.store flag true, ()⟩) :: later ∧
        handler.Sets (System.share earlier j) flag := by
  have hvalue : (process build).replay (fun _ ↦ false) past flag = true :=
    (hc.legal past i _ future hsplit).symm
  have hsets : OnlySets past := by
    intro ie hie
    exact onlySets hids hc ie (hsplit ▸ List.mem_append_left _ hie)
  obtain ⟨j, hmem⟩ := (replay_eq_true_iff hsets flag).mp hvalue
  obtain ⟨earlier, later, rfl⟩ := List.append_of_mem hmem
  rw [List.append_assoc, List.cons_append] at hsplit
  obtain ⟨t, ht, -, handler, hhandler, hset⟩ := hc.guard_at (session_guarded build hids) hsplit
  exact ⟨j, t, handler, earlier, later, ht, hhandler, rfl, hset⟩

/-- A flag that has been set is found set. -/
theorem load_of_stored {c : (process build).Config}
    (hids : build.contract.kPublish.capabilityId ≠ build.contract.kService.capabilityId)
    (hc : System.Consistent (fun _ ↦ false) c) {past future : System.History Call Call.Answer}
    {i j : ℕ} {flag : Flag} {value : Bool}
    (hsplit : c.history = past ++ (i, ⟨.load flag, value⟩) :: future)
    (hstored : (j, ⟨.store flag true, ()⟩) ∈ past) : value = true := by
  have hsets : OnlySets past := by
    intro ie hie
    exact onlySets hids hc ie (hsplit ▸ List.mem_append_left _ hie)
  have hvalue : value = (process build).replay (fun _ ↦ false) past flag :=
    hc.legal past i _ future hsplit
  rw [hvalue]
  exact (replay_eq_true_iff hsets flag).mpr ⟨j, hstored⟩

end History

/-! ## The exit code -/

/-- A run that finished read the second flag last, and before that ROS was down or the first flag
was set. -/
theorem Finished.polls {build : Build} {argv : List Str} {run : Run} {code : ℕ}
    (h : Finished build argv run code) : ∃ lost, code = (if lost = true then 2 else 0) ∧
      (∃ before, run = before ++ ⟨.load .sessionLost, lost⟩ :: []) ∧
      (⟨.rclcppOk, .ok false⟩ ∈ run ∨ ∃ before between, run = before ++
        ⟨.load .stopRequested, true⟩ :: (between ++ ⟨.load .sessionLost, lost⟩ :: [])) := by
  obtain ⟨_, lost, ⟨native, before, rounds, exit, -, -, hexit, rfl⟩, hcode, rfl⟩ := h
  let down : Run := [⟨.removeNode, .ok ()⟩, ⟨.rclcppShutdown, .ok ()⟩]
  refine ⟨lost, hcode, ⟨_, (List.append_assoc _ down [⟨.load .sessionLost, lost⟩]).symm⟩, ?_⟩
  rcases hexit with rfl | rfl
  · exact Or.inl (by simp)
  · refine Or.inr ⟨before ++ [⟨.spawnExecutorThread, .ok ()⟩, ⟨.log Handler.adapterLogger .info
      "XGC2 ROS2 Tools Adapter is ready", .ok ()⟩] ++ List.flatten rounds ++
        [⟨.rclcppOk, .ok true⟩],
      [⟨.runtimeStop, .ok ()⟩, ⟨.executorCancel, .ok ()⟩, ⟨.joinExecutorThread, .ok ()⟩,
        ⟨.removeNode, .ok ()⟩, ⟨.rclcppShutdown, .ok ()⟩], ?_⟩
    simp only [List.append_assoc, List.cons_append, List.nil_append]

section ExitCode

variable {build : Build}

/-- The exit code, if the thread is a `main` that has returned. -/
def exitCode? (t : (process build).Thread) : Option ℕ :=
  match t with
  | ⟨.main _, _, .ret (.returned code), _⟩ => some code
  | _ => none

private theorem ends_of_exitCode? {t : (process build).Thread} {code : ℕ}
    (h : exitCode? t = some code)
    (hids : build.contract.kPublish.capabilityId ≠ build.contract.kService.capabilityId) :
    ∃ argv, Ends build argv t.trace (.returned code) := by
  unfold exitCode? at h
  split at h
  · rename_i argv trace code' hreaches
    obtain rfl := Option.some.inj h
    exact ⟨argv, Prog.wp_returns (main_wp hids) hreaches⟩
  · exact nomatch h

/-- **The exit code says why the process stopped**, in every interleaving of `main` with signals and
with the callbacks of the runtime. With 0, ROS was down, or a signal or the runtime had asked the
process to stop: it was not stopped by the loss of the session alone. With 2, the session had been
lost. -/
theorem exit_code_explained
    (hids : build.contract.kPublish.capabilityId ≠ build.contract.kService.capabilityId)
    (c : (process build).Config) (hreach : System.Reachable (loaded build) c) (i : ℕ)
    (t : (process build).Thread) (hi : c.threads[i]? = some t) (code : ℕ)
    (hcode : exitCode? t = some code) :
    (code = 0 → ⟨.rclcppOk, .ok false⟩ ∈ t.trace ∨
      ∃ j t' handler, c.threads[j]? = some t' ∧ t'.invocation = .handler handler ∧
        (j, ⟨.store .stopRequested true, ()⟩) ∈ c.history ∧
          (handler = .handleSignal ∨ ∃ reason, handler = .stopRequested reason)) ∧
    (code = 2 → ∃ j t' reason, c.threads[j]? = some t' ∧
      t'.invocation = .handler (.sessionLost reason) ∧
        (j, ⟨.store .sessionLost true, ()⟩) ∈ c.history) := by
  have hc := System.consistent_of_reachable hreach
  have hshare : System.share c.history i = t.trace := hc.trace_eq hi
  obtain ⟨argv, hends⟩ := ends_of_exitCode? hcode hids
  generalize t.trace = run at hshare hends ⊢
  cases hends with
  | reported | reportedAndShutDown => exact ⟨nofun, nofun⟩
  | finished hfinished =>
    obtain ⟨lost, hlost, ⟨before, hlast⟩, hwoken⟩ := hfinished.polls
    constructor
    · rintro rfl
      obtain rfl : lost = false := by
        cases lost with
        | false => rfl
        | true => exact nomatch hlost
      refine hwoken.imp_right ?_
      rintro ⟨before', between, hpolls⟩
      -- `main` has found the stop requested, and then the session not lost
      obtain ⟨past, rest, hpast, -, hrest⟩ := System.share_eq_append (hshare.trans hpolls)
      obtain ⟨past', rest', rfl, -, -⟩ := System.share_eq_append hrest
      obtain ⟨j, t, handler, earlier, later, ht, hhandler, rfl, hset⟩ :=
        setter_of_load hids hc hpast
      refine ⟨j, t, handler, ht, hhandler, by rw [hpast]; simp, ?_⟩
      rcases hset with rfl | hrequested | ⟨-, hmarked⟩
      · exact Or.inl rfl
      · exact Or.inr hrequested
      · -- had it been the loss of the session, `main` would have found it lost
        have hstored := System.mem_share.mp hmarked
        have hlast : c.history = (earlier ++ (j, ⟨.store .stopRequested true, ()⟩) :: later ++
            (i, ⟨.load .stopRequested, true⟩) :: past') ++
              (i, ⟨.load .sessionLost, false⟩) :: rest' := by
          rw [hpast]
          simp
        have hfound : false = true := load_of_stored hids hc (j := j) hlast (by simp [hstored])
        exact absurd hfound Bool.false_ne_true
    · rintro rfl
      obtain rfl : lost = true := by
        cases lost with
        | true => rfl
        | false => exact nomatch hlost
      obtain ⟨past, rest, hpast, -, -⟩ := System.share_eq_append (hshare.trans hlast)
      obtain ⟨j, t, handler, earlier, later, ht, hhandler, rfl, reason, rfl⟩ :=
        setter_of_load hids hc hpast
      exact ⟨j, t, reason, ht, hhandler, by rw [hpast]; simp⟩

end ExitCode

/-! ### A session that is lost -/

/-- The calm environment, but for the flags. -/
def flagAnswer (flags : Flags) : (call : Call) → call.Answer
  | .load flag => flags flag
  | call => calmEnvironment [] call

theorem legal_flagAnswer (flags : Flags) (call : Call) :
    flags.legal call (flagAnswer flags call) := by
  cases call with
  | load flag => rfl
  | _ => trivial

def calmAnswers : (process sharedBuild).Environment :=
  fun flags call ↦ ⟨flagAnswer flags call, legal_flagAnswer flags call⟩

/-- The session is lost while `main` starts, and `main` runs to its end. -/
def lostChoices : List (System.Choice (process sharedBuild)) :=
  [.invoke (.main fastArgv), .invoke (.handler (.sessionLost "gone"))] ++
    List.replicate 5 (.step 0) ++ List.replicate 3 (.step 1) ++ List.replicate 40 (.step 0)

def lostConfig : (process sharedBuild).Config :=
  System.exec calmAnswers lostChoices (loaded sharedBuild)

theorem exit_code_explained_lost : ∃ j t' reason, lostConfig.threads[j]? = some t' ∧
    t'.invocation = .handler (.sessionLost reason) ∧
      (j, ⟨.store .sessionLost true, ()⟩) ∈ lostConfig.history := by
  have hcode : lostConfig.threads[0]?.bind exitCode? = some 2 := by decide +kernel
  obtain ⟨t, hi, hcode⟩ := Option.bind_eq_some_iff.mp hcode
  exact (exit_code_explained sharedBuild_ids lostConfig
    (System.reachable_exec calmAnswers lostChoices _) 0 t hi 2 hcode).2 rfl

end Ros2ToolsAdapter.Process
