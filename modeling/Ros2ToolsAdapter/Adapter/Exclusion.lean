import Ros2ToolsAdapter.Adapter.Lifecycle

/-!
# One start at a time

A capability is started by a compare-exchange from false to true, so two starts of it cannot both
succeed without something that makes the flag false in between, and the only thing that does is the
store of a stop or of a clear. That is a statement about the history of calls, and it is read off
the answers: an exchange that succeeded found the flag false.

The rest is about one call. `LifecycleGuard` says what a call of each kind may do to the flags and
on what grounds, and `Reported` what its result says about what it has done.
-/

namespace Ros2ToolsAdapter

open Interaction

/-! ## What a call may do -/

/-- The grant is for exactly this endpoint. -/
structure Grants (grant : EnabledCapability) (expected : Endpoint) : Prop where
  capabilityId : grant.capabilityId = expected.capabilityId
  contractVersion : grant.contractVersion = expected.contractVersion
  contractDigest : grant.contractDigest = expected.contractDigest
  enabledEndpointIds : grant.enabledEndpointIds = [expected.endpointId]

private theorem validateCapabilityGrant_accepted {grant : EnabledCapability} {expected : Endpoint} :
    (validateCapabilityGrant grant expected).accepted = true ↔ Grants grant expected := by
  rw [validateCapabilityGrant]
  split
  · rename_i hdiffers
    refine iff_of_false Bool.false_ne_true ?_
    rintro ⟨hid, hversion, hdigest, hendpoints⟩
    simp [hid, hversion, hdigest, hendpoints] at hdiffers
  · rename_i hsame
    simp only [not_or, not_not] at hsame
    obtain ⟨hid, hversion, hdigest, hlength, hfirst⟩ := hsame
    refine iff_of_true rfl ⟨hid, hversion, hdigest, ?_⟩
    obtain ⟨endpoint, hendpoint⟩ := List.length_eq_one_iff.mp hlength
    rw [hendpoint] at hfirst ⊢
    rw [Option.some_injective _ hfirst]

namespace Invocation

/-- The call starts the capability of the flag, whose compiled endpoint is `expected`. -/
def Starts (build : Build) (flag : Flag) (expected : Endpoint) (spec : AdapterInstanceSpec)
    (grant : EnabledCapability) (k : Invocation) : Prop :=
  (flag = .publishEnabled ∧ expected = build.contract.kPublish ∧
      k = .startPublishCapability spec grant) ∨
    (flag = .serviceEnabled ∧ expected = build.contract.kService ∧
      k = .startServiceCapability spec grant)

theorem Starts.unique {build : Build} {flag flag' : Flag} {expected expected' : Endpoint}
    {spec spec' : AdapterInstanceSpec} {grant grant' : EnabledCapability} {k : Invocation}
    (h : k.Starts build flag expected spec grant)
    (h' : k.Starts build flag' expected' spec' grant') :
    flag = flag' ∧ expected = expected' ∧ spec = spec' ∧ grant = grant' := by
  rcases h with ⟨rfl, rfl, rfl⟩ | ⟨rfl, rfl, rfl⟩
  · rcases h' with ⟨rfl, rfl, hk⟩ | ⟨-, -, hother⟩
    · obtain ⟨rfl, rfl⟩ := Invocation.startPublishCapability.inj hk
      exact ⟨rfl, rfl, rfl, rfl⟩
    · cases hother
  · rcases h' with ⟨-, -, hother⟩ | ⟨rfl, rfl, hk⟩
    · cases hother
    · obtain ⟨rfl, rfl⟩ := Invocation.startServiceCapability.inj hk
      exact ⟨rfl, rfl, rfl, rfl⟩

/-- The call is a stop of the capability of the flag, or a clear. -/
def Resets (flag : Flag) (k : Invocation) : Prop :=
  k = .clearInstanceSpec ∨ (flag = .publishEnabled ∧ k = .stopPublishCapability) ∨
    (flag = .serviceEnabled ∧ k = .stopServiceCapability)

/-- What a call of the lifecycle reports. -/
def acceptance : (k : Invocation) → k.Result → Option Acceptance
  | .applyInstanceSpec _, r | .startPublishCapability .., r | .startServiceCapability .., r =>
    some r
  | .clearInstanceSpec, _ | .stopPublishCapability, _ | .stopServiceCapability, _ | .publish _, _
  | .callService _, _ => none

end Invocation

/-- The exchange that starts a capability. -/
def exchanged (flag : Flag) : CallEvent := ⟨.compareExchange flag false true, true⟩

/-- The event leaves every flag as it is. -/
def Preserves (e : CallEvent) : Prop := ∀ flags : Flags, flags.effect e.op e.answer = flags

/-- On what grounds a call touches the flag of a capability: it exchanges it as a start that was
given this context and this endpoint, and stores to it as a stop or a clear. -/
def LifecycleGuard (build : Build) (native : NativeContext) (k : Invocation) (_ : Run)
    (e : CallEvent) : Prop :=
  match e.op with
  | .store .instanceSpecApplied _ => True
  | .store flag value => value = false ∧ k.Resets flag
  | .compareExchange flag expected desired =>
    expected = false ∧ desired = true ∧ ∃ endpoint spec grant,
      k.Starts build flag endpoint spec grant ∧
      NativeContext.fromInstanceSpec build spec = .ok native ∧ Grants grant endpoint
  | _ => True

/-- What a result says of the run: a start that was accepted has made its exchange, and a call that
was refused has left the flags alone. -/
def Reported (build : Build) (k : Invocation) (run : Run) (r : k.Result) : Prop :=
  ∀ a, k.acceptance r = some a →
    (a.accepted = true → ∀ flag endpoint spec grant, k.Starts build flag endpoint spec grant →
      exchanged flag ∈ run) ∧
    (a.accepted = false → ∀ e ∈ run, Preserves e)

section Calls

variable {build : Build} {native : NativeContext}

/-- A start that was accepted has made its exchange, and one that was refused has changed nothing:
of its calls only an exchange that succeeds touches a flag. -/
theorem StartRun.reports {endpoint : Endpoint} {flag : Flag} {active : Str}
    {spec : AdapterInstanceSpec} {grant : EnabledCapability} {run : Run} {a : Acceptance}
    (h : StartRun build native spec endpoint flag active grant run a) :
    (a.accepted = true → exchanged flag ∈ run) ∧
      (a.accepted = false → ∀ e ∈ run, Preserves e) := by
  have hload (applied : Bool) : ∀ e ∈ ([⟨.load .instanceSpecApplied, applied⟩] : Run),
      Preserves e := by
    intro e he flags
    rw [List.mem_singleton.mp he]
    rfl
  cases h with
  | unapplied => exact ⟨nofun, fun _ ↦ hload false⟩
  | malformed | otherContext => exact ⟨nofun, fun _ ↦ hload true⟩
  | notGranted _ hrefused =>
    refine ⟨fun haccepted ↦ ?_, fun _ ↦ hload true⟩
    exact nomatch haccepted.symm.trans hrefused
  | activeAlready =>
    refine ⟨nofun, fun _ e he ↦ ?_⟩
    rcases List.mem_cons.mp he with rfl | he
    · exact hload true _ List.mem_cons_self
    · rw [List.mem_singleton.mp he]
      exact fun _ ↦ rfl
  | started => exact ⟨fun _ ↦ by simp [exchanged], nofun⟩

theorem StartRun.reported {k : Invocation} {endpoint : Endpoint} {flag : Flag} {active : Str}
    {spec : AdapterInstanceSpec} {grant : EnabledCapability} {run : Run} {a : Acceptance}
    (h : StartRun build native spec endpoint flag active grant run a)
    (hstarts : k.Starts build flag endpoint spec grant) :
    (a.accepted = true → ∀ flag endpoint spec grant, k.Starts build flag endpoint spec grant →
      exchanged flag ∈ run) ∧ (a.accepted = false → ∀ e ∈ run, Preserves e) := by
  refine ⟨fun haccepted flag' endpoint' spec' grant' hstarts' ↦ ?_, h.reports.2⟩
  rw [← (hstarts.unique hstarts').1]
  exact h.reports.1 haccepted

theorem ApplyRun.reports {spec : AdapterInstanceSpec} {run : Run} {a : Acceptance}
    (h : ApplyRun build native spec run a) (hrefused : a.accepted = false) :
    ∀ e ∈ run, Preserves e := by
  cases h with
  | malformed | otherContext => simp
  | applied => cases hrefused

private theorem lifecycleGuard_of_harmless {k : Invocation} {h : Run} {e : CallEvent}
    (he : e.op.harmless = true) : LifecycleGuard build native k h e := by
  obtain ⟨call, answer⟩ := e
  cases call <;> trivial

/-- Every call keeps to the guard, in every run of it. -/
theorem lifecycle_guarded (build : Build) (native : NativeContext) :
    (toolsAdapter build native).Guards (LifecycleGuard build native) := by
  intro k run rest hrun
  cases k with
  | applyInstanceSpec spec => exact (Prog.wp_sound (applyInstanceSpec_wp trivial) hrun).1
  | clearInstanceSpec =>
    have hresets (flag : Flag) : Invocation.Resets flag .clearInstanceSpec := Or.inl rfl
    exact (Prog.wp_sound
      (clearInstanceSpec_wp ⟨rfl, hresets _⟩ ⟨rfl, hresets _⟩ trivial) hrun).1
  | startPublishCapability spec grant =>
    refine (Prog.wp_sound (startCapability_wp (fun _ ↦ trivial) ?_) hrun).1
    exact fun hcontext hgranted _ ↦ ⟨rfl, rfl, _, spec, grant, Or.inl ⟨rfl, rfl, rfl⟩, hcontext,
      validateCapabilityGrant_accepted.mp hgranted⟩
  | startServiceCapability spec grant =>
    refine (Prog.wp_sound (startCapability_wp (fun _ ↦ trivial) ?_) hrun).1
    exact fun hcontext hgranted _ ↦ ⟨rfl, rfl, _, spec, grant, Or.inr ⟨rfl, rfl, rfl⟩, hcontext,
      validateCapabilityGrant_accepted.mp hgranted⟩
  | stopPublishCapability =>
    exact (Prog.wp_sound (stop_wp ⟨rfl, Or.inr (Or.inl ⟨rfl, rfl⟩)⟩) hrun).1
  | stopServiceCapability =>
    exact (Prog.wp_sound (stop_wp ⟨rfl, Or.inr (Or.inr ⟨rfl, rfl⟩)⟩) hrun).1
  | publish request =>
    refine (publish_guarded build native request hrun).mono fun h e hguard ↦ ?_
    rcases hguard with hharmless | ⟨prepared, hop, -, -⟩
    · exact lifecycleGuard_of_harmless hharmless
    · rw [LifecycleGuard, hop]
      trivial
  | callService request =>
    refine (callService_guarded build native request hrun).mono fun h e hguard ↦ ?_
    rcases hguard with hharmless | ⟨prepared, hop, -, -⟩
    · exact lifecycleGuard_of_harmless hharmless
    · rw [LifecycleGuard, hop]
      trivial

/-- A call reports what it did. -/
theorem reported_of_returns {k : Invocation} {run : Run} {r : k.Result}
    (hrun : Prog.Returns (k.code build native) run r) : Reported build k run r := by
  intro a ha
  cases k with
  | startPublishCapability spec grant =>
    obtain rfl := Option.some.inj ha
    exact (startCapability_returns hrun).reported (Or.inl ⟨rfl, rfl, rfl⟩)
  | startServiceCapability spec grant =>
    obtain rfl := Option.some.inj ha
    exact (startCapability_returns hrun).reported (Or.inr ⟨rfl, rfl, rfl⟩)
  | applyInstanceSpec spec =>
    obtain rfl := Option.some.inj ha
    refine ⟨?_, (applyInstanceSpec_returns hrun).reports⟩
    rintro - flag endpoint spec' grant' (⟨-, -, hother⟩ | ⟨-, -, hother⟩) <;> exact nomatch hother
  | _ => exact nomatch ha

end Calls

/-! ## Two starts -/

section Starts

variable {build : Build} {native : NativeContext}

/-- The thread has returned and reports `a`. -/
def Reports (t : (toolsAdapter build native).Thread) (a : Acceptance) : Prop :=
  ∃ r, t.rest = .ret r ∧ t.invocation.acceptance r = some a

theorem reports_of_result? {t : (toolsAdapter build native).Thread} {a : Acceptance}
    (h : t.rest.result?.bind t.invocation.acceptance = some a) : Reports t a := by
  obtain ⟨r, hr, ha⟩ := Option.bind_eq_some_iff.mp h
  exact ⟨r, Prog.eq_ret_of_result? hr, ha⟩

theorem Reports.returns {t : (toolsAdapter build native).Thread} {a : Acceptance}
    (hreports : Reports t a) : ∃ r, Prog.Returns (t.invocation.code build native) t.trace r ∧
      t.invocation.acceptance r = some a := by
  obtain ⟨r, hrest, ha⟩ := hreports
  refine ⟨r, ?_, ha⟩
  have hreaches := t.reaches
  rwa [hrest] at hreaches

theorem Reports.reported {t : (toolsAdapter build native).Thread} {a : Acceptance}
    (hreports : Reports t a) :
    (a.accepted = true → ∀ flag endpoint spec grant,
      t.invocation.Starts build flag endpoint spec grant → exchanged flag ∈ t.trace) ∧
    (a.accepted = false → ∀ e ∈ t.trace, Preserves e) := by
  obtain ⟨r, hreturns, ha⟩ := hreports.returns
  exact reported_of_returns hreturns a ha

/-- Between two exchanges of one flag that succeeded, the flag was reset by a stop or a clear. -/
theorem reset_between {c : (toolsAdapter build native).Config} {flag : Flag} {i j : ℕ}
    {before between after : System.History Call Call.Answer}
    (hc : System.Consistent (constructed build native).memory c)
    (hflag : flag ≠ .instanceSpecApplied)
    (hsplit : c.history =
      before ++ (i, exchanged flag) :: (between ++ (j, exchanged flag) :: after)) :
    ∃ k u, (k, ⟨.store flag false, ()⟩) ∈ between ∧ c.threads[k]? = some u ∧
      u.invocation.Resets flag := by
  have hsecond : c.history =
      (before ++ (i, exchanged flag) :: between) ++ (j, exchanged flag) :: after := by
    simpa using hsplit
  -- the second exchange found the flag false, and the first has left it true
  have hfound := hc.legal _ j _ after hsecond
  rw [System.replay_append, System.replay_cons] at hfound
  have hfalse : (toolsAdapter build native).replay
      (Function.update ((toolsAdapter build native).replay (constructed build native).memory before)
        flag true) between flag = false := by
    simpa [exchanged, Flags.legal, Flags.effect] using hfound
  have hmem : ∀ ie ∈ between, ie ∈ c.history := by
    intro ie hie
    rw [hsplit]
    exact List.mem_append_right _ (List.mem_cons_of_mem _ (List.mem_append_left _ hie))
  have hguards : ∀ ie ∈ between, ∃ k h, FlagGuard k h ie.2 :=
    fun ie hie ↦ hc.guard (flags_guarded build native) (hmem ie hie)
  obtain ⟨k, hk⟩ := exists_store_of_reset between hguards (Function.update_self _ _ _) hfalse
  obtain ⟨u, h, hu, hgrounds⟩ := hc.thread_guard (lifecycle_guarded build native) (hmem _ hk)
  refine ⟨k, u, hk, hu, ?_⟩
  cases flag with
  | instanceSpecApplied => exact absurd rfl hflag
  | publishEnabled | serviceEnabled => exact hgrounds.2

/-- The calls of the history made between two given ones, in this order. -/
def CallsBetween (history : System.History Call Call.Answer) (first second : ℕ × CallEvent) :
    Set (ℕ × CallEvent) :=
  {ie | ∃ before between after, history = before ++ first :: (between ++ second :: after) ∧
    ie ∈ between}

/-- The thread has started the capability of the flag. -/
def Started (flag : Flag) (t : (toolsAdapter build native).Thread) : Prop :=
  ∃ endpoint spec grant a, t.invocation.Starts build flag endpoint spec grant ∧ Reports t a ∧
    a.accepted = true

private theorem Started.exchanged_mem {flag : Flag} {t : (toolsAdapter build native).Thread}
    (hstarted : Started flag t) : exchanged flag ∈ t.trace := by
  obtain ⟨endpoint, spec, grant, a, hstarts, hreports, haccepted⟩ := hstarted
  exact hreports.reported.1 haccepted flag endpoint spec grant hstarts

/-- **Starts exclude each other**, in every state that any scheduler reaches. Between two successful
starts of a capability it was reset by a stop or a clear; a successful start was given the native
context of the process and exactly the compiled endpoint; and a start or an apply that was refused
has left the three flags alone. -/
theorem starts_exclusive {c : (toolsAdapter build native).Config}
    (hrun : System.Reachable (constructed build native) c) :
    (∀ i j t u flag, i ≠ j → c.threads[i]? = some t → c.threads[j]? = some u → Started flag t →
      Started flag u → ∃ k w, c.threads[k]? = some w ∧ w.invocation.Resets flag ∧
        ((k, ⟨.store flag false, ()⟩) ∈
            CallsBetween c.history (i, exchanged flag) (j, exchanged flag) ∨
          (k, ⟨.store flag false, ()⟩) ∈
            CallsBetween c.history (j, exchanged flag) (i, exchanged flag))) ∧
    (∀ t ∈ c.threads, ∀ flag endpoint spec grant a,
      t.invocation.Starts build flag endpoint spec grant → Reports t a → a.accepted = true →
        NativeContext.fromInstanceSpec build spec = .ok native ∧ Grants grant endpoint) ∧
    (∀ i t a, c.threads[i]? = some t → Reports t a → a.accepted = false →
      ∀ e, (i, e) ∈ c.history → Preserves e) := by
  have hc := System.consistent_of_reachable hrun
  refine ⟨?_, ?_, ?_⟩
  · intro i j t u flag hne hi hj ht hu
    have hflag : flag ≠ .instanceSpecApplied := by
      obtain ⟨_, _, _, _, ⟨rfl, -, -⟩ | ⟨rfl, -, -⟩, -, -⟩ := ht <;> decide
    have hfirst : (i, exchanged flag) ∈ c.history := by
      rw [← System.mem_share, hc.trace_eq hi]
      exact ht.exchanged_mem
    have hsecond : (j, exchanged flag) ∈ c.history := by
      rw [← System.mem_share, hc.trace_eq hj]
      exact hu.exchanged_mem
    -- one of the two exchanges came first
    obtain ⟨before, after, hsplit⟩ := List.append_of_mem hfirst
    rw [hsplit, List.mem_append, List.mem_cons] at hsecond
    rcases hsecond with hearlier | hsame | hlater
    · obtain ⟨front, between, rfl⟩ := List.append_of_mem hearlier
      rw [List.append_assoc, List.cons_append] at hsplit
      obtain ⟨k, w, hk, hw, hresets⟩ := reset_between hc hflag hsplit
      exact ⟨k, w, hw, hresets, Or.inr ⟨front, between, after, hsplit, hk⟩⟩
    · exact absurd (congrArg Prod.fst hsame).symm hne
    · obtain ⟨between, rest, rfl⟩ := List.append_of_mem hlater
      obtain ⟨k, w, hk, hw, hresets⟩ := reset_between hc hflag hsplit
      exact ⟨k, w, hw, hresets, Or.inl ⟨before, between, rest, hsplit, hk⟩⟩
  · intro t ht flag endpoint spec grant a hstarts hreports haccepted
    have hexchanged := hreports.reported.1 haccepted flag endpoint spec grant hstarts
    obtain ⟨before, after, hsplit⟩ := List.append_of_mem hexchanged
    obtain ⟨-, -, endpoint', spec', grant', hstarts', hcontext, hgrant⟩ :=
      lifecycle_guarded build native t.invocation _ _ t.reaches before _ after hsplit
    obtain ⟨-, rfl, rfl, rfl⟩ := hstarts.unique hstarts'
    exact ⟨hcontext, hgrant⟩
  · intro i t a hi hreports hrefused e he
    rw [← System.mem_share, hc.trace_eq hi] at he
    exact hreports.reported.2 hrefused e he

end Starts

/-- Whether the thread has started the publish capability. -/
def hasStarted (t : fastAdapter.Thread) : Bool :=
  (match t.invocation with
    | .startPublishCapability .. => true
    | _ => false) &&
    (t.rest.result?.bind t.invocation.acceptance).any fun a ↦ a.accepted

private theorem started_of_hasStarted {t : fastAdapter.Thread} (h : hasStarted t = true) :
    Started .publishEnabled t := by
  rw [hasStarted, Bool.and_eq_true, Option.any_eq_true] at h
  obtain ⟨hstart, a, hresult, haccepted⟩ := h
  have hstarts : ∃ spec grant, t.invocation = .startPublishCapability spec grant := by
    split at hstart
    · rename_i spec grant hk
      exact ⟨spec, grant, hk⟩
    · exact nomatch hstart
  obtain ⟨spec, grant, hk⟩ := hstarts
  exact ⟨_, spec, grant, a, Or.inl ⟨rfl, rfl, hk⟩, reports_of_result? hresult, haccepted⟩

/-- Apply and start, stop, and start again. -/
def restart : List (System.Choice fastAdapter) :=
  promptStart ++ [.invoke .stopPublishCapability, .step 2,
    .invoke (.startPublishCapability NativeContext.fastSpec fastGrant), .step 3, .step 3]

theorem starts_exclusive_restart : ∃ k w, (fastState restart).threads[k]? = some w ∧
    w.invocation.Resets .publishEnabled ∧
      ((k, ⟨.store .publishEnabled false, ()⟩) ∈
          CallsBetween (fastState restart).history (1, exchanged .publishEnabled)
            (3, exchanged .publishEnabled) ∨
        (k, ⟨.store .publishEnabled false, ()⟩) ∈
          CallsBetween (fastState restart).history (3, exchanged .publishEnabled)
            (1, exchanged .publishEnabled)) := by
  have hstate : (((fastState restart).threads[1]?).any hasStarted &&
      ((fastState restart).threads[3]?).any hasStarted) = true := by
    decide +kernel
  rw [Bool.and_eq_true, Option.any_eq_true, Option.any_eq_true] at hstate
  obtain ⟨⟨t, hi, ht⟩, u, hj, hu⟩ := hstate
  exact (starts_exclusive (reachable_fastState restart)).1 1 3 t u .publishEnabled (by decide) hi hj
    (started_of_hasStarted ht) (started_of_hasStarted hu)

end Ros2ToolsAdapter
