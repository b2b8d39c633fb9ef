import Ros2ToolsAdapter.Foundation.Throwing

/-!
# Phases

A program often has a stretch in which it may make some calls and not others, goes on only while
what it hears lets it, and gives up with exceptions of one kind: everything before a commit point is
such a stretch. `Phase` names the three conditions, and `Phase.Passes φ p P` says that the program
`p` stays in the phase `φ`, and that when it returns `a` its calls form a segment `s` with `P s a`.

The rules compose segments by concatenation, so a fact about the trace of a long block is assembled
from facts about its parts. `Passes` speaks about no guard and no postcondition in particular; it
can be used under all that tolerate the phase (`Phase.Lenient`).
-/

namespace Interaction

/-- A stretch of a program: the calls it may make, the events after which it may go on, and the
exceptions it may leave with. -/
structure Phase (ε Op : Type) (Ans : Op → Type) where
  allowed : Op → Prop
  quiet : Event Op Ans → Prop
  raised : ε → Prop
  allowed_of_quiet : ∀ e, quiet e → allowed e.op

namespace Phase

variable {ε Op : Type} {Ans : Op → Type} {α β : Type} (φ : Phase ε Op Ans)

/-- Only calls of the phase have been made. -/
def Stays (h : Trace Op Ans) : Prop := ∀ e ∈ h, φ.allowed e.op

/-- Nothing has been heard that ends the phase. -/
def Quiet (h : Trace Op Ans) : Prop := ∀ e ∈ h, φ.quiet e

/-- A guard and a postcondition for exceptions that put up with whatever happens in the phase. -/
structure Lenient (I : Trace Op Ans → Event Op Ans → Prop) (E : Trace Op Ans → ε → Prop) :
    Prop where
  allowed : ∀ h e, φ.allowed e.op → I h e
  raised : ∀ h e, φ.Stays h → φ.raised e → E h e

/-- From a quiet trace on, the program stays in the phase, and returns with a quiet segment that
meets `P`. -/
def Passes (p : Proc ε Op Ans α) (P : Trace Op Ans → α → Prop) : Prop :=
  ∀ I E h, φ.Lenient I E → φ.Quiet h →
    Proc.wp I p (fun h' a ↦ ∃ s, h' = h ++ s ∧ φ.Quiet s ∧ P s a) E h

variable {φ}

theorem Quiet.stays {h : Trace Op Ans} (hquiet : φ.Quiet h) : φ.Stays h :=
  fun e he ↦ φ.allowed_of_quiet e (hquiet e he)

theorem Quiet.append {h s : Trace Op Ans} (hh : φ.Quiet h) (hs : φ.Quiet s) :
    φ.Quiet (h ++ s) := by
  intro e he
  exact (List.mem_append.mp he).elim (hh e) (hs e)

theorem Stays.concat {h : Trace Op Ans} {e : Event Op Ans} (hh : φ.Stays h)
    (he : φ.allowed e.op) : φ.Stays (h ++ [e]) := by
  intro e' he'
  rcases List.mem_append.mp he' with hmem | hmem
  · exact hh e' hmem
  · rwa [List.mem_singleton.mp hmem]

@[simp] theorem quiet_singleton {e : Event Op Ans} : φ.Quiet [e] ↔ φ.quiet e := by simp [Quiet]

namespace Passes

variable {p : Proc ε Op Ans α} {P : Trace Op Ans → α → Prop}

theorem mono (hp : φ.Passes p P) {P' : Trace Op Ans → α → Prop}
    (hP : ∀ s a, φ.Quiet s → P s a → P' s a) : φ.Passes p P' := by
  intro I E h hlenient hquiet
  refine Proc.wp_mono ?_ (fun _ _ he ↦ he) (hp I E h hlenient hquiet)
  rintro h' a ⟨s, rfl, hs, hPs⟩
  exact ⟨s, rfl, hs, hP s a hs hPs⟩

theorem pure {a : α} (hP : P [] a) : φ.Passes (pure a : Proc ε Op Ans α) P :=
  fun _ _ h _ _ ↦ ⟨[], (List.append_nil h).symm, by simp [Quiet], hP⟩

/-- Sequencing: the segments are concatenated. -/
theorem bind (hp : φ.Passes p P) {f : α → Proc ε Op Ans β} {Q : Trace Op Ans → β → Prop}
    (hf : ∀ s a, φ.Quiet s → P s a → φ.Passes (f a) fun s' b ↦ Q (s ++ s') b) :
    φ.Passes (p >>= f) Q := by
  intro I E h hlenient hquiet
  refine Proc.wp_bind_of (hp I E h hlenient hquiet) ?_
  rintro h' a ⟨s, rfl, hs, hPs⟩
  refine Proc.wp_mono ?_ (fun _ _ he ↦ he) (hf s a hs hPs I E _ hlenient (hquiet.append hs))
  rintro h'' b ⟨s', rfl, hs', hQ⟩
  exact ⟨s ++ s', List.append_assoc h s s', hs.append hs', hQ⟩

/-- A computation without calls that throws what the phase may throw. -/
theorem lift {x : Except ε α} (hraised : ∀ e, x = .error e → φ.raised e) :
    φ.Passes (liftM x : Proc ε Op Ans α) fun s a ↦ s = [] ∧ x = .ok a := by
  intro I E h hlenient hquiet
  rw [Proc.wp_lift]
  cases x with
  | ok a => exact ⟨[], (List.append_nil h).symm, by simp [Quiet], rfl, rfl⟩
  | error e => exact hlenient.raised h e hquiet.stays (hraised e rfl)

/-- An exception of the phase. -/
theorem throw {e : ε} (hraised : φ.raised e) : φ.Passes (throw e : Proc ε Op Ans α) P :=
  fun _ _ h hlenient hquiet ↦ hlenient.raised h e hquiet.stays hraised

/-- A call after which the phase goes on, whatever the answer. -/
theorem perform {op : Op} (hop : ∀ a, φ.quiet ⟨op, a⟩) :
    φ.Passes (Proc.perform op) fun s a ↦ s = [⟨op, a⟩] := by
  intro I E h hlenient hquiet
  rw [Proc.wp_perform]
  intro a
  refine ⟨hlenient.allowed h _ (φ.allowed_of_quiet _ (hop a)), [⟨op, a⟩], rfl, ?_, rfl⟩
  exact quiet_singleton.mpr (hop a)

/-- A call with an answer that is checked at once: the phase goes on where the check passes. -/
theorem invoke {op : Op} {result : Ans op → Except ε α} (hallowed : φ.allowed op)
    (hquiet : ∀ a r, result a = .ok r → φ.quiet ⟨op, a⟩)
    (hraised : ∀ a e, result a = .error e → φ.raised e) :
    φ.Passes (Proc.invoke op result) fun s r ↦ ∃ a, s = [⟨op, a⟩] ∧ result a = .ok r := by
  intro I E h hlenient hh
  rw [Proc.wp_invoke]
  intro a
  refine ⟨hlenient.allowed h _ hallowed, ?_⟩
  cases hresult : result a with
  | ok r => exact ⟨[⟨op, a⟩], rfl, quiet_singleton.mpr (hquiet a r hresult), a, rfl, hresult⟩
  -- a rejected answer need not be quiet, but the call itself is still one of the phase
  | error e =>
    exact hlenient.raised _ e (hh.stays.concat hallowed) (hraised a e hresult)

/-- A `try` whose handler throws an exception of the phase. -/
theorem rethrowing (hp : φ.Passes p P) {rethrow : ε → ε} (hraised : ∀ e, φ.raised (rethrow e)) :
    φ.Passes (Proc.rethrowing p rethrow) P := by
  intro I E h hlenient hquiet
  refine Proc.wp_rethrowing (hp I _ h ⟨hlenient.allowed, ?_⟩ hquiet)
  intro h' e hstays _
  exact hlenient.raised h' _ hstays (hraised e)

/-- A loop: its segment is that of the rounds that went on, each meeting `R`, and that of the
condition that ended it. -/
theorem whileDo {cond : Proc ε Op Ans Bool} {body : Proc ε Op Ans Unit}
    {C R : Trace Op Ans → Prop} {X : Trace Op Ans → Prop}
    (hcond : φ.Passes cond fun s c ↦ (c = true → C s) ∧ (c = false → X s))
    (hbody : ∀ s, φ.Quiet s → C s → φ.Passes body fun s' _ ↦ R (s ++ s')) :
    φ.Passes (Proc.whileDo cond body) fun s _ ↦
      ∃ rounds exit, s = List.flatten rounds ++ exit ∧ (∀ r ∈ rounds, R r) ∧ X exit := by
  intro I E h hlenient hquiet
  -- the invariant: since entry there have been finished rounds and nothing else
  refine Proc.wp_whileDo (fun h' ↦ ∃ rounds : List (Trace Op Ans),
    h' = h ++ rounds.flatten ∧ φ.Quiet rounds.flatten ∧ ∀ r ∈ rounds, R r)
    ⟨[], by simp, by simp [Quiet], by simp⟩ ?_
  rintro h' ⟨rounds, rfl, hrounds, hR⟩
  refine Proc.wp_mono ?_ (fun _ _ he ↦ he)
    (hcond I E _ hlenient (hquiet.append hrounds))
  rintro h' c ⟨s, rfl, hs, hC, hX⟩
  constructor
  · intro hc
    refine Proc.wp_mono ?_ (fun _ _ he ↦ he)
      (hbody s hs (hC hc) I E _ hlenient ((hquiet.append hrounds).append hs))
    rintro h' - ⟨s', rfl, hs', hround⟩
    refine ⟨rounds ++ [s ++ s'], by simp, ?_, ?_⟩
    · rw [List.flatten_append, List.flatten_singleton]
      exact hrounds.append (hs.append hs')
    · intro r hr
      rcases List.mem_append.mp hr with hr | hr
      · exact hR r hr
      · rwa [List.mem_singleton.mp hr]
  · intro hc
    exact ⟨rounds.flatten ++ s, List.append_assoc _ _ _, hrounds.append hs, rounds, s, rfl, hR,
      hX hc⟩

/-- A `try` block whose body stays in the phase: what is known of each of its complete runs. -/
theorem returns {R : Trace Op Ans → α → Prop} {handler : ε → α} (hp : φ.Passes p R)
    (hhandler : ∀ run e, φ.raised e → R run (handler e)) {run : Trace Op Ans} {a : α}
    (hrun : Prog.Returns (Proc.catching p handler) run a) : R run a := by
  refine Prog.wp_returns (I := fun _ _ ↦ True) (Proc.wp_catching ?_) hrun
  refine Proc.wp_mono ?_ (fun _ _ he ↦ he) (hp _ (fun h e ↦ R h (handler e)) []
    ⟨fun _ _ _ ↦ trivial, fun h e _ ↦ hhandler h e⟩ (by simp [Quiet]))
  rintro h' a ⟨s, rfl, -, hR⟩
  exact hR

end Passes

/-! ## Calls of one kind -/

/-- The phase of a program all of whose calls satisfy `P`, whatever it hears or throws. -/
def making (P : Op → Prop) : Phase ε Op Ans where
  allowed := P
  quiet e := P e.op
  raised _ := True
  allowed_of_quiet _ := id

section Making

variable {P : Op → Prop} {Q : Trace Op Ans → α → Prop}

theorem making_perform {op : Op} (h : P op) :
    (making P : Phase ε Op Ans).Passes (Proc.perform op) fun s a ↦ s = [⟨op, a⟩] :=
  Passes.perform fun _ ↦ h

theorem making_invoke {op : Op} {result : Ans op → Except ε α} (h : P op) :
    (making P).Passes (Proc.invoke op result) fun s r ↦ ∃ a, s = [⟨op, a⟩] ∧ result a = .ok r :=
  Passes.invoke h (fun _ _ _ ↦ h) fun _ _ _ ↦ trivial

theorem making_lift (x : Except ε α) :
    (making P : Phase ε Op Ans).Passes (liftM x) fun s a ↦ s = [] ∧ x = .ok a :=
  Passes.lift fun _ _ ↦ trivial

theorem making_throw (e : ε) :
    (making P : Phase ε Op Ans).Passes (throw e : Proc ε Op Ans α) Q :=
  Passes.throw trivial

/-- A `try` block in the phase: what its complete runs call, and what they return. -/
theorem making_returns {p : Proc ε Op Ans α} {R : α → Prop} {handler : ε → α}
    (hp : (making P).Passes p fun _ a ↦ R a) (hhandler : ∀ e, R (handler e)) {run : Trace Op Ans}
    {a : α} (hrun : Prog.Returns (Proc.catching p handler) run a) :
    (∀ e ∈ run, P e.op) ∧ R a := by
  have hwp : Prog.wp (fun _ e ↦ P e.op) (Proc.catching p handler) (fun _ a ↦ R a) [] := by
    refine Proc.wp_catching (Proc.wp_mono ?_ (fun _ e _ ↦ hhandler e)
      (hp _ (fun _ _ ↦ True) [] ⟨fun _ _ he ↦ he, fun _ _ _ _ ↦ trivial⟩ (by simp [Quiet])))
    rintro h' a ⟨s, -, -, hR⟩
    exact hR
  obtain ⟨hguarded, hR⟩ := Prog.wp_sound hwp hrun
  refine ⟨?_, hR⟩
  intro e he
  obtain ⟨before, after, hsplit⟩ := List.append_of_mem he
  exact hguarded before e after hsplit

end Making

end Phase

end Interaction
