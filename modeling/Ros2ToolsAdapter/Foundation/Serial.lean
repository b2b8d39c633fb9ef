import Ros2ToolsAdapter.Foundation.Interleaving

/-!
# Invocations that take turns

Some invocations of a system write its memory, and the others only look at it. In a run in which the
writers take turns, each invoked when those before it have returned, the memory is what the writers
make of it one after the other, every one alone with what the one before it has left
(`serial_of_turns`). How many readers there are does not matter, nor where the scheduler puts their
calls.
-/

namespace Interaction

namespace System

variable {Op : Type} {Ans : Op → Type} {S : System Op Ans}

/-! ## One trace and a memory -/

variable (S) in
/-- What a trace does to a memory. -/
def after (m : S.Memory) (trace : Trace Op Ans) : S.Memory :=
  trace.foldl (fun m e ↦ S.effect m e.op e.answer) m

variable (S) in
/-- Every answer of a trace was legal, for one that is alone with a memory. -/
def LegalFrom : S.Memory → Trace Op Ans → Prop
  | _, [] => True
  | m, e :: trace => S.legal m e.op e.answer ∧ LegalFrom (S.effect m e.op e.answer) trace

theorem after_append (m : S.Memory) (trace trace' : Trace Op Ans) :
    S.after m (trace ++ trace') = S.after (S.after m trace) trace' := List.foldl_append

theorem legalFrom_append {m : S.Memory} {trace trace' : Trace Op Ans} :
    S.LegalFrom m (trace ++ trace') ↔
      S.LegalFrom m trace ∧ S.LegalFrom (S.after m trace) trace' := by
  induction trace generalizing m with
  | nil => exact ⟨fun h ↦ ⟨trivial, h⟩, And.right⟩
  | cons e trace ih =>
    rw [List.cons_append, LegalFrom, LegalFrom, ih, and_assoc]
    rfl

/-! ## Writers one after the other -/

variable (writes : S.Invocation → Bool)

/-- The writers among the threads lead from one memory to the other, each to its end before the next
begins; only the last may not have returned. -/
inductive Serial : S.Memory → List S.Thread → S.Memory → Prop
  | nil (m : S.Memory) : Serial m [] m
  | reader {m m' : S.Memory} {t : S.Thread} {threads : List S.Thread}
    (ht : writes t.invocation = false) (h : Serial m threads m') : Serial m (t :: threads) m'
  | writer {m m' : S.Memory} {t : S.Thread} {threads : List S.Thread}
    (ht : writes t.invocation = true) (hlegal : S.LegalFrom m t.trace)
    (hlast : ¬ t.Returned → ∀ t' ∈ threads, writes t'.invocation = false)
    (h : Serial (S.after m t.trace) threads m') : Serial m (t :: threads) m'

/-- Readers leave the memory as it is. -/
def Reads : Prop :=
  S.Guards fun k _ e ↦ writes k = true ∨ ∀ m, S.effect m e.op e.answer = m

/-- A step that does not invoke a writer while another one is at work. -/
def Turn (c c' : S.Config) : Prop :=
  (∃ l, Step c l c') ∧ ∀ k, c'.threads = c.threads ++ [.start k] → writes k = true →
    ∀ t ∈ c.threads, writes t.invocation = true → t.Returned

/-- `c'` is reached from `c` by such steps. -/
def Turns (c c' : S.Config) : Prop := Relation.ReflTransGen (Turn writes) c c'

variable {writes}

theorem not_returned_of_step {t : S.Thread} {l : Option (Event Op Ans)}
    {q : Prog Op Ans (S.Result t.invocation)} (h : Prog.Step t.rest l q) : ¬ t.Returned := by
  intro hreturned
  obtain ⟨r, hr⟩ := Option.isSome_iff_exists.mp hreturned
  rw [Prog.eq_ret_of_result? hr] at h
  cases h

namespace Serial

variable {m m' : S.Memory} {threads : List S.Thread}

/-- The first thread is a reader, or a writer that others follow only when it has returned. -/
theorem cons_cases {t : S.Thread} (h : Serial writes m (t :: threads) m') :
    (writes t.invocation = false ∧ Serial writes m threads m') ∨
      (writes t.invocation = true ∧ S.LegalFrom m t.trace ∧
        (¬ t.Returned → ∀ t' ∈ threads, writes t'.invocation = false) ∧
          Serial writes (S.after m t.trace) threads m') := by
  cases h with
  | reader ht h => exact Or.inl ⟨ht, h⟩
  | writer ht hlegal hlast h => exact Or.inr ⟨ht, hlegal, hlast, h⟩

/-- Without a writer nothing happens to the memory. -/
theorem iff_of_readers (h : ∀ t ∈ threads, writes t.invocation = false) :
    Serial writes m threads m' ↔ m' = m := by
  constructor
  · intro hserial
    induction hserial with
    | nil => rfl
    | reader _ _ ih => exact ih fun t ht ↦ h t (List.mem_cons_of_mem _ ht)
    | writer ht => exact nomatch (h _ List.mem_cons_self).symm.trans ht
  · rintro rfl
    induction threads with
    | nil => exact .nil _
    | cons t threads ih =>
      exact .reader (h t List.mem_cons_self) (ih fun t' ht' ↦ h t' (List.mem_cons_of_mem _ ht'))

/-- A thread is invoked: a writer only when all others have returned. -/
theorem start (h : Serial writes m threads m') {k : S.Invocation}
    (hturn : writes k = true → ∀ t ∈ threads, writes t.invocation = true → t.Returned) :
    Serial writes m (threads ++ [.start k]) m' := by
  induction h with
  | nil m =>
    cases hk : writes k with
    | false => exact .reader hk (.nil m)
    | true => exact .writer hk trivial (fun _ _ hmem ↦ absurd hmem List.not_mem_nil) (.nil m)
  | reader ht _ ih =>
    exact .reader ht (ih fun hk t' ht' ↦ hturn hk t' (List.mem_cons_of_mem _ ht'))
  | writer ht hlegal hlast _ ih =>
    refine .writer ht hlegal (fun hrunning ↦ ?_)
      (ih fun hk t' ht' ↦ hturn hk t' (List.mem_cons_of_mem _ ht'))
    refine List.forall_mem_append.mpr ⟨hlast hrunning, List.forall_mem_singleton.mpr ?_⟩
    refine Bool.eq_false_iff.mpr fun hk ↦ ?_
    exact hrunning (hturn hk _ List.mem_cons_self ht)

/-- A thread goes on: a writer at work is the last one. -/
theorem advance (h : Serial writes m threads m') {i : ℕ} {t : S.Thread}
    (hi : threads[i]? = some t) (hrunning : ¬ t.Returned) (trace : Trace Op Ans)
    (hlegal : S.LegalFrom m' trace)
    (hreads : writes t.invocation = false → S.after m' trace = m') {t' : S.Thread}
    (hinvocation : t'.invocation = t.invocation) (htrace : t'.trace = t.trace ++ trace) :
    Serial writes m (threads.set i t') (S.after m' trace) := by
  induction h generalizing i with
  | nil => cases hi
  | reader ht h ih =>
    cases i with
    | zero =>
      obtain rfl := Option.some.inj hi
      rw [hreads ht]
      exact .reader (by rwa [hinvocation]) h
    | succ i => exact .reader ht (ih hi hlegal hreads)
  | writer ht hlegal' hlast h ih =>
    cases i with
    | zero =>
      obtain rfl := Option.some.inj hi
      obtain rfl := (iff_of_readers (hlast hrunning)).mp h
      refine .writer (by rwa [hinvocation]) ?_ (fun _ ↦ hlast hrunning) ?_
      · rw [htrace]
        exact legalFrom_append.mpr ⟨hlegal', hlegal⟩
      · rw [htrace, after_append]
        exact (iff_of_readers (hlast hrunning)).mpr rfl
    | succ i =>
      refine .writer ht hlegal' (fun hrunning' t₁ ht₁ ↦ ?_) (ih hi hlegal hreads)
      rcases List.mem_or_eq_of_mem_set ht₁ with hmem | rfl
      · exact hlast hrunning' t₁ hmem
      · rw [hinvocation]
        exact hlast hrunning' t (List.mem_of_getElem? hi)

theorem step {c c' : S.Config} (hreads : Reads writes) (h : Serial writes m c.threads c.memory)
    (hturn : Turn writes c c') : Serial writes m c'.threads c'.memory := by
  obtain ⟨⟨l, hstep⟩, hturn⟩ := hturn
  cases hstep with
  | invoke k => exact h.start (hturn k rfl)
  | silent i t q hi hq =>
    have hrunning := not_returned_of_step hq
    exact h.advance hi hrunning [] trivial (fun _ ↦ rfl) rfl rfl
  | call i t q e hi hq hlegal =>
    have hrunning := not_returned_of_step hq
    refine h.advance hi hrunning [e] ⟨hlegal, trivial⟩ (fun ht ↦ ?_) rfl rfl
    rcases hreads.of_step hq with hwrites | hkeeps
    · exact nomatch ht.symm.trans hwrites
    · exact hkeeps _

end Serial

/-- **Writers that take turns are serial**, whatever the readers do meanwhile. -/
theorem serial_of_turns (hreads : Reads writes) {m : S.Memory} {c : S.Config}
    (hrun : Turns writes (initial m) c) : Serial writes m c.threads c.memory := by
  induction hrun with
  | refl => exact .nil m
  | tail _ hturn ih => exact ih.step hreads hturn

/-! ## Schedules -/

/-- A schedule that lets the writers take turns. -/
def Polite (writes : S.Invocation → Bool) (env : S.Environment) :
    List (Choice S) → S.Config → Prop
  | [], _ => True
  | .invoke k :: choices, c =>
    (writes k = true → ∀ t ∈ c.threads, writes t.invocation = true → t.Returned) ∧
      Polite writes env choices (tick env c (.invoke k))
  | .step i :: choices, c => Polite writes env choices (tick env c (.step i))

instance (t : S.Thread) : Decidable t.Returned := inferInstanceAs (Decidable (_ = true))

/-- Whether a schedule is polite can be computed. -/
def decidePolite (env : S.Environment) :
    (choices : List (Choice S)) → (c : S.Config) → Decidable (Polite writes env choices c)
  | [], _ => .isTrue trivial
  | .invoke k :: choices, c =>
    have := decidePolite env choices (tick env c (.invoke k))
    inferInstanceAs (Decidable (_ ∧ _))
  | .step i :: choices, c => decidePolite env choices (tick env c (.step i))

instance (env : S.Environment) (choices : List (Choice S)) (c : S.Config) :
    Decidable (Polite writes env choices c) := decidePolite env choices c

theorem length_threads_tick (env : S.Environment) (c : S.Config) (i : ℕ) :
    (tick env c (.step i)).threads.length = c.threads.length := by
  rw [tick]
  split
  · rfl
  · unfold stepThread
    split <;> simp

theorem turns_exec (env : S.Environment) (choices : List (Choice S)) (c : S.Config)
    (h : Polite writes env choices c) : Turns writes c (exec env choices c) := by
  induction choices generalizing c with
  | nil => exact Relation.ReflTransGen.refl
  | cons choice choices ih =>
    cases choice with
    | invoke k =>
      refine Relation.ReflTransGen.head ⟨⟨_, .invoke c k⟩, fun k' hk' ↦ ?_⟩ (ih _ h.2)
      obtain hstart := List.singleton_inj.mp (List.append_cancel_left hk')
      obtain rfl : k = k' := congrArg Thread.invocation hstart
      exact h.1
    | step i =>
      rcases step_tick env c (.step i) with ⟨hsame, -⟩ | hstep
      · have hrun : Turns writes (tick env c (.step i)) (exec env (.step i :: choices) c) := ih _ h
        rwa [hsame] at hrun
      · refine Relation.ReflTransGen.head ⟨⟨_, hstep⟩, fun k hk ↦ ?_⟩ (ih _ h)
        -- no thread is new
        have hlength := congrArg List.length hk
        rw [length_threads_tick, List.length_append, List.length_singleton] at hlength
        omega

end System

end Interaction
