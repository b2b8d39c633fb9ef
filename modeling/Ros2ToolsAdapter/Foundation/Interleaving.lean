import Mathlib.Logic.Relation
import Ros2ToolsAdapter.Foundation.Interaction

/-!
# Concurrent calls on one object

Any number of threads run programs over the same calls against one shared memory. A `System` says
which programs may be invoked, which answers a call may get in a memory, and what the call does to
the memory; a step of a configuration invokes a program, unfolds a loop, or makes one call, which is
atomic. Nothing is assumed about the scheduler.

Each thread carries its own trace with the proof that it is a run of its program, so whatever is
known of every run of a program — a guard, say — is known of every thread at every point
(`Guards.of_step`). The history of a configuration records all the calls in the order they were
made: the memory is what the history did to the initial one, every answer was legal when it was
given, and a thread's trace is its share of the history (`consistent_of_reachable`).
-/

namespace Interaction

/-- Programs that share a memory. -/
structure System (Op : Type) (Ans : Op → Type) where
  Memory : Type
  Invocation : Type
  Result : Invocation → Type
  code : (k : Invocation) → Prog Op Ans (Result k)
  legal : Memory → (op : Op) → Ans op → Prop
  effect : Memory → (op : Op) → Ans op → Memory

namespace System

variable {Op : Type} {Ans : Op → Type} (S : System Op Ans)

/-- An invocation with the calls it has made and the program it has become. -/
structure Thread where
  invocation : S.Invocation
  trace : Trace Op Ans
  rest : Prog Op Ans (S.Result invocation)
  reaches : Prog.Reaches (S.code invocation) trace rest

/-- The calls of all threads in the order they were made, each with the index of its thread. -/
abbrev History (Op : Type) (Ans : Op → Type) := List (ℕ × Event Op Ans)

structure Config where
  memory : S.Memory
  threads : List S.Thread
  history : History Op Ans

variable {S}

namespace Thread

/-- A thread that has not done anything. -/
def start (k : S.Invocation) : S.Thread := ⟨k, [], S.code k, .refl⟩

/-- The thread after one step of its program. -/
def advance (t : S.Thread) {l : Option (Event Op Ans)} {q : Prog Op Ans (S.Result t.invocation)}
    (h : Prog.Step t.rest l q) : S.Thread :=
  ⟨t.invocation, t.trace ++ l.toList, q, t.reaches.step h⟩

/-- The invocation has returned. -/
def Returned (t : S.Thread) : Prop := t.rest.result?.isSome = true

theorem returns {t : S.Thread} {r : S.Result t.invocation} (h : t.rest.result? = some r) :
    Prog.Returns (S.code t.invocation) t.trace r := by
  have hreaches := t.reaches
  rwa [Prog.eq_ret_of_result? h] at hreaches

end Thread

/-- One step of a configuration, labelled with the call it makes, if any. -/
inductive Step : S.Config → Option (ℕ × Event Op Ans) → S.Config → Prop
  | invoke (c : S.Config) (k : S.Invocation) :
      Step c none { c with threads := c.threads ++ [.start k] }
  | silent (c : S.Config) (i : ℕ) (t : S.Thread) (q : Prog Op Ans (S.Result t.invocation))
      (hi : c.threads[i]? = some t) (h : Prog.Step t.rest none q) :
      Step c none { c with threads := c.threads.set i (t.advance h) }
  | call (c : S.Config) (i : ℕ) (t : S.Thread) (q : Prog Op Ans (S.Result t.invocation))
      (e : Event Op Ans) (hi : c.threads[i]? = some t) (h : Prog.Step t.rest (some e) q)
      (hlegal : S.legal c.memory e.op e.answer) :
      Step c (some (i, e)) ⟨S.effect c.memory e.op e.answer, c.threads.set i (t.advance h),
        c.history ++ [(i, e)]⟩

/-- `c'` is reached from `c` by steps that all satisfy `P`, which sees the configuration before the
step and the label. -/
def Runs (P : S.Config → Option (ℕ × Event Op Ans) → Prop) (c c' : S.Config) : Prop :=
  Relation.ReflTransGen (fun a b ↦ ∃ l, P a l ∧ Step a l b) c c'

/-- Reached by any steps. -/
def Reachable (c c' : S.Config) : Prop := Runs (fun _ _ ↦ True) c c'

/-- No invocation is in progress. -/
def Config.Quiescent (c : S.Config) : Prop := ∀ t ∈ c.threads, t.Returned

/-- No thread yet, in a given memory. -/
def initial (m : S.Memory) : S.Config := ⟨m, [], []⟩

/-- What every step keeps holds of every configuration of a run. -/
theorem Runs.induct {P : S.Config → Option (ℕ × Event Op Ans) → Prop} {J : S.Config → Prop}
    {c c' : S.Config} (hrun : Runs P c c') (hinit : J c)
    (hstep : ∀ a l b, J a → P a l → Step a l b → J b) : J c' := by
  induction hrun with
  | refl => exact hinit
  | tail _ hlast ih =>
    obtain ⟨l, hP, hl⟩ := hlast
    exact hstep _ l _ ih hP hl

theorem Runs.mono {P P' : S.Config → Option (ℕ × Event Op Ans) → Prop} {c c' : S.Config}
    (hrun : Runs P c c') (hP : ∀ a l, P a l → P' a l) : Runs P' c c' :=
  Relation.ReflTransGen.mono (fun a _ ⟨l, h, hl⟩ ↦ ⟨l, hP a l h, hl⟩) _ _ hrun

/-! ## Guards of the programs -/

/-- In every run of a program every call meets the guard. -/
def Guards (S : System Op Ans) (I : S.Invocation → Trace Op Ans → Event Op Ans → Prop) : Prop :=
  ∀ k t q, Prog.Reaches (S.code k) t q → Prog.Guarded (I k) t

/-- A call about to be made meets the guard, over the calls of its thread. -/
theorem Guards.of_step {I : S.Invocation → Trace Op Ans → Event Op Ans → Prop} (hI : S.Guards I)
    {t : S.Thread} {e : Event Op Ans} {q : Prog Op Ans (S.Result t.invocation)}
    (h : Prog.Step t.rest (some e) q) : I t.invocation t.trace e :=
  hI t.invocation _ q (t.reaches.step h) t.trace e [] rfl

/-! ## The history -/

/-- What a history does to a memory. -/
def replay (S : System Op Ans) (m : S.Memory) (history : History Op Ans) : S.Memory :=
  history.foldl (fun m ie ↦ S.effect m ie.2.op ie.2.answer) m

theorem replay_append (m : S.Memory) (before after : History Op Ans) :
    S.replay m (before ++ after) = S.replay (S.replay m before) after :=
  List.foldl_append

theorem replay_cons (m : S.Memory) (ie : ℕ × Event Op Ans) (history : History Op Ans) :
    S.replay m (ie :: history) = S.replay (S.effect m ie.2.op ie.2.answer) history := rfl

theorem replay_concat (m : S.Memory) (history : History Op Ans) (ie : ℕ × Event Op Ans) :
    S.replay m (history ++ [ie]) = S.effect (S.replay m history) ie.2.op ie.2.answer := by
  rw [replay_append]
  rfl

/-- The share of one thread in a history. -/
def share (history : History Op Ans) (i : ℕ) : Trace Op Ans :=
  history.filterMap fun ie ↦ if ie.1 = i then some ie.2 else none

theorem share_concat (history : History Op Ans) (i j : ℕ) (e : Event Op Ans) :
    share (history ++ [(j, e)]) i = share history i ++ if j = i then [e] else [] := by
  rw [share, share, List.filterMap_append]
  split <;> simp_all

theorem mem_share {history : History Op Ans} {i : ℕ} {e : Event Op Ans} :
    e ∈ share history i ↔ (i, e) ∈ history := by
  rw [share, List.mem_filterMap]
  constructor
  · rintro ⟨⟨j, e'⟩, hmem, hsome⟩
    obtain ⟨rfl, rfl⟩ : j = i ∧ e' = e := by simpa using hsome
    exact hmem
  · exact fun hmem ↦ ⟨(i, e), hmem, if_pos rfl⟩

/-- Where a thread's share of a history is split, the history is. -/
theorem share_eq_append {history : History Op Ans} {i : ℕ} {before after : Trace Op Ans}
    {e : Event Op Ans} (h : share history i = before ++ e :: after) :
    ∃ past future, history = past ++ (i, e) :: future ∧ share past i = before ∧
      share future i = after := by
  obtain ⟨past, rest, rfl, hpast, hrest⟩ := List.filterMap_eq_append_iff.mp h
  obtain ⟨idle, ⟨j, e'⟩, future, rfl, hidle, he, hfuture⟩ := List.filterMap_eq_cons_iff.mp hrest
  obtain ⟨rfl, rfl⟩ : j = i ∧ e' = e := by simpa using he
  refine ⟨past ++ idle, future, by simp, ?_, hfuture⟩
  -- what the others did between the two calls is not in the share
  have hnone : share idle j = [] := List.filterMap_eq_nil_iff.mpr hidle
  rw [share, List.filterMap_append, hpast, ← share, hnone, List.append_nil]

/-- The history accounts for the memory and for the traces of the threads. -/
structure Consistent (m : S.Memory) (c : S.Config) : Prop where
  memory : c.memory = S.replay m c.history
  legal : ∀ before i e after, c.history = before ++ (i, e) :: after →
    S.legal (S.replay m before) e.op e.answer
  trace : ∀ i, share c.history i = (c.threads[i]?).elim [] Thread.trace

theorem elim_trace_set {threads : List S.Thread} {i : ℕ} {t t' : S.Thread}
    (hi : threads[i]? = some t) (j : ℕ) :
    ((threads.set i t')[j]?).elim [] Thread.trace =
      if i = j then t'.trace else (threads[j]?).elim [] Thread.trace := by
  rw [List.getElem?_set]
  split
  · rename_i heq
    rw [if_pos (List.getElem?_eq_some_iff.mp hi).1]
    rfl
  · rfl

/-- One step keeps the account. -/
theorem Consistent.step {m : S.Memory} {c c' : S.Config} {l : Option (ℕ × Event Op Ans)}
    (hc : Consistent m c) (hstep : Step c l c') : Consistent m c' := by
  cases hstep with
  | invoke k =>
    refine ⟨hc.memory, hc.legal, ?_⟩
    intro j
    rw [hc.trace j]
    -- the new thread is the last one, and its share is empty like that of no thread
    rcases Nat.lt_trichotomy j c.threads.length with hlt | rfl | hgt
    · rw [List.getElem?_append_left hlt]
    · rw [List.getElem?_eq_none (Nat.le_refl _), List.getElem?_append_right (Nat.le_refl _),
        Nat.sub_self]
      rfl
    · rw [List.getElem?_eq_none (Nat.le_of_lt hgt), List.getElem?_eq_none]
      rw [List.length_append, List.length_singleton]
      exact hgt
  | silent i t q hi h =>
    refine ⟨hc.memory, hc.legal, ?_⟩
    intro j
    rw [hc.trace j, elim_trace_set hi]
    split
    · rename_i heq
      rw [← heq, hi]
      exact (List.append_nil t.trace).symm
    · rfl
  | call i t q e hi h hlegal =>
    refine ⟨?_, ?_, ?_⟩
    · rw [replay_concat, ← hc.memory]
    · intro before j e' after heq
      -- the call asked about is the new one, or one the history already had
      rcases List.eq_nil_or_concat after with rfl | ⟨after', last, rfl⟩
      · obtain ⟨rfl, hlast⟩ := List.append_inj' heq rfl
        obtain ⟨rfl, rfl⟩ := Prod.mk.inj (List.singleton_inj.mp hlast)
        rwa [← hc.memory]
      · rw [List.concat_eq_append, ← List.cons_append, ← List.append_assoc] at heq
        obtain ⟨hhistory, -⟩ := List.append_inj' heq rfl
        exact hc.legal before j e' after' hhistory
    · intro j
      rw [share_concat, hc.trace j, elim_trace_set hi]
      split
      · rename_i heq
        rw [← heq, hi]
        rfl
      · exact List.append_nil _

/-- Every reachable configuration is accounted for. -/
theorem consistent_of_reachable {m : S.Memory} {c : S.Config} (hrun : Reachable (initial m) c) :
    Consistent m c := by
  have hinit : Consistent m (initial m) := by
    refine ⟨rfl, ?_, fun i ↦ rfl⟩
    intro before i e after h
    simp [initial] at h
  exact Runs.induct hrun hinit fun a l b ha _ hl ↦ ha.step hl

theorem Consistent.trace_eq {m : S.Memory} {c : S.Config} (hc : Consistent m c) {i : ℕ}
    {t : S.Thread} (hi : c.threads[i]? = some t) : share c.history i = t.trace := by
  rw [hc.trace, hi]
  rfl

/-- A call in the history is one of a thread, and met the guard of its program when it was made. -/
theorem Consistent.thread_guard {m : S.Memory} {c : S.Config} (hc : Consistent m c)
    {I : S.Invocation → Trace Op Ans → Event Op Ans → Prop} (hI : S.Guards I) {i : ℕ}
    {e : Event Op Ans} (he : (i, e) ∈ c.history) :
    ∃ t before, c.threads[i]? = some t ∧ I t.invocation before e := by
  have hmem := mem_share.mpr he
  rw [hc.trace] at hmem
  cases hi : c.threads[i]? with
  -- a call of no thread has no place in the history
  | none =>
    rw [hi] at hmem
    exact absurd hmem List.not_mem_nil
  | some t =>
    rw [hi] at hmem
    obtain ⟨before, after, hsplit⟩ := List.append_of_mem hmem
    exact ⟨t, before, rfl, hI t.invocation _ _ t.reaches before e after hsplit⟩

theorem Consistent.guard {m : S.Memory} {c : S.Config} (hc : Consistent m c)
    {I : S.Invocation → Trace Op Ans → Event Op Ans → Prop} (hI : S.Guards I) {i : ℕ}
    {e : Event Op Ans} (he : (i, e) ∈ c.history) : ∃ k before, I k before e := by
  obtain ⟨t, before, -, hguard⟩ := hc.thread_guard hI he
  exact ⟨t.invocation, before, hguard⟩

/-- A call of the history met the guard over what its thread had done by then. -/
theorem Consistent.guard_at {m : S.Memory} {c : S.Config} (hc : Consistent m c)
    {I : S.Invocation → Trace Op Ans → Event Op Ans → Prop} (hI : S.Guards I)
    {past future : History Op Ans} {i : ℕ} {e : Event Op Ans}
    (h : c.history = past ++ (i, e) :: future) :
    ∃ t, c.threads[i]? = some t ∧ I t.invocation (share past i) e := by
  have hshare : share c.history i = share past i ++ e :: share future i := by
    rw [h, share, List.filterMap_append, List.filterMap_cons, if_pos rfl]
    rfl
  cases hi : c.threads[i]? with
  | none =>
    rw [hc.trace, hi] at hshare
    exact absurd hshare (by simp)
  | some t =>
    rw [hc.trace_eq hi] at hshare
    exact ⟨t, rfl, hI t.invocation _ _ t.reaches _ _ _ hshare⟩

theorem perm_flatMap_set {α β : Type*} (f : α → List β) (x' : α) {xs : List α} {i : ℕ} {x : α}
    {added : List β} (hi : xs[i]? = some x) (hx : f x' = f x ++ added) :
    ((xs.set i x').flatMap f).Perm (xs.flatMap f ++ added) := by
  induction xs generalizing i with
  | nil => cases hi
  | cons y xs ih =>
    cases i with
    | zero =>
      obtain rfl := Option.some.inj hi
      rw [List.set_cons_zero, List.flatMap_cons, List.flatMap_cons, hx, List.append_assoc,
        List.append_assoc]
      exact List.perm_append_comm.append_left _
    | succ i =>
      rw [List.set_cons_succ, List.flatMap_cons, List.flatMap_cons, List.append_assoc]
      exact (ih (by simpa using hi)).append_left _

/-- The calls of the history are those of the threads. -/
theorem history_perm {m : S.Memory} {c : S.Config} (hrun : Reachable (initial m) c) :
    (c.history.map Prod.snd).Perm (c.threads.flatMap Thread.trace) := by
  refine Runs.induct (J := fun c ↦ (c.history.map Prod.snd).Perm (c.threads.flatMap Thread.trace))
    hrun .nil ?_
  intro a l b ha _ hstep
  cases hstep with
  | invoke k =>
    rw [List.flatMap_append]
    exact ha.trans (.of_eq (List.append_nil _).symm)
  | silent i t q hi h =>
    have hset := perm_flatMap_set Thread.trace (t.advance h) hi rfl
    rw [Option.toList_none, List.append_nil] at hset
    exact ha.trans hset.symm
  | call i t q e hi h hlegal =>
    rw [List.map_append]
    exact (ha.append_right [e]).trans (perm_flatMap_set Thread.trace (t.advance h) hi rfl).symm

section Counting

variable {α β : Type*} {p q : α → Prop} [DecidablePred p] [DecidablePred q] {f : α → List β}
  {counts : β → Bool} {xs : List α}

/-- Elements that are worth at least one each. -/
theorem countP_le_countP_flatMap (h : ∀ x ∈ xs, p x → 1 ≤ (f x).countP counts) :
    xs.countP p ≤ (xs.flatMap f).countP counts := by
  induction xs with
  | nil => exact Nat.le_refl 0
  | cons x xs ih =>
    have hxs := ih fun y hy ↦ h y (List.mem_cons_of_mem _ hy)
    rw [List.countP_cons, List.flatMap_cons, List.countP_append]
    split
    · have hx := h x List.mem_cons_self (of_decide_eq_true ‹_›)
      omega
    · omega

/-- Elements that are worth at most one each, and nothing unless they are of one of two kinds. -/
theorem countP_flatMap_le_add (hone : ∀ x ∈ xs, (f x).countP counts ≤ 1)
    (hkind : ∀ x ∈ xs, 1 ≤ (f x).countP counts → p x ∨ q x) :
    (xs.flatMap f).countP counts ≤ xs.countP p + xs.countP q := by
  induction xs with
  | nil => exact Nat.le_refl 0
  | cons x xs ih =>
    have hxs := ih (fun y hy ↦ hone y (List.mem_cons_of_mem _ hy))
      fun y hy ↦ hkind y (List.mem_cons_of_mem _ hy)
    have hx := hone x List.mem_cons_self
    rw [List.countP_cons, List.countP_cons, List.flatMap_cons, List.countP_append]
    by_cases hworth : 1 ≤ (f x).countP counts
    · rcases hkind x List.mem_cons_self hworth with hp | hq
      · rw [if_pos (decide_eq_true hp)]
        omega
      · rw [if_pos (decide_eq_true hq)]
        omega
    · omega

end Counting

/-! ## Execution -/

/-- What a scheduler may do next. -/
inductive Choice (S : System Op Ans)
  | invoke (k : S.Invocation)
  | step (i : ℕ)

/-- An environment that gives legal answers. -/
abbrev Environment (S : System Op Ans) :=
  (m : S.Memory) → (op : Op) → {a : Ans op // S.legal m op a}

/-- One step of a thread, if it has not returned. -/
def stepThread (env : S.Environment) (c : S.Config) (i : ℕ) (t : S.Thread) : S.Config :=
  match h : t.rest with
  | .ret _ => c
  | .call op next =>
    ⟨S.effect c.memory op (env c.memory op), c.threads.set i
      (t.advance (h ▸ Prog.Step.call op next (env c.memory op).val :
        Prog.Step t.rest (some ⟨op, env c.memory op⟩) (next (env c.memory op)))),
      c.history ++ [(i, ⟨op, env c.memory op⟩)]⟩
  | .iter body s next =>
    { c with threads := c.threads.set i (t.advance (h ▸ Prog.Step.unfold body s next :
        Prog.Step t.rest none (Prog.unfold body s next))) }

/-- The configuration after a choice of the scheduler. -/
def tick (env : S.Environment) (c : S.Config) : Choice S → S.Config
  | .invoke k => { c with threads := c.threads ++ [.start k] }
  | .step i =>
    match c.threads[i]? with
    | none => c
    | some t => stepThread env c i t

/-- The call a program makes next. -/
def nextEvent {α : Type} (env : (op : Op) → Ans op) : Prog Op Ans α → Option (Event Op Ans)
  | .call op _ => some ⟨op, env op⟩
  | _ => none

/-- The call that is made by a choice of the scheduler. -/
def tickLabel (env : S.Environment) (c : S.Config) : Choice S → Option (ℕ × Event Op Ans)
  | .invoke _ => none
  | .step i => (c.threads[i]?).bind fun t ↦
      (nextEvent (fun op ↦ (env c.memory op).val) t.rest).map fun e ↦ (i, e)

/-- The configuration after a schedule. -/
def exec (env : S.Environment) (choices : List (Choice S)) (c : S.Config) : S.Config :=
  choices.foldl (tick env) c

/-- Every choice of the schedule satisfies `P` when it is made. -/
def Allowed (P : S.Config → Option (ℕ × Event Op Ans) → Prop) (env : S.Environment) :
    List (Choice S) → S.Config → Prop
  | [], _ => True
  | choice :: choices, c => P c (tickLabel env c choice) ∧ Allowed P env choices (tick env c choice)

/-- Whether a schedule is allowed can be computed. -/
def decideAllowed {P : S.Config → Option (ℕ × Event Op Ans) → Prop} [∀ c l, Decidable (P c l)]
    (env : S.Environment) :
    (choices : List (Choice S)) → (c : S.Config) → Decidable (Allowed P env choices c)
  | [], _ => .isTrue trivial
  | choice :: choices, c =>
    have := decideAllowed (P := P) env choices (tick env c choice)
    inferInstanceAs (Decidable (_ ∧ _))

instance {P : S.Config → Option (ℕ × Event Op Ans) → Prop} [∀ c l, Decidable (P c l)]
    (env : S.Environment) (choices : List (Choice S)) (c : S.Config) :
    Decidable (Allowed P env choices c) := decideAllowed env choices c

theorem step_stepThread (env : S.Environment) (c : S.Config) (i : ℕ) (t : S.Thread)
    (hi : c.threads[i]? = some t) :
    (stepThread env c i t = c ∧ nextEvent (fun op ↦ (env c.memory op).val) t.rest = none) ∨
      Step c ((nextEvent (fun op ↦ (env c.memory op).val) t.rest).map fun e ↦ (i, e))
        (stepThread env c i t) := by
  unfold stepThread
  split
  · rename_i a h
    rw [h]
    exact Or.inl ⟨rfl, rfl⟩
  · rename_i op next h
    have hevent : nextEvent (fun op ↦ (env c.memory op).val) t.rest =
        some ⟨op, env c.memory op⟩ := by
      rw [h]
      rfl
    rw [hevent]
    exact Or.inr (Step.call c i t _ _ hi _ (env c.memory op).property)
  · rename_i body s next h
    have hsilent : nextEvent (fun op ↦ (env c.memory op).val) t.rest = none := by
      rw [h]
      rfl
    rw [hsilent]
    exact Or.inr (Step.silent c i t _ hi _)

/-- A choice of the scheduler is a step, or does nothing. -/
theorem step_tick (env : S.Environment) (c : S.Config) (choice : Choice S) :
    (tick env c choice = c ∧ tickLabel env c choice = none) ∨
      Step c (tickLabel env c choice) (tick env c choice) := by
  cases choice with
  | invoke k => exact Or.inr (Step.invoke c k)
  | step i =>
    cases hi : c.threads[i]? with
    | none => exact Or.inl (by simp only [tick, tickLabel, hi, Option.bind_none, and_self])
    | some t =>
      simp only [tick, tickLabel, hi, Option.bind_some, Option.map_eq_none_iff]
      exact step_stepThread env c i t hi

/-- A choice that makes a call is a step. -/
theorem step_of_tickLabel {env : S.Environment} {c : S.Config} {choice : Choice S}
    {ie : ℕ × Event Op Ans} (h : tickLabel env c choice = some ie) :
    Step c (some ie) (tick env c choice) := by
  rcases step_tick env c choice with ⟨-, hnone⟩ | hstep
  · exact nomatch h.symm.trans hnone
  · rwa [h] at hstep

/-- A schedule is a run. -/
theorem runs_exec {P : S.Config → Option (ℕ × Event Op Ans) → Prop} (env : S.Environment)
    (choices : List (Choice S)) (c : S.Config) (h : Allowed P env choices c) :
    Runs P c (exec env choices c) := by
  induction choices generalizing c with
  | nil => exact Relation.ReflTransGen.refl
  | cons choice choices ih =>
    obtain ⟨hP, hrest⟩ := h
    have hrun : Runs P (tick env c choice) (exec env (choice :: choices) c) := ih _ hrest
    rcases step_tick env c choice with ⟨hsame, -⟩ | hstep
    · rwa [hsame] at hrun
    · exact Relation.ReflTransGen.head ⟨_, hP, hstep⟩ hrun

theorem allowed_true (env : S.Environment) (choices : List (Choice S)) (c : S.Config) :
    Allowed (fun _ _ ↦ True) env choices c := by
  induction choices generalizing c with
  | nil => trivial
  | cons choice choices ih => exact ⟨trivial, ih _⟩

/-- A schedule reaches what it comes to. -/
theorem reachable_exec (env : S.Environment) (choices : List (Choice S)) (c : S.Config) :
    Reachable c (exec env choices c) :=
  runs_exec env choices c (allowed_true env choices c)

end System

end Interaction
