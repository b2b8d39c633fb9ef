import Mathlib.Data.List.Basic
import Mathlib.Data.List.Induction
import Mathlib.Logic.Basic

/-!
# Programs that talk to an environment

A program that calls out of the code under study — reads a clock, loads an atomic, sends a message —
is determined by the calls it makes and by what it does with each answer; the answers are not its
own. `Prog Op Ans α` is that: a tree whose nodes are calls `op : Op`, branching over the answers
`Ans op`. A run of the program is then a path through the tree, recorded as the trace of its calls
with the answers they got, and "for every behaviour of the environment" is "for every path".

## Loops

A polling loop may run forever, so a finite tree cannot hold it. Instead of a bound on the number of
iterations, a loop is a node of its own, `iter`, which unfolds one round at a time by a silent step.
Every finite prefix of a run is a finite number of steps, and that is all a safety property needs.

## Reasoning

`Prog.wp` is a weakest precondition over the trace so far: every call the program makes must meet a
guard that may look at everything before it, and the value returned must meet a postcondition that
may look at the whole trace. It is defined by recursion on the tree, so its rules are equations, and
`wp_sound` is the one induction over runs. A loop is discharged by an invariant.
-/

namespace Interaction

/-- One call together with the answer it got. -/
structure Event (Op : Type) (Ans : Op → Type) where
  op : Op
  answer : Ans op

/-- The calls of a run, oldest first. -/
abbrev Trace (Op : Type) (Ans : Op → Type) := List (Event Op Ans)

/-- A program over the calls `Op`: return, call and go on with the answer, or repeat `body` until
it yields a result. -/
inductive Prog (Op : Type) (Ans : Op → Type) : Type → Type 1
  | ret {α : Type} (a : α) : Prog Op Ans α
  | call {α : Type} (op : Op) (next : Ans op → Prog Op Ans α) : Prog Op Ans α
  | iter {α σ β : Type} (body : σ → Prog Op Ans (σ ⊕ β)) (start : σ)
      (next : β → Prog Op Ans α) : Prog Op Ans α

namespace Prog

variable {Op : Type} {Ans : Op → Type} {α γ : Type}

/-- Sequential composition. -/
protected def bind : Prog Op Ans α → (α → Prog Op Ans γ) → Prog Op Ans γ
  | .ret a, f => f a
  | .call op next, f => .call op fun a ↦ (next a).bind f
  | .iter body s next, f => .iter body s fun b ↦ (next b).bind f

instance : Monad (Prog Op Ans) where
  pure := .ret
  bind := Prog.bind

/-- One call. -/
def perform (op : Op) : Prog Op Ans (Ans op) := .call op .ret

@[simp] theorem pure_def (a : α) : (pure a : Prog Op Ans α) = .ret a := rfl

@[simp] theorem bind_def (p : Prog Op Ans α) (f : α → Prog Op Ans γ) : p >>= f = p.bind f := rfl

/-- One round of a loop: run the body, then either go round again or leave. -/
def unfold {σ β : Type} (body : σ → Prog Op Ans (σ ⊕ β)) (s : σ) (next : β → Prog Op Ans α) :
    Prog Op Ans α :=
  (body s).bind (Sum.elim (fun s' ↦ .iter body s' next) next)

/-! ## Runs -/

/-- One step: a call answered by the environment, or a loop unfolding in silence. -/
inductive Step : Prog Op Ans α → Option (Event Op Ans) → Prog Op Ans α → Prop
  | call (op : Op) (next : Ans op → Prog Op Ans α) (a : Ans op) :
      Step (.call op next) (some ⟨op, a⟩) (next a)
  | unfold {σ β : Type} (body : σ → Prog Op Ans (σ ⊕ β)) (s : σ) (next : β → Prog Op Ans α) :
      Step (.iter body s next) none (unfold body s next)

/-- The program `p`, having made the calls of the trace, has become the program on the right. -/
inductive Reaches (p : Prog Op Ans α) : Trace Op Ans → Prog Op Ans α → Prop
  | refl : Reaches p [] p
  | step {t : Trace Op Ans} {q r : Prog Op Ans α} {l : Option (Event Op Ans)} :
      Reaches p t q → Step q l r → Reaches p (t ++ l.toList) r

/-- A complete run: the program made the calls of the trace and returned. -/
def Returns (p : Prog Op Ans α) (t : Trace Op Ans) (a : α) : Prop := Reaches p t (.ret a)

theorem Reaches.trans {p q r : Prog Op Ans α} {t u : Trace Op Ans} (hpq : Reaches p t q)
    (hqr : Reaches q u r) : Reaches p (t ++ u) r := by
  induction hqr with
  | refl => simpa using hpq
  | step _ hstep ih =>
    rw [← List.append_assoc]
    exact ih.step hstep

/-- A run of what a call goes on with is a run of the call. -/
theorem Returns.call {op : Op} {next : Ans op → Prog Op Ans α} {a : Ans op} {t : Trace Op Ans}
    {r : α} (h : Returns (next a) t r) : Returns (.call op next) (⟨op, a⟩ :: t) r := by
  have hstep : Reaches (.call op next) ([] ++ [⟨op, a⟩]) (next a) :=
    Reaches.refl.step (Step.call op next a)
  exact hstep.trans h

/-- Every event of the trace meets the guard, which sees the events before it. -/
def Guarded (I : Trace Op Ans → Event Op Ans → Prop) (t : Trace Op Ans) : Prop :=
  ∀ before e after, t = before ++ e :: after → I before e

theorem guarded_nil (I : Trace Op Ans → Event Op Ans → Prop) : Guarded I [] := by
  intro before e after h
  simp at h

theorem Guarded.mono {I J : Trace Op Ans → Event Op Ans → Prop} {t : Trace Op Ans}
    (ht : Guarded I t) (hIJ : ∀ h e, I h e → J h e) : Guarded J t :=
  fun before e after heq ↦ hIJ before e (ht before e after heq)

theorem Guarded.concat {I : Trace Op Ans → Event Op Ans → Prop} {t : Trace Op Ans}
    {e : Event Op Ans} (ht : Guarded I t) (he : I t e) : Guarded I (t ++ [e]) := by
  intro before e' after h
  -- the event asked about is the new one exactly when nothing stands after it
  rcases List.eq_nil_or_concat after with rfl | ⟨after', last, rfl⟩
  · obtain ⟨rfl, hlast⟩ := List.append_inj' h rfl
    obtain rfl := List.singleton_inj.mp hlast
    exact he
  · rw [List.concat_eq_append, ← List.cons_append, ← List.append_assoc] at h
    obtain ⟨rfl, -⟩ := List.append_inj' h rfl
    exact ht before e' after' rfl

/-- A run that makes a kind of call only where it has not been made makes it at most once. -/
theorem Guarded.countP_le_one {p : Event Op Ans → Bool} {t : Trace Op Ans}
    (ht : Guarded (fun before e ↦ p e = true → ∀ e' ∈ before, p e' = false) t) :
    t.countP p ≤ 1 := by
  induction t using List.reverseRecOn with
  | nil => exact Nat.zero_le 1
  | append_singleton t e ih =>
    have hinit : t.countP p ≤ 1 := by
      refine ih fun before e' after heq ↦ ht before e' (after ++ [e]) ?_
      rw [heq, List.append_assoc, List.cons_append]
    rw [List.countP_append, List.countP_singleton]
    split
    · rename_i he
      have hnone : t.countP p = 0 := by
        refine List.countP_eq_zero.mpr fun e' he' ↦ ?_
        rw [ht t e [] rfl he e' he']
        exact Bool.false_ne_true
      exact Nat.le_of_eq (congrArg (· + 1) hnone)
    · exact hinit

/-! ## Weakest preconditions -/

/-- From the trace `h` on, every call of the program meets the guard `I`, and a value it returns
meets `Q` with the trace by then. A loop owes an invariant over its state and the trace. -/
def wp (I : Trace Op Ans → Event Op Ans → Prop) {α : Type} :
    Prog Op Ans α → (Trace Op Ans → α → Prop) → Trace Op Ans → Prop
  | .ret a, Q, h => Q h a
  | .call op next, Q, h => ∀ a, I h ⟨op, a⟩ ∧ wp I (next a) Q (h ++ [⟨op, a⟩])
  | .iter (σ := σ) body s next, Q, h => ∃ J : σ → Trace Op Ans → Prop, J s h ∧
      ∀ s h, J s h → wp I (body s)
        (fun h' ↦ Sum.elim (fun s' ↦ J s' h') (fun b ↦ wp I (next b) Q h')) h

variable {I : Trace Op Ans → Event Op Ans → Prop}

@[simp] theorem wp_ret (a : α) (Q : Trace Op Ans → α → Prop) (h : Trace Op Ans) :
    wp I (.ret a) Q h ↔ Q h a := Iff.rfl

@[simp] theorem wp_call (op : Op) (next : Ans op → Prog Op Ans α) (Q : Trace Op Ans → α → Prop)
    (h : Trace Op Ans) :
    wp I (.call op next) Q h ↔ ∀ a, I h ⟨op, a⟩ ∧ wp I (next a) Q (h ++ [⟨op, a⟩]) := Iff.rfl

@[simp] theorem wp_perform (op : Op) (Q : Trace Op Ans → Ans op → Prop) (h : Trace Op Ans) :
    wp I (perform op) Q h ↔ ∀ a, I h ⟨op, a⟩ ∧ Q (h ++ [⟨op, a⟩]) a := Iff.rfl

theorem wp_mono {p : Prog Op Ans α} {Q Q' : Trace Op Ans → α → Prop}
    (hQ : ∀ h a, Q h a → Q' h a) {h : Trace Op Ans} (hp : wp I p Q h) : wp I p Q' h := by
  induction p generalizing h with
  | ret a => exact hQ h a hp
  | call op next ih =>
    intro a
    obtain ⟨hguard, hnext⟩ := hp a
    exact ⟨hguard, ih a hQ hnext⟩
  | iter body s next ihbody ihnext =>
    obtain ⟨J, hJ, hstep⟩ := hp
    refine ⟨J, hJ, ?_⟩
    intro s' h' hs'
    -- the invariant is the old one; only what follows the loop sees the weaker `Q'`
    refine ihbody s' ?_ (hstep s' h' hs')
    intro h'' r hr
    cases r with
    | inl s'' => exact hr
    | inr b => exact ihnext b hQ hr

theorem wp_guard_mono {J : Trace Op Ans → Event Op Ans → Prop} (hIJ : ∀ h e, I h e → J h e)
    {p : Prog Op Ans α} {Q : Trace Op Ans → α → Prop} {h : Trace Op Ans} (hp : wp I p Q h) :
    wp J p Q h := by
  induction p generalizing h with
  | ret a => exact hp
  | call op next ih =>
    intro a
    obtain ⟨hguard, hnext⟩ := hp a
    exact ⟨hIJ h _ hguard, ih a hnext⟩
  | iter body s next ihbody ihnext =>
    obtain ⟨K, hK, hstep⟩ := hp
    refine ⟨K, hK, ?_⟩
    intro s' h' hs'
    refine wp_mono ?_ (ihbody s' (hstep s' h' hs'))
    intro h'' r hr
    cases r with
    | inl s'' => exact hr
    | inr b => exact ihnext b hr

/-- Sequencing: the second program starts where the first returns. -/
@[simp] theorem wp_bind (p : Prog Op Ans α) (f : α → Prog Op Ans γ) (Q : Trace Op Ans → γ → Prop)
    (h : Trace Op Ans) :
    wp I (p.bind f) Q h ↔ wp I p (fun h' a ↦ wp I (f a) Q h') h := by
  induction p generalizing h with
  | ret a => exact Iff.rfl
  | call op next ih => simp only [Prog.bind, wp_call, ih]
  | iter body s next _ ihnext => simp only [Prog.bind, wp, ihnext]

/-- A loop meets its postcondition when some property of state and trace holds at the start, is
kept by every round that goes on, and gives the postcondition on every round that leaves. -/
theorem wp_iter {σ β : Type} {body : σ → Prog Op Ans (σ ⊕ β)} {s : σ} {next : β → Prog Op Ans α}
    {Q : Trace Op Ans → α → Prop} {h : Trace Op Ans} (J : σ → Trace Op Ans → Prop) (hJ : J s h)
    (hround : ∀ s h, J s h → wp I (body s)
      (fun h' ↦ Sum.elim (fun s' ↦ J s' h') (fun b ↦ wp I (next b) Q h')) h) :
    wp I (.iter body s next) Q h := ⟨J, hJ, hround⟩

/-- One step keeps the precondition, and the call it makes, if any, meets the guard. -/
theorem wp_step {p q : Prog Op Ans α} {l : Option (Event Op Ans)} {Q : Trace Op Ans → α → Prop}
    {h : Trace Op Ans} (hstep : Step p l q) (hp : wp I p Q h) :
    (∀ e ∈ l, I h e) ∧ wp I q Q (h ++ l.toList) := by
  cases hstep with
  | call op next a => simpa using hp a
  | unfold body s next =>
    obtain ⟨J, hJ, hround⟩ := hp
    refine ⟨by simp, ?_⟩
    rw [Option.toList_none, List.append_nil, Prog.unfold, wp_bind]
    refine wp_mono ?_ (hround s h hJ)
    intro h' r hr
    -- going round again, the same invariant serves the loop that is left
    cases r with
    | inl s' => exact ⟨J, hr, hround⟩
    | inr b => exact hr

/-- **Soundness.** Along every run, complete or not, every call met the guard and the rest of the
program still has its precondition. -/
theorem wp_sound {p q : Prog Op Ans α} {t : Trace Op Ans} {Q : Trace Op Ans → α → Prop}
    (hp : wp I p Q []) (hrun : Reaches p t q) : Guarded I t ∧ wp I q Q t := by
  induction hrun with
  | refl => exact ⟨guarded_nil I, hp⟩
  | @step t q r l _ hstep ih =>
    obtain ⟨hguard, hq⟩ := ih
    obtain ⟨hevent, hr⟩ := wp_step hstep hq
    refine ⟨?_, hr⟩
    cases l with
    | none => simpa using hguard
    | some e => exact hguard.concat (hevent e rfl)

/-- What a complete run returns meets the postcondition. -/
theorem wp_returns {p : Prog Op Ans α} {t : Trace Op Ans} {a : α} {Q : Trace Op Ans → α → Prop}
    (hp : wp I p Q []) (hrun : Returns p t a) : Q t a := (wp_sound hp hrun).2

/-! ## Execution -/

/-- At most `n` steps against an environment that answers from the trace so far. -/
def exec (env : Trace Op Ans → (op : Op) → Ans op) :
    ℕ → Prog Op Ans α → Trace Op Ans → Trace Op Ans × Prog Op Ans α
  | 0, p, t => (t, p)
  | _ + 1, .ret a, t => (t, .ret a)
  | n + 1, .call op next, t => exec env n (next (env t op)) (t ++ [⟨op, env t op⟩])
  | n + 1, .iter body s next, t => exec env n (unfold body s next) t

/-- What the executor computes is a run. -/
theorem reaches_exec (env : Trace Op Ans → (op : Op) → Ans op) (n : ℕ) {p q : Prog Op Ans α}
    {t : Trace Op Ans} (h : Reaches p t q) :
    Reaches p (exec env n q t).1 (exec env n q t).2 := by
  induction n generalizing q t with
  -- out of steps: the run so far stands
  | zero => exact h
  | succ n ih =>
    cases q with
    | ret a => exact h
    | call op next => exact ih (h.step (Step.call op next (env t op)))
    | iter body s next =>
      have hunfold := h.step (Step.unfold body s next)
      rw [Option.toList_none, List.append_nil] at hunfold
      exact ih hunfold

/-- The value a program has returned, if it has. -/
def result? : Prog Op Ans α → Option α
  | .ret a => some a
  | _ => none

theorem eq_ret_of_result? {p : Prog Op Ans α} {a : α} (h : p.result? = some a) : p = .ret a := by
  cases p with
  | ret b => rw [Option.some.inj h]
  | call op next => exact nomatch h
  | iter body s next => exact nomatch h

/-- An execution that comes to a value is a complete run. -/
theorem returns_exec {env : Trace Op Ans → (op : Op) → Ans op} {n : ℕ} {p : Prog Op Ans α} {a : α}
    (h : (exec env n p []).2.result? = some a) : Returns p (exec env n p []).1 a := by
  have hrun := reaches_exec env n (Reaches.refl (p := p))
  rwa [eq_ret_of_result? h] at hrun

end Prog

end Interaction
