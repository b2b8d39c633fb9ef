import Ros2ToolsAdapter.Foundation.Interaction

/-!
# Programs that throw

An interaction program with exceptions returns an `Except`: `Proc ε Op Ans α` is `ExceptT ε` over
`Prog Op Ans`. A `try` block is `tryCatch`, a function that only computes is an `Except ε` lifted
into the block, and a `while` loop is `whileDo`, which leaves on the first exception of its
condition or its body.

`Proc.wp` carries two postconditions, one for returning and one for throwing, and has one rule per
construct. A proof about a `do` block applies them in the order of the block.
-/

namespace Interaction

/-- A program that returns an `α` or throws an `ε`. -/
abbrev Proc (ε : Type) (Op : Type) (Ans : Op → Type) := ExceptT ε (Prog Op Ans)

namespace Proc

variable {ε ε' Op : Type} {Ans : Op → Type} {α β : Type}

/-- Make one call. -/
def perform (op : Op) : Proc ε Op Ans (Ans op) := ExceptT.mk (.call op fun a ↦ .ret (.ok a))

/-- Make one call whose answer may be an exception, and throw it. -/
def invoke (op : Op) (result : Ans op → Except ε α) : Proc ε Op Ans α :=
  ExceptT.mk (.call op fun a ↦ .ret (result a))

/-- Make one call whose answer says whether it was done, and throw if it was not. -/
def attempt (op : Op) (done : Ans op → Bool) (e : ε) : Proc ε Op Ans Unit :=
  invoke op fun a ↦ if done a then .ok () else .error e

/-- `while (cond) body`. -/
def whileDo (cond : Proc ε Op Ans Bool) (body : Proc ε Op Ans Unit) : Proc ε Op Ans Unit :=
  ExceptT.mk (.iter (σ := Unit) (fun _ ↦ do
      match ← (do if ← cond then body; return true else return false : Proc ε Op Ans Bool).run with
      -- the body ran: round again
      | .ok true => return .inl ()
      | .ok false => return .inr (.ok ())
      -- an exception of the condition or of the body ends the loop
      | .error e => return .inr (.error e)) () .ret)

/-- `try p catch handler`, where the handler itself does not throw. -/
def catching (p : Proc ε Op Ans α) (handler : ε → α) : Prog Op Ans α := do
  match ← p.run with
  | .ok a => return a
  | .error e => return handler e

/-- `try p catch (e) throw rethrow e`: a nested handler that throws an exception of its own. -/
def rethrowing (p : Proc ε Op Ans α) (rethrow : ε → ε') : Proc ε' Op Ans α := ExceptT.mk do
  match ← p.run with
  | .ok a => return .ok a
  | .error e => return .error (rethrow e)

/-- The two postconditions as one on the `Except`. -/
def post (Q : Trace Op Ans → α → Prop) (E : Trace Op Ans → ε → Prop) (h : Trace Op Ans) :
    Except ε α → Prop
  | .ok a => Q h a
  | .error e => E h e

/-- Weakest precondition with a postcondition for returning and one for throwing. -/
def wp (I : Trace Op Ans → Event Op Ans → Prop) (p : Proc ε Op Ans α)
    (Q : Trace Op Ans → α → Prop) (E : Trace Op Ans → ε → Prop) (h : Trace Op Ans) : Prop :=
  Prog.wp I p.run (post Q E) h

variable {I : Trace Op Ans → Event Op Ans → Prop} {Q : Trace Op Ans → β → Prop}
  {E : Trace Op Ans → ε → Prop} {h : Trace Op Ans}

@[simp] theorem wp_pure (a : β) : wp I (pure a : Proc ε Op Ans β) Q E h ↔ Q h a := Iff.rfl

@[simp] theorem wp_throw (e : ε) : wp I (throw e : Proc ε Op Ans β) Q E h ↔ E h e := Iff.rfl

@[simp] theorem wp_bind (p : Proc ε Op Ans α) (f : α → Proc ε Op Ans β) :
    wp I (p >>= f) Q E h ↔ wp I p (fun h' a ↦ wp I (f a) Q E h') E h := by
  have hrun : (p >>= f).run = p.run.bind fun r ↦ match r with
      | .ok a => (f a).run
      | .error e => .ret (.error e) := rfl
  rw [wp, hrun, Prog.wp_bind, wp]
  constructor
  · intro hp
    refine Prog.wp_mono ?_ hp
    intro h' r hr
    cases r <;> exact hr
  · intro hp
    refine Prog.wp_mono ?_ hp
    intro h' r hr
    cases r <;> exact hr

/-- Sequencing, from what the first program establishes. -/
theorem wp_bind_of {p : Proc ε Op Ans α} {f : α → Proc ε Op Ans β} {R : Trace Op Ans → α → Prop}
    (hp : wp I p R E h) (hf : ∀ h' a, R h' a → wp I (f a) Q E h') : wp I (p >>= f) Q E h := by
  rw [wp_bind]
  refine Prog.wp_mono ?_ hp
  intro h' r hr
  cases r with
  | ok a => exact hf h' a hr
  | error e => exact hr

theorem wp_mono {p : Proc ε Op Ans β} {Q' : Trace Op Ans → β → Prop}
    {E' : Trace Op Ans → ε → Prop} (hQ : ∀ h a, Q h a → Q' h a) (hE : ∀ h e, E h e → E' h e)
    (hp : wp I p Q E h) : wp I p Q' E' h := by
  refine Prog.wp_mono ?_ hp
  intro h' r hr
  cases r with
  | ok a => exact hQ h' a hr
  | error e => exact hE h' e hr

@[simp] theorem wp_perform (op : Op) {Q : Trace Op Ans → Ans op → Prop} :
    wp I (perform op : Proc ε Op Ans (Ans op)) Q E h ↔
      ∀ a, I h ⟨op, a⟩ ∧ Q (h ++ [⟨op, a⟩]) a := Iff.rfl

@[simp] theorem wp_invoke (op : Op) (result : Ans op → Except ε β) :
    wp I (invoke op result) Q E h ↔
      ∀ a, I h ⟨op, a⟩ ∧ post Q E (h ++ [⟨op, a⟩]) (result a) := Iff.rfl

theorem wp_attempt {op : Op} {done : Ans op → Bool} {e : ε} {Q : Trace Op Ans → Unit → Prop}
    (hguard : ∀ a, I h ⟨op, a⟩) (hdone : ∀ a, done a = true → Q (h ++ [⟨op, a⟩]) ())
    (hfailed : ∀ a, done a = false → E (h ++ [⟨op, a⟩]) e) : wp I (attempt op done e) Q E h := by
  rw [attempt, wp_invoke]
  intro a
  refine ⟨hguard a, ?_⟩
  cases ha : done a with
  | true => exact hdone a ha
  | false => exact hfailed a ha

/-- A computation without calls leaves the trace alone. -/
@[simp] theorem wp_lift (x : Except ε β) :
    wp I (liftM x : Proc ε Op Ans β) Q E h ↔ post Q E h x := Iff.rfl

theorem wp_ite (c : Prop) [Decidable c] (p q : Proc ε Op Ans β) :
    wp I (if c then p else q) Q E h ↔ (c → wp I p Q E h) ∧ (¬c → wp I q Q E h) := by
  split <;> simp_all

/-- A loop: the invariant holds on entry, the body keeps it, and leaving with it is enough. -/
theorem wp_whileDo {cond : Proc ε Op Ans Bool} {body : Proc ε Op Ans Unit}
    {Q : Trace Op Ans → Unit → Prop} (J : Trace Op Ans → Prop) (hJ : J h)
    (hround : ∀ h, J h → wp I cond
      (fun h' c ↦ (c = true → wp I body (fun h'' _ ↦ J h'') E h') ∧ (c = false → Q h' ())) E h) :
    wp I (whileDo cond body) Q E h := by
  refine Prog.wp_iter (fun _ ↦ J) hJ ?_
  intro _ h' hJ'
  -- one round as a program of its own: it says whether there is another
  have hbody : wp I (do if ← cond then body; return true else return false : Proc ε Op Ans Bool)
      (fun h'' c ↦ if c then J h'' else Q h'' ()) E h' := by
    rw [wp_bind]
    refine wp_mono ?_ (fun _ _ he ↦ he) (hround h' hJ')
    intro h'' c hc
    cases c with
    | false => exact hc.2 rfl
    | true =>
      refine (wp_bind _ _).mpr (wp_mono ?_ (fun _ _ he ↦ he) (hc.1 rfl))
      intro h₃ _ hJ₃
      exact hJ₃
  refine (Prog.wp_bind _ _ _ _).mpr (Prog.wp_mono ?_ hbody)
  intro h'' r hr
  rcases r with e | c
  · exact hr
  · cases c <;> exact hr

/-- A `try` block whose handler returns. -/
theorem wp_catching {p : Proc ε Op Ans α} {handler : ε → α} {R : Trace Op Ans → α → Prop}
    (hp : wp I p R (fun h' e ↦ R h' (handler e)) h) :
    Prog.wp I (catching p handler) R h := by
  refine (Prog.wp_bind _ _ _ _).mpr (Prog.wp_mono ?_ hp)
  intro h' r hr
  cases r <;> exact hr

/-- A `try` block whose handler makes calls of its own. -/
@[simp] theorem wp_tryCatch (p : Proc ε Op Ans β) (handler : ε → Proc ε Op Ans β) :
    wp I (tryCatch p handler) Q E h ↔ wp I p Q (fun h' e ↦ wp I (handler e) Q E h') h := by
  have hrun : (tryCatch p handler).run = p.run.bind fun r ↦ match r with
      | .ok a => .ret (.ok a)
      | .error e => (handler e).run := rfl
  rw [wp, hrun, Prog.wp_bind, wp]
  constructor
  · intro hp
    refine Prog.wp_mono ?_ hp
    intro h' r hr
    cases r <;> exact hr
  · intro hp
    refine Prog.wp_mono ?_ hp
    intro h' r hr
    cases r <;> exact hr

/-- A `try` block whose handler throws. -/
theorem wp_rethrowing {p : Proc ε Op Ans β} {rethrow : ε → ε'} {E' : Trace Op Ans → ε' → Prop}
    (hp : wp I p Q (fun h' e ↦ E' h' (rethrow e)) h) :
    wp I (rethrowing p rethrow) Q E' h := by
  refine (Prog.wp_bind _ _ _ _).mpr (Prog.wp_mono ?_ hp)
  intro h' r hr
  cases r <;> exact hr

end Proc

end Interaction
