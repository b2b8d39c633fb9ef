import Ros2ToolsAdapter.Foundation.Throwing

/-!
# Programs that come to an end

`Prog.wp` is about every run and says nothing of a program that never returns. `Prog.twp` is the
total precondition: it relies on a promise of the environment about each answer, which may look at
the trace before it, and a loop owes besides its invariant a number that every round makes smaller.
Against an environment that keeps the promise the program returns (`twp_sound`).

`Proc.Takes` bounds the calls of a program that throws. Bounds of blocks are added up, and that of a
loop is the number of its rounds times the bound of a round.
-/

namespace Interaction

namespace Prog

variable {Op : Type} {Ans : Op → Type} {α γ : Type}

/-- From the trace `h` on, the program comes to a value that meets `Q`, as long as every answer it
gets meets `R`. A loop owes an invariant with a number, of which less is left after a round. -/
def twp (R : Trace Op Ans → Event Op Ans → Prop) {α : Type} :
    Prog Op Ans α → (Trace Op Ans → α → Prop) → Trace Op Ans → Prop
  | .ret a, Q, h => Q h a
  | .call op next, Q, h => ∀ a, R h ⟨op, a⟩ → twp R (next a) Q (h ++ [⟨op, a⟩])
  | .iter (σ := σ) body s next, Q, h => ∃ (J : ℕ → σ → Trace Op Ans → Prop) (n : ℕ), J n s h ∧
      ∀ n s h, J n s h → twp R (body s)
        (fun h' ↦ Sum.elim (fun s' ↦ ∃ m < n, J m s' h') (fun b ↦ twp R (next b) Q h')) h

variable {R : Trace Op Ans → Event Op Ans → Prop}

theorem twp_mono {p : Prog Op Ans α} {Q Q' : Trace Op Ans → α → Prop}
    (hQ : ∀ h a, Q h a → Q' h a) {h : Trace Op Ans} (hp : twp R p Q h) : twp R p Q' h := by
  induction p generalizing h with
  | ret a => exact hQ h a hp
  | call op next ih =>
    intro a ha
    exact ih a hQ (hp a ha)
  | iter body s next ihbody ihnext =>
    obtain ⟨J, n, hJ, hround⟩ := hp
    refine ⟨J, n, hJ, fun n s h hs ↦ ihbody s ?_ (hround n s h hs)⟩
    intro h' r hr
    cases r with
    | inl s' => exact hr
    | inr b => exact ihnext b hQ hr

@[simp] theorem twp_bind (p : Prog Op Ans α) (f : α → Prog Op Ans γ) (Q : Trace Op Ans → γ → Prop)
    (h : Trace Op Ans) :
    twp R (p.bind f) Q h ↔ twp R p (fun h' a ↦ twp R (f a) Q h') h := by
  induction p generalizing h with
  | ret a => exact Iff.rfl
  | call op next ih => simp only [Prog.bind, twp, ih]
  | iter body s next _ ihnext => simp only [Prog.bind, twp, ihnext]

/-! ## Execution -/

theorem bind_assoc' {β : Type} (p : Prog Op Ans α) (f : α → Prog Op Ans β)
    (g : β → Prog Op Ans γ) : (p.bind f).bind g = p.bind fun a ↦ (f a).bind g := by
  induction p with
  | ret a => rfl
  | call op next ih => simp only [Prog.bind, ih]
  | iter body s next _ ihnext => simp only [Prog.bind, ihnext]

theorem unfold_bind {σ β : Type} (body : σ → Prog Op Ans (σ ⊕ β)) (s : σ)
    (next : β → Prog Op Ans α) (f : α → Prog Op Ans γ) :
    (unfold body s next).bind f = unfold body s fun b ↦ (next b).bind f := by
  rw [unfold, unfold, bind_assoc']
  congr 1
  funext r
  cases r <;> rfl

theorem Step.bind {p q : Prog Op Ans α} {l : Option (Event Op Ans)} (h : Step p l q)
    (f : α → Prog Op Ans γ) : Step (p.bind f) l (q.bind f) := by
  cases h with
  | call op next a => exact .call op (fun a ↦ (next a).bind f) a
  | unfold body s next =>
    rw [unfold_bind]
    exact .unfold body s fun b ↦ (next b).bind f

theorem Reaches.bind {p q : Prog Op Ans α} {t : Trace Op Ans} (h : Reaches p t q)
    (f : α → Prog Op Ans γ) : Reaches (p.bind f) t (q.bind f) := by
  induction h with
  | refl => exact .refl
  | step _ hstep ih => exact ih.step (hstep.bind f)

section Exec

variable (env : Trace Op Ans → (op : Op) → Ans op)

theorem exec_ret (n : ℕ) (a : α) (t : Trace Op Ans) : exec env n (.ret a) t = (t, .ret a) := by
  cases n <;> rfl

theorem exec_add (m n : ℕ) (p : Prog Op Ans α) (t : Trace Op Ans) :
    exec env (m + n) p t = exec env n (exec env m p t).2 (exec env m p t).1 := by
  induction m generalizing p t with
  | zero => rw [Nat.zero_add, exec]
  | succ m ih =>
    rw [Nat.add_right_comm]
    cases p with
    | ret a => simp only [exec_ret]
    | call op next => exact ih _ _
    | iter body s next => exact ih _ _

/-- The trace is only added to. -/
theorem prefix_exec (n : ℕ) (p : Prog Op Ans α) (t : Trace Op Ans) :
    t <+: (exec env n p t).1 := by
  induction n generalizing p t with
  | zero => exact List.prefix_refl t
  | succ n ih =>
    cases p with
    | ret a => exact List.prefix_refl t
    | call op next => exact (List.prefix_append t _).trans (ih _ _)
    | iter body s next => exact ih _ _

/-- Every answer is the one of the environment. -/
theorem guarded_exec (n : ℕ) (p : Prog Op Ans α) {t : Trace Op Ans}
    (ht : Guarded (fun h e ↦ e.answer = env h e.op) t) :
    Guarded (fun h e ↦ e.answer = env h e.op) (exec env n p t).1 := by
  induction n generalizing p t with
  | zero => exact ht
  | succ n ih =>
    cases p with
    | ret a => exact ht
    | call op next => exact ih _ (ht.concat rfl)
    | iter body s next => exact ih _ ht

/-- What a program does, it does also when something comes after it. -/
theorem exec_bind (f : α → Prog Op Ans γ) (n : ℕ) (p : Prog Op Ans α) (t : Trace Op Ans) :
    ∃ m, exec env m (p.bind f) t = ((exec env n p t).1, (exec env n p t).2.bind f) := by
  induction n generalizing p t with
  | zero => exact ⟨0, rfl⟩
  | succ n ih =>
    cases p with
    | ret a => exact ⟨0, rfl⟩
    | call op next =>
      obtain ⟨m, hm⟩ := ih (next (env t op)) (t ++ [⟨op, env t op⟩])
      exact ⟨m + 1, hm⟩
    | iter body s next =>
      obtain ⟨m, hm⟩ := ih (unfold body s next) t
      rw [unfold_bind] at hm
      exact ⟨m + 1, hm⟩

end Exec

/-- The events after `h` keep the promise. -/
def Kept (R : Trace Op Ans → Event Op Ans → Prop) (h t : Trace Op Ans) : Prop :=
  ∀ before e after, t = before ++ e :: after → h <+: before → R before e

theorem kept_nil_iff {t : Trace Op Ans} : Kept R [] t ↔ Guarded R t := by
  simp [Kept, Guarded]

theorem Kept.trans {h h' t : Trace Op Ans} (ht : Kept R h t) (hh : h <+: h') : Kept R h' t :=
  fun before e after heq hprefix ↦ ht before e after heq (hh.trans hprefix)

/-- **Total soundness.** Against an environment that keeps its promise along the run, the program
returns, and what it returns meets the postcondition. -/
theorem twp_sound {env : Trace Op Ans → (op : Op) → Ans op} {p : Prog Op Ans α}
    {Q : Trace Op Ans → α → Prop} {h : Trace Op Ans} (hp : twp R p Q h)
    (hkept : ∀ n, Kept R h (exec env n p h).1) :
    ∃ n a, (exec env n p h).2 = .ret a ∧ Q (exec env n p h).1 a := by
  induction p generalizing h with
  | ret a => exact ⟨0, a, rfl, hp⟩
  | call op next ih =>
    have hanswer : R h ⟨op, env h op⟩ :=
      hkept 1 h ⟨op, env h op⟩ [] rfl (List.prefix_refl h)
    obtain ⟨n, a, hreturns, hQ⟩ := ih (env h op) (hp _ hanswer) fun n ↦
      (hkept (n + 1)).trans (List.prefix_append h _)
    exact ⟨n + 1, a, hreturns, hQ⟩
  | iter body s next ihbody ihnext =>
    obtain ⟨J, n, hJ, hround⟩ := hp
    induction n using Nat.strongRecOn generalizing s h with
    | ind n ih =>
      -- one round, as the body alone would make it
      have hbody (k : ℕ) : ∃ m, exec env (m + 1) (.iter body s next) h =
          ((exec env k (body s) h).1,
            (exec env k (body s) h).2.bind (Sum.elim (fun s' ↦ .iter body s' next) next)) := by
        obtain ⟨m, hm⟩ := exec_bind env (Sum.elim (fun s' ↦ .iter body s' next) next) k (body s) h
        exact ⟨m, hm⟩
      have hkeptBody (k : ℕ) : Kept R h (exec env k (body s) h).1 := by
        obtain ⟨m, hm⟩ := hbody k
        have hrun := hkept (m + 1)
        rwa [hm] at hrun
      obtain ⟨k, r, hreturns, hr⟩ := ihbody s (hround n s h hJ) hkeptBody
      obtain ⟨m, hm⟩ := hbody k
      rw [hreturns] at hm
      -- what is left after the round is made from where the round ended
      have hrest (l : ℕ) := exec_add env (m + 1) l (.iter body s next) h
      simp only [hm] at hrest
      have hprefix := prefix_exec env k (body s) h
      cases r with
      | inl s' =>
        obtain ⟨n', hlt, hJ'⟩ := hr
        have hkept' (l : ℕ) : Kept R (exec env k (body s) h).1
            (exec env l (.iter body s' next) (exec env k (body s) h).1).1 := by
          have hrun := (hkept (m + 1 + l)).trans hprefix
          rwa [hrest l] at hrun
        obtain ⟨l, a, hreturns', hQ⟩ := ih n' hlt s' hkept' hJ'
        exact ⟨m + 1 + l, a, by rw [hrest l]; exact hreturns', by rw [hrest l]; exact hQ⟩
      | inr b =>
        have hkept' (l : ℕ) : Kept R (exec env k (body s) h).1
            (exec env l (next b) (exec env k (body s) h).1).1 := by
          have hrun := (hkept (m + 1 + l)).trans hprefix
          rwa [hrest l] at hrun
        obtain ⟨l, a, hreturns', hQ⟩ := ihnext b hr hkept'
        exact ⟨m + 1 + l, a, by rw [hrest l]; exact hreturns', by rw [hrest l]; exact hQ⟩

end Prog

namespace Proc

variable {ε ε' Op : Type} {Ans : Op → Type} {α β : Type}
  {R : Trace Op Ans → Event Op Ans → Prop} {h : Trace Op Ans} {n m : ℕ}

/-- From the trace `h` on, the program makes at most `n` calls, whether it returns or throws; when
it returns `a` after the calls `s`, they meet `P`. -/
def Takes (R : Trace Op Ans → Event Op Ans → Prop) (h : Trace Op Ans) (p : Proc ε Op Ans α) (n : ℕ)
    (P : Trace Op Ans → α → Prop) : Prop :=
  Prog.twp R p.run (post (fun h' a ↦ ∃ s, h' = h ++ s ∧ s.length ≤ n ∧ P s a)
    fun h' _ ↦ h'.length ≤ h.length + n) h

namespace Takes

variable {p : Proc ε Op Ans α} {P : Trace Op Ans → α → Prop}

theorem mono (hp : Takes R h p n P) {P' : Trace Op Ans → α → Prop} (hn : n ≤ m)
    (hP : ∀ s a, P s a → P' s a) : Takes R h p m P' := by
  refine Prog.twp_mono ?_ hp
  rintro h' (e | a) hr
  · exact Nat.le_trans hr (Nat.add_le_add_left hn _)
  · obtain ⟨s, rfl, hs, hPs⟩ := hr
    exact ⟨s, rfl, Nat.le_trans hs hn, hP s a hPs⟩

theorem pure {a : α} (hP : P [] a) : Takes R h (pure a : Proc ε Op Ans α) 0 P :=
  ⟨[], (List.append_nil h).symm, Nat.le_refl 0, hP⟩

theorem throw (e : ε) : Takes R h (throw e : Proc ε Op Ans α) 0 P := Nat.le_refl h.length

theorem lift {x : Except ε α} :
    Takes R h (liftM x : Proc ε Op Ans α) 0 fun s a ↦ s = [] ∧ x = .ok a := by
  cases x with
  | ok a => exact ⟨[], (List.append_nil h).symm, Nat.le_refl 0, rfl, rfl⟩
  | error e => exact Nat.le_refl h.length

/-- Sequencing: the bounds are added. -/
theorem bind {f : α → Proc ε Op Ans β} {Q : Trace Op Ans → β → Prop} (hp : Takes R h p n P)
    (hf : ∀ s a, P s a → Takes R (h ++ s) (f a) m fun s' b ↦ Q (s ++ s') b) :
    Takes R h (p >>= f) (n + m) Q := by
  refine (Prog.twp_bind _ _ _ _).mpr (Prog.twp_mono ?_ hp)
  rintro h' (e | a) hr
  · exact Nat.le_trans hr (Nat.add_le_add_left (Nat.le_add_right n m) _)
  · obtain ⟨s, rfl, hs, hPs⟩ := hr
    refine Prog.twp_mono ?_ (hf s a hPs)
    rintro h'' (e | b) hr'
    · have hlength : (h ++ s).length = h.length + s.length := List.length_append
      have hle : h''.length ≤ (h ++ s).length + m := hr'
      exact show h''.length ≤ h.length + (n + m) by omega
    · obtain ⟨s', rfl, hs', hQ⟩ := hr'
      refine ⟨s ++ s', List.append_assoc h s s', ?_, hQ⟩
      rw [List.length_append]
      omega

/-- A call, with an answer that is relied on. -/
theorem perform (op : Op) : Takes R h (Proc.perform op : Proc ε Op Ans (Ans op)) 1 fun s a ↦
    s = [⟨op, a⟩] ∧ R h ⟨op, a⟩ :=
  fun a ha ↦ ⟨[⟨op, a⟩], rfl, Nat.le_refl 1, rfl, ha⟩

theorem invoke (op : Op) (result : Ans op → Except ε α) :
    Takes R h (Proc.invoke op result) 1 fun s r ↦
      ∃ a, s = [⟨op, a⟩] ∧ R h ⟨op, a⟩ ∧ result a = .ok r := by
  intro a ha
  change post (fun h' r ↦ ∃ s, h' = h ++ s ∧ s.length ≤ 1 ∧
    ∃ a, s = [⟨op, a⟩] ∧ R h ⟨op, a⟩ ∧ result a = .ok r) (fun h' _ ↦ h'.length ≤ h.length + 1)
    (h ++ [⟨op, a⟩]) (result a)
  cases hr : result a with
  | ok r => exact ⟨[⟨op, a⟩], rfl, Nat.le_refl 1, a, rfl, ha, hr⟩
  | error e => exact Nat.le_of_eq List.length_append

theorem rethrowing (hp : Takes R h p n P) (rethrow : ε → ε') :
    Takes R h (Proc.rethrowing p rethrow) n P := by
  refine (Prog.twp_bind _ _ _ _).mpr (Prog.twp_mono ?_ hp)
  rintro h' (e | a) hr
  · exact hr
  · exact hr

/-- A loop: from a trace of which `k` rounds are left, a round leaves fewer. -/
theorem whileDo {cond : Proc ε Op Ans Bool} {body : Proc ε Op Ans Unit} {k : ℕ}
    (J : ℕ → Trace Op Ans → Prop) (hJ : J k h)
    (hround : ∀ k h, J k h → Takes R h cond n fun s go ↦ go = true →
      Takes R (h ++ s) body m fun s' _ ↦ ∃ k' < k, J k' (h ++ (s ++ s'))) :
    Takes R h (Proc.whileDo cond body) ((k + 1) * (n + m)) fun _ _ ↦ True := by
  have hbody {k : ℕ} {h' : Trace Op Ans} (hJ' : J k h') :
      Takes R h' (do if ← cond then body; return true else return false : Proc ε Op Ans Bool)
        (n + m) fun s c ↦ c = true → ∃ k' < k, J k' (h' ++ s) := by
    refine (hround k h' hJ').bind fun s go hgo ↦ ?_
    cases go with
    | false => exact (Takes.pure nofun).mono (Nat.zero_le m) fun _ _ hP ↦ hP
    | true =>
      refine ((hgo rfl).bind fun s' _ hs' ↦ Takes.pure fun _ ↦ ?_).mono (Nat.le_refl m)
        fun _ _ hP ↦ hP
      simpa using hs'
  -- a loop with `i` rounds left has made the calls of the others
  refine ⟨fun i _ h' ↦ J i h' ∧ i ≤ k ∧ h <+: h' ∧ h'.length ≤ h.length + (k - i) * (n + m), k,
    ⟨hJ, Nat.le_refl k, List.prefix_refl h, by simp⟩, ?_⟩
  rintro i _ h' ⟨hJ', hi, hprefix, hlength⟩
  have hleft : (k - i) * (n + m) + (n + m) ≤ (k + 1) * (n + m) := by
    rw [← Nat.succ_mul]
    exact Nat.mul_le_mul_right _ (by omega)
  refine (Prog.twp_bind _ _ _ _).mpr (Prog.twp_mono ?_ (hbody hJ'))
  rintro h'' (e | c) hr
  · have hle : h''.length ≤ h'.length + (n + m) := hr
    exact show h''.length ≤ h.length + (k + 1) * (n + m) by omega
  · obtain ⟨s, rfl, hs, hc⟩ := hr
    have hsum : (h' ++ s).length = h'.length + s.length := List.length_append
    cases c with
    | false =>
      obtain ⟨t, rfl⟩ := hprefix
      refine ⟨t ++ s, List.append_assoc h t s, ?_, trivial⟩
      simp only [List.length_append] at hsum hlength ⊢
      omega
    | true =>
      obtain ⟨i', hlt, hJ''⟩ := hc rfl
      refine ⟨i', hlt, hJ'', by omega, hprefix.trans (List.prefix_append h' s), ?_⟩
      have hmore : (k - i) * (n + m) + (n + m) ≤ (k - i') * (n + m) := by
        rw [← Nat.succ_mul]
        exact Nat.mul_le_mul_right _ (by omega)
      omega

end Takes

/-- A program whose exceptions are handled returns, after so many calls. -/
theorem Takes.catching {p : Proc ε Op Ans α} {P : Trace Op Ans → α → Prop} (handler : ε → α)
    (hp : Takes R [] p n P) :
    Prog.twp R (Proc.catching p handler) (fun run _ ↦ run.length ≤ n) [] := by
  refine (Prog.twp_bind _ _ _ _).mpr (Prog.twp_mono ?_ hp)
  rintro h' (e | a) hr
  · have hle : h'.length ≤ 0 + n := hr
    exact show h'.length ≤ n by omega
  · obtain ⟨s, rfl, hs, -⟩ := hr
    exact hs

/-! ## Runs put together -/

theorem returns_lift (x : Except ε α) : Prog.Returns (liftM x : Proc ε Op Ans α).run [] x := .refl

theorem returns_invoke (op : Op) (result : Ans op → Except ε α) (a : Ans op) :
    Prog.Returns (invoke op result).run [⟨op, a⟩] (result a) :=
  Prog.Returns.call .refl

theorem returns_attempt {op : Op} {done : Ans op → Bool} {e : ε} {a : Ans op}
    (ha : done a = true) : Prog.Returns (attempt op done e).run [⟨op, a⟩] (.ok ()) := by
  have hrun := returns_invoke op (fun a ↦ if done a then Except.ok () else .error e) a
  rwa [if_pos ha] at hrun

theorem returns_attempt_failed {op : Op} {done : Ans op → Bool} {e : ε} {a : Ans op}
    (ha : done a = false) : Prog.Returns (attempt op done e).run [⟨op, a⟩] (.error e) := by
  have hrun := returns_invoke op (fun a ↦ if done a then Except.ok () else .error e) a
  rwa [if_neg (Bool.not_eq_true _ ▸ ha)] at hrun

/-- A run of what comes first and a run of what follows it are a run of both. -/
theorem returns_bind {p : Proc ε Op Ans α} {f : α → Proc ε Op Ans β} {s t : Trace Op Ans} {a : α}
    {r : Except ε β} (hp : Prog.Returns p.run s (.ok a)) (hf : Prog.Returns (f a).run t r) :
    Prog.Returns (p >>= f).run (s ++ t) r :=
  (hp.bind (ExceptT.bindCont f)).trans hf

theorem returns_bind_error {p : Proc ε Op Ans α} {s : Trace Op Ans} {e : ε}
    (hp : Prog.Returns p.run s (.error e)) (f : α → Proc ε Op Ans β) :
    Prog.Returns (p >>= f).run s (.error e) :=
  hp.bind (ExceptT.bindCont f)

end Proc

end Interaction
