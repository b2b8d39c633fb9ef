import Mathlib.Logic.Equiv.Defs
import Ros2ToolsAdapter.Foundation.Phase

/-!
# Programs over a part of the calls

A program that is written over one signature of calls is often run by a program over a larger one.
An `Embedding` says where each call of the small signature goes in the large one, with the answers
of the two in bijection, and `Prog.embed` is the program with its calls renamed. What is known of
the small program, `wp_embed`, is then known of its part of the trace of the large one.
-/

namespace Interaction

/-- The calls of one signature as calls of another. -/
structure Embedding (Op : Type) (Ans : Op → Type) (Op' : Type) (Ans' : Op' → Type) where
  op : Op → Op'
  answer : ∀ o, Ans o ≃ Ans' (op o)

variable {Op Op' : Type} {Ans : Op → Type} {Ans' : Op' → Type} {ε α : Type}

namespace Embedding

variable (ι : Embedding Op Ans Op' Ans')

def event (e : Event Op Ans) : Event Op' Ans' := ⟨ι.op e.op, ι.answer e.op e.answer⟩

def trace (h : Trace Op Ans) : Trace Op' Ans' := h.map ι.event

@[simp] theorem trace_nil : ι.trace [] = [] := rfl

@[simp] theorem trace_concat (h : Trace Op Ans) (e : Event Op Ans) :
    ι.trace (h ++ [e]) = ι.trace h ++ [ι.event e] := List.map_append

end Embedding

namespace Prog

/-- The program with its calls renamed. -/
def embed (ι : Embedding Op Ans Op' Ans') {α : Type} : Prog Op Ans α → Prog Op' Ans' α
  | .ret a => .ret a
  | .call op next => .call (ι.op op) fun a ↦ embed ι (next ((ι.answer op).symm a))
  | .iter body s next => .iter (fun s ↦ embed ι (body s)) s fun b ↦ embed ι (next b)

/-- The embedded program does to its part of the trace what the program does to the whole. -/
theorem wp_embed (ι : Embedding Op Ans Op' Ans') {I : Trace Op Ans → Event Op Ans → Prop}
    {p : Prog Op Ans α} {Q : Trace Op Ans → α → Prop} {s : Trace Op Ans} (hp : wp I p Q s)
    (before : Trace Op' Ans') :
    wp (fun h e ↦ ∃ s e', h = before ++ ι.trace s ∧ e = ι.event e' ∧ I s e') (p.embed ι)
      (fun h a ↦ ∃ s, h = before ++ ι.trace s ∧ Q s a) (before ++ ι.trace s) := by
  induction p generalizing s with
  | ret a => exact ⟨s, rfl, hp⟩
  | call op next ih =>
    intro a
    obtain ⟨a, rfl⟩ := (ι.answer op).surjective a
    obtain ⟨hguard, hnext⟩ := hp a
    refine ⟨⟨s, ⟨op, a⟩, rfl, rfl, hguard⟩, ?_⟩
    have hconcat : before ++ ι.trace s ++ [⟨ι.op op, ι.answer op a⟩] =
        before ++ ι.trace (s ++ [⟨op, a⟩]) := by
      rw [ι.trace_concat, List.append_assoc]
      rfl
    rw [hconcat]
    refine ih _ ?_
    rwa [Equiv.symm_apply_apply]
  | iter body s' next ihbody ihnext =>
    obtain ⟨J, hJ, hround⟩ := hp
    -- the invariant of the loop, of the part of the trace that is its own
    refine ⟨fun r h ↦ ∃ s, h = before ++ ι.trace s ∧ J r s, ⟨s, rfl, hJ⟩, ?_⟩
    rintro r _ ⟨s, rfl, hr⟩
    refine wp_mono ?_ (ihbody r (hround r s hr))
    rintro _ (r' | b) ⟨s', rfl, hs'⟩
    · exact ⟨s', rfl, hs'⟩
    · exact ihnext b hs'

end Prog

namespace Proc

/-- A program that does not throw. -/
def lift (p : Prog Op Ans α) : Proc ε Op Ans α := ExceptT.mk (p.bind fun a ↦ .ret (.ok a))

@[simp] theorem wp_lift_prog {I : Trace Op Ans → Event Op Ans → Prop} {p : Prog Op Ans α}
    {Q : Trace Op Ans → α → Prop} {E : Trace Op Ans → ε → Prop} {h : Trace Op Ans} :
    wp I (lift p) Q E h ↔ Prog.wp I p Q h := Prog.wp_bind _ _ _ _

end Proc

end Interaction
