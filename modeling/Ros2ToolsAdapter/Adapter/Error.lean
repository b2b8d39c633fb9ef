import Ros2ToolsAdapter.Foundation.Except
import Ros2ToolsAdapter.Foundation.Text

/-!
# Exceptions

Everything the adapter throws on purpose is a `ToolsError`, whose class is a string; everything the
libraries throw is some other `std::exception`. The two are told apart by one `dynamic_cast`, and
what the caller may do next — retry or not — depends on nothing else, so an exception here is one or
the other and nothing more.

`Raises P x` says that whatever `x` throws satisfies `P`. It is how a claim about the errors of a
function is carried through its callers without looking at what the function returns.
-/

namespace Ros2ToolsAdapter

open Except (bind_eq_ok)

/-- `ToolsError`. -/
structure ToolsError where
  code : String
  errorClass : String
  message : Str
  deriving DecidableEq

/-- A `std::exception`: one of the adapter's own, or any other, known by its `what()`. -/
inductive Exn
  | tools (error : ToolsError)
  | std (what : Str)
  deriving DecidableEq

namespace Exn

/-- `exception.what()`, a C string. -/
def what : Exn → Str
  | .tools error => Str.cString error.message
  | .std what => Str.cString what

end Exn

def permanentError (code : String) (message : Str) : Exn := .tools ⟨code, "permanent", message⟩

def transientError (code : String) (message : Str) : Exn := .tools ⟨code, "transient", message⟩

def uncertainError (code : String) (message : Str) : Exn := .tools ⟨code, "uncertain", message⟩

def cancelledError (code : String) (message : Str) : Exn := .tools ⟨code, "cancelled", message⟩

def deadlineError (code : String) (message : Str) : Exn := .tools ⟨code, "deadline", message⟩

def rejectedError (code : String) (message : Str) : Exn := .tools ⟨code, "rejected", message⟩

def resourceExhaustedError (code : String) (message : Str) : Exn :=
  .tools ⟨code, "resource-exhausted", message⟩

namespace Exn

/-- A `ToolsError` of class permanent. -/
def IsPermanent (e : Exn) : Prop := ∃ error, e = .tools error ∧ error.errorClass = "permanent"

/-- A `ToolsError` a caller must not retry: permanent, or out of a fixed resource. -/
def IsFinal (e : Exn) : Prop :=
  ∃ error, e = .tools error ∧
    (error.errorClass = "permanent" ∨ error.errorClass = "resource-exhausted")

/-- A `ToolsError` of class uncertain. -/
def IsUncertain (e : Exn) : Prop := ∃ error, e = .tools error ∧ error.errorClass = "uncertain"

@[simp] theorem isPermanent_permanentError (code : String) (message : Str) :
    (permanentError code message).IsPermanent := ⟨_, rfl, rfl⟩

theorem IsPermanent.isFinal {e : Exn} (h : e.IsPermanent) : e.IsFinal := by
  obtain ⟨error, rfl, hclass⟩ := h
  exact ⟨error, rfl, Or.inl hclass⟩

theorem isFinal_resourceExhaustedError (code : String) (message : Str) :
    (resourceExhaustedError code message).IsFinal := ⟨_, rfl, Or.inr rfl⟩

theorem not_isFinal_std (what : Str) : ¬ (Exn.std what).IsFinal := by
  rintro ⟨error, h, -⟩
  exact Exn.noConfusion h

theorem IsFinal.not_isUncertain {e : Exn} (h : e.IsFinal) : ¬ e.IsUncertain := by
  obtain ⟨error, rfl, hclass⟩ := h
  rintro ⟨error', heq, hclass'⟩
  obtain rfl := Exn.tools.inj heq
  rw [hclass'] at hclass
  simp at hclass

@[simp] theorem isUncertain_tools {error : ToolsError} :
    (Exn.tools error).IsUncertain ↔ error.errorClass = "uncertain" := by
  constructor
  · rintro ⟨error', heq, hclass⟩
    rwa [Exn.tools.inj heq]
  · exact fun h ↦ ⟨error, rfl, h⟩

@[simp] theorem not_isUncertain_std (what : Str) : ¬ (Exn.std what).IsUncertain := by
  rintro ⟨error, h, -⟩
  exact Exn.noConfusion h

end Exn

/-- `if (c) e();` for a raiser `e`. -/
def throwIf {ε : Type} {m : Type → Type*} [Monad m] [MonadExceptOf ε m] (c : Prop) [Decidable c]
    (e : ε) : m Unit := if c then throw e else pure ()

/-! ## What a computation can throw -/

/-- Whatever `x` throws satisfies `P`. -/
def Raises {ε α : Type} (P : ε → Prop) (x : Except ε α) : Prop := ∀ e, x = .error e → P e

namespace Raises

variable {ε α β : Type} {P Q : ε → Prop}

@[simp] theorem ok (a : α) : Raises P (.ok a : Except ε α) := by
  intro e h
  simp at h

@[simp] theorem error {e : ε} : Raises P (.error e : Except ε α) ↔ P e := by
  constructor
  · intro h
    exact h e rfl
  · rintro h e' heq
    obtain rfl := Except.error.inj heq
    exact h

theorem mono {x : Except ε α} (h : Raises P x) (hPQ : ∀ e, P e → Q e) : Raises Q x :=
  fun e he ↦ hPQ e (h e he)

/-- The second computation matters only at what the first returns. -/
theorem bind {x : Except ε α} {f : α → Except ε β} (hx : Raises P x)
    (hf : ∀ a, x = .ok a → Raises P (f a)) : Raises P (x >>= f) := by
  cases x with
  | error e =>
    rintro e' h
    obtain rfl := Except.error.inj h
    exact hx e rfl
  | ok a => exact hf a rfl

/-- A check throws only when its condition holds. -/
theorem throwIf {c : Prop} [Decidable c] {e : ε} (he : c → P e) :
    Raises P (throwIf c e : Except ε Unit) := by
  rw [Ros2ToolsAdapter.throwIf]
  split
  · exact error.mpr (he ‹_›)
  · exact ok ()

/-- A loop over a list throws what one of its rounds throws. -/
theorem forM {xs : List α} {f : α → Except ε Unit} (hf : ∀ a ∈ xs, Raises P (f a)) :
    Raises P (forM xs f) := by
  induction xs with
  | nil => exact ok ()
  | cons a xs ih =>
    refine bind (hf a List.mem_cons_self) ?_
    intro _ _
    exact ih fun a' ha' ↦ hf a' (List.mem_cons_of_mem a ha')

end Raises

/-! ## Inversion of a block -/

/-- A check returns when its condition fails. -/
@[simp] theorem throwIf_eq_ok {ε : Type} {c : Prop} [Decidable c] {e : ε} {u : Unit} :
    (throwIf c e : Except ε Unit) = .ok u ↔ ¬ c := by
  rw [throwIf]
  split <;> simp_all [throw, throwThe, MonadExceptOf.throw, pure, Except.pure]

/-- A loop over a list returns when every round does. -/
theorem forM_eq_ok {ε α : Type} {xs : List α} {f : α → Except ε Unit} :
    forM xs f = .ok () ↔ ∀ a ∈ xs, f a = .ok () := by
  induction xs with
  | nil => simp [pure, Except.pure]
  | cons a xs ih =>
    rw [List.forM_cons, bind_eq_ok, List.forall_mem_cons, ← ih]
    constructor
    · rintro ⟨⟨⟩, hhead, htail⟩
      exact ⟨hhead, htail⟩
    · rintro ⟨hhead, htail⟩
      exact ⟨(), hhead, htail⟩

end Ros2ToolsAdapter
