import Mathlib.Data.List.Basic

/-!
# Blocks that throw

A `do` block in `Except` is a chain of binds. What it returns or throws is what one of its steps
returned or threw, and a proof takes the chain apart by these equations, one step at a time.
-/

namespace Except

variable {ε α β : Type} {x : Except ε α} {f : α → Except ε β}

/-- A computation that returns made every step of it return. -/
theorem bind_eq_ok {b : β} : (x >>= f) = .ok b ↔ ∃ a, x = .ok a ∧ f a = .ok b := by
  cases x with
  | error e => simp [bind, Except.bind]
  | ok a => simp [bind, Except.bind]

/-- A computation throws where its first step throws or where the rest does. -/
theorem bind_eq_error {e : ε} :
    (x >>= f) = .error e ↔ x = .error e ∨ ∃ a, x = .ok a ∧ f a = .error e := by
  cases x with
  | error e' => simp [bind, Except.bind]
  | ok a => simp [bind, Except.bind]

end Except
