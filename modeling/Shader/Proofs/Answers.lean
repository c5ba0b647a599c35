/-!
# Answers that may be failures

When a computation that may fail has succeeded, its parts have.

* `bind_eq_ok_iff`, `map_eq_ok_iff`: steps one after the other, and a change of the answer;
* `throw_ne_ok`: a failure is no success.
-/

namespace Shader

variable {ε α β : Type}

/-- A computation succeeds just if its first step does, and the rest with what that gives. -/
theorem bind_eq_ok_iff {x : Except ε α} {f : α → Except ε β} {b : β} :
    x >>= f = .ok b ↔ ∃ a, x = .ok a ∧ f a = .ok b := by
  cases x with
  | error e => simp [bind, Except.bind]
  | ok a => simp [bind, Except.bind]

theorem map_eq_ok_iff {x : Except ε α} {f : α → β} {b : β} :
    x.map f = .ok b ↔ ∃ a, x = .ok a ∧ b = f a := by
  cases x with
  | error e => simp [Except.map]
  | ok a => simp [Except.map, eq_comm]

theorem throw_ne_ok (e : ε) (a : α) : (throw e : Except ε α) ≠ .ok a := by
  simp [throw, throwThe, MonadExceptOf.throw]

end Shader
