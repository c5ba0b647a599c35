import Shader.Program.Run

/-!
# Running sequences of programs

* `Outcome.andThen`: go on with the answer of an outcome, in the state it was reached in;
* **`run_bind`**: to run a sequence is to run its parts one after the other;
* `run_op`: a single operation.
-/

namespace Shader

variable {σ α β : Type}

/-- Go on with the answer, in the memory and on the builder it was reached with. -/
def Outcome.andThen (r : Outcome α × σ × Builder) (g : α → σ → Builder → Outcome β × σ × Builder) :
    Outcome β × σ × Builder :=
  match r with
  | (.done a, m, b) => g a m b
  | (.failed f, m, b) => (.failed f, m, b)
  | (.aborted, m, b) => (.aborted, m, b)

namespace Program

/-- **To run a sequence is to run its parts one after the other.** -/
theorem run_bind (p : Program σ α) (g : α → Program σ β) (m : σ) (b : Builder) :
    (p.bind g).run m b = Outcome.andThen (p.run m b) fun a m b => (g a).run m b := by
  induction p generalizing m b with
  | pure a => rfl
  | fail f => rfl
  | abort => rfl
  | own act k ih => exact ih _ _ _ _
  | look k ih => exact ih _ _ _ _
  | perform op k ih =>
    simp only [Program.bind, run]
    split <;> exact ih _ _ _ _
  | emit line k ih =>
    simp only [Program.bind, run]
    split <;> exact ih _ _ _ _
  | define s body k _ ih =>
    simp only [Program.bind, run]
    repeat' split
    all_goals first | exact ih _ _ _ _ | rfl
  | when cond body k _ ih =>
    simp only [Program.bind, run]
    repeat' split
    all_goals first | exact ih _ _ _ _ | rfl
  | choose cond body other k _ _ ih =>
    simp only [Program.bind, run]
    repeat' split
    all_goals first | exact ih _ _ _ _ | rfl
  | build us main k _ ih =>
    simp only [Program.bind, run]
    repeat' split
    all_goals first | exact ih _ _ _ _ | rfl
  | fresh policy body k _ ih =>
    simp only [Program.bind, run]
    repeat' split
    all_goals first | exact ih _ _ _ _ | rfl
  | contain body k _ ih => exact ih _ _ _ _

/-! ## A single operation -/

theorem run_op (o : Operation) (m : σ) (b : Builder) :
    (op o).run m b = match b.perform o with
      | .ok (e, b) => (.done e, m, b)
      | .error f => (.failed f, m, b) := by
  simp only [op, run]
  cases b.perform o <;> rfl

end Program

end Shader
