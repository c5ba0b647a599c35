import Shader.Builder

/-!
# What the operations of a builder do

One statement for each operation, in terms of what a builder shows of itself.

* `isWriting_iff`: when lines can be written;
* `emit_eq_ok_iff`, **`perform_eq_ok_iff`**: when a line or an operation succeeds, and with what;
* `depth_written`, `lines_written`, `scopes_cutTo_append`: the scopes afterwards.
-/

namespace Shader.Builder

theorem isWriting_iff {b : Builder} : b.isWriting = true ↔ b.building = true ∧ b.scopes ≠ [] := by
  simp [isWriting]

theorem ensureWriting_eq_ok_iff {b : Builder} {operation : String} :
    b.ensureWriting operation = .ok () ↔ b.isWriting = true := by
  unfold ensureWriting
  cases b.isWriting <;> simp

theorem ensureWriting_of_isWriting {b : Builder} (h : b.isWriting = true) (operation : String) :
    b.ensureWriting operation = .ok () :=
  ensureWriting_eq_ok_iff.2 h

/-- A line is written exactly if lines can be written. -/
theorem emit_eq_ok_iff {b b' : Builder} {line : Line} :
    b.emit line = .ok b' ↔ b.isWriting = true ∧ b' = b.written line := by
  unfold emit ensureWriting
  cases b.isWriting <;> simp [Except.map, eq_comm]

/-- **An operation succeeds exactly if its type rule holds and lines can be written.** Its value is
the next temporary. -/
theorem perform_eq_ok_iff {b b' : Builder} {op : Operation} {e : Expr} :
    b.perform op = .ok (e, b') ↔
      op.check = .ok () ∧ b.isWriting = true ∧ e = b.temp op.value.ty ∧ b' = b.declared op := by
  unfold perform ensureWriting
  cases op.check with
  | error f => simp [bind, Except.bind]
  | ok u => cases b.isWriting <;> simp [bind, Except.bind, pure, Except.pure, eq_comm]

/-! ## Scopes -/

@[simp] theorem depth_written (b : Builder) (line : Line) : (b.written line).depth = b.depth := by
  simp [written, report, depth, append]

/-- A written line stands behind the lines of the innermost scope. -/
theorem lines_written {b : Builder} (h : b.isWriting = true) (line : Line) :
    (b.written line).lines = b.lines ++ [line] := by
  obtain ⟨s, outer, hs⟩ := List.exists_cons_of_ne_nil (isWriting_iff.1 h).2
  simp [written, report, append, lines, hs]

/-- The scopes above a depth are forgotten, the others stay. -/
theorem scopes_cutTo_append {b : Builder} {inner outer : List (List Line)}
    (h : b.scopes = inner ++ outer) : (b.cutTo outer.length).scopes = outer := by
  simp [cutTo, h]

end Shader.Builder
