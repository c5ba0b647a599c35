import Shader.Builder.Lemmas
import Shader.Program.Lemmas

/-!
# Calls

An operation of a program is a call and what is done with its answer. Here the calls stand alone:
what each of them does to a memory and a builder, the runs of its bodies being left as they are.

* `Builder.opened`, `Builder.here`, `Builder.begun`: what a call that is not refused starts from;
* `Outcome.close`, `Outcome.conclude`, `Outcome.settle`: what it makes of the outcome of its bodies;
* **`run_define`**, `run_when`, `run_choose`, `run_build`, `run_perform`, `run_emit`: an operation is
  its call and then its continuation;
* `run_define_of_isWriting` and its like: calls that are not refused; `run_define_of_not_isWriting`
  and its like: calls that are.
-/

namespace Shader

variable {σ α β : Type}

/-- The number a build starts from, if the last temporary had the number before `n`. -/
def CounterPolicy.start : CounterPolicy → Nat → Nat
  | perBuild, _ => 0
  | persistent, n => n

namespace Builder

/-! ## Checks -/

theorem emit_of_isWriting {b : Builder} (h : b.isWriting = true) (line : Line) :
    b.emit line = .ok (b.written line) :=
  emit_eq_ok_iff.2 ⟨h, rfl⟩

theorem ensureWriting_of_not_isWriting {b : Builder} (h : b.isWriting = false)
    (operation : String) :
    b.ensureWriting operation = .error (.ofMisuse (.outsideBuild operation)) := by
  simp [ensureWriting, h]

theorem isWriting_written {b : Builder} (h : b.isWriting = true) (line : Line) :
    (b.written line).isWriting = true := by
  obtain ⟨hb, hs⟩ := isWriting_iff.1 h
  exact isWriting_iff.2 ⟨hb, by simpa [written, append, report] using hs⟩

theorem emit_of_not_isWriting {b : Builder} (h : b.isWriting = false) (line : Line) :
    b.emit line = .error (.ofMisuse (.outsideBuild "emit")) := by
  simp [emit, ensureWriting_of_not_isWriting h, Except.map]

/-- The builder with a scope opened for a function. -/
def opened (b : Builder) : Builder := { b with scopes := [] :: b.scopes }

theorem openScope_of_lt {b : Builder} (h : b.depth < maxDepth) : b.openScope = .ok b.opened := by
  simp [openScope, opened, Nat.not_le.2 h]

theorem openScope_of_le {b : Builder} (h : maxDepth ≤ b.depth) :
    b.openScope = .error (.ofMisuse (.tooDeep maxDepth)) := by
  simp [openScope, h]

/-- The place where the builder is writing. -/
def here (b : Builder) : Mark := ⟨b.depth, b.lines.length⟩

theorem mark_of_isWriting {b : Builder} (h : b.isWriting = true) (operation : String) :
    b.mark operation = .ok b.here := by
  simp [mark, ensureWriting_of_isWriting h, here, Except.map]

theorem mark_of_not_isWriting {b : Builder} (h : b.isWriting = false) (operation : String) :
    b.mark operation = .error (.ofMisuse (.outsideBuild operation)) := by
  simp [mark, ensureWriting_of_not_isWriting h, Except.map]

/-- The builder at the start of a build, with the uniforms it declares. -/
def begun (b : Builder) (uniforms : List Var) : Builder :=
  { policy := b.policy, building := true, scopes := [[]], uniforms
    next := b.policy.start b.next
    journal := .buildStarted (b.policy.start b.next) :: b.journal }

theorem begin_of_not_building {b : Builder} (h : b.building = false) :
    b.begin = .ok (b.begun []) := by
  obtain ⟨policy, building, scopes, functions, uniforms, next, journal⟩ := b
  cases policy <;> simp_all [begin, begun, report, CounterPolicy.start]

/-! ## The ends of bodies -/

/-- A body's result is written, or the builder stays as it is. -/
theorem returnValue_cases (b : Builder) (s : Signature) (value : Expr) :
    (∃ f, b.returnValue s value = (.error f, b)) ∨
      b.isWriting = true ∧ value.ty = s.result ∧
        b.returnValue s value = (.ok (), b.written (.result value)) := by
  unfold returnValue
  split
  case isFalse => exact .inl ⟨_, rfl⟩
  case isTrue ht =>
    cases hw : b.isWriting with
    | false => exact .inl ⟨_, by rw [emit_of_not_isWriting hw]⟩
    | true => exact .inr ⟨rfl, ht, by rw [emit_of_isWriting hw]⟩

/-- A function is kept if its body ended well with its own scope on top, and is lost otherwise. -/
theorem closeFunction_cases (b : Builder) (s : Signature) (depth : Nat)
    (ended : Except Failure Unit) :
    (ended = .ok () ∧ b.depth = depth ∧ b.closeFunction s depth ended =
      (.ok s.callee, { b with scopes := b.scopes.tail }.addFunction ⟨s, b.lines⟩)) ∨
    ∃ f : Failure, b.closeFunction s depth ended = (.error (f.inScope s.name), (b.closeScope depth).2) := by
  unfold closeFunction
  cases ended with
  | error f => exact .inr ⟨f, rfl⟩
  | ok u =>
    by_cases hd : b.depth = depth
    · exact .inl ⟨rfl, hd, by simp [closeScope, hd]⟩
    · exact .inr ⟨.ofMisuse (.unbalanced b.depth depth), by simp [closeScope, hd]⟩

/-- The main block gets its last line, and is the answer if no other scope is open. -/
theorem complete_of_isWriting {b : Builder} (h : b.isWriting = true) (result : Expr) :
    b.complete result =
      (if b.depth = 1 then .ok ⟨b.uniforms, b.functions, b.lines ++ [.color result]⟩
        else .error (.ofMisuse (.scopesLeft b.depth)), b.written (.color result)) := by
  simp only [complete, emit_of_isWriting h, ← lines_written h, depth_written]
  split <;> rfl

theorem complete_cases (b : Builder) (result : Expr) :
    (∃ f, b.complete result = (.error f, b)) ∨
      b.isWriting = true ∧ (b.complete result).2 = b.written (.color result) ∧
        (b.complete result).1 = if b.depth = 1 then
          .ok ⟨b.uniforms, b.functions, b.lines ++ [.color result]⟩
        else .error (.ofMisuse (.scopesLeft b.depth)) := by
  cases hw : b.isWriting with
  | false => exact .inl ⟨_, by rw [complete, emit_of_not_isWriting hw]⟩
  | true =>
    rw [complete_of_isWriting hw]
    exact .inr ⟨rfl, rfl, rfl⟩

end Builder

/-! ## What becomes of the outcome of a body -/

/-- End the definition of a function, whose scope has the given depth, after its body. -/
def Outcome.close (s : Signature) (depth : Nat) :
    Outcome Expr × σ × Builder → Outcome (Except Failure Callee) × σ × Builder
  | (.aborted, m, b) => (.aborted, m, b)
  | (.failed f, m, b) =>
    let (r, b) := b.closeFunction s depth (.error f)
    (.done r, m, b)
  | (.done value, m, b) =>
    let (ended, b) := b.returnValue s value
    let (r, b) := b.closeFunction s depth ended
    (.done r, m, b)

/-- End a conditional, begun at the mark, after its branches. -/
def Outcome.conclude (mark : Builder.Mark) :
    Outcome Unit × σ × Builder → Outcome (Except Failure Unit) × σ × Builder
  | (.aborted, m, b) => (.aborted, m, b)
  | (.failed f, m, b) => (.done (.error f), m, b.rollback mark)
  | (.done (), m, b) => (.done (.ok ()), m, b)

/-- End a build after its main body. -/
def Outcome.settle :
    Outcome Expr × σ × Builder → Outcome (Except Failure Output) × σ × Builder
  | (.aborted, m, b) => (.aborted, m, b)
  | (.failed f, m, b) => (.done (.error f), m, b.settle (.error f))
  | (.done value, m, b) =>
    let (r, b) := b.complete value
    (.done r, m, b.settle r)

/-- What a call has answered, unless it has failed. -/
def Outcome.answer? : Outcome (Except Failure α) → Option α
  | .done (.ok x) => some x
  | _ => none

/-- A call without a memory that has answered. -/
theorem Outcome.exists_eq_of_answer? {r : Outcome (Except Failure α) × Unit × Builder} {x : α}
    (h : r.1.answer? = some x) : ∃ b', r = (.done (.ok x), (), b') := by
  obtain ⟨(f | y) | f | _, u, b⟩ := r
  · cases h
  · cases h
    exact ⟨b, rfl⟩
  · cases h
  · cases h

namespace Program

/-! ## An operation is its call and then its continuation -/

theorem run_perform (op : Operation) (k : Except Failure Expr → Program σ α) (m : σ)
    (b : Builder) : (Program.perform op k).run m b =
      Outcome.andThen ((Program.perform op .pure).run m b) fun r m b => (k r).run m b :=
  run_bind (.perform op .pure) k m b

theorem run_emit (line : String) (k : Except Failure Unit → Program σ α) (m : σ) (b : Builder) :
    (Program.emit line k).run m b =
      Outcome.andThen ((Program.emit line .pure).run m b) fun r m b => (k r).run m b :=
  run_bind (.emit line .pure) k m b

theorem run_define (s : Signature) (body : List Expr → Program σ Expr)
    (k : Except Failure Callee → Program σ α) (m : σ) (b : Builder) :
    (Program.define s body k).run m b =
      Outcome.andThen ((Program.define s body .pure).run m b) fun r m b => (k r).run m b :=
  run_bind (.define s body .pure) k m b

theorem run_when (cond : String) (body : Program σ Unit) (k : Except Failure Unit → Program σ α)
    (m : σ) (b : Builder) : (Program.when cond body k).run m b =
      Outcome.andThen ((Program.when cond body .pure).run m b) fun r m b => (k r).run m b :=
  run_bind (.when cond body .pure) k m b

theorem run_choose (cond : String) (body other : Program σ Unit)
    (k : Except Failure Unit → Program σ α) (m : σ) (b : Builder) :
    (Program.choose cond body other k).run m b =
      Outcome.andThen ((Program.choose cond body other .pure).run m b) fun r m b =>
        (k r).run m b :=
  run_bind (.choose cond body other .pure) k m b

theorem run_build (wanted : List Var) (main : Fragment → Program σ Expr)
    (k : Except Failure Output → Program σ α) (m : σ) (b : Builder) :
    (Program.build wanted main k).run m b =
      Outcome.andThen ((Program.build wanted main .pure).run m b) fun r m b => (k r).run m b :=
  run_bind (.build wanted main .pure) k m b

theorem run_fresh (policy : CounterPolicy) (body : Program σ β)
    (k : Except Failure β → Program σ α) (m : σ) (b : Builder) :
    (Program.fresh policy body k).run m b =
      Outcome.andThen ((Program.fresh policy body .pure).run m b) fun r m b => (k r).run m b :=
  run_bind (.fresh policy body .pure) k m b

theorem run_contain (body : Program σ β) (k : Outcome β → Program σ α) (m : σ) (b : Builder) :
    (Program.contain body k).run m b =
      Outcome.andThen ((Program.contain body .pure).run m b) fun r m b => (k r).run m b :=
  run_bind (.contain body .pure) k m b

/-! ## What an answer tells -/

/-- A sequence that answers: its parts do, one after the other. -/
theorem run_bind_eq_done {p : Program σ α} {g : α → Program σ β} {m m' : σ}
    {b b' : Builder} {y : β} (h : (p.bind g).run m b = (.done y, m', b')) :
    ∃ x m₁ b₁, p.run m b = (.done x, m₁, b₁) ∧ (g x).run m₁ b₁ = (.done y, m', b') := by
  rw [run_bind] at h
  rcases hp : p.run m b with ⟨x | f | _, m₁, b₁⟩
  · rw [hp] at h
    exact ⟨x, m₁, b₁, rfl, h⟩
  · rw [hp] at h
    cases h
  · rw [hp] at h
    cases h

theorem run_ofExcept_eq_done {r : Except Failure α} {m m' : σ} {b b' : Builder} {x : α}
    (h : (ofExcept r).run m b = (.done x, m', b')) : r = .ok x ∧ m' = m ∧ b' = b := by
  cases r with
  | ok a =>
    cases h
    exact ⟨rfl, rfl, rfl⟩
  | error f => cases h

/-- A build that answers with its shader has succeeded. -/
theorem run_shader_eq_done {wanted : List Var} {main : Fragment → Program σ Expr} {m m' : σ}
    {b b' : Builder} {out : Output} (h : (shader wanted main).run m b = (.done out, m', b')) :
    (Program.build wanted main .pure).run m b = (.done (.ok out), m', b') := by
  have hbind : ((Program.build wanted main .pure).bind .ofExcept).run m b = (.done out, m', b') := h
  obtain ⟨r, m₁, b₁, hbuild, hr⟩ := run_bind_eq_done hbind
  obtain ⟨rfl, rfl, rfl⟩ := run_ofExcept_eq_done hr
  exact hbuild

theorem run_op_eq_done {o : Operation} {m m' : σ} {b b' : Builder} {e : Expr}
    (h : (op o).run m b = (.done e, m', b')) : b.perform o = .ok (e, b') := by
  rw [run_op] at h
  split at h
  · cases h
    assumption
  · cases h

/-! ## Calls that are refused -/

theorem run_define_of_not_isWriting {s : Signature} {body : List Expr → Program σ Expr} {m : σ}
    {b : Builder} (h : b.isWriting = false) : (Program.define s body .pure).run m b =
      (.done (.error (.ofMisuse (.outsideBuild "define_function"))), m, b) := by
  simp only [run, Builder.ensureWriting_of_not_isWriting h]

theorem run_define_of_le {s : Signature} {body : List Expr → Program σ Expr} {m : σ}
    {b : Builder} (h : b.isWriting = true) (hd : maxDepth ≤ b.depth) :
    (Program.define s body .pure).run m b =
      (.done (.error (.ofMisuse (.tooDeep maxDepth))), m, b) := by
  simp only [run, Builder.ensureWriting_of_isWriting h, Builder.openScope_of_le hd]

theorem run_when_of_not_isWriting {cond : String} {body : Program σ Unit} {m : σ} {b : Builder}
    (h : b.isWriting = false) : (Program.when cond body .pure).run m b =
      (.done (.error (.ofMisuse (.outsideBuild "if_block"))), m, b) := by
  simp only [run, Builder.mark_of_not_isWriting h]

theorem run_choose_of_not_isWriting {cond : String} {body other : Program σ Unit} {m : σ}
    {b : Builder} (h : b.isWriting = false) : (Program.choose cond body other .pure).run m b =
      (.done (.error (.ofMisuse (.outsideBuild "if_else"))), m, b) := by
  simp only [run, Builder.mark_of_not_isWriting h]

theorem run_build_of_building {wanted : List Var} {main : Fragment → Program σ Expr} {m : σ}
    {b : Builder} (h : b.building = true) : (Program.build wanted main .pure).run m b =
      (.done (.error (.ofMisuse .nestedBuild)), m, b) := by
  simp only [run, Builder.begin, h, if_true]

/-! ## Calls that are not refused -/

theorem run_define_of_isWriting {s : Signature} {body : List Expr → Program σ Expr} {m : σ}
    {b : Builder} (h : b.isWriting = true) (hd : b.depth < maxDepth) :
    (Program.define s body .pure).run m b =
      Outcome.close s (b.depth + 1) ((body (s.params.map (·.expr))).run m b.opened) := by
  simp only [run, Builder.ensureWriting_of_isWriting h, Builder.openScope_of_lt hd]
  have : b.opened.depth = b.depth + 1 := rfl
  rw [this]
  rcases (body (s.params.map (·.expr))).run m b.opened with ⟨o | o | _, m', b'⟩ <;> rfl

theorem branch_of_isWriting {head : Line} {body : σ → Builder → Outcome Unit × σ × Builder}
    {m : σ} {b : Builder} (h : b.isWriting = true) : branch head body m b =
      Outcome.andThen (body m (b.written head)) fun _ m b =>
        match b.emit .closing with
        | .ok b => (.done (), m, b)
        | .error f => (.failed f, m, b) := by
  simp only [branch, Builder.emit_of_isWriting h]
  rcases body m (b.written head) with ⟨o | o | _, m', b'⟩ <;> rfl

/-- A branch that comes to its end: its body did, and the branch was closed. -/
theorem branch_eq_done {head : Line} {body : σ → Builder → Outcome Unit × σ × Builder}
    {m m' : σ} {b b' : Builder} {u : Unit} (hw : b.isWriting = true)
    (h : branch head body m b = (.done u, m', b')) :
    ∃ b₁, body m (b.written head) = (.done u, m', b₁) ∧ b₁.isWriting = true ∧
      b' = b₁.written .closing := by
  rw [branch_of_isWriting hw] at h
  rcases hbody : body m (b.written head) with ⟨o | f | _, m₁, b₁⟩
  all_goals rw [hbody] at h
  · dsimp only [Outcome.andThen] at h
    split at h
    · cases h
      obtain ⟨hw₁, rfl⟩ := Builder.emit_eq_ok_iff.1 ‹_›
      exact ⟨b₁, rfl, hw₁, rfl⟩
    · cases h
  · cases h
  · cases h

theorem run_when_of_isWriting {cond : String} {body : Program σ Unit} {m : σ} {b : Builder}
    (h : b.isWriting = true) : (Program.when cond body .pure).run m b =
      Outcome.conclude b.here (branch (.opening cond) body.run m b) := by
  simp only [run, Builder.mark_of_isWriting h]
  rcases branch (.opening cond) body.run m b with ⟨o | o | _, m', b'⟩ <;> rfl

theorem run_choose_of_isWriting {cond : String} {body other : Program σ Unit} {m : σ}
    {b : Builder} (h : b.isWriting = true) : (Program.choose cond body other .pure).run m b =
      Outcome.conclude b.here (Outcome.andThen (branch (.opening cond) body.run m b)
        fun _ m b => branch .otherwise other.run m b) := by
  simp only [run, Builder.mark_of_isWriting h]
  rcases branch (.opening cond) body.run m b with ⟨o | o | _, m', b'⟩
  · simp only [Outcome.andThen]
    rcases branch .otherwise other.run m' b' with ⟨o | o | _, m'', b''⟩ <;> rfl
  · rfl
  · rfl

theorem run_build_of_not_building {wanted : List Var} {main : Fragment → Program σ Expr} {m : σ}
    {b : Builder} (h : b.building = false) : (Program.build wanted main .pure).run m b =
      match Builder.collectUniforms wanted with
      | .error f => (.done (.error f), m, (b.begun []).settle (.error f))
      | .ok uniforms => Outcome.settle ((main ⟨uniforms⟩).run m (b.begun uniforms)) := by
  simp only [run, Builder.begin_of_not_building h]
  cases Builder.collectUniforms wanted with
  | error f => rfl
  | ok uniforms =>
    have : { b.begun [] with uniforms } = b.begun uniforms := rfl
    simp only [this]
    rcases (main ⟨uniforms⟩).run m (b.begun uniforms) with ⟨o | o | _, m', b'⟩ <;> rfl

/-- A definition that answers with a function: it was not refused, and its body has answered a value
of the right type with the scope of the function on top. -/
theorem run_define_eq_ok {s : Signature} {body : List Expr → Program σ Expr} {m m' : σ}
    {b b' : Builder} {f : Callee}
    (h : (Program.define s body .pure).run m b = (.done (.ok f), m', b')) :
    b.isWriting = true ∧ b.depth < maxDepth ∧ ∃ value b₁,
      (body (s.params.map (·.expr))).run m b.opened = (.done value, m', b₁) ∧
      b₁.depth = b.depth + 1 ∧ value.ty = s.result ∧ f = s.callee := by
  cases hw : b.isWriting with
  | false =>
    rw [run_define_of_not_isWriting hw] at h
    cases h
  | true =>
    by_cases hd : b.depth < maxDepth
    · rw [run_define_of_isWriting hw hd] at h
      rcases hbody : (body (s.params.map (·.expr))).run m b.opened with ⟨value | f | _, m₁, b₁⟩
      all_goals rw [hbody] at h
      · simp only [Outcome.close] at h
        obtain ⟨f₀, hr⟩ | ⟨-, hv, hr⟩ := b₁.returnValue_cases s value
        · rw [hr] at h
          cases h
        · rw [hr] at h
          obtain ⟨-, hd₁, hc⟩ | ⟨f₀, hc⟩ :=
            (b₁.written (.result value)).closeFunction_cases s (b.depth + 1) (.ok ())
          · rw [hc] at h
            cases h
            exact ⟨rfl, hd, value, b₁, hbody, by simpa using hd₁, hv, rfl⟩
          · rw [hc] at h
            cases h
      · cases h
      · cases h
    · rw [run_define_of_le hw (Nat.le_of_not_lt hd)] at h
      cases h

/-- A build that answers with a shader: it was not refused, its main body has answered with one
scope open, and the shader has what the builder held then. -/
theorem run_build_eq_ok {wanted : List Var} {main : Fragment → Program σ Expr} {m m' : σ}
    {b b' : Builder} {out : Output}
    (h : (Program.build wanted main .pure).run m b = (.done (.ok out), m', b')) :
    b.building = false ∧ ∃ uniforms value b₁,
      Builder.collectUniforms wanted = .ok uniforms ∧
      (main ⟨uniforms⟩).run m (b.begun uniforms) = (.done value, m', b₁) ∧
      b₁.isWriting = true ∧ b₁.depth = 1 ∧
      out = ⟨b₁.uniforms, b₁.functions, b₁.lines ++ [.color value]⟩ ∧
      b' = (b₁.written (.color value)).settle (.ok out) := by
  cases hb : b.building with
  | true =>
    rw [run_build_of_building hb] at h
    cases h
  | false =>
    rw [run_build_of_not_building hb] at h
    cases hu : Builder.collectUniforms wanted with
    | error f =>
      rw [hu] at h
      cases h
    | ok uniforms =>
      rw [hu] at h
      dsimp only at h
      rcases hmain : (main ⟨uniforms⟩).run m (b.begun uniforms) with ⟨value | f | _, m₁, b₁⟩
      all_goals rw [hmain] at h
      · obtain ⟨f, hc⟩ | ⟨hw, hc₂, hc₁⟩ := b₁.complete_cases value
        · simp only [Outcome.settle, hc] at h
          cases h
        · simp only [Outcome.settle, hc₁, hc₂] at h
          by_cases hd : b₁.depth = 1
          · rw [if_pos hd] at h
            cases h
            exact ⟨rfl, uniforms, value, b₁, rfl, hmain, hw, hd, rfl, rfl⟩
          · rw [if_neg hd] at h
            cases h
      · cases h
      · cases h

end Program

end Shader
