import Shader.Program.Basic

/-!
# Running a program

* `Program.run`: run a program on a memory and a builder;
* `Builder.closeFunction`: the end of a function definition, once its body has ended;
* `Program.branch`: one branch of a conditional;
* `Program.generate`: build a shader with a new builder.
-/

namespace Shader

/-- End a function whose body has answered `value`: check its type and write it as the result. -/
def Builder.returnValue (b : Builder) (s : Signature) (value : Expr) :
    Except Failure Unit × Builder :=
  if value.ty = s.result then
    match b.emit (.result value) with
    | .ok b => (.ok (), b)
    | .error f => (.error f, b)
  else (.error (mismatch ("return of " ++ s.name) s.result.keyword value.ty), b)

/-- Close the scope of a function, opened at the given depth, and keep the function if its body
ended well and the scopes are in step. The failure of the body goes before that of the scopes, and
either belongs to the function. -/
def Builder.closeFunction (b : Builder) (s : Signature) (depth : Nat)
    (ended : Except Failure Unit) : Except Failure Callee × Builder :=
  let (lines, b) := b.closeScope depth
  match ended, lines with
  | .ok (), .ok lines => (.ok s.callee, b.addFunction ⟨s, lines⟩)
  | .ok (), .error f | .error f, _ => (.error (f.inScope s.name), b)

namespace Program

variable {σ : Type}

/-- Run a branch of a conditional between its head and its end. -/
def branch (head : Line) (body : σ → Builder → Outcome Unit × σ × Builder) (m : σ)
    (b : Builder) : Outcome Unit × σ × Builder :=
  match b.emit head with
  | .error f => (.failed f, m, b)
  | .ok b =>
    match body m b with
    | (.done (), m, b) =>
      match b.emit .closing with
      | .ok b => (.done (), m, b)
      | .error f => (.failed f, m, b)
    | (.failed f, m, b) => (.failed f, m, b)
    | (.aborted, m, b) => (.aborted, m, b)

/-- Run a program. The answer is how it ends, its memory and the builder as it leaves them. A
program that is abandoned leaves everything as it was at that moment. -/
def run : {α : Type} → Program σ α → σ → Builder → Outcome α × σ × Builder
  | _, .pure a, m, b => (.done a, m, b)
  | _, .fail f, m, b => (.failed f, m, b)
  | _, .abort, m, b => (.aborted, m, b)
  | _, .own act k, m, b =>
    let (x, m) := act m
    (k x).run m b
  | _, .look k, m, b => (k b.view).run m b
  | _, .perform op k, m, b =>
    match b.perform op with
    | .ok (e, b) => (k (.ok e)).run m b
    | .error f => (k (.error f)).run m b
  | _, .emit line k, m, b =>
    match b.emit (.raw line) with
    | .ok b => (k (.ok ())).run m b
    | .error f => (k (.error f)).run m b
  | _, .define s body k, m, b =>
    match b.ensureWriting "define_function" with
    | .error f => (k (.error f)).run m b
    | .ok () =>
      match b.openScope with
      | .error f => (k (.error f)).run m b
      | .ok b =>
        let depth := b.depth
        match (body (s.params.map (·.expr))).run m b with
        | (.aborted, m, b) => (.aborted, m, b)
        | (.failed f, m, b) =>
          let (r, b) := b.closeFunction s depth (.error f)
          (k r).run m b
        | (.done value, m, b) =>
          let (ended, b) := b.returnValue s value
          let (r, b) := b.closeFunction s depth ended
          (k r).run m b
  | _, .when cond body k, m, b =>
    match b.mark "if_block" with
    | .error f => (k (.error f)).run m b
    | .ok mark =>
      match branch (.opening cond) body.run m b with
      | (.aborted, m, b) => (.aborted, m, b)
      | (.failed f, m, b) => (k (.error f)).run m (b.rollback mark)
      | (.done (), m, b) => (k (.ok ())).run m b
  | _, .choose cond body other k, m, b =>
    match b.mark "if_else" with
    | .error f => (k (.error f)).run m b
    | .ok mark =>
      match branch (.opening cond) body.run m b with
      | (.aborted, m, b) => (.aborted, m, b)
      | (.failed f, m, b) => (k (.error f)).run m (b.rollback mark)
      | (.done (), m, b) =>
        match branch .otherwise other.run m b with
        | (.aborted, m, b) => (.aborted, m, b)
        | (.failed f, m, b) => (k (.error f)).run m (b.rollback mark)
        | (.done (), m, b) => (k (.ok ())).run m b
  | _, .build wanted main k, m, b =>
    match b.begin with
    | .error f => (k (.error f)).run m b
    | .ok b =>
      match Builder.collectUniforms wanted with
      | .error f => (k (.error f)).run m (b.settle (.error f))
      | .ok uniforms =>
        let b := { b with uniforms }
        match (main ⟨uniforms⟩).run m b with
        | (.aborted, m, b) => (.aborted, m, b)
        | (.failed f, m, b) => (k (.error f)).run m (b.settle (.error f))
        | (.done result, m, b) =>
          let (r, b) := b.complete result
          (k r).run m (b.settle r)
  | _, .fresh policy body k, m, b =>
    match body.run m (.new policy) with
    | (.aborted, m, _) => (.aborted, m, b)
    | (.failed f, m, _) => (k (.error f)).run m b
    | (.done a, m, _) => (k (.ok a)).run m b
  | _, .contain body k, m, b =>
    let (outcome, m, b) := body.run m b
    (k outcome).run m b

/-- Build a shader from nothing, with a new builder. The builder is handed out for its journal. -/
def generate (uniforms : List Var) (main : Fragment → Program Unit Expr) :
    Except Failure Output × Builder :=
  let (outcome, _, b) := (shader uniforms main).run () (.new .perBuild)
  (outcome.toExcept, b)

end Program

end Shader
