import Shader.Builder

/-!
# Programs that write shaders

A caller writes a shader by a program of builder operations. Some operations take further programs:
the body of a function, the branches of a conditional, the main body of a build. A program may look
at what the builder shows of itself, may keep a memory of its own, may catch the failure of an
operation or pass it on, and may be abandoned on the spot.

* `Program σ α`: programs with a memory of type `σ` that answer an `α`; they form a monad in which
  a failure that is not caught ends the program;
* `Program.attempt`: catch a failure; `Program.contain`: catch an abandonment too;
* **`bind_assoc`**, `pure_bind`, `bind_pure`: the laws of the monad.
-/

namespace Shader

/-- What a builder shows of itself. -/
structure View where
  depth : Nat
  /-- The lines of the innermost scope. -/
  lines : List Line
  building : Bool
deriving DecidableEq, Repr

/-- What a builder shows of itself. -/
def Builder.view (b : Builder) : View := ⟨b.depth, b.lines, b.building⟩

/-- How a program ends. -/
inductive Outcome (α : Type)
  | done (a : α)
  | failed (f : Failure)
  /-- Abandoned: nothing that was under way is brought to its end. -/
  | aborted
deriving Repr

/-- The answer or the failure; a program that was abandoned has no answer. -/
def Outcome.toExcept {α : Type} : Outcome α → Except Failure α
  | .done a => .ok a
  | .failed f => .error f
  | .aborted => .error (.ofMisuse .abandoned)

/-- A program of builder operations with a memory of type `σ`. After each operation it goes on with
the operation's answer, which may be a failure. -/
inductive Program (σ : Type) : Type → Type 1
  /-- Answer. -/
  | pure {α : Type} (a : α) : Program σ α
  /-- Fail. -/
  | fail {α : Type} (f : Failure) : Program σ α
  /-- Leave at once. -/
  | abort {α : Type} : Program σ α
  /-- Read and change the program's own memory. -/
  | own {α β : Type} (act : σ → β × σ) (k : β → Program σ α) : Program σ α
  /-- Look at the builder. -/
  | look {α : Type} (k : View → Program σ α) : Program σ α
  /-- Carry out an operation on expressions. -/
  | perform {α : Type} (op : Operation) (k : Except Failure Expr → Program σ α) : Program σ α
  /-- Write a line. -/
  | emit {α : Type} (line : String) (k : Except Failure Unit → Program σ α) : Program σ α
  /-- Define a function; its body gets the parameters. -/
  | define {α : Type} (s : Signature) (body : List Expr → Program σ Expr)
      (k : Except Failure Callee → Program σ α) : Program σ α
  /-- Write a conditional. -/
  | when {α : Type} (cond : String) (body : Program σ Unit)
      (k : Except Failure Unit → Program σ α) : Program σ α
  /-- Write a conditional with an alternative. -/
  | choose {α : Type} (cond : String) (body other : Program σ Unit)
      (k : Except Failure Unit → Program σ α) : Program σ α
  /-- Build a shader on the same builder; its main body gets the uniforms. -/
  | build {α : Type} (uniforms : List Var) (main : Fragment → Program σ Expr)
      (k : Except Failure Output → Program σ α) : Program σ α
  /-- Run a program on a new builder and come back to this one. -/
  | fresh {α β : Type} (policy : CounterPolicy) (body : Program σ β)
      (k : Except Failure β → Program σ α) : Program σ α
  /-- Run a program and go on however it ends. -/
  | contain {α β : Type} (body : Program σ β) (k : Outcome β → Program σ α) : Program σ α

namespace Program

variable {σ α β γ : Type}

/-- Answer or fail. -/
def ofExcept : Except Failure α → Program σ α
  | .ok a => .pure a
  | .error f => .fail f

/-- Go on with the answer of a program. -/
def bind : {α : Type} → Program σ α → (α → Program σ β) → Program σ β
  | _, .pure a, g => g a
  | _, .fail f, _ => .fail f
  | _, .abort, _ => .abort
  | _, .own act k, g => .own act fun x => (k x).bind g
  | _, .look k, g => .look fun v => (k v).bind g
  | _, .perform op k, g => .perform op fun r => (k r).bind g
  | _, .emit line k, g => .emit line fun r => (k r).bind g
  | _, .define s body k, g => .define s body fun r => (k r).bind g
  | _, .when cond body k, g => .when cond body fun r => (k r).bind g
  | _, .choose cond body other k, g => .choose cond body other fun r => (k r).bind g
  | _, .build us main k, g => .build us main fun r => (k r).bind g
  | _, .fresh policy body k, g => .fresh policy body fun r => (k r).bind g
  | _, .contain body k, g => .contain body fun r => (k r).bind g

instance : Monad (Program σ) where
  pure := .pure
  bind := .bind

/-- Catch the failure of a program. -/
def attempt : {α : Type} → Program σ α → Program σ (Except Failure α)
  | _, .pure a => .pure (.ok a)
  | _, .fail f => .pure (.error f)
  | _, .abort => .abort
  | _, .own act k => .own act fun x => (k x).attempt
  | _, .look k => .look fun v => (k v).attempt
  | _, .perform op k => .perform op fun r => (k r).attempt
  | _, .emit line k => .emit line fun r => (k r).attempt
  | _, .define s body k => .define s body fun r => (k r).attempt
  | _, .when cond body k => .when cond body fun r => (k r).attempt
  | _, .choose cond body other k => .choose cond body other fun r => (k r).attempt
  | _, .build us main k => .build us main fun r => (k r).attempt
  | _, .fresh policy body k => .fresh policy body fun r => (k r).attempt
  | _, .contain body k => .contain body fun r => (k r).attempt

@[simp] theorem pure_bind (a : α) (g : α → Program σ β) : (pure a).bind g = g a := rfl

@[simp] theorem bind_pure : {α : Type} → (p : Program σ α) → p.bind .pure = p
  | _, .pure _ | _, .fail _ | _, .abort => rfl
  | _, .own act k => congrArg (Program.own act) (funext fun x => (k x).bind_pure)
  | _, .look k => congrArg Program.look (funext fun v => (k v).bind_pure)
  | _, .perform op k => congrArg (Program.perform op) (funext fun r => (k r).bind_pure)
  | _, .emit line k => congrArg (Program.emit line) (funext fun r => (k r).bind_pure)
  | _, .define s body k => congrArg (Program.define s body) (funext fun r => (k r).bind_pure)
  | _, .when cond body k => congrArg (Program.when cond body) (funext fun r => (k r).bind_pure)
  | _, .choose cond body other k =>
    congrArg (Program.choose cond body other) (funext fun r => (k r).bind_pure)
  | _, .build us main k => congrArg (Program.build us main) (funext fun r => (k r).bind_pure)
  | _, .fresh policy body k =>
    congrArg (Program.fresh policy body) (funext fun r => (k r).bind_pure)
  | _, .contain body k => congrArg (Program.contain body) (funext fun r => (k r).bind_pure)

/-- **It does not matter how a sequence of programs is bracketed.** -/
theorem bind_assoc : {α : Type} → (p : Program σ α) → (g : α → Program σ β) →
    (h : β → Program σ γ) → (p.bind g).bind h = p.bind fun a => (g a).bind h
  | _, .pure _, _, _ | _, .fail _, _, _ | _, .abort, _, _ => rfl
  | _, .own act k, g, h => congrArg (Program.own act) (funext fun x => (k x).bind_assoc g h)
  | _, .look k, g, h => congrArg Program.look (funext fun v => (k v).bind_assoc g h)
  | _, .perform op k, g, h =>
    congrArg (Program.perform op) (funext fun r => (k r).bind_assoc g h)
  | _, .emit line k, g, h => congrArg (Program.emit line) (funext fun r => (k r).bind_assoc g h)
  | _, .define s body k, g, h =>
    congrArg (Program.define s body) (funext fun r => (k r).bind_assoc g h)
  | _, .when cond body k, g, h =>
    congrArg (Program.when cond body) (funext fun r => (k r).bind_assoc g h)
  | _, .choose cond body other k, g, h =>
    congrArg (Program.choose cond body other) (funext fun r => (k r).bind_assoc g h)
  | _, .build us main k, g, h =>
    congrArg (Program.build us main) (funext fun r => (k r).bind_assoc g h)
  | _, .fresh policy body k, g, h =>
    congrArg (Program.fresh policy body) (funext fun r => (k r).bind_assoc g h)
  | _, .contain body k, g, h =>
    congrArg (Program.contain body) (funext fun r => (k r).bind_assoc g h)

/-! ## Operations that pass a failure on -/

/-- Read the memory. -/
def memory : Program σ σ := .own (fun s => (s, s)) .pure

/-- Change the memory. -/
def modify (f : σ → σ) : Program σ Unit := .own (fun s => ((), f s)) .pure

/-- What the builder shows of itself. -/
def view : Program σ View := .look .pure

/-- Carry out an operation. -/
def op (o : Operation) : Program σ Expr := .perform o ofExcept

/-- Write a line. -/
def line (text : String) : Program σ Unit := .emit text ofExcept

/-- Define a function. -/
def function (s : Signature) (body : List Expr → Program σ Expr) : Program σ Callee :=
  .define s body ofExcept

/-- Write a conditional. -/
def ifBlock (cond : String) (body : Program σ Unit) : Program σ Unit := .when cond body ofExcept

/-- Write a conditional with an alternative. -/
def ifElse (cond : String) (body other : Program σ Unit) : Program σ Unit :=
  .choose cond body other ofExcept

/-- Build a shader. -/
def shader (uniforms : List Var) (main : Fragment → Program σ Expr) : Program σ Output :=
  .build uniforms main ofExcept

/-- Run a program on a new builder. -/
def onNew (policy : CounterPolicy) (body : Program σ α) : Program σ α :=
  .fresh policy body ofExcept

/-- Run a program several times. -/
def repeated : Nat → Program σ Unit → Program σ Unit
  | 0, _ => .pure ()
  | n + 1, p => p.bind fun _ => repeated n p

end Program

end Shader
