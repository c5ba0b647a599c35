import Shader.Failure
import Shader.Literal

/-!
# Expressions of the shader language

* `Var`: a name with its type, for uniforms and parameters;
* `Expr`: a piece of shader text with its type;
* `Operand`: the right-hand side of an operation, an expression or a number that is still free of a
  type; `Operand.equals` compares two of them, numbers as numbers;
* `Signature` and `Callee`: a function as it is defined and as it is called;
* `Fragment`: what the main body of a build may refer to; **`uniform_eq_ok_iff`** says that those
  are exactly the declared uniforms, the first declaration of a name counting.
-/

namespace Shader

/-- A name with its type. -/
structure Var where
  name : String
  ty : Ty
deriving DecidableEq, Repr

/-- A piece of shader text that stands for a value of the given type. -/
structure Expr where
  code : String
  ty : Ty
deriving DecidableEq, Repr, Inhabited

/-- The expression that names a variable. -/
def Var.expr (v : Var) : Expr := ⟨v.name, v.ty⟩

/-- A variable with its type before it, as in a parameter list. -/
def Var.declared (v : Var) : String := v.ty.keyword ++ " " ++ v.name

/-- The text of a call: the name, and the arguments in parentheses. -/
def callText (name : String) (args : List String) : String :=
  name ++ "(" ++ String.intercalate ", " args ++ ")"

namespace Expr

/-- A number as an expression of type `float`. -/
def float (v : Binary64) : Expr := ⟨literal v, .float⟩

/-- A pair of numbers; the second is the first unless it is given. -/
def vec2 (x : Binary64) (y : Option Binary64) : Expr :=
  ⟨callText "vec2" [literal x, literal (y.getD x)], .vec2⟩

end Expr

/-- The right-hand side of an operation. -/
inductive Operand
  | expr (e : Expr)
  | number (n : Binary64)
deriving DecidableEq, Repr

namespace Operand

/-- The text of an operand. -/
def code : Operand → String
  | expr e => e.code
  | number n => literal n

/-- The type of an operand; a number has none and fits where a scalar does. -/
def ty? : Operand → Option Ty
  | expr e => some e.ty
  | number _ => none

/-- Whether two operands are equal: expressions by text and type, numbers as numbers, an expression
and a number never. -/
def equals : Operand → Operand → Bool
  | expr a, expr b => a = b
  | number m, number n => m.equals n
  | _, _ => false

end Operand

/-- A function handle: what a call has to know. -/
structure Callee where
  name : String
  result : Ty
  params : List Ty
deriving DecidableEq, Repr

/-- The head of a function definition. -/
structure Signature where
  name : String
  result : Ty
  params : List Var
deriving DecidableEq, Repr

/-- The handle of a function with the given head. -/
def Signature.callee (s : Signature) : Callee := ⟨s.name, s.result, s.params.map (·.ty)⟩

/-- What the main body of a build may refer to: its uniforms. -/
structure Fragment where
  uniforms : List Var
deriving DecidableEq, Repr

namespace Fragment

/-- The screen coordinate. -/
def coord (_ : Fragment) : Expr := ⟨"gl_FragCoord.xy", .vec2⟩

/-- The uniform of the given name, which the build has to declare. -/
def uniform (f : Fragment) (name : String) : Except Failure Expr :=
  match f.uniforms.find? (·.name = name) with
  | some v => .ok v.expr
  | none => .error ⟨.unknownUniform name, none⟩

/-- **A reference succeeds exactly on the first declaration of its name.** -/
theorem uniform_eq_ok_iff {f : Fragment} {name : String} {e : Expr} :
    f.uniform name = .ok e ↔ ∃ v, f.uniforms.find? (·.name = name) = some v ∧ e = v.expr := by
  unfold uniform
  cases h : f.uniforms.find? (·.name = name) with
  | none => simp
  | some v => simp [eq_comm]

end Fragment

end Shader
