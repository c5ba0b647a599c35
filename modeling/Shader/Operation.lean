import Shader.Expr

/-!
# Operations on expressions

An operation has a rule for the types of its operands, and a text and a type for its value. It
declares nothing: naming the value is the builder's work.

* `Arithmetic`, `Intrinsic`, `Channel`: the binary operators, the functions of one argument and the
  components of a vector;
* `Operation`: every operation, with its operands;
* `Operation.check`: the type rule; `Operation.value`: the text and the type of the value.
-/

namespace Shader

/-- The binary operators. -/
inductive Arithmetic
  | add
  | sub
  | mul
  | div
deriving DecidableEq, Repr

namespace Arithmetic

/-- The sign between the operands. -/
def symbol : Arithmetic → String
  | add => "+"
  | sub => "-"
  | mul => "*"
  | div => "/"

/-- The name in messages and documents. -/
def name : Arithmetic → String
  | add => "add"
  | sub => "sub"
  | mul => "mul"
  | div => "div"

end Arithmetic

/-- The functions of one argument. -/
inductive Intrinsic
  | sin
  | cos
  | normalize
deriving DecidableEq, Repr

namespace Intrinsic

/-- The name in shader text, messages and documents. -/
def name : Intrinsic → String
  | sin => "sin"
  | cos => "cos"
  | normalize => "normalize"

/-- Whether the function takes a value of the type: the angles everything but a matrix, a direction
only a vector. -/
def takes : Intrinsic → Ty → Bool
  | sin, t | cos, t => t ≠ .mat4
  | normalize, t => t.isVector

/-- What the function takes, in words. -/
def accepted : Intrinsic → String
  | sin | cos => "float or vector"
  | normalize => "vector"

end Intrinsic

/-- The components of a vector. -/
inductive Channel
  | x
  | y
  | z
  | w
deriving DecidableEq, Repr

namespace Channel

/-- The name in shader text and documents. -/
def name : Channel → String
  | x => "x"
  | y => "y"
  | z => "z"
  | w => "w"

/-- The position in the vector, from `0`. -/
def index : Channel → Nat
  | x => 0
  | y => 1
  | z => 2
  | w => 3

/-- Whether a value of the type has the component. -/
def isIn (c : Channel) (t : Ty) : Bool := t.isVector && c.index < t.components

/-- The types that have the component, in words. -/
def accepted : Channel → String
  | x | y => "vec2, vec3 or vec4"
  | z => "vec3 or vec4"
  | w => "vec4"

end Channel

/-- An operation with its operands. The first expression is the receiver, whose type the value has
unless a rule says otherwise. -/
inductive Operation
  | arithmetic (op : Arithmetic) (left : Expr) (right : Operand)
  | intrinsic (fn : Intrinsic) (arg : Expr)
  | step (arg : Expr) (edge : Operand)
  | smoothstep (arg : Expr) (edge₀ edge₁ : Operand)
  | channel (c : Channel) (arg : Expr)
  | call (callee : Callee) (args : List Operand)
deriving DecidableEq, Repr

/-- The failure of an operand whose type does not fit. -/
def mismatch (operation expected : String) (got : Ty) : Failure :=
  ⟨.typeMismatch operation expected got, none⟩

namespace Operand

/-- Whether an operand may stand beside a receiver of the type: a number, a scalar, or a value of
that very type. -/
def fitsBeside (o : Operand) (receiver : Ty) : Bool :=
  match o.ty? with
  | none => true
  | some t => t = .float || t = receiver

/-- Fails unless the operand may stand beside a receiver of the type. -/
def checkBeside (o : Operand) (operation : String) (receiver : Ty) : Except Failure Unit :=
  match o.ty? with
  | some t =>
    if t = .float || t = receiver then .ok ()
    else .error (mismatch operation ("float or " ++ receiver.keyword) t)
  | none => .ok ()

/-- Whether an operand may be passed for a parameter of the type: a value of that very type, or a
number for a scalar. -/
def fitsParam (o : Operand) (param : Ty) : Bool := o.ty?.getD .float = param

/-- Fails unless the operand may be passed for a parameter of the type. -/
def checkParam (o : Operand) (operation : String) (param : Ty) : Except Failure Unit :=
  let got := o.ty?.getD .float
  if got = param then .ok () else .error (mismatch operation param.keyword got)

theorem checkBeside_eq_ok_iff {o : Operand} {operation : String} {t : Ty} :
    o.checkBeside operation t = .ok () ↔ o.fitsBeside t = true := by
  unfold checkBeside fitsBeside
  cases o.ty? with
  | none => simp
  | some s => by_cases h : (s = .float || s = t) = true <;> simp [h]

theorem checkParam_eq_ok_iff {o : Operand} {operation : String} {t : Ty} :
    o.checkParam operation t = .ok () ↔ o.fitsParam t = true := by
  unfold checkParam fitsParam
  by_cases h : o.ty?.getD .float = t <;> simp [h]

end Operand

/-- Check the arguments of a call one by one, from the left. -/
def checkArguments (operation : String) : List Operand → List Ty → Except Failure Unit
  | o :: os, t :: ts => do
    o.checkParam operation t
    checkArguments operation os ts
  | _, _ => .ok ()

namespace Operation

/-- The text and the type of the value. -/
def value : Operation → Expr
  | arithmetic op a b => ⟨a.code ++ " " ++ op.symbol ++ " " ++ b.code, a.ty⟩
  | intrinsic fn a => ⟨callText fn.name [a.code], a.ty⟩
  | step a edge => ⟨callText "step" [a.code, edge.code, a.code], a.ty⟩
  | smoothstep a edge₀ edge₁ => ⟨callText "smoothstep" [a.code, edge₀.code, edge₁.code], a.ty⟩
  | channel c a => ⟨a.code ++ "." ++ c.name, .float⟩
  | call f args => ⟨callText f.name (args.map (·.code)), f.result⟩

/-- **The type rule**: fails unless the operands are of types that the operation takes. -/
def check : Operation → Except Failure Unit
  | arithmetic op a b => b.checkBeside op.name a.ty
  | intrinsic fn a =>
    if fn.takes a.ty then .ok () else .error (mismatch fn.name fn.accepted a.ty)
  | step a edge => edge.checkBeside "step" a.ty
  | smoothstep a edge₀ edge₁ => do
    edge₀.checkBeside "smoothstep" a.ty
    edge₁.checkBeside "smoothstep" a.ty
  | channel c a =>
    if c.isIn a.ty then .ok () else .error (mismatch ("." ++ c.name) c.accepted a.ty)
  | call f args =>
    if args.length = f.params.length then
      checkArguments ("call to " ++ f.name) args f.params
    else .error ⟨.argumentCount f.name f.params.length args.length, none⟩

end Operation

end Shader
