import Shader.Program.Run

/-!
# Expression graphs

A graph describes a shader as a tree of nodes. Evaluating it writes one line for every operation,
the operands of a node from left to right and before the node itself.

* `Node`: the nodes; `Node.program` evaluates one, `Node.equals` compares two;
* `Graph`: the uniforms and the main node; `Graph.program` builds the shader.
-/

namespace Shader

/-- A node of an expression graph. -/
inductive Node
  | coord
  | uniform (name : String)
  | literal (value : Binary64)
  | vec2 (x : Binary64) (y : Option Binary64)
  | arithmetic (op : Arithmetic) (lhs rhs : Node)
  | intrinsic (fn : Intrinsic) (arg : Node)
  | step (arg edge : Node)
  | smoothstep (arg edge₀ edge₁ : Node)
  | channel (c : Channel) (arg : Node)
deriving DecidableEq, Repr

namespace Node

/-- A node as an operand, given its program: a literal stays a number, which has no type yet. -/
def operand {σ : Type} (n : Node) (p : Program σ Expr) : Program σ Operand :=
  match n with
  | .literal v => pure (.number v)
  | _ => return .expr (← p)

/-- **Evaluate a node**: its operands from left to right, then the operation. -/
def program {σ : Type} (f : Fragment) : Node → Program σ Expr
  | .coord => pure f.coord
  | .uniform name => .ofExcept (f.uniform name)
  | .literal v => pure (.float v)
  | .vec2 x y => pure (.vec2 x y)
  | .arithmetic op lhs rhs => do
    let a ← program f lhs
    let b ← rhs.operand (program f rhs)
    .op (.arithmetic op a b)
  | .intrinsic fn arg => do
    let a ← program f arg
    .op (.intrinsic fn a)
  | .step arg edge => do
    let a ← program f arg
    let e ← edge.operand (program f edge)
    .op (.step a e)
  | .smoothstep arg edge₀ edge₁ => do
    let a ← program f arg
    let e₀ ← edge₀.operand (program f edge₀)
    let e₁ ← edge₁.operand (program f edge₁)
    .op (.smoothstep a e₀ e₁)
  | .channel c arg => do
    let a ← program f arg
    .op (.channel c a)

/-- Whether two optional numbers are equal as numbers. -/
def sameNumber : Option Binary64 → Option Binary64 → Bool
  | none, none => true
  | some a, some b => a.equals b
  | _, _ => false

/-- Whether two nodes are equal, numbers being compared as numbers. -/
def equals : Node → Node → Bool
  | .coord, .coord => true
  | .uniform a, .uniform b => a = b
  | .literal a, .literal b => a.equals b
  | .vec2 a b, .vec2 c d => a.equals c && sameNumber b d
  | .arithmetic o a b, .arithmetic p c d => o = p && equals a c && equals b d
  | .intrinsic f a, .intrinsic g b => f = g && equals a b
  | .step a b, .step c d => equals a c && equals b d
  | .smoothstep a b c, .smoothstep d e f => equals a d && equals b e && equals c f
  | .channel c a, .channel d b => c = d && equals a b
  | _, _ => false

end Node

/-- An expression graph: the uniforms it declares and the node that gives the colour. -/
structure Graph where
  uniforms : List Var
  main : Node
deriving DecidableEq, Repr

namespace Graph

/-- Build the shader of a graph. -/
def program {σ : Type} (g : Graph) : Program σ Output :=
  .shader g.uniforms fun f => g.main.program f

/-- The shader of a graph, from a new builder. -/
def generate (g : Graph) : Except Failure Output × Builder :=
  Program.generate g.uniforms fun f => g.main.program f

/-- Whether two graphs are equal, numbers being compared as numbers. -/
def equals (g h : Graph) : Bool := g.uniforms = h.uniforms && g.main.equals h.main

end Graph

end Shader
