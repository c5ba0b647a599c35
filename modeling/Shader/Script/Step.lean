import Shader.Program.Run

/-!
# Scripts

A script is a program of builder operations given as data. Its expressions live in named slots,
which all the bodies of the script share.

* `Reference`, `Piece`: operands and parts of conditions, by the slot that holds them;
* `Origin`: the steps that give an expression; `Step`: every step;
* `Origin.name`, `Step.name`: the word for a step in a trace.
-/

namespace Shader.Script

/-- An operand: the expression of a slot, or a number. -/
inductive Reference
  | slot (name : String)
  | number (n : Binary64)
deriving Repr

/-- A part of a condition: a text, or the code of the expression of a slot. -/
inductive Piece
  | text (s : String)
  | slot (name : String)
deriving Repr

/-- Where an expression comes from. Types are given by their words. -/
inductive Origin
  | coord
  | uniform (name : String)
  /-- A uniform that need not be declared. -/
  | raw (name type : String)
  /-- Any text with a type. -/
  | new (code type : String)
  | float (v : Binary64)
  | vec2 (x : Binary64) (y : Option Binary64)
  | copy (a : String)
  | arithmetic (op : Arithmetic) (a : String) (b : Reference)
  | intrinsic (fn : Intrinsic) (a : String)
  | step (a : String) (edge : Reference)
  | smoothstep (a : String) (edge₀ edge₁ : Reference)
  | channel (c : Channel) (a : String)
  | call (function : String) (args : List Reference)
deriving Repr

/-- The word for a step that gives an expression. -/
def Origin.name : Origin → String
  | coord => "frag_coord"
  | uniform _ => "uniform"
  | raw _ _ => "raw_uniform"
  | new _ _ => "new"
  | float _ => "float"
  | vec2 _ _ => "vec2"
  | copy _ => "copy"
  | arithmetic op _ _ => op.name
  | intrinsic fn _ => fn.name
  | step _ _ => "step"
  | smoothstep _ _ _ => "smoothstep"
  | channel c _ => c.name
  | call _ _ => "call"

/-- What a step that builds a shader answers. -/
inductive BuildForm
  /-- The shader with its parts. -/
  | parts
  /-- The text only. -/
  | text
  /-- The text only, from a new builder. -/
  | alone
deriving DecidableEq, Repr

/-- The word for a step that builds a shader. -/
def BuildForm.name : BuildForm → String
  | parts => "build"
  | text => "build_source"
  | alone => "glsl"

/-- A failure that a script asks for. -/
inductive Complaint
  | of (cause : Cause)
  /-- A type mismatch whose type is given by its word. -/
  | mismatch (operation expected type : String)
deriving Repr

/-- A step of a script. A body that answers an expression names the slot that holds it. -/
inductive Step
  /-- Put an expression into a slot. -/
  | give (slot : String) (origin : Origin)
  | emit (line : String)
  | lines
  | build (form : BuildForm) (uniforms : List (String × String)) (body : List Step)
      (answer : String)
  | define (name type : String) (params : List (String × String)) (body : List Step)
      (answer keep : String)
  /-- Functions defined inside each other, the body inside the innermost. -/
  | nest (name : String) (count : Nat) (body : List Step)
  | ifBlock (cond : List Piece) (body : List Step)
  | ifElse (cond : List Piece) (body other : List Step)
  | preset (name : String)
  | graph (text : String)
  | equal (a b : Reference)
  | sameFunction (a b : String)
  | operand (a : Reference)
  | times (count : Nat) (body : List Step)
  /-- Run a body on a new builder. -/
  | fresh (policy : CounterPolicy) (body : List Step)
  /-- Fail, placed in the given functions one after the other. -/
  | fail (complaint : Complaint) (scopes : List String)
  | abort
  /-- Run a body that may be abandoned. -/
  | contain (body : List Step)
  /-- Run a step and go on if it fails. -/
  | attempt (step : Step)

/-- The word for a step. -/
def Step.name : Step → String
  | give _ origin => origin.name
  | emit _ => "emit"
  | lines => "lines"
  | build form _ _ _ => form.name
  | define _ _ _ _ _ _ => "define"
  | nest _ _ _ => "nest"
  | ifBlock _ _ => "if"
  | ifElse _ _ _ => "if_else"
  | preset _ => "preset"
  | graph _ => "graph"
  | equal _ _ => "eq"
  | sameFunction _ _ => "fn_eq"
  | operand _ => "operand"
  | times _ _ => "repeat"
  | fresh _ _ => "fresh"
  | fail _ _ => "fail"
  | abort => "abort"
  | contain _ => "catch"
  | attempt step => step.name

end Shader.Script
