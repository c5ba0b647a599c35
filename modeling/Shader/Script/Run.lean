import Shader.Document.Graph
import Shader.Preset
import Shader.Script.Step

/-!
# Running scripts

* `Answer`: what a step answers; `Entry`: what a trace keeps of a step;
* `Memory`: the slots, the functions, the open main bodies and the trace;
* `runStep`, `runSteps`: a script as a program; **`run`** runs one on a new builder and answers its
  trace.
-/

namespace Shader.Script

/-- What a step answers. -/
inductive Answer
  | nothing
  | expr (e : Expr)
  | lines (ls : List String)
  | text (s : String)
  | output (o : Output)
  | callee (f : Callee)
  | truth (b : Bool)
  | operand (code : String) (ty : Option Ty)
deriving Repr

/-- What a trace keeps of a step: its word, its answer or failure, and what the builder showed of
itself after the step. -/
structure Entry where
  name : String
  answer : Except Failure Answer
  depth : Nat
  /-- The number of lines of the innermost scope. -/
  lineCount : Nat
  building : Bool

/-- The memory of a script. -/
structure Memory where
  /-- The expressions of the slots; the first entry of a name counts. -/
  slots : List (String × Expr) := []
  /-- The functions by name; the first entry of a name counts. -/
  functions : List (String × Callee) := []
  /-- What the open main bodies may refer to, the innermost first. -/
  fragments : List Fragment := []
  /-- The steps that have ended, the latest first. -/
  trace : List Entry := []

/-- The programs of scripts. -/
abbrev Act (α : Type) : Type 1 := Program Memory α

open Program

/-! ## Names -/

/-- The failure of a name that a script does not know. -/
def unknownName (what name : String) : Failure :=
  .ofMisuse (.stated (what ++ " " ++ name ++ " is not known"))

/-- What a list holds under a name. -/
def named {α : Type} (what name : String) (entries : List (String × α)) : Except Failure α :=
  match entries.lookup name with
  | some a => .ok a
  | none => .error (unknownName what name)

/-- The expression of a slot. -/
def slot (name : String) : Act Expr := do
  let m ← memory
  ofExcept (named "slot" name m.slots)

/-- Put an expression into a slot. -/
def store (name : String) (e : Expr) : Act Unit :=
  Program.modify fun m => { m with slots := (name, e) :: m.slots }

/-- The function kept under a name. -/
def callee (name : String) : Act Callee := do
  let m ← memory
  ofExcept (named "function" name m.functions)

/-- The innermost open main body. -/
def fragment : Act Fragment := do
  let m ← memory
  match m.fragments with
  | f :: _ => return f
  | [] => .fail (unknownName "fragment" "of an open build")

/-- The operand that a reference stands for. -/
def operandOf : Reference → Act Operand
  | .slot name => return .expr (← slot name)
  | .number n => return .number n

/-- The operands that references stand for. -/
def operandsOf : List Reference → Act (List Operand)
  | [] => return []
  | r :: rs => do
    let o ← operandOf r
    return o :: (← operandsOf rs)

/-- The text of a condition. -/
def condition : List Piece → Act String
  | [] => return ""
  | .text s :: ps => return s ++ (← condition ps)
  | .slot name :: ps => do
    let e ← slot name
    return e.code ++ (← condition ps)

/-- The type of a word. -/
def typeOf (word : String) : Except Failure Ty :=
  match Ty.ofKeyword? word with
  | some t => .ok t
  | none => .error ⟨.unknownType word, none⟩

/-- The variables of a list of names and words for types. -/
def varsOf (pairs : List (String × String)) : Except Failure (List Var) :=
  pairs.mapM fun (name, word) => return ⟨name, ← typeOf word⟩

/-! ## Steps without bodies -/

/-- The expression of an origin. -/
def exprOf : Origin → Act Expr
  | .coord => return (← fragment).coord
  | .uniform name => do
    let f ← fragment
    ofExcept (f.uniform name)
  | .raw name type | .new name type => return ⟨name, ← ofExcept (typeOf type)⟩
  | .float v => return .float v
  | .vec2 x y => return .vec2 x y
  | .copy a => slot a
  | .arithmetic o a b => do
    let a ← slot a
    let b ← operandOf b
    op (.arithmetic o a b)
  | .intrinsic fn a => do
    let a ← slot a
    op (.intrinsic fn a)
  | .step a edge => do
    let a ← slot a
    let edge ← operandOf edge
    op (.step a edge)
  | .smoothstep a edge₀ edge₁ => do
    let a ← slot a
    let edge₀ ← operandOf edge₀
    let edge₁ ← operandOf edge₁
    op (.smoothstep a edge₀ edge₁)
  | .channel c a => do
    let a ← slot a
    op (.channel c a)
  | .call name args => do
    let f ← callee name
    let args ← operandsOf args
    op (.call f args)

/-- The failure of a complaint; a word that names no type is a failure of its own. -/
def failureOf : Complaint → Failure
  | .of cause => ⟨cause, none⟩
  | .mismatch operation expected word =>
    match typeOf word with
    | .ok got => mismatch operation expected got
    | .error f => f

/-- Add an entry to the trace and pass a failure on. -/
def record (name : String) (body : Act Answer) : Act Unit := do
  let answer ← body.attempt
  let view ← Program.view
  let entry : Entry := ⟨name, answer, view.depth, view.lines.length, view.building⟩
  Program.modify fun m => { m with trace := entry :: m.trace }
  ofExcept (answer.map fun _ => ())

/-- The main body of a build: what it may refer to is known while the body runs. -/
def mainOf (body : Act Unit) (answer : String) (f : Fragment) : Act Expr := do
  Program.modify fun m => { m with fragments := f :: m.fragments }
  let ended ← body.attempt
  Program.modify fun m => { m with fragments := m.fragments.tail }
  ofExcept ended
  slot answer

/-- A build in one of its forms. -/
def buildIn (form : BuildForm) (uniforms : List Var) (main : Fragment → Act Expr) : Act Answer :=
  match form with
  | .parts => return .output (← shader uniforms main)
  | .text => return .text (← shader uniforms main).source
  | .alone => return .text (← onNew .perBuild (shader uniforms main)).source

/-- The function at level `level` of functions inside each other, with `count` levels to come. -/
def nested (name : String) (body : Act Unit) : (count level : Nat) → Act Expr
  | 0, _ => do
    body
    return .float .zero
  | count + 1, level => do
    let _ ← function ⟨name ++ toString level, .float, []⟩ fun _ =>
      nested name body count (level + 1)
    return .float (.ofNat level)

/-- Run a body that may be abandoned; the main bodies that are left with it are forgotten. -/
def contained (body : Act Unit) : Act Answer := do
  let m ← memory
  let height := m.fragments.length
  .contain body fun
    | .done () => .pure (.text "done")
    | .failed f => .fail f
    | .aborted => do
      Program.modify fun m =>
        { m with fragments := m.fragments.drop (m.fragments.length - height) }
      return .text "aborted"

/-! ## Steps -/

mutual

/-- A step as a program. -/
def runStep : Step → Act Unit
  | .give name origin => record origin.name do
    let e ← exprOf origin
    store name e
    return .expr e
  | .emit text => record "emit" do
    line text
    return .nothing
  | .lines => record "lines" (return .lines ((← Program.view).lines.map (·.text)))
  | .build form uniforms body answer => record form.name do
    let uniforms ← ofExcept (varsOf uniforms)
    buildIn form uniforms (mainOf (runSteps body) answer)
  | .define name type params body answer keep => record "define" do
    let result ← ofExcept (typeOf type)
    let params ← ofExcept (varsOf params)
    let f ← function ⟨name, result, params⟩ fun args => do
      Program.modify fun m =>
        { m with slots := ((params.map (·.name)).zip args).reverse ++ m.slots }
      runSteps body
      slot answer
    Program.modify fun m => { m with functions := (keep, f) :: m.functions }
    return .callee f
  | .nest name count body =>
    record "nest" (return .expr (← nested name (runSteps body) count 0))
  | .ifBlock cond body => record "if" do
    let cond ← condition cond
    ifBlock cond (runSteps body)
    return .nothing
  | .ifElse cond body other => record "if_else" do
    let cond ← condition cond
    ifElse cond (runSteps body) (runSteps other)
    return .nothing
  | .preset name => record "preset" do
    match Preset.find? name with
    | some p => return .output (← p.program)
    | none => return .nothing
  | .graph text => record "graph" do
    let g ← ofExcept (Graph.ofText? text)
    return .output (← g.program)
  | .equal a b => record "eq" do
    let a ← operandOf a
    let b ← operandOf b
    return .truth (a.equals b)
  | .sameFunction a b => record "fn_eq" do
    let f ← callee a
    let g ← callee b
    return .truth (f = g)
  | .operand a => record "operand" do
    let o ← operandOf a
    return .operand o.code o.ty?
  | .times count body => record "repeat" do
    repeated count (runSteps body)
    return .nothing
  | .fresh policy body => record "fresh" do
    onNew policy (runSteps body)
    return .nothing
  | .fail complaint scopes =>
    record "fail" (.fail (scopes.foldl .inScope (failureOf complaint)))
  | .abort => .abort
  | .contain body => record "catch" (contained (runSteps body))
  | .attempt step => do
    let _ ← (runStep step).attempt
    return ()

/-- Steps one after the other; a failure ends them. -/
def runSteps : List Step → Act Unit
  | [] => return ()
  | s :: rest => do
    runStep s
    runSteps rest

end

/-- What a script leaves behind. -/
structure Report where
  /-- The steps that ended, in order. -/
  trace : List Entry
  /-- How the script ended. -/
  outcome : Outcome Unit

/-- **Run a script** on a new builder. -/
def run (policy : CounterPolicy) (steps : List Step) : Report :=
  let (outcome, memory, _) := (runSteps steps).run {} (.new policy)
  ⟨memory.trace.reverse, outcome⟩

end Shader.Script
