import Shader.Output

/-!
# The state of a generator

A builder keeps the lines of every open scope, the functions and uniforms of the build, and the
number of the next temporary variable. Nothing here calls back into a caller's code.

* `Builder`: the state; `Builder.new` is the idle one;
* `Builder.emit`, `Builder.perform`: a line; an operation, whose value gets a temporary;
* `Builder.openScope`, `Builder.closeScope`: the scope of a function;
* `Builder.mark`, `Builder.rollback`: drop what a failed conditional has written;
* `Builder.begin`, `Builder.complete`, `Builder.settle`: the ends of a build;
* `Event`: what the builder reports of its work.
-/

namespace Shader

/-- The deepest stack of scopes; the main block is the first of them. -/
def maxDepth : Nat := 64

/-- How temporaries are numbered across the builds of one builder. -/
inductive CounterPolicy
  /-- Every build starts at `0`. -/
  | perBuild
  /-- A build goes on where the last one stopped. -/
  | persistent
deriving DecidableEq, Repr, Inhabited

/-- A step of the work, as it is reported. -/
inductive Event
  | buildStarted (start : Nat)
  | emitted (depth : Nat) (line : Line)
  | functionDefined (function : Definition)
  | buildFinished (uniforms functions vars : Nat)
  | buildFailed (failure : Failure)
deriving DecidableEq, Repr

/-- The state of a generator. -/
structure Builder where
  policy : CounterPolicy
  /-- Whether a build is running. -/
  building : Bool := false
  /-- The lines of the open scopes, the innermost scope first. -/
  scopes : List (List Line) := []
  /-- The finished functions, in the order in which they were finished. -/
  functions : List Definition := []
  /-- The uniforms of the build, each name once. -/
  uniforms : List Var := []
  /-- The number of the next temporary. -/
  next : Nat := 0
  /-- What was reported so far, the latest first. -/
  journal : List Event := []
deriving DecidableEq, Repr

namespace Builder

/-- An idle builder. -/
def new (policy : CounterPolicy) : Builder := { policy }

/-- The number of open scopes. -/
def depth (b : Builder) : Nat := b.scopes.length

/-- The lines of the innermost scope. -/
def lines (b : Builder) : List Line := b.scopes.headD []

/-- What was reported, in order. -/
def events (b : Builder) : List Event := b.journal.reverse

/-- Report an event. -/
def report (b : Builder) (e : Event) : Builder := { b with journal := e :: b.journal }

/-- Whether lines can be written: a build is running and has an open scope. -/
def isWriting (b : Builder) : Bool := b.building && !b.scopes.isEmpty

/-- Fails unless lines can be written. -/
def ensureWriting (b : Builder) (operation : String) : Except Failure Unit :=
  if b.isWriting then .ok () else .error (.ofMisuse (.outsideBuild operation))

/-! ## Lines -/

/-- Put a line at the end of the innermost scope. -/
def append (b : Builder) (line : Line) : Builder :=
  { b with scopes := b.scopes.modifyHead (· ++ [line]) }

/-- The builder with a line written and reported. -/
def written (b : Builder) (line : Line) : Builder := (b.report (.emitted b.depth line)).append line

/-- Write a line. -/
def emit (b : Builder) (line : Line) : Except Failure Builder :=
  (b.ensureWriting "emit").map fun () => b.written line

/-- The expression of the next temporary, for a value of the given type. -/
def temp (b : Builder) (t : Ty) : Expr := ⟨tempName b.next, t⟩

/-- The builder with an operation written as the next temporary. -/
def declared (b : Builder) (op : Operation) : Builder :=
  { b with next := b.next + 1 }.written (.declare b.next op)

/-- Check an operation and give its value to the next temporary. -/
def perform (b : Builder) (op : Operation) : Except Failure (Expr × Builder) := do
  op.check
  b.ensureWriting "assign"
  return (b.temp op.value.ty, b.declared op)

/-! ## Scopes -/

/-- Forget the scopes above the given depth. -/
def cutTo (b : Builder) (depth : Nat) : Builder :=
  { b with scopes := b.scopes.drop (b.scopes.length - depth) }

/-- Open a scope for a function. -/
def openScope (b : Builder) : Except Failure Builder :=
  if maxDepth ≤ b.depth then .error (.ofMisuse (.tooDeep maxDepth))
  else .ok { b with scopes := [] :: b.scopes }

/-- Close the scope opened at the given depth and take its lines. If other scopes are in the way, or
it is gone, the scopes below it are what remains. -/
def closeScope (b : Builder) (depth : Nat) : Except Failure (List Line) × Builder :=
  if b.depth = depth then (.ok b.lines, { b with scopes := b.scopes.tail })
  else (.error (.ofMisuse (.unbalanced b.depth depth)), b.cutTo (depth - 1))

/-- Add a finished function. -/
def addFunction (b : Builder) (d : Definition) : Builder :=
  { b with functions := b.functions ++ [d] }.report (.functionDefined d)

/-- A place in the scopes: a depth, and a number of lines in the innermost scope. -/
structure Mark where
  depth : Nat
  length : Nat
deriving DecidableEq, Repr

/-- The place where the builder is writing. -/
def mark (b : Builder) (operation : String) : Except Failure Mark :=
  (b.ensureWriting operation).map fun () => ⟨b.depth, b.lines.length⟩

/-- Forget the lines of the innermost scope behind the first `length` ones. -/
def cutLines (b : Builder) (length : Nat) : Builder :=
  { b with scopes := b.scopes.modifyHead (·.take length) }

/-- Forget what was written behind a mark. -/
def rollback (b : Builder) (m : Mark) : Builder := (b.cutTo m.depth).cutLines m.length

/-! ## Builds -/

/-- Add a uniform to those of a build. A repeated declaration changes nothing, a declaration with
another type is refused. -/
def addUniform (declared : List Var) (v : Var) : Except Failure (List Var) :=
  match declared.find? (·.name = v.name) with
  | none => .ok (declared ++ [v])
  | some earlier =>
    if earlier.ty = v.ty then .ok declared
    else .error ⟨.conflictingUniform v.name earlier.ty v.ty, none⟩

/-- The uniforms of a build, from the list asked for. -/
def collectUniforms (wanted : List Var) : Except Failure (List Var) :=
  wanted.foldlM addUniform []

/-- Start a build: one empty scope, no functions, no uniforms. -/
def begin (b : Builder) : Except Failure Builder :=
  if b.building then .error (.ofMisuse .nestedBuild)
  else
    let next := match b.policy with
      | .perBuild => 0
      | .persistent => b.next
    .ok ({ b with building := true, scopes := [[]], functions := [], uniforms := [], next }.report
      (.buildStarted next))

/-- Finish the main block with the result of its body. -/
def complete (b : Builder) (result : Expr) : Except Failure Output × Builder :=
  match b.emit (.color result) with
  | .error f => (.error f, b)
  | .ok b =>
    if b.depth = 1 then (.ok ⟨b.uniforms, b.functions, b.lines⟩, b)
    else (.error (.ofMisuse (.scopesLeft b.depth)), b)

/-- End a build, whatever came of it: no scope stays open. -/
def settle (b : Builder) (result : Except Failure Output) : Builder :=
  { b with building := false, scopes := [] }.report <|
    match result with
    | .ok out => .buildFinished out.uniforms.length out.functions.length b.next
    | .error f => .buildFailed f

end Builder

end Shader
