import Shader.Ty

/-!
# Failures

What goes wrong while a shader is generated, and in which function of the shader.

* `Misuse`: operations asked for at the wrong moment; `Cause`: every cause of a failure;
* `Failure`: a cause with the function that was being defined when it arose;
* `Failure.inScope` names that function and keeps the innermost name: `inScope_inScope`.
-/

namespace Shader

/-- A generator used at the wrong moment, or left with scopes out of step. -/
inductive Misuse
  /-- An operation that needs a running build was asked for while none runs. -/
  | outsideBuild (operation : String)
  /-- A build was asked for inside a build. -/
  | nestedBuild
  /-- A build ended while scopes of functions were still open. -/
  | scopesLeft (depth : Nat)
  /-- One scope more than a build may hold. -/
  | tooDeep (limit : Nat)
  /-- The scope of a function was closed at another depth than it was opened at. -/
  | unbalanced (found opened : Nat)
  /-- A program was abandoned before it had an answer. -/
  | abandoned
  /-- A misuse that a caller states in words. -/
  | stated (detail : String)
deriving DecidableEq, Repr

/-- The wording of a misuse. -/
def Misuse.message : Misuse → String
  | outsideBuild operation => operation ++ " used outside of a build"
  | nestedBuild => "build called while another build is in progress"
  | scopesLeft depth => s!"scope stack left at depth {depth} at end of build"
  | tooDeep limit => s!"scope nesting exceeds {limit} levels"
  | unbalanced found opened => s!"scope closed at depth {found}, opened at {opened}"
  | abandoned => "program abandoned"
  | stated detail => detail

/-- What went wrong. -/
inductive Cause
  /-- A uniform that the build does not declare. -/
  | unknownUniform (name : String)
  /-- An operand whose type the operation does not take. -/
  | typeMismatch (operation expected : String) (got : Ty)
  /-- A generator used at the wrong moment. -/
  | reentrancy (misuse : Misuse)
  /-- One uniform name with two types. -/
  | conflictingUniform (name : String) (first second : Ty)
  /-- A call with another number of arguments than the function has parameters. -/
  | argumentCount (function : String) (expected got : Nat)
  /-- A word that names no type. -/
  | unknownType (word : String)
  /-- A graph document that cannot be read. -/
  | malformedGraph (detail : String)
deriving DecidableEq, Repr

/-- The wording of a cause. -/
def Cause.message : Cause → String
  | unknownUniform name => "unknown uniform: " ++ name
  | typeMismatch operation expected got =>
    "type mismatch in " ++ operation ++ ": expected " ++ expected ++ ", got " ++ got.keyword
  | reentrancy misuse => "builder reentrancy: " ++ misuse.message
  | conflictingUniform name first second =>
    "uniform " ++ name ++ " declared as both " ++ first.keyword ++ " and " ++ second.keyword
  | argumentCount function expected got =>
    function ++ s!" expects {expected} argument(s), got {got}"
  | unknownType word => "unknown GLSL type: " ++ word
  | malformedGraph detail => "invalid graph: " ++ detail

/-- A cause, and the shader function that was being defined when it arose. -/
structure Failure where
  cause : Cause
  scope : Option String := none
deriving DecidableEq, Repr

namespace Failure

/-- The wording of a failure: its cause, then the function. -/
def message (f : Failure) : String :=
  match f.scope with
  | none => f.cause.message
  | some name => f.cause.message ++ " (in function " ++ name ++ ")"

/-- Place a failure in a function; a function named before, being further in, stays. -/
def inScope (f : Failure) (name : String) : Failure :=
  { f with scope := f.scope.or (some name) }

/-- **The innermost function is kept.** -/
@[simp] theorem inScope_inScope (f : Failure) (inner outer : String) :
    (f.inScope inner).inScope outer = f.inScope inner := by
  rcases f with ⟨c, _ | s⟩ <;> rfl

/-- A failure of a misuse, in no function yet. -/
def ofMisuse (m : Misuse) : Failure := ⟨.reentrancy m, none⟩

end Failure

end Shader
