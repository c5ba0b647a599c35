import Shader.Builder
import Shader.Json.Skip
import Shader.Json.Writer

/-!
# Types, uniforms and settings as JSON

* `Ty.read`, `Ty.toJson`: a type is its keyword;
* `CounterPolicy.read`, `CounterPolicy.toJson`: a policy is its name;
* `Settings`: the settings of a builder, which all have defaults;
* `Var.read`, `Var.toJson`: a uniform is an object with `name` and `type`.

An object may hold other members, which are passed over, and may be given as the array of its
fields.
-/

namespace Shader

open Json

/-- Pass over the value of a member that is not known, behind its key. -/
def Json.skipMember (cs : List Char) : Except Stop (List Char) := do
  let cs ← readColon cs
  skipValue cs

/-! ## Words -/

/-- Read a type. -/
def Ty.read : (room : Nat) → Reader Ty := readChoice (Ty.all.map (·.keyword)) Ty.ofKeyword?

/-- A type as JSON. -/
def Ty.toJson (t : Ty) : Value := .string t.keyword

namespace CounterPolicy

/-- Every policy, in the order in which messages list them. -/
def all : List CounterPolicy := [perBuild, persistent]

/-- The name of a policy in documents. -/
def name : CounterPolicy → String
  | perBuild => "per-build"
  | persistent => "persistent"

/-- The policy of a name. -/
def ofName? (word : String) : Option CounterPolicy := all.find? (·.name = word)

/-- Read a policy. -/
def read : (room : Nat) → Reader CounterPolicy := readChoice (all.map (·.name)) ofName?

/-- A policy as JSON. -/
def toJson (p : CounterPolicy) : Value := .string p.name

end CounterPolicy

/-! ## Settings -/

/-- The settings of a builder. -/
structure Settings where
  counter : CounterPolicy := .perBuild
deriving DecidableEq, Repr

namespace Settings

/-- Read the settings from the array of their values, behind its bracket. -/
def readArray (room : Nat) : Reader Settings := fun cs => do
  let (more, cs) ← nextElement true cs
  if more then
    let (counter, cs) ← CounterPolicy.read room cs
    let rest ← endArray cs
    return (⟨counter⟩, rest)
  else return ({}, cs)

/-- Read a member of an object of settings. -/
def readMember (room : Nat) (key : String) (before : Option CounterPolicy) :
    Reader (Option CounterPolicy) := fun cs =>
  if key = "counter" then
    (readField "counter" before.isSome (CounterPolicy.read room) cs).map fun (p, rest) =>
      (some p, rest)
  else (skipMember cs).map (before, ·)

/-- Read the settings from an object, behind its brace. -/
def readObject (room : Nat) : Reader Settings := fun cs => do
  let (counter, rest) ← readMembers (readMember room) none cs
  return (⟨counter.getD .perBuild⟩, rest)

/-- Read settings. -/
def read : (room : Nat) → Reader Settings := readRecord "struct BuilderConfig" readArray readObject

/-- Settings as JSON. -/
def toJson (s : Settings) : Value := .object [("counter", s.counter.toJson)]

end Settings

/-! ## Uniforms -/

namespace Var

/-- The fields of a uniform that are read so far. -/
structure Draft where
  name : Option String := none
  ty : Option Ty := none

/-- What messages say of an array with too few values. -/
def arrayText : String := "struct UniformDecl with 2 elements"

/-- Read a uniform from the array of its values, behind its bracket. -/
def readArray (room : Nat) : Reader Var := fun cs => do
  let (more, cs) ← nextElement true cs
  if !more then stopBefore (.wrongLength 0 arrayText) cs
  let (name, cs) ← readText "a string" cs
  let (more, cs) ← nextElement false cs
  if !more then stopBefore (.wrongLength 1 arrayText) cs
  let (ty, cs) ← Ty.read room cs
  let rest ← endArray cs
  return (⟨name, ty⟩, rest)

/-- Read a member of an object of a uniform. -/
def readMember (room : Nat) (key : String) (d : Draft) : Reader Draft := fun cs =>
  if key = "name" then
    (readField "name" d.name.isSome (readText "a string") cs).map fun (s, rest) =>
      ({ d with name := some s }, rest)
  else if key = "type" then
    (readField "type" d.ty.isSome (Ty.read room) cs).map fun (t, rest) =>
      ({ d with ty := some t }, rest)
  else (skipMember cs).map (d, ·)

/-- Read a uniform from an object, behind its brace. -/
def readObject (room : Nat) : Reader Var := fun cs => do
  let (d, rest) ← readMembers (readMember room) {} cs
  let name ← placed rest (requireField "name" d.name)
  let ty ← placed rest (requireField "type" d.ty)
  return (⟨name, ty⟩, rest)

/-- Read a uniform. -/
def read : (room : Nat) → Reader Var := readRecord "struct UniformDecl" readArray readObject

/-- A uniform as JSON. -/
def toJson (v : Var) : Value := .object [("name", .string v.name), ("type", v.ty.toJson)]

end Var

/-- The answer of a build as JSON. -/
def Output.toJson (o : Output) : Value :=
  .object [("source", .string o.source), ("uniforms", .array (o.uniforms.map (·.toJson))),
    ("functions", .array (o.blocks.map .string))]

end Shader
