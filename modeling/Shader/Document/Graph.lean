import Shader.Document.Node

/-!
# Graph documents

A graph document is an object with the member `main` and, optionally, the member `uniforms`, an
object of types by name whose order and repeats are kept.

* `Graph.read`: the graph at the front of a text; `Graph.ofText` reads a document;
* `Graph.toJson`, `Graph.text`: the document of a graph.
-/

namespace Shader

open Json

namespace Graph

/-! ## Writing -/

/-- A graph as JSON. -/
def toJson (g : Graph) : Value :=
  .object [("uniforms", .object (g.uniforms.map fun v => (v.name, v.ty.toJson))),
    ("main", g.main.toJson)]

/-- The document of a graph. -/
def text (g : Graph) : String := compact g.toJson

/-! ## Reading -/

/-- Read a uniform of an object of uniforms. -/
def readUniform (room : Nat) (name : String) (before : List Var) : Reader (List Var) := fun cs => do
  let cs ← readColon cs
  let (ty, rest) ← Ty.read room cs
  return (before ++ [⟨name, ty⟩], rest)

/-- Read an object of uniforms. -/
def readUniforms (room : Nat) : Reader (List Var) := fun cs =>
  match skipBlanks cs with
  | [] => stopBefore (.ended .value) []
  | c :: rest =>
    if c = '\x7b' then inRoom room (fun room => readMembers (readUniform room) []) rest
    else refuse "a map of uniform names to GLSL type keywords" (c :: rest)

/-- The fields of a graph that are read so far. -/
structure Draft where
  uniforms : Option (List Var) := none
  main : Option Node := none

/-- Read the main node of a graph that is given as an object. -/
def readMain (room : Nat) : Reader Node := fun cs => do
  let (node, rest) ← Node.read room cs
  let n ← placed (behindObject rest) node
  return (n, rest)

/-- Read a member of a graph. -/
def readMember (room : Nat) (key : String) (d : Draft) : Reader Draft := fun cs =>
  if key = "uniforms" then
    (readField "uniforms" d.uniforms.isSome (readUniforms room) cs).map fun (us, rest) =>
      ({ d with uniforms := some us }, rest)
  else if key = "main" then
    (readField "main" d.main.isSome (readMain room) cs).map fun (n, rest) =>
      ({ d with main := some n }, rest)
  else (skipMember cs).map (d, ·)

/-- Read a graph from an object, behind its brace. -/
def readObject (room : Nat) : Reader Graph := fun cs => do
  let (d, rest) ← readMembers (readMember room) {} cs
  let main ← placed rest (requireField "main" d.main)
  return (⟨d.uniforms.getD [], main⟩, rest)

/-- The fault of an array without the main node. -/
def tooShort : Fault := .wrongLength 1 "struct Graph with 2 elements"

/-- Read a graph from the array of its values, behind its bracket. -/
def readArray (room : Nat) : Reader Graph := fun cs => do
  let (more, cs) ← nextElement true cs
  if !more then stopBefore tooShort cs
  let (uniforms, cs) ← readUniforms room cs
  let (more, cs) ← nextElement false cs
  if !more then stopBefore tooShort cs
  let (node, cs) ← Node.read room cs
  let main ← placed (behindArray cs) node
  let rest ← endArray cs
  return (⟨uniforms, main⟩, rest)

/-- Read a graph. -/
def read : (room : Nat) → Reader Graph := readRecord "struct Graph" readArray readObject

/-- The graph of a document. -/
def ofText (text : String) : Except Misreading Graph := readDocument read text

/-- The failure of a document that cannot be read. -/
def failureOf (m : Misreading) : Failure := ⟨.malformedGraph m.message, none⟩

/-- The graph of a document, or the failure. -/
def ofText? (text : String) : Except Failure Graph := (ofText text).mapError failureOf

end Graph

/-- The shader of a graph document, from a new builder. -/
def generateText (text : String) : Except Failure Output := do
  let g ← Graph.ofText? text
  g.generate.1

end Shader
