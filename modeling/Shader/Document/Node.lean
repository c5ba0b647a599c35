import Shader.Document.Declaration
import Shader.Graph

/-!
# Nodes as JSON

A node is an object whose member `op` says what kind of node it is, wherever it stands among the
other members, or an array that begins with it. So the outermost node is read to its end before its
fields are looked at; from there on nodes are taken from values.

* `Node.Kind`: the kinds, with the name and the fields of each; `Node.kind`, `Node.toJson`;
* `Node.Draft`: the fields read so far; `Node.Draft.complete` makes the node;
* `Node.ofValue`: the node of a value; `Node.read`: the node at the front of a text.
-/

namespace Shader

open Json

namespace Node

/-! ## Kinds -/

/-- The kinds of nodes. -/
inductive Kind
  | coord
  | uniform
  | literal
  | vec2
  | arithmetic (op : Arithmetic)
  | intrinsic (fn : Intrinsic)
  | step
  | smoothstep
  | channel (c : Channel)
deriving DecidableEq, Repr

namespace Kind

/-- Every kind, in the order in which messages list them and numbers count them. -/
def all : List Kind :=
  [coord, uniform, literal, vec2, arithmetic .add, arithmetic .sub, arithmetic .mul,
    arithmetic .div, intrinsic .sin, intrinsic .cos, intrinsic .normalize, step, smoothstep,
    channel .x, channel .y, channel .z, channel .w]

/-- The name of a kind in documents. -/
def name : Kind → String
  | coord => "frag_coord"
  | uniform => "uniform"
  | literal => "literal"
  | vec2 => "vec2"
  | arithmetic op => op.name
  | intrinsic fn => fn.name
  | step => "step"
  | smoothstep => "smoothstep"
  | channel c => c.name

/-- The name of a kind in messages about arrays. -/
def title : Kind → String
  | coord => "FragCoord"
  | k => k.name.capitalize

/-- The names of the fields, in order. -/
def fields : Kind → List String
  | coord => []
  | uniform => ["name"]
  | literal => ["value"]
  | vec2 => ["x", "y"]
  | arithmetic _ => ["lhs", "rhs"]
  | intrinsic _ | channel _ => ["arg"]
  | step => ["arg", "edge"]
  | smoothstep => ["arg", "edge0", "edge1"]

/-- The kind of a name. -/
def ofName? (word : String) : Option Kind := all.find? (·.name = word)

/-- The kind of a name, or the fault of a name that is none. -/
def ofName (word : String) : Except Fault Kind := pick (all.map (·.name)) ofName? word

/-- What messages call the place of a kind. -/
def placeText : String := "variant identifier"

/-- The kind a value stands for: a name, or a number that counts the kinds from `0`. -/
def ofValue : Value → Except Fault Kind
  | .string s => ofName s
  | .integer (.ofNat n) =>
    match all[n]? with
    | some k => .ok k
    | none => .error (.wrongIndex n all.length)
  | v => .error (.wrongKind v.found placeText)

end Kind

/-- The kind of a node. -/
def kind : Node → Kind
  | coord => .coord
  | uniform _ => .uniform
  | literal _ => .literal
  | vec2 _ _ => .vec2
  | arithmetic op _ _ => .arithmetic op
  | intrinsic fn _ => .intrinsic fn
  | step _ _ => .step
  | smoothstep _ _ _ => .smoothstep
  | channel c _ => .channel c

/-- The member that names the kind. -/
def tag : String := "op"

/-! ## Writing -/

/-- The object of a node: its kind, then its fields. -/
def object (k : Kind) (fields : List (String × Value)) : Value :=
  .object ((tag, .string k.name) :: fields)

/-- A node as JSON: its kind, then its fields in order; a second coordinate that is not given is
`null`. -/
def toJson : Node → Value
  | coord => object .coord []
  | uniform name => object .uniform [("name", .string name)]
  | literal v => object .literal [("value", .float v)]
  | vec2 x y => object .vec2 [("x", .float x), ("y", (y.map .float).getD .null)]
  | arithmetic op lhs rhs => object (.arithmetic op) [("lhs", lhs.toJson), ("rhs", rhs.toJson)]
  | intrinsic fn arg => object (.intrinsic fn) [("arg", arg.toJson)]
  | step arg edge => object .step [("arg", arg.toJson), ("edge", edge.toJson)]
  | smoothstep arg edge₀ edge₁ =>
    object .smoothstep [("arg", arg.toJson), ("edge0", edge₀.toJson), ("edge1", edge₁.toJson)]
  | channel c arg => object (.channel c) [("arg", arg.toJson)]

/-! ## Fields -/

/-- The fields of a node that are read so far. -/
structure Draft where
  name : Option String := none
  value : Option Binary64 := none
  x : Option Binary64 := none
  /-- The second coordinate, which may be given as `null`. -/
  y : Option (Option Binary64) := none
  arg : Option Node := none
  lhs : Option Node := none
  rhs : Option Node := none
  edge : Option Node := none
  edge₀ : Option Node := none
  edge₁ : Option Node := none

namespace Draft

/-- Whether a field is read already. -/
def has (d : Draft) (field : String) : Bool :=
  match field with
  | "name" => d.name.isSome
  | "value" => d.value.isSome
  | "x" => d.x.isSome
  | "y" => d.y.isSome
  | "arg" => d.arg.isSome
  | "lhs" => d.lhs.isSome
  | "rhs" => d.rhs.isSome
  | "edge" => d.edge.isSome
  | "edge0" => d.edge₀.isSome
  | "edge1" => d.edge₁.isSome
  | _ => false

/-- The text of a value. -/
def textOf : Value → Except Fault String
  | .string s => .ok s
  | v => .error (.wrongKind v.found "a string")

/-- The number of a value. -/
def numberOf : Value → Except Fault Binary64
  | .integer i => .ok (.ofInt i)
  | .float x => .ok x
  | v => .error (.wrongKind v.found "f64")

/-- The number of a value, or none for `null`. -/
def optionalOf : Value → Except Fault (Option Binary64)
  | .null => .ok none
  | v => (numberOf v).map some

/-- Put the value of a field into the draft, given also the node that the value stands for. -/
def put (d : Draft) (field : String) (v : Value) (node : Except Fault Node) : Except Fault Draft :=
  match field with
  | "name" => return { d with name := some (← textOf v) }
  | "value" => return { d with value := some (← numberOf v) }
  | "x" => return { d with x := some (← numberOf v) }
  | "y" => return { d with y := some (← optionalOf v) }
  | "arg" => return { d with arg := some (← node) }
  | "lhs" => return { d with lhs := some (← node) }
  | "rhs" => return { d with rhs := some (← node) }
  | "edge" => return { d with edge := some (← node) }
  | "edge0" => return { d with edge₀ := some (← node) }
  | "edge1" => return { d with edge₁ := some (← node) }
  | _ => return d

/-- Make the node of a kind from its fields; the first one that is missing is the fault. -/
def complete (d : Draft) : Kind → Except Fault Node
  | .coord => return .coord
  | .uniform => return .uniform (← requireField "name" d.name)
  | .literal => return .literal (← requireField "value" d.value)
  | .vec2 => return .vec2 (← requireField "x" d.x) (d.y.getD none)
  | .arithmetic op => do
    let lhs ← requireField "lhs" d.lhs
    let rhs ← requireField "rhs" d.rhs
    return .arithmetic op lhs rhs
  | .intrinsic fn => return .intrinsic fn (← requireField "arg" d.arg)
  | .step => do
    let arg ← requireField "arg" d.arg
    let edge ← requireField "edge" d.edge
    return .step arg edge
  | .smoothstep => do
    let arg ← requireField "arg" d.arg
    let edge₀ ← requireField "edge0" d.edge₀
    let edge₁ ← requireField "edge1" d.edge₁
    return .smoothstep arg edge₀ edge₁
  | .channel c => return .channel c (← requireField "arg" d.arg)

end Draft

/-! ## From values -/

/-- The kind that the members of an object name; each member `op` is looked at in turn. -/
def kindOfMembers (found : Option Kind) : List (String × Value) → Except Fault Kind
  | [] => requireField tag found
  | (key, v) :: ms => do
    if key = tag then
      if found.isSome then throw (.duplicateField tag)
      kindOfMembers (some (← Kind.ofValue v)) ms
    else kindOfMembers found ms

/-- A number of elements in words. -/
def countText (n : Nat) : String := toString n ++ (if n = 1 then " element" else " elements")

/-- The fault of an array with too few values. -/
def tooFew (k : Kind) (given : Nat) : Fault :=
  .wrongLength given ("struct variant Node::" ++ k.title ++ " with " ++ countText k.fields.length)

/-- The fault of an array with too many values. -/
def tooMany (k : Kind) (given : Nat) : Fault :=
  .wrongLength given (countText k.fields.length ++ " in sequence")

/-- What messages call a node. -/
def placeText : String := "internally tagged enum Node"

mutual

/-- The node of a value. -/
def ofValue : Value → Except Fault Node
  | .object ms => do
    let k ← kindOfMembers none ms
    let d ← draftOfMembers k {} ms
    d.complete k
  | .array (v :: vs) => do
    let k ← Kind.ofValue v
    let d ← draftOfItems k vs.length {} k.fields vs
    d.complete k
  | .array [] => .error (.missingField tag)
  | v => .error (.wrongKind v.found placeText)

/-- Read the fields of a kind among the members of an object; other members do not matter. -/
def draftOfMembers (k : Kind) (d : Draft) : List (String × Value) → Except Fault Draft
  | [] => .ok d
  | (key, v) :: ms =>
    if k.fields.contains key then
      if d.has key then .error (.duplicateField key)
      else do
        let d ← d.put key v (ofValue v)
        draftOfMembers k d ms
    else draftOfMembers k d ms

/-- Read the fields that are left from the values that are left; `total` values were given. -/
def draftOfItems (k : Kind) (total : Nat) (d : Draft) :
    List String → List Value → Except Fault Draft
  | [], [] => .ok d
  | [], _ :: _ => .error (tooMany k total)
  | _ :: _, [] => .error (tooFew k total)
  | field :: fields, v :: vs => do
    let d ← d.put field v (ofValue v)
    draftOfItems k total d fields vs

end

/-! ## From text -/

/-- The members of the outermost node that are read so far, the latest first, and its kind. -/
structure Outline where
  kind : Option Kind := none
  members : List (String × Value) := []

/-- Read the kind of the outermost node, which has to be named by a string. -/
def readKind : Reader Kind := fun cs => do
  let (word, rest) ← readText Kind.placeText cs
  let k ← placed rest (Kind.ofName word)
  return (k, rest)

/-- Read a member of the outermost node. -/
def readMember (room : Nat) (key : String) (o : Outline) : Reader Outline := fun cs =>
  if key = tag then
    (readField tag o.kind.isSome readKind cs).map fun (k, rest) => ({ o with kind := some k }, rest)
  else do
    let cs ← readColon cs
    let (v, rest) ← readValue room cs
    return ({ o with members := (key, v) :: o.members }, rest)

/-- Read the outermost node from an object, behind its brace. -/
def readObject (room : Nat) : Reader (Except Fault Node) := fun cs => do
  let (o, rest) ← readMembers (readMember room) {} cs
  let k ← placed rest (requireField tag o.kind)
  return ((draftOfMembers k {} o.members.reverse).bind (·.complete k), rest)

/-- Read the outermost node from an array, behind its bracket. -/
def readArray (room : Nat) : Reader (Except Fault Node) := fun cs => do
  let (more, cs) ← nextElement true cs
  if !more then stopBefore (.missingField tag) cs
  let (k, cs) ← readKind cs
  let (vs, rest) ← elementsFrom (readValue room) cs false cs
  return ((draftOfItems k vs.length {} k.fields vs).bind (·.complete k), rest)

/-- Read a node. What is wrong with its fields is known at its end, so it is a part of the answer:
only who reads on can say where it lies. -/
def read : (room : Nat) → Reader (Except Fault Node) := readRecord placeText readArray readObject

end Node

end Shader
