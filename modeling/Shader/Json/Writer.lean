import Shader.Json.Text

/-!
# Writing JSON

* `writeValue`: a value on one line without blanks;
* `writeIndented`: a value with one element or member a line, each level indented by two blanks.
-/

namespace Shader.Json

/-- A value that is no container. Containers have no text here. -/
def writeScalar : Value → List Char
  | .null => ['n', 'u', 'l', 'l']
  | .bool true => ['t', 'r', 'u', 'e']
  | .bool false => ['f', 'a', 'l', 's', 'e']
  | .integer i => (toString i).toList
  | .float x => (numberText x).toList
  | .string s => writeString s
  | .array _ | .object _ => []

mutual

/-- A value on one line. -/
def writeValue : Value → List Char
  | .array items => '[' :: writeItems items ++ [']']
  | .object members => '\x7b' :: writeMembers members ++ ['\x7d']
  | v => writeScalar v

/-- Elements, with commas between them. -/
def writeItems : List Value → List Char
  | [] => []
  | [v] => writeValue v
  | v :: vs => writeValue v ++ ',' :: writeItems vs

/-- Members, with commas between them. -/
def writeMembers : List (String × Value) → List Char
  | [] => []
  | [(key, v)] => writeString key ++ ':' :: writeValue v
  | (key, v) :: ms => writeString key ++ ':' :: writeValue v ++ ',' :: writeMembers ms

end

/-- A new line at the given level. -/
def newLine (level : Nat) : List Char := '\n' :: List.replicate (2 * level) ' '

mutual

/-- A value whose elements or members stand on lines of their own, one level further in. -/
def writeIndented (level : Nat) : Value → List Char
  | .array [] => ['[', ']']
  | .array items =>
    '[' :: writeItemLines (level + 1) items ++ newLine level ++ [']']
  | .object [] => ['\x7b', '\x7d']
  | .object members =>
    '\x7b' :: writeMemberLines (level + 1) members ++ newLine level ++ ['\x7d']
  | v => writeScalar v

/-- Elements, each on a line of its own. -/
def writeItemLines (level : Nat) : List Value → List Char
  | [] => []
  | [v] => newLine level ++ writeIndented level v
  | v :: vs => newLine level ++ writeIndented level v ++ ',' :: writeItemLines level vs

/-- Members, each on a line of its own. -/
def writeMemberLines (level : Nat) : List (String × Value) → List Char
  | [] => []
  | [(key, v)] => newLine level ++ writeString key ++ ':' :: ' ' :: writeIndented level v
  | (key, v) :: ms =>
    newLine level ++ writeString key ++ ':' :: ' ' :: writeIndented level v ++
      ',' :: writeMemberLines level ms

end

/-- The text of a value on one line. -/
def compact (v : Value) : String := String.ofList (writeValue v)

/-- The text of a value on many lines. -/
def pretty (v : Value) : String := String.ofList (writeIndented 0 v)

end Shader.Json
