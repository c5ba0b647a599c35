import Shader.Json.Fault

/-!
# Where a JSON text cannot be read

A reader sees what is left of a text, so it says where it stops by the number of bytes behind that
place. Against the whole text the place becomes a line and a column.

* `Stop`: a fault and its place; `stopBefore`, `stopOn`, `stopPast`: stop at what is left;
* `placed`: give the fault of a value a place;
* `Misreading`: a fault with its line and column, as `Stop.within` finds them and
  `Misreading.message` words them.
-/

namespace Shader.Json

/-- The number of bytes of a text. -/
def byteCount (cs : List Char) : Nat := (String.ofList cs).utf8ByteSize

/-! ## Places in what is left -/

/-- A fault, and the number of bytes of the text behind its place. -/
structure Stop where
  fault : Fault
  behind : Nat
deriving DecidableEq, Repr

variable {α : Type}

/-- Stop behind the first `n` bytes of what is left, or at the end of the text. -/
def stopPast (f : Fault) (n : Nat) (left : List Char) : Except Stop α :=
  .error ⟨f, byteCount left - n⟩

/-- Stop in front of what is left. -/
def stopBefore (f : Fault) (left : List Char) : Except Stop α := stopPast f 0 left

/-- Stop at the next character, whose first byte counts as passed. -/
def stopOn (f : Fault) (left : List Char) : Except Stop α := stopPast f 1 left

/-- A fault that has no place of its own lies in front of what is left. -/
def placed (left : List Char) : Except Fault α → Except Stop α
  | .ok a => .ok a
  | .error f => stopBefore f left

/-! ## Places in a text -/

/-- A fault with its line, counted from one, and the number of bytes in front of it on that line. -/
structure Misreading where
  fault : Fault
  line : Nat
  column : Nat
deriving DecidableEq, Repr

/-- The wording of a misreading. -/
def Misreading.message (m : Misreading) : String :=
  m.fault.message ++ " at line " ++ toString m.line ++ " column " ++ toString m.column

/-- The byte that ends a line. -/
def lineEnd : UInt8 := 10

/-- The misreading of a text in which a reader stopped. -/
def Stop.within (s : Stop) (text : String) : Misreading :=
  let passed := text.toUTF8.data.toList.take (text.utf8ByteSize - s.behind)
  ⟨s.fault, 1 + passed.countP (· = lineEnd), (passed.reverse.takeWhile (· ≠ lineEnd)).length⟩

end Shader.Json
