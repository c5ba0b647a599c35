import Shader.Decimal.Shortest
import Shader.Literal

/-!
# JSON values

* `Json.Value`: the values; an object keeps its members in order, repeats included, and a number is
  an integer of 64 bits, signed or not, or a binary floating-point number;
* `Json.numberText`: the text of a floating-point number.
-/

namespace Shader.Json

/-- A JSON value. -/
inductive Value
  | null
  | bool (b : Bool)
  | integer (i : Int)
  | float (x : Binary64)
  | string (s : String)
  | array (items : List Value)
  | object (members : List (String × Value))

instance : Inhabited Value := ⟨.null⟩

/-- Numbers from `0.00001` up to sixteen digits before the point are written without an exponent. -/
def numberStyle : Decimal.Style where
  leastPositional := -5
  greatestPositional := 15

/-- The text of a magnitude: the shortest decimal, zero having one decimal place. -/
def magnitudeText (m : Magnitude) : String :=
  if m.isZero then "0.0" else m.shortest.text numberStyle

/-- The text of a number. What is not finite has none and is written `null`. -/
def numberText : Binary64 → String
  | .finite negative m => signText negative ++ magnitudeText m
  | .infinite _ | .nan => "null"

end Shader.Json
