import Shader.Binary64.Arithmetic

/-!
# Numbers in shader text

A number is written with all its integer digits, a point and one decimal place.

* `tenthsText`: the text of a count of tenths;
* `Magnitude.tenths`: the tenths nearest to a magnitude, an exact half going to the even neighbour;
  `Binary64.tenths?`: those of a number;
* `Magnitude.isOddQuarter`: the magnitudes that lie halfway between two tenths;
  `Magnitude.tenthsUp` rounds them away from zero;
* `literal`: the text of any number.
-/

namespace Shader

/-- The text of `n` tenths: the integer part, a point and one digit. -/
def tenthsText (n : Nat) : String := toString (n / 10) ++ "." ++ toString (n % 10)

/-- The tenths nearest to the magnitude, an exact half going to the even neighbour. -/
def Magnitude.tenths (m : Magnitude) : Nat := roundHalfEven (m.numerator * 10) m.denominator

/-- The tenths nearest to the magnitude of a number; none if the number is not finite. -/
def Binary64.tenths? : Binary64 → Option Nat
  | .finite _ m => some m.tenths
  | _ => none

namespace Magnitude

/-- Whether the magnitude is an odd multiple of a quarter. These are the binary fractions that lie
exactly halfway between two tenths. -/
def isOddQuarter (m : Magnitude) : Bool :=
  m.numerator * 4 % m.denominator = 0 && m.numerator * 4 / m.denominator % 2 = 1

/-- Ten, as a number. -/
def ten : Binary64 := .ofNat 10

/-- The tenths of an odd multiple of a quarter, away from zero: ten times the number, the integer
above it, a tenth of that, each step rounded to a 64-bit number, and the tenths nearest to the last.
Exact as long as ten times the number is below `2 ^ 52`. -/
def tenthsUp (m : Magnitude) : Nat :=
  ((Binary64.mul (.finite false m) ten).ceil.div ten).tenths?.getD m.tenths

end Magnitude

/-- The sign written before a magnitude. -/
def signText (negative : Bool) : String := if negative then "-" else ""

/-- The text of a number with one decimal place. Both zeros are `0.0`; a negative number that rounds
to zero keeps its sign; an exact half goes away from zero. -/
def literal : Binary64 → String
  | .nan => "NaN"
  | .infinite negative => signText negative ++ "inf"
  | .finite negative m =>
    if m.isZero then "0.0"
    else signText negative ++ tenthsText (if m.isOddQuarter then m.tenthsUp else m.tenths)

end Shader
