import Shader.Binary64.Basic

/-!
# Arithmetic on 64-bit binary numbers

Every operation is the exact result rounded to the nearest number, an exact half going to the even
mantissa.

* `Binary64.neg`, `Binary64.abs`, `Binary64.mul`, `Binary64.div`;
* `Magnitude.ceil`: the least natural number that is not below a magnitude; `Binary64.ceil` is that
  of a number without a sign.
-/

namespace Shader

/-- The least natural number that is not below the magnitude. -/
def Magnitude.ceil (m : Magnitude) : Nat := ceilDiv m.numerator m.denominator

namespace Binary64

/-- The number with the other sign. -/
def neg : Binary64 → Binary64
  | .finite s m => .finite (!s) m
  | .infinite s => .infinite (!s)
  | .nan => .nan

/-- The number without its sign. -/
def abs : Binary64 → Binary64
  | .finite _ m => .finite false m
  | .infinite _ => .infinite false
  | .nan => .nan

/-- The rounded product. -/
def mul : Binary64 → Binary64 → Binary64
  | .finite s a, .finite t b =>
    ofRatio (s ^^ t) (a.numerator * b.numerator) (a.denominator * b.denominator)
  | .infinite s, .finite t m | .finite s m, .infinite t =>
    if m.isZero then .nan else .infinite (s ^^ t)
  | .infinite s, .infinite t => .infinite (s ^^ t)
  | .nan, _ | _, .nan => .nan

/-- The rounded quotient. -/
def div : Binary64 → Binary64 → Binary64
  | .finite s a, .finite t b =>
    if b.isZero then
      if a.isZero then .nan else .infinite (s ^^ t)
    else ofRatio (s ^^ t) (a.numerator * b.denominator) (a.denominator * b.numerator)
  | .infinite s, .finite t _ => .infinite (s ^^ t)
  | .finite s _, .infinite t => .finite (s ^^ t) .zero
  | .infinite _, .infinite _ => .nan
  | .nan, _ | _, .nan => .nan

/-- The least whole number that is not below a number without a sign. -/
def ceil : Binary64 → Binary64
  | .finite _ m => .ofNat m.ceil
  | n => n

end Binary64

end Shader
