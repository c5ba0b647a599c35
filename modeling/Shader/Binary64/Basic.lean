import Shader.Decimal.Quotient

/-!
# Binary floating-point numbers of 64 bits

A number of the format has a sign and a magnitude `mantissa * 2 ^ exponent` with at most 53
significant bits, or it is infinite, or not a number.

* `Magnitude`: the finite magnitudes, each in one form only;
* `Magnitude.nearest?`: the magnitude nearest to a quotient of natural numbers, an exact half going
  to the even mantissa; there is none beyond the largest;
* `Binary64`: the numbers; `Binary64.ofBits` reads the 64 bits of the interchange format,
  `Binary64.ofRatio` and `Binary64.ofDecimal` round to the nearest;
* `Binary64.equals`: equality of numbers, for which the two zeros are the same and a value that is
  not a number differs from itself.
-/

namespace Shader

/-- A finite magnitude `mantissa * 2 ^ exponent`, in its one canonical form: all 53 bits of the
mantissa are used unless the exponent is the least. The two bounds are `2 ^ 53` and `2 ^ 52`. -/
structure Magnitude where
  mantissa : Nat
  exponent : Int
  canonical : mantissa < 0x20000000000000 ∧ -1074 ≤ exponent ∧ exponent ≤ 971 ∧
    (0x10000000000000 ≤ mantissa ∨ exponent = -1074)
deriving DecidableEq, Repr

namespace Magnitude

/-- The magnitude `0`. -/
def zero : Magnitude := ⟨0, -1074, by omega⟩

instance : Inhabited Magnitude := ⟨zero⟩

/-- Whether the magnitude is `0`. -/
def isZero (m : Magnitude) : Bool := m.mantissa == 0

/-- A magnitude is the quotient of its numerator and its denominator. -/
def numerator (m : Magnitude) : Nat := m.mantissa <<< m.exponent.toNat

/-- The power of two below the fraction bar; `1` for a magnitude with a nonnegative exponent. -/
def denominator (m : Magnitude) : Nat := 1 <<< (-m.exponent).toNat

theorem denominator_pos (m : Magnitude) : 0 < m.denominator := by
  rw [denominator, Nat.one_shiftLeft]
  exact Nat.two_pow_pos _

/-- The magnitude with the given parts, if they are canonical. -/
def ofParts? (mantissa : Nat) (exponent : Int) : Option Magnitude :=
  if h : mantissa < 0x20000000000000 ∧ -1074 ≤ exponent ∧ exponent ≤ 971 ∧
      (0x10000000000000 ≤ mantissa ∨ exponent = -1074) then
    some ⟨mantissa, exponent, h⟩
  else none

/-- The exponent at which `num / den` has 53 bits before the point, but not below the least. -/
def gridExponent (num den : Nat) : Int :=
  let e : Int := (num.log2 : Int) - den.log2 - 52
  let e := if num <<< (-e).toNat < 0x10000000000000 * den <<< e.toNat then e - 1 else e
  max e (-1074)

/-- The magnitude nearest to `num / den`, an exact half going to the even mantissa; `none` if the
nearest number with 53 bits lies beyond the largest exponent. -/
def nearest? (num den : Nat) : Option Magnitude :=
  if num = 0 then some zero
  else
    let e := gridExponent num den
    let m := roundHalfEven (num <<< (-e).toNat) (den <<< e.toNat)
    if m = 0x20000000000000 then ofParts? 0x10000000000000 (e + 1) else ofParts? m e

end Magnitude

/-- The numbers of the format. -/
inductive Binary64
  | finite (negative : Bool) (magnitude : Magnitude)
  | infinite (negative : Bool)
  | nan
deriving DecidableEq, Repr

namespace Binary64

/-- The positive zero. -/
def zero : Binary64 := .finite false .zero

instance : Inhabited Binary64 := ⟨zero⟩

/-- The number nearest to `num / den` with a sign before it; infinite beyond the largest. -/
def ofRatio (negative : Bool) (num den : Nat) : Binary64 :=
  match Magnitude.nearest? num den with
  | some m => .finite negative m
  | none => .infinite negative

/-- The number nearest to a natural number. -/
def ofNat (n : Nat) : Binary64 := ofRatio false n 1

/-- The number nearest to an integer. -/
def ofInt (i : Int) : Binary64 := ofRatio (i < 0) i.natAbs 1

/-- The number nearest to `digits * 10 ^ exponent` with a sign before it. The place of the first
digit alone tells numbers that are far below the least or far beyond the largest. -/
def ofDecimal (negative : Bool) (digits : Nat) (exponent : Int) : Binary64 :=
  let first := (Nat.toDigits 10 digits).length + exponent
  if digits = 0 || first < -330 then .finite negative .zero
  else if 310 < first then .infinite negative
  else ofRatio negative (digits * tenPow exponent.toNat) (tenPow (-exponent).toNat)

/-- The number with the given bits: a sign, eleven bits of exponent, 52 bits of fraction. -/
def ofBits (bits : Nat) : Binary64 :=
  let negative : Bool := bits / 0x8000000000000000 % 2 = 1
  let biased : Nat := bits / 0x10000000000000 % 0x800
  let fraction : Nat := bits % 0x10000000000000
  if h₁ : biased = 2047 then
    if fraction = 0 then .infinite negative else .nan
  else if h₀ : biased = 0 then .finite negative ⟨fraction, -1074, by omega⟩
  else .finite negative ⟨0x10000000000000 + fraction, (biased : Int) - 1075, by omega⟩

/-- Whether the number is infinite. -/
def isInfinite : Binary64 → Bool
  | .infinite _ => true
  | _ => false

/-- Whether the number is finite. -/
def isFinite : Binary64 → Bool
  | .finite _ _ => true
  | _ => false

/-- Whether the number is one of the two zeros. -/
def isZero : Binary64 → Bool
  | .finite _ m => m.isZero
  | _ => false

/-- Whether two numbers are equal as numbers: the zeros are, `nan` differs from itself. -/
def equals : Binary64 → Binary64 → Bool
  | .finite s a, .finite t b => a = b && (s == t || a.isZero)
  | .infinite s, .infinite t => s == t
  | _, _ => false

end Binary64

end Shader
