import Shader.Binary64.Basic

/-!
# The shortest decimal of a binary number

Among the decimals that round to a given number, one with the fewest digits is written, and of those
the one nearest to the number; of two equally near ones, the one with the even last digit.

* `Decimal`: a coefficient and a power of ten;
* `Magnitude.interval`: the decimals that round to a magnitude, on a common scale;
* `Magnitude.onGrid?`: the best of them among the multiples of one power of ten;
* `Magnitude.shortest`: the first power of ten, from coarse to fine, that has one;
* `Decimal.Style`, `Decimal.text`: where positional text ends and how an exponent is written.
-/

namespace Shader

/-- The number `coefficient * 10 ^ exponent`. -/
structure Decimal where
  coefficient : Nat
  exponent : Int
deriving DecidableEq, Repr

/-- The number of decimal digits of a number; `0` has none. -/
def digitCount (n : Nat) : Nat := if n = 0 then 0 else (Nat.toDigits 10 n).length

/-- The decimals that round to a magnitude, on a scale of natural numbers on which the grid point
`k * 10 ^ power` lies at `k * step`. -/
structure Interval where
  step : Nat
  low : Nat
  value : Nat
  high : Nat
  /-- Whether the two ends belong to the interval. -/
  closed : Bool

/-- Whether a point of the scale lies in the interval. -/
def Interval.holds (i : Interval) (x : Nat) : Bool :=
  if i.closed then i.low ≤ x && x ≤ i.high else i.low < x && x < i.high

namespace Magnitude

/-- The decimals that round to the magnitude, scaled for multiples of `10 ^ power`. In units of a
quarter of the last mantissa bit the magnitude is four times its mantissa; its neighbour above is
four units away, and so is the one below, unless the mantissa is a power of two, when that one is
only two units away. An end, lying halfway, rounds to the magnitude exactly if its mantissa is even.
-/
def interval (m : Magnitude) (power : Int) : Interval :=
  let e := m.exponent - 2
  let unit := tenPow (-power).toNat <<< e.toNat
  let below := if m.mantissa = 0x10000000000000 && m.exponent ≠ -1074 then 1 else 2
  { step := tenPow power.toNat <<< (-e).toNat
    low := (4 * m.mantissa - below) * unit
    value := 4 * m.mantissa * unit
    high := (4 * m.mantissa + 2) * unit
    closed := m.mantissa % 2 = 0 }

/-- The multiple of `10 ^ power` that rounds to the magnitude and is nearest to it, if there is one:
one of the two neighbours of the magnitude on that grid, the even one if both are equally near. -/
def onGrid? (m : Magnitude) (power : Int) : Option Nat :=
  let i := m.interval power
  let k := i.value / i.step
  let down := i.value - k * i.step
  let up := (k + 1) * i.step - i.value
  match i.holds (k * i.step), i.holds ((k + 1) * i.step) with
  | true, true =>
    some (if down < up then k else if up < down then k + 1 else if k % 2 = 0 then k else k + 1)
  | true, false => some k
  | false, true => some (k + 1)
  | false, false => none

/-- The power of ten of the first significant digit of a magnitude that is not zero. -/
def leadingPower (m : Magnitude) : Int :=
  if m.denominator ≤ m.numerator then digitCount (m.numerator / m.denominator) - 1
  else -(digitCount (ceilDiv m.denominator m.numerator - 1))

/-- The first grid with a hit, from `power` downwards; the magnitude needs no more than `count`
grids. -/
def searchGrids (m : Magnitude) (power : Int) : Nat → Decimal
  | 0 => ⟨0, 0⟩
  | count + 1 =>
    match m.onGrid? power with
    | some k => ⟨k, power⟩
    | none => searchGrids m (power - 1) count

/-- Seventeen digits always suffice to tell a 64-bit number from its neighbours. -/
def mostDigits : Nat := 17

/-- The shortest decimal that rounds to the magnitude. -/
def shortest (m : Magnitude) : Decimal := m.searchGrids m.leadingPower mostDigits

end Magnitude

namespace Decimal

/-- How decimals are written: a number whose first digit has a power of ten from `leastPositional`
to `greatestPositional` without an exponent, every other one with a signed exponent. -/
structure Style where
  leastPositional : Int
  greatestPositional : Int

/-- The digits of the coefficient, without zeros at the end. -/
def digits (d : Decimal) : List Char :=
  ((Nat.toDigits 10 d.coefficient).reverse.dropWhile (· == '0')).reverse

/-- The power of ten of the first digit. -/
def leading (d : Decimal) : Int := d.exponent + (Nat.toDigits 10 d.coefficient).length - 1

/-- Digits before and after a point, with a zero where a side would be empty. -/
def pointed (whole fraction : List Char) : List Char :=
  (if whole.isEmpty then ['0'] else whole) ++ '.' :: (if fraction.isEmpty then ['0'] else fraction)

/-- The text without an exponent, for digits whose first one has the given power of ten. -/
def positional (digits : List Char) (leading : Int) : List Char :=
  if leading < 0 then pointed [] (List.replicate (-leading - 1).toNat '0' ++ digits)
  else
    let whole := (leading + 1).toNat
    pointed (digits.take whole ++ List.replicate (whole - digits.length) '0') (digits.drop whole)

/-- The text with an exponent: one digit, the others after a point, and a signed power of ten. -/
def scientific (digits : List Char) (leading : Int) : List Char :=
  let power := 'e' :: (if leading < 0 then '-' else '+') :: Nat.toDigits 10 leading.natAbs
  match digits with
  | [] => power
  | [d] => d :: power
  | d :: rest => d :: '.' :: rest ++ power

/-- The text of a decimal that is not zero. -/
def text (style : Style) (d : Decimal) : String :=
  String.ofList <|
    if style.leastPositional ≤ d.leading && d.leading ≤ style.greatestPositional then
      positional d.digits d.leading
    else scientific d.digits d.leading

end Decimal

end Shader
