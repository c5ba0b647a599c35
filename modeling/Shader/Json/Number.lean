import Shader.Binary64.Arithmetic
import Shader.Json.Place

/-!
# Numbers in JSON

A number without point and exponent is an integer if it fits 64 bits. Every other one is read in
floating point: the leading digits that fit 64 bits are its significand, and the significand is
multiplied or divided by a power of ten. Each of these steps is rounded, so that the result may
differ from the number nearest to the text.

* `wholeDigits`, `fractionDigits`, `readExponent`: the parts of a number;
* `ofParts`: the number with a significand and an exponent;
* `readNumber`: a number behind its sign; `skipNumber`: pass over one.
-/

namespace Shader.Json

/-- The number of a decimal digit. -/
def digit? (c : Char) : Option Nat :=
  if 48 ≤ c.toNat && c.toNat ≤ 57 then some (c.toNat - 48) else none

/-- Whether a character is a decimal digit. -/
def isDigit (c : Char) : Bool := (digit? c).isSome

/-- The bound of significands, `2 ^ 64`. -/
def significandBound : Nat := 0x10000000000000000

/-- Read digits of an integer into a significand. From the first digit on that does not fit any
more, digits are only counted. The answer is the significand, that count and what follows. -/
def wholeDigits (significand : Nat) : List Char → Nat × Nat × List Char
  | [] => (significand, 0, [])
  | c :: rest =>
    match digit? c with
    | none => (significand, 0, c :: rest)
    | some d =>
      if significand * 10 + d < significandBound then wholeDigits (significand * 10 + d) rest
      else (significand, 1 + (rest.takeWhile isDigit).length, rest.dropWhile isDigit)

/-- Read digits of a fraction into a significand, as long as they fit; the others are passed over.
The answer is the significand, the number of digits that went into it and what follows. -/
def fractionDigits (significand : Nat) : List Char → Nat × Nat × List Char
  | [] => (significand, 0, [])
  | c :: rest =>
    match digit? c with
    | none => (significand, 0, c :: rest)
    | some d =>
      if significand * 10 + d < significandBound then
        let (s, n, rest) := fractionDigits (significand * 10 + d) rest
        (s, n + 1, rest)
      else (significand, 0, rest.dropWhile isDigit)

/-! ## From parts to a number -/

/-- The greatest power of ten that a floating-point number comes near to. -/
def greatestPower : Nat := 308

/-- A power of ten as a floating-point number. -/
def powerOfTen (n : Nat) : Binary64 := .ofNat (tenPow n)

/-- Divide by the greatest power of ten, the given number of times or until nothing is left. -/
def scaleDown (x : Binary64) : Nat → Binary64
  | 0 => x
  | n + 1 => if x.isZero then x else scaleDown (x.div (powerOfTen greatestPower)) n

/-- The number `significand * 10 ^ exponent`, in rounded steps; `none` beyond the largest. -/
def ofParts? (significand : Nat) (exponent : Int) : Option Binary64 :=
  let x := Binary64.ofNat significand
  if exponent < 0 then
    let times := (exponent.natAbs - 1) / greatestPower
    some ((scaleDown x times).div (powerOfTen (exponent.natAbs - greatestPower * times)))
  else if exponent ≤ greatestPower then
    let y := x.mul (powerOfTen exponent.natAbs)
    if y.isInfinite then none else some y
  else if x.isZero then some x
  else none

/-- The number of a text in floating point, with its sign. -/
def floatOfParts (negative : Bool) (significand : Nat) (exponent : Int) : Except Fault Value :=
  match ofParts? significand exponent with
  | some x => .ok (.float (if negative then x.neg else x))
  | none => .error .numberOutOfRange

/-- The number of a text in floating point, with the text behind it. -/
def floatBefore (negative : Bool) (significand : Nat) (exponent : Int) (rest : List Char) :
    Except Stop (Value × List Char) :=
  (placed rest (floatOfParts negative significand exponent)).map (·, rest)

/-- The number of a text without point and exponent. A zero with a sign, and a negative number that
does not fit, are floating-point numbers. -/
def integerOf (negative : Bool) (significand : Nat) : Value :=
  if !negative then .integer significand
  else if significand = 0 || 0x8000000000000000 < significand then
    .float (Binary64.ofNat significand).neg
  else .integer (-significand)

/-! ## Reading -/

/-- The bound of the digits of an exponent; a greater one counts as beyond all numbers. -/
def exponentBound : Nat := 0x80000000

/-- Read digits of an exponent into `e`, as long as it stays below the bound. The answer is the
exponent, or `none` with the text behind the digit that was too much. -/
def exponentFrom (e : Nat) : List Char → Option Nat × List Char
  | [] => (some e, [])
  | c :: rest =>
    match digit? c with
    | none => (some e, c :: rest)
    | some d =>
      if e * 10 + d < exponentBound then exponentFrom (e * 10 + d) rest else (none, rest)

/-- The digits of an exponent; there has to be one. -/
def exponentDigits (cs : List Char) : Except Stop (Option Nat × List Char) :=
  match cs with
  | [] => stopBefore (.ended .value) []
  | c :: _ => if isDigit c then .ok (exponentFrom 0 cs) else stopOn .invalidNumber cs

/-- The sign of an exponent, if it has one. -/
def exponentSign : List Char → Bool × List Char
  | c :: rest =>
    if c = '-' then (true, rest) else if c = '+' then (false, rest) else (false, c :: rest)
  | [] => (false, [])

/-- Read an exponent, behind its letter, and make the number. -/
def readExponent (negative : Bool) (significand : Nat) (exponent : Int) (cs : List Char) :
    Except Stop (Value × List Char) := do
  let (down, cs) := exponentSign cs
  match ← exponentDigits cs with
  | (some e, rest) =>
    floatBefore negative significand (if down then exponent - e else exponent + e) rest
  | (none, rest) =>
    if significand ≠ 0 && !down then stopBefore .numberOutOfRange rest
    else
      return (.float (if negative then Binary64.zero.neg else .zero), rest.dropWhile isDigit)

/-- Whether a character begins an exponent. -/
def isExponentMark (c : Char) : Bool := c = 'e' || c = 'E'

/-- Read what may follow the digits of a fraction. -/
def afterFraction (negative : Bool) (significand : Nat) (exponent : Int) (cs : List Char) :
    Except Stop (Value × List Char) :=
  match cs with
  | c :: rest =>
    if isExponentMark c then readExponent negative significand exponent rest
    else floatBefore negative significand exponent cs
  | [] => floatBefore negative significand exponent cs

/-- Read a fraction, behind its point, and what follows it. -/
def readFraction (negative : Bool) (significand : Nat) (exponent : Int) (cs : List Char) :
    Except Stop (Value × List Char) :=
  match cs with
  | [] => stopBefore (.ended .value) []
  | c :: _ =>
    if isDigit c then
      let (significand, used, rest) := fractionDigits significand cs
      afterFraction negative significand (exponent - used) rest
    else stopOn .invalidNumber cs

/-- Read what may follow the integer digits of a number, of which `dropped` did not fit. -/
def afterWhole (negative : Bool) (significand dropped : Nat) (cs : List Char) :
    Except Stop (Value × List Char) :=
  let plain :=
    if dropped = 0 then .ok (integerOf negative significand, cs)
    else floatBefore negative significand dropped cs
  match cs with
  | c :: rest =>
    if c = '.' then readFraction negative significand dropped rest
    else if isExponentMark c then readExponent negative significand dropped rest
    else plain
  | [] => plain

/-- Read a number, behind its sign. No digit may follow a zero at the front. -/
def readNumber (negative : Bool) (cs : List Char) : Except Stop (Value × List Char) :=
  match cs with
  | [] => stopBefore (.ended .value) []
  | c :: rest =>
    if c = '0' then
      if rest.head?.any isDigit then stopOn .invalidNumber rest
      else afterWhole negative 0 0 rest
    else if isDigit c then
      let (significand, dropped, rest) := wholeDigits 0 cs
      afterWhole negative significand dropped rest
    else stopOn .invalidNumber cs

/-! ## Skipping -/

/-- Pass over digits, of which there has to be one. -/
def skipDigits (cs : List Char) : Except Stop (List Char) :=
  if cs.head?.any isDigit then .ok (cs.dropWhile isDigit) else stopOn .invalidNumber cs

/-- Pass over an exponent, if there is one. -/
def skipExponent (cs : List Char) : Except Stop (List Char) :=
  match cs with
  | c :: rest => if isExponentMark c then skipDigits (exponentSign rest).2 else .ok cs
  | [] => .ok cs

/-- Pass over a fraction, if there is one, and an exponent. -/
def skipFraction (cs : List Char) : Except Stop (List Char) :=
  match cs with
  | c :: rest =>
    if c = '.' then do
      let rest ← skipDigits rest
      skipExponent rest
    else skipExponent cs
  | [] => .ok cs

/-- Pass over a number, behind its sign, whatever its size. -/
def skipNumber (cs : List Char) : Except Stop (List Char) :=
  match cs with
  | [] => stopBefore .invalidNumber []
  | c :: rest =>
    if c = '0' then
      if rest.head?.any isDigit then stopOn .invalidNumber rest else skipFraction rest
    else do
      let rest ← skipDigits cs
      skipFraction rest

end Shader.Json
