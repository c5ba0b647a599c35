import Shader.Json.Place

/-!
# Strings in JSON

* `writeString`: a string between quotation marks, with the escapes it needs;
* `readString`: the characters of a string, up to the mark that closes it;
* `skipString`: pass over a string whose characters do not matter.

Both readers work on what stands behind the opening mark, and answer what stands behind the closing
one. An escape of a surrogate pair is one character; a skipped string may hold halves of pairs.
-/

namespace Shader.Json

/-- The digit of a number below sixteen, in small letters. -/
def hexDigit (n : Nat) : Char := Nat.digitChar n

/-- The number of a hexadecimal digit. -/
def hexDigit? (c : Char) : Option Nat :=
  let n := c.toNat
  if 48 ≤ n && n ≤ 57 then some (n - 48)
  else if 97 ≤ n && n ≤ 102 then some (n - 87)
  else if 65 ≤ n && n ≤ 70 then some (n - 55)
  else none

/-! ## Writing -/

/-- A character as it is written in a string. -/
def writeChar (c : Char) : List Char :=
  if c = '"' then ['\\', '"']
  else if c = '\\' then ['\\', '\\']
  else if c.toNat = 8 then ['\\', 'b']
  else if c.toNat = 9 then ['\\', 't']
  else if c.toNat = 10 then ['\\', 'n']
  else if c.toNat = 12 then ['\\', 'f']
  else if c.toNat = 13 then ['\\', 'r']
  else if c.toNat < 32 then
    ['\\', 'u', '0', '0', hexDigit (c.toNat / 16), hexDigit (c.toNat % 16)]
  else [c]

/-- A string between quotation marks. -/
def writeString (s : String) : List Char := '"' :: s.toList.flatMap writeChar ++ ['"']

/-! ## Reading -/

/-- The number of four hexadecimal digits, behind the `u` of an escape. Four bytes have to follow,
whatever they are. -/
def readHex (cs : List Char) : Except Stop (Nat × List Char) :=
  match cs with
  | a :: b :: c :: d :: rest =>
    match hexDigit? a, hexDigit? b, hexDigit? c, hexDigit? d with
    | some a, some b, some c, some d => .ok (((a * 16 + b) * 16 + c) * 16 + d, rest)
    | _, _, _, _ => stopPast .invalidEscape 4 cs
  | _ => if byteCount cs < 4 then stopBefore (.ended .string) [] else stopPast .invalidEscape 4 cs

/-- The character of an escape of one letter. -/
def letterEscape? (c : Char) : Option Char :=
  if c = '"' || c = '\\' || c = '/' then some c
  else if c = 'b' then some '\x08'
  else if c = 'f' then some '\x0c'
  else if c = 'n' then some '\n'
  else if c = 'r' then some '\r'
  else if c = 't' then some '\t'
  else none

/-- Whether a number is the first half of a surrogate pair. -/
def isHighHalf (n : Nat) : Bool := 0xD800 ≤ n && n ≤ 0xDBFF

/-- Whether a number is the second half of a surrogate pair. -/
def isLowHalf (n : Nat) : Bool := 0xDC00 ≤ n && n ≤ 0xDFFF

/-- The character of a surrogate pair. -/
def pairChar (high low : Nat) : Char :=
  Char.ofNat ((high - 0xD800) * 0x400 + (low - 0xDC00) + 0x10000)

/-- The second half of a surrogate pair: an escape that has to follow the first half. -/
def readLowHalf (high : Nat) : List Char → Except Stop (Char × List Char)
  | [] => stopBefore (.ended .string) []
  | c :: rest =>
    if c ≠ '\\' then stopOn .halfPair (c :: rest)
    else
      match rest with
      | [] => stopBefore (.ended .string) []
      | u :: rest =>
        if u ≠ 'u' then stopOn .halfPair (u :: rest)
        else do
          let (low, rest) ← readHex rest
          if isLowHalf low then return (pairChar high low, rest)
          else stopBefore .loneSurrogate rest

/-- The character of an escape, behind its backslash. -/
def readEscape : List Char → Except Stop (Char × List Char)
  | [] => stopBefore (.ended .string) []
  | c :: rest =>
    if c = 'u' then do
      let (n, rest) ← readHex rest
      if isLowHalf n then stopBefore .loneSurrogate rest
      else if isHighHalf n then readLowHalf n rest
      else return (Char.ofNat n, rest)
    else
      match letterEscape? c with
      | some e => .ok (e, rest)
      | none => stopOn .invalidEscape (c :: rest)

/-- The next character of a string, or `none` at the closing mark. -/
def readChar : List Char → Except Stop (Option Char × List Char)
  | [] => stopBefore (.ended .string) []
  | c :: rest =>
    if c = '"' then .ok (none, rest)
    else if c = '\\' then do
      let (e, rest) ← readEscape rest
      return (some e, rest)
    else if c.toNat < 32 then stopOn .controlCharacter (c :: rest)
    else .ok (some c, rest)

/-- The characters up to the closing mark. `steps` is as long as the text at least: when it is used
up, so is the text. -/
def readChars : (steps : List Char) → List Char → Except Stop (List Char × List Char)
  | [], _ => stopBefore (.ended .string) []
  | _ :: steps, cs => do
    match ← readChar cs with
    | (none, rest) => return ([], rest)
    | (some c, rest) =>
      let (more, rest) ← readChars steps rest
      return (c :: more, rest)

/-- Read a string, behind its opening mark. Every character takes at least one of the text, so the
text itself bounds the steps. -/
def readString (cs : List Char) : Except Stop (String × List Char) := do
  let (s, rest) ← readChars cs cs
  return (String.ofList s, rest)

/-! ## Skipping -/

/-- Pass over an escape, behind its backslash. The four digits may be half of a pair. -/
def skipEscape : List Char → Except Stop (List Char)
  | [] => stopBefore (.ended .string) []
  | c :: rest =>
    if c = 'u' then do
      let (_, rest) ← readHex rest
      return rest
    else if (letterEscape? c).isSome then .ok rest
    else stopOn .invalidEscape (c :: rest)

/-- Pass over the characters up to the closing mark; `steps` is as long as the text at least. -/
def skipChars : (steps : List Char) → List Char → Except Stop (List Char)
  | [], _ | _, [] => stopBefore (.ended .string) []
  | _ :: steps, c :: rest =>
    if c = '"' then .ok rest
    else if c = '\\' then do
      let rest ← skipEscape rest
      skipChars steps rest
    else if c.toNat < 32 then stopBefore .controlCharacter (c :: rest)
    else skipChars steps rest

/-- Pass over a string, behind its opening mark. -/
def skipString (cs : List Char) : Except Stop (List Char) := skipChars cs cs

end Shader.Json
