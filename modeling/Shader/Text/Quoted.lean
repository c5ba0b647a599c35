import Shader.Text.Visible

/-!
# Quoted text in messages

A text that a message quotes stands between quotation marks, and every character in it that would
not be shown as itself is written as an escape.

* `escapedChar`: how one character is written; `quoted`: a whole text.
-/

namespace Shader

/-- A number in hexadecimal, in small letters and without zeros in front. -/
def hexText (n : Nat) : List Char := Nat.toDigits 16 n

/-- A character as it is written between quotation marks. -/
def escapedChar (c : Char) : List Char :=
  if c = '"' then ['\\', '"']
  else if c = '\\' then ['\\', '\\']
  else if c = '\n' then ['\\', 'n']
  else if c = '\t' then ['\\', 't']
  else if c = '\r' then ['\\', 'r']
  else if c.toNat = 0 then ['\\', '0']
  else if visible c.toNat then [c]
  else ['\\', 'u', '\x7b'] ++ hexText c.toNat ++ ['\x7d']

/-- A text between quotation marks. -/
def quoted (s : String) : String :=
  String.ofList ('"' :: s.toList.flatMap escapedChar ++ ['"'])

end Shader
