import Shader.Json.Reader

/-!
# Passing over JSON values

A value that does not matter is passed over without being kept. The rules are looser than those of
reading: containers may be nested to any depth, numbers may have any size, and strings may hold
halves of surrogate pairs.

* `skipElements`, `skipMembers`: pass over what a container holds;
* `skipValue`: pass over a value.

As in reading, `steps` is as long as the text at least: when it is used up, so is the text.
-/

namespace Shader.Json

/-- Pass over the elements of an array that is not empty, and its end. -/
def skipElements (item : List Char → Except Stop (List Char)) :
    (steps : List Char) → List Char → Except Stop (List Char)
  | [], _ => stopBefore (.ended .array) []
  | _ :: steps, cs => do
    let rest ← item cs
    match skipBlanks rest with
    | [] => stopBefore (.ended .array) []
    | c :: rest =>
      if c = ']' then .ok rest
      else if c = ',' then skipElements item steps rest
      else stopOn .expectedCommaOrBracket (c :: rest)

/-- Pass over the members of an object that is not empty, and its end. -/
def skipMembers (item : List Char → Except Stop (List Char)) :
    (steps : List Char) → List Char → Except Stop (List Char)
  | [], _ => stopBefore (.ended .object) []
  | _ :: steps, cs =>
    match skipBlanks cs with
    | [] => stopBefore (.ended .object) []
    | c :: rest =>
      if c ≠ '"' then stopOn .keyNotString (c :: rest)
      else do
        let rest ← skipString rest
        let rest ← readColon rest
        let rest ← item rest
        match skipBlanks rest with
        | [] => stopBefore (.ended .object) []
        | c :: rest =>
          if c = '\x7d' then .ok rest
          else if c = ',' then skipMembers item steps rest
          else stopOn .expectedCommaOrBrace (c :: rest)

/-- Pass over a value in which containers are nested no deeper than `steps` is long. -/
def skipFrom : (steps : List Char) → List Char → Except Stop (List Char)
  | [], _ => stopBefore (.ended .value) []
  | _ :: steps, cs =>
    match skipBlanks cs with
    | [] => stopBefore (.ended .value) []
    | c :: rest =>
      if c = 'n' then readWord ['u', 'l', 'l'] rest
      else if c = 't' then readWord ['r', 'u', 'e'] rest
      else if c = 'f' then readWord ['a', 'l', 's', 'e'] rest
      else if c = '-' then skipNumber rest
      else if isDigit c then skipNumber (c :: rest)
      else if c = '"' then skipString rest
      else if c = '[' then
        match skipBlanks rest with
        | [] => stopBefore (.ended .array) []
        | d :: behind =>
          if d = ']' then .ok behind else skipElements (skipFrom steps) rest rest
      else if c = '\x7b' then
        match skipBlanks rest with
        | [] => stopBefore (.ended .object) []
        | d :: behind =>
          if d = '\x7d' then .ok behind else skipMembers (skipFrom steps) rest rest
      else stopOn .expectedValue (c :: rest)

/-- Pass over a value. -/
def skipValue (cs : List Char) : Except Stop (List Char) := skipFrom cs cs

end Shader.Json
