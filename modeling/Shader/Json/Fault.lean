import Shader.Json.Value
import Shader.Text.Quoted

/-!
# Why a JSON text cannot be read

* `Json.Construct`: what was being read when the text ended; `Json.Found`: the kind of a value;
* `Json.Fault`: every reason; `Json.Fault.message` words it.
-/

namespace Shader.Json

/-- What a text may end in the middle of. -/
inductive Construct
  | value
  | string
  | array
  | object
deriving DecidableEq, Repr

/-- The words for what a text ended in the middle of. -/
def Construct.text : Construct → String
  | value => "a value"
  | string => "a string"
  | array => "a list"
  | object => "an object"

/-- A kind of value where another one is wanted, with the value itself if it is a scalar. -/
inductive Found
  | null
  | bool (b : Bool)
  | integer (i : Int)
  | float (x : Binary64)
  | string (s : String)
  | array
  | object
deriving DecidableEq, Repr

/-- The words for a kind of value. -/
def Found.text : Found → String
  | null => "null"
  | bool b => "boolean `" ++ (if b then "true" else "false") ++ "`"
  | integer i => "integer `" ++ toString i ++ "`"
  | float x => "floating point `" ++ numberText x ++ "`"
  | string s => "string " ++ quoted s
  | array => "sequence"
  | object => "map"

/-- The kind of a value. -/
def Value.found : Value → Found
  | null => .null
  | bool b => .bool b
  | integer i => .integer i
  | float x => .float x
  | string s => .string s
  | array _ => .array
  | object _ => .object

/-- Why a text cannot be read. -/
inductive Fault
  /-- The text ends too early. -/
  | ended (within : Construct)
  | expectedValue
  /-- A word that begins like `null`, `true` or `false` and is not. -/
  | expectedIdent
  | expectedColon
  | expectedCommaOrBrace
  | expectedCommaOrBracket
  | trailingComma
  | trailingCharacters
  | keyNotString
  /-- A character below the blank in a string. -/
  | controlCharacter
  | invalidEscape
  /-- The second half of a surrogate pair alone, or a first half before another escape. -/
  | loneSurrogate
  /-- The first half of a surrogate pair before something that is no escape. -/
  | halfPair
  | invalidNumber
  | numberOutOfRange
  /-- Too many containers inside each other. -/
  | tooDeep
  /-- A value of another kind than the one wanted. -/
  | wrongKind (found : Found) (expected : String)
  | missingField (name : String)
  | duplicateField (name : String)
  /-- A word where one of a few is wanted. -/
  | unknownWord (word : String) (choices : List String)
  /-- An array with too few or too many elements. -/
  | wrongLength (length : Nat) (expected : String)
  /-- A number that is no index of a list of words. -/
  | wrongIndex (index : Int) (bound : Nat)
deriving DecidableEq, Repr

/-- A word as messages quote it. -/
def ticked (word : String) : String := "`" ++ word ++ "`"

/-- The words for the choices of a field. -/
def choicesText (choices : List String) : String :=
  match choices.map ticked with
  | [] => "there are no variants"
  | [a] => "expected " ++ a
  | [a, b] => "expected " ++ a ++ " or " ++ b
  | many => "expected one of " ++ String.intercalate ", " many

/-- The wording of a fault. -/
def Fault.message : Fault → String
  | ended within => "EOF while parsing " ++ within.text
  | expectedValue => "expected value"
  | expectedIdent => "expected ident"
  | expectedColon => "expected `:`"
  | expectedCommaOrBrace => "expected `,` or `\x7d`"
  | expectedCommaOrBracket => "expected `,` or `]`"
  | trailingComma => "trailing comma"
  | trailingCharacters => "trailing characters"
  | keyNotString => "key must be a string"
  | controlCharacter => "control character (\\u0000-\\u001F) found while parsing a string"
  | invalidEscape => "invalid escape"
  | loneSurrogate => "lone leading surrogate in hex escape"
  | halfPair => "unexpected end of hex escape"
  | invalidNumber => "invalid number"
  | numberOutOfRange => "number out of range"
  | tooDeep => "recursion limit exceeded"
  | wrongKind found expected => "invalid type: " ++ found.text ++ ", expected " ++ expected
  | missingField name => "missing field " ++ ticked name
  | duplicateField name => "duplicate field " ++ ticked name
  | unknownWord word choices =>
    "unknown variant " ++ ticked word ++ ", " ++ choicesText choices
  | wrongLength length expected =>
    "invalid length " ++ toString length ++ ", expected " ++ expected
  | wrongIndex index bound =>
    "invalid value: integer " ++ ticked (toString index) ++
      ", expected variant index 0 <= i < " ++ toString bound

end Shader.Json
