import Shader.Operation

/-!
# Lines and functions of a shader

* `Line`: a line of a body, with what it was made for; `Line.text` is how it reads;
* `tempName`: the names of temporaries;
* `Definition`: a function with its body; `Definition.text` is how it reads.
-/

namespace Shader

/-- The name of a temporary. -/
def tempName (n : Nat) : String := "v" ++ toString n

/-- A line of a body. -/
inductive Line
  /-- A line that a caller gives as text. -/
  | raw (text : String)
  /-- The declaration of a temporary with the value of an operation. -/
  | declare (n : Nat) (op : Operation)
  /-- The head of a conditional. -/
  | opening (cond : String)
  /-- The head of the alternative of a conditional. -/
  | otherwise
  /-- The end of a branch. -/
  | closing
  /-- The result of a function. -/
  | result (value : Expr)
  /-- The result of the main body, which is the first channel of the colour. -/
  | color (value : Expr)
deriving DecidableEq, Repr

/-- How a line reads. -/
def Line.text : Line → String
  | raw text => text
  | declare n op => op.value.ty.keyword ++ " " ++ tempName n ++ " = " ++ op.value.code ++ ";"
  | opening cond => "if(" ++ cond ++ ")\x7b"
  | otherwise => "else\x7b"
  | closing => "\x7d"
  | result value => "return " ++ value.code ++ ";"
  | color value => "gl_FragColor = vec4(" ++ value.code ++ ", 0.0, 1.0);"

/-- A function with its body. -/
structure Definition where
  signature : Signature
  lines : List Line
deriving DecidableEq, Repr

/-- How a function reads, its body indented by two blanks. -/
def Definition.text (d : Definition) : String :=
  d.signature.result.keyword ++ " " ++
    callText d.signature.name (d.signature.params.map (·.declared)) ++ " \x7b\n" ++
    String.intercalate "\n" (d.lines.map ("  " ++ ·.text)) ++ "\n\x7d"

end Shader
