import Shader.Line

/-!
# Finished shaders

* `Var.declaration`: the line that declares a uniform; `mainBlock`: the main block;
* `Output`: the answer of a build, by its parts; `Output.source` is the text of the shader and
  `Output.blocks` the texts of its functions.
-/

namespace Shader

/-- The line that declares a uniform. -/
def Var.declaration (v : Var) : String := "uniform " ++ v.declared ++ ";"

/-- The main block with the given lines. -/
def mainBlock (lines : List String) : String :=
  "void main()\x7b\n  " ++ String.intercalate "\n  " lines ++ "\n\x7d"

/-- The answer of a build: the parts of a shader. -/
structure Output where
  uniforms : List Var
  functions : List Definition
  /-- The lines of the main block. -/
  main : List Line
deriving DecidableEq, Repr

namespace Output

/-- The texts of the functions. -/
def blocks (o : Output) : List String := o.functions.map (·.text)

/-- The text of the shader: the declarations, the functions and the main block, set apart by empty
lines. A section without content keeps its place. -/
def source (o : Output) : String :=
  String.intercalate "\n\n"
    [String.intercalate "\n" (o.uniforms.map (·.declaration)),
      String.intercalate "\n\n" o.blocks, mainBlock (o.main.map (·.text))]

end Output

end Shader
