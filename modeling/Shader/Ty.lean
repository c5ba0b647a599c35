/-!
# The types of shader values

An expression of a generated shader carries one of five GLSL types.

* `Ty`: the types; `Ty.keyword` is the word that declares one, `Ty.ofKeyword?` reads it back;
* `Ty.components`: how many scalars a value holds; `Ty.isVector`: whether it is a vector;
* **`ofKeyword?_eq_some_iff`**: a word reads as a type exactly when it is that type's keyword.
-/

namespace Shader

/-- The GLSL types an expression can carry. -/
inductive Ty
  | float
  | vec2
  | vec3
  | vec4
  | mat4
deriving DecidableEq, Repr, Inhabited

namespace Ty

/-- Every type, in the order in which messages list them. -/
def all : List Ty := [float, vec2, vec3, vec4, mat4]

/-- The word that declares a value of the type. -/
def keyword : Ty → String
  | float => "float"
  | vec2 => "vec2"
  | vec3 => "vec3"
  | vec4 => "vec4"
  | mat4 => "mat4"

/-- The type a word declares; no other spelling is accepted. -/
def ofKeyword? (word : String) : Option Ty := all.find? (·.keyword = word)

/-- The number of scalars a value holds. -/
def components : Ty → Nat
  | float => 1
  | vec2 => 2
  | vec3 => 3
  | vec4 => 4
  | mat4 => 16

/-- A vector has named channels and a direction; a scalar and a matrix have neither. -/
def isVector : Ty → Bool
  | vec2 | vec3 | vec4 => true
  | float | mat4 => false

/-- **A word reads as a type exactly when it is that type's keyword.** -/
theorem ofKeyword?_eq_some_iff {word : String} {t : Ty} :
    ofKeyword? word = some t ↔ t.keyword = word := by
  constructor
  · intro h
    simpa using List.find?_some h
  · rintro rfl
    cases t <;> decide

end Ty

end Shader
