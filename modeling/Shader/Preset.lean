import Shader.Program.Run

/-!
# Built-in shaders

* `Preset`: a named shader program with the uniforms it needs;
* `presets`: all of them, in the order in which they are listed; `Preset.find?` looks one up.
-/

namespace Shader

/-- A named shader program. Its main body works with any memory. -/
structure Preset where
  name : String
  description : String
  uniforms : List Var
  main : ∀ {σ : Type}, Fragment → Program σ Expr

namespace Preset

/-- Build the preset. -/
def program {σ : Type} (p : Preset) : Program σ Output := .shader p.uniforms p.main

open Program

/-- Half of one. -/
def half : Binary64 := .ofDecimal false 5 (-1)

/-- The time, in seconds. -/
def time : Var := ⟨"u_time", .float⟩

/-- The size of the screen. -/
def resolution : Var := ⟨"u_resolution", .vec2⟩

/-- The horizontal part of the screen coordinate, from `0` to `1`. -/
def uvGradient : Preset where
  name := "uv-gradient"
  description := "horizontal gradient from screen coordinate over resolution"
  uniforms := [time, resolution]
  main f := do
    let size ← ofExcept (f.uniform resolution.name)
    let uv ← op (.arithmetic .div f.coord (.expr size))
    op (.channel .x uv)

/-- A brightness that swings with the time. -/
def pulse : Preset where
  name := "pulse"
  description := "sine of time remapped to 0..1"
  uniforms := [time]
  main f := do
    let t ← ofExcept (f.uniform time.name)
    let wave ← op (.intrinsic .sin t)
    let low ← op (.arithmetic .mul wave (.number half))
    op (.arithmetic .add low (.number half))

/-- The body of a ring of the given distance at the given time. -/
def ringBody {σ : Type} (distance moment : Expr) : Program σ Expr := do
  let scaled ← op (.arithmetic .mul distance (.number (.ofNat 40)))
  let phase ← op (.arithmetic .sub scaled (.expr moment))
  let wave ← op (.intrinsic .sin phase)
  op (.smoothstep wave (.number (.ofNat 0)) (.number (.ofNat 1)))

/-- Rings around the middle of the screen. -/
def rings : Preset where
  name := "rings"
  description := "concentric rings through a helper function, discarded after 10s"
  uniforms := [time, resolution]
  main f := do
    let (d, moment) : Var × Var := (⟨"d", .float⟩, ⟨"t", .float⟩)
    let ring ← function ⟨"ring", .float, [d, moment]⟩ fun _ => ringBody d.expr moment.expr
    let t ← ofExcept (f.uniform time.name)
    let size ← ofExcept (f.uniform resolution.name)
    let uv ← op (.arithmetic .div f.coord (.expr size))
    let centered ← op (.arithmetic .sub uv (.expr (.vec2 half none)))
    let x ← op (.channel .x centered)
    let y ← op (.channel .y centered)
    let xx ← op (.arithmetic .mul x (.expr x))
    let yy ← op (.arithmetic .mul y (.expr y))
    let dist ← op (.arithmetic .add xx (.expr yy))
    ifBlock (t.code ++ " > 10.0") (line "discard;")
    op (.call ring [.expr dist, .expr t])

end Preset

/-- The built-in shaders, in the order in which they are listed. -/
def presets : List Preset := [.uvGradient, .pulse, .rings]

/-- The built-in shader of a name. -/
def Preset.find? (name : String) : Option Preset := presets.find? (·.name = name)

end Shader
