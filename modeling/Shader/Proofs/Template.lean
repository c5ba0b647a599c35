import Mathlib.Data.List.Forall2
import Mathlib.Data.String.Basic
import Shader.Program.Basic

/-!
# Text up to the numbers of temporaries

A template is a text with numbered holes. Filled with the names of temporaries from some number on, it
is a text; two texts are the same up to a shift `d` if one template gives both, the one from `0` on and
the other from `d` on. Nothing but names of temporaries can be different in them.

* `Template`, `Template.fill`: templates; `SameText`: texts of one template;
* `Expr.Same`, `Operation.Same`, `Line.Same`, `Definition.Same`, `Output.Same`, `View.Same`: what is
  made of such texts and is the same otherwise;
* **`Operation.Same.check`**: a type rule cannot tell the two apart; **`Line.Same.text`**: lines that
  are the same up to a shift are texts of one template;
* `sameText_zero` and its like: without a shift they are equal.
-/

namespace Shader

/-- A piece of a template. -/
inductive Piece
  | text (s : String)
  /-- The name of a temporary. -/
  | hole (k : Nat)
deriving DecidableEq, Repr

/-- The text of a piece, temporaries being numbered from `d` on. -/
def Piece.fill (d : Nat) : Piece → String
  | text s => s
  | hole k => tempName (d + k)

/-- A text with numbered holes. -/
abbrev Template := List Piece

/-- The text of a template, temporaries being numbered from `d` on. -/
def Template.fill (d : Nat) (t : Template) : String := String.join (t.map (·.fill d))

/-- Two texts of one template, with temporaries from `0` on and from `d` on. -/
def SameText (d : Nat) (s s' : String) : Prop := ∃ t : Template, t.fill 0 = s ∧ t.fill d = s'

section Text

variable {d : Nat} {s s' u u' : String} {ss ss' : List String}

theorem sameText_refl (d : Nat) (s : String) : SameText d s s :=
  ⟨[.text s], by simp [Template.fill, Piece.fill], by simp [Template.fill, Piece.fill]⟩

theorem sameText_temp (d k : Nat) : SameText d (tempName k) (tempName (d + k)) :=
  ⟨[.hole k], by simp [Template.fill, Piece.fill], by simp [Template.fill, Piece.fill]⟩

theorem SameText.append (h : SameText d s s') (hu : SameText d u u') :
    SameText d (s ++ u) (s' ++ u') := by
  obtain ⟨t, rfl, rfl⟩ := h
  obtain ⟨t', rfl, rfl⟩ := hu
  exact ⟨t ++ t', by simp [Template.fill, String.join_append],
    by simp [Template.fill, String.join_append]⟩

/-- A text behind one that is fixed. -/
theorem SameText.after (h : SameText d s s') (u : String) : SameText d (u ++ s) (u ++ s') :=
  (sameText_refl d u).append h

/-- A text before one that is fixed. -/
theorem SameText.before (h : SameText d s s') (u : String) : SameText d (s ++ u) (s' ++ u) :=
  h.append (sameText_refl d u)

theorem SameText.intercalate (separator : String) (h : List.Forall₂ (SameText d) ss ss') :
    SameText d (String.intercalate separator ss) (String.intercalate separator ss') := by
  induction h with
  | nil => exact sameText_refl d _
  | cons h hs ih =>
    cases hs with
    | nil => simpa using h
    | cons h' hs =>
      rw [String.intercalate_cons_cons, String.intercalate_cons_cons]
      exact (h.before separator).append ih

theorem sameText_callText (name : String) (h : List.Forall₂ (SameText d) ss ss') :
    SameText d (callText name ss) (callText name ss') :=
  ((SameText.intercalate ", " h).after (name ++ "(")).before ")"

/-- The texts of things that are the same up to a shift. -/
theorem sameText_map {α : Type} {R : α → α → Prop} {f : α → String} {l l' : List α}
    (hl : List.Forall₂ R l l') (hf : ∀ x y, R x y → SameText d (f x) (f y)) :
    List.Forall₂ (SameText d) (l.map f) (l'.map f) := by
  rw [List.forall₂_map_left_iff, List.forall₂_map_right_iff]
  exact hl.imp hf

/-- Without a shift there is one text. -/
theorem sameText_zero : SameText 0 s s' ↔ s = s' := by
  refine ⟨?_, ?_⟩
  · rintro ⟨t, rfl, rfl⟩
    rfl
  · rintro rfl
    exact sameText_refl 0 s

/-- Texts of one template each are texts of one list of templates. -/
theorem exists_templates (h : List.Forall₂ (SameText d) ss ss') :
    ∃ ts : List Template, ss = ts.map (·.fill 0) ∧ ss' = ts.map (·.fill d) := by
  induction h with
  | nil => exact ⟨[], rfl, rfl⟩
  | cons h _ ih =>
    obtain ⟨t, rfl, rfl⟩ := h
    obtain ⟨ts, rfl, rfl⟩ := ih
    exact ⟨t :: ts, rfl, rfl⟩

end Text

/-- The number of a temporary in both texts: a name that was there before stays, a new one is
shifted. -/
def Renumbered (d k k' : Nat) : Prop := k' = k ∨ k' = d + k

theorem Renumbered.sameText {d k k' : Nat} (h : Renumbered d k k') :
    SameText d (tempName k) (tempName k') := by
  obtain rfl | rfl := h
  · exact sameText_refl d _
  · exact sameText_temp d k

/-! ## Operations -/

/-- Expressions that are the same up to a shift. -/
structure Expr.Same (d : Nat) (e e' : Expr) : Prop where
  code : SameText d e.code e'.code
  ty : e.ty = e'.ty

/-- Operands that are the same up to a shift. -/
inductive Operand.Same (d : Nat) : Operand → Operand → Prop
  | expr {e e' : Expr} (h : e.Same d e') : Same d (.expr e) (.expr e')
  | number (n : Binary64) : Same d (.number n) (.number n)

/-- Operations that are the same up to a shift. -/
inductive Operation.Same (d : Nat) : Operation → Operation → Prop
  | arithmetic {op : Arithmetic} {a a' : Expr} {b b' : Operand} (ha : a.Same d a')
    (hb : b.Same d b') : Same d (.arithmetic op a b) (.arithmetic op a' b')
  | intrinsic {fn : Intrinsic} {a a' : Expr} (ha : a.Same d a') :
    Same d (.intrinsic fn a) (.intrinsic fn a')
  | step {a a' : Expr} {b b' : Operand} (ha : a.Same d a') (hb : b.Same d b') :
    Same d (.step a b) (.step a' b')
  | smoothstep {a a' : Expr} {b b' c c' : Operand} (ha : a.Same d a') (hb : b.Same d b')
    (hc : c.Same d c') : Same d (.smoothstep a b c) (.smoothstep a' b' c')
  | channel {c : Channel} {a a' : Expr} (ha : a.Same d a') : Same d (.channel c a) (.channel c a')
  | call {f : Callee} {args args' : List Operand} (h : List.Forall₂ (Operand.Same d) args args') :
    Same d (.call f args) (.call f args')

section Operations

variable {d : Nat}

theorem Expr.same_refl (d : Nat) (e : Expr) : e.Same d e := ⟨sameText_refl d e.code, rfl⟩

theorem Operand.same_refl (d : Nat) : (o : Operand) → o.Same d o
  | .expr e => .expr (e.same_refl d)
  | .number n => .number n

theorem Operation.same_refl (d : Nat) (op : Operation) : op.Same d op := by
  cases op with
  | arithmetic op a b => exact .arithmetic (a.same_refl d) (b.same_refl d)
  | intrinsic fn a => exact .intrinsic (a.same_refl d)
  | step a b => exact .step (a.same_refl d) (b.same_refl d)
  | smoothstep a b c => exact .smoothstep (a.same_refl d) (b.same_refl d) (c.same_refl d)
  | channel c a => exact .channel (a.same_refl d)
  | call f args => exact .call (List.forall₂_same.2 fun o _ => o.same_refl d)

theorem Operand.Same.code {o o' : Operand} (h : o.Same d o') : SameText d o.code o'.code := by
  cases h with
  | expr h => exact h.code
  | number n => exact sameText_refl d _

theorem Operand.Same.ty? {o o' : Operand} (h : o.Same d o') : o.ty? = o'.ty? := by
  cases h with
  | expr h => exact congrArg some h.ty
  | number n => rfl

theorem Operand.Same.checkBeside {o o' : Operand} (h : o.Same d o') (operation : String) (t : Ty) :
    o.checkBeside operation t = o'.checkBeside operation t := by
  simp only [Operand.checkBeside, h.ty?]

theorem checkArguments_same {os os' : List Operand} (h : List.Forall₂ (Operand.Same d) os os')
    (operation : String) (ts : List Ty) :
    checkArguments operation os ts = checkArguments operation os' ts := by
  induction h generalizing ts with
  | nil => rfl
  | cons ho hos ih =>
    cases ts with
    | nil => rfl
    | cons t ts => simp only [checkArguments, Operand.checkParam, ho.ty?, ih ts]

namespace Operation.Same

variable {op op' : Operation}

/-- **A type rule cannot tell the two apart.** -/
theorem check (h : op.Same d op') : op.check = op'.check := by
  cases h with
  | arithmetic ha hb => simp only [Operation.check, ha.ty, hb.checkBeside]
  | intrinsic ha => simp only [Operation.check, ha.ty]
  | step ha hb => simp only [Operation.check, ha.ty, hb.checkBeside]
  | smoothstep ha hb hc => simp only [Operation.check, ha.ty, hb.checkBeside, hc.checkBeside]
  | channel ha => simp only [Operation.check, ha.ty]
  | call h => simp only [Operation.check, h.length_eq, checkArguments_same h]

/-- The values are the same again. -/
theorem value (h : op.Same d op') : op.value.Same d op'.value := by
  cases h with
  | arithmetic ha hb => exact ⟨((ha.code.before _).before _ |>.before _).append hb.code, ha.ty⟩
  | intrinsic ha => exact ⟨sameText_callText _ (.cons ha.code .nil), ha.ty⟩
  | step ha hb =>
    exact ⟨sameText_callText _ (.cons ha.code (.cons hb.code (.cons ha.code .nil))), ha.ty⟩
  | smoothstep ha hb hc =>
    exact ⟨sameText_callText _ (.cons ha.code (.cons hb.code (.cons hc.code .nil))), ha.ty⟩
  | channel ha => exact ⟨(ha.code.before _).before _, rfl⟩
  | call h => exact ⟨sameText_callText _ (sameText_map h fun _ _ ho => ho.code), rfl⟩

end Operation.Same

end Operations

/-! ## Lines and functions -/

/-- Lines that are the same up to a shift. -/
inductive Line.Same (d : Nat) : Line → Line → Prop
  | raw {s s' : String} (h : SameText d s s') : Same d (.raw s) (.raw s')
  | declare {k k' : Nat} {op op' : Operation} (hk : Renumbered d k k') (h : op.Same d op') :
    Same d (.declare k op) (.declare k' op')
  | opening {c c' : String} (h : SameText d c c') : Same d (.opening c) (.opening c')
  | otherwise : Same d .otherwise .otherwise
  | closing : Same d .closing .closing
  | result {e e' : Expr} (h : e.Same d e') : Same d (.result e) (.result e')
  | color {e e' : Expr} (h : e.Same d e') : Same d (.color e) (.color e')

/-- Functions that are the same up to a shift. -/
structure Definition.Same (d : Nat) (f f' : Definition) : Prop where
  signature : f.signature = f'.signature
  lines : List.Forall₂ (Line.Same d) f.lines f'.lines

/-- Shaders that are the same up to a shift. -/
structure Output.Same (d : Nat) (out out' : Output) : Prop where
  uniforms : out.uniforms = out'.uniforms
  functions : List.Forall₂ (Definition.Same d) out.functions out'.functions
  main : List.Forall₂ (Line.Same d) out.main out'.main

/-- What two builders show that hold the same up to a shift. -/
structure View.Same (d : Nat) (v v' : View) : Prop where
  depth : v.depth = v'.depth
  lines : List.Forall₂ (Line.Same d) v.lines v'.lines
  building : v.building = v'.building

section Lines

variable {d : Nat}

/-- **Lines that are the same up to a shift are texts of one template.** -/
theorem Line.Same.text {l l' : Line} (h : l.Same d l') : SameText d l.text l'.text := by
  cases h with
  | raw h => exact h
  | @declare k k' op op' hk h =>
    have hty : SameText d op.value.ty.keyword op'.value.ty.keyword :=
      h.value.ty ▸ sameText_refl d op.value.ty.keyword
    have hname := ((hty.before " ").append hk.sameText).before " = "
    exact (hname.append h.value.code).before ";"
  | opening h => exact (h.after "if(").before ")\x7b"
  | otherwise => exact sameText_refl d "else\x7b"
  | closing => exact sameText_refl d "\x7d"
  | result h => exact (h.code.after "return ").before ";"
  | color h => exact (h.code.after "gl_FragColor = vec4(").before ", 0.0, 1.0);"

theorem sameText_lines {ls ls' : List Line} (h : List.Forall₂ (Line.Same d) ls ls') :
    List.Forall₂ (SameText d) (ls.map (·.text)) (ls'.map (·.text)) :=
  sameText_map h fun _ _ h => h.text

theorem Definition.Same.text {f f' : Definition} (h : f.Same d f') :
    SameText d f.text f'.text := by
  simp only [Definition.text, ← h.signature]
  have hlines := sameText_map h.lines fun _ _ h => h.text.after "  "
  exact ((SameText.intercalate "\n" hlines).after _).before _

/-- Two shaders with the same uniforms, the functions and main lines of both being texts of one list of
templates: temporaries are numbered from `0` on in the one and from `d` on in the other. -/
def Output.OfTemplates (d : Nat) (out out' : Output) : Prop :=
  out.uniforms = out'.uniforms ∧ ∃ functions main : List Template,
    out.blocks = functions.map (·.fill 0) ∧ out'.blocks = functions.map (·.fill d) ∧
    out.main.map (·.text) = main.map (·.fill 0) ∧ out'.main.map (·.text) = main.map (·.fill d)

theorem Output.Same.ofTemplates {out out' : Output} (h : out.Same d out') :
    out.OfTemplates d out' := by
  have hblocks : List.Forall₂ (SameText d) out.blocks out'.blocks :=
    sameText_map h.functions fun _ _ h => h.text
  obtain ⟨functions, hf, hf'⟩ := exists_templates hblocks
  obtain ⟨main, hm, hm'⟩ := exists_templates (sameText_lines h.main)
  exact ⟨h.uniforms, functions, main, hf, hf', hm, hm'⟩

end Lines

/-! ## Without a shift -/

theorem Expr.same_zero {e e' : Expr} : e.Same 0 e' ↔ e = e' := by
  refine ⟨fun h => ?_, fun h => h ▸ e.same_refl 0⟩
  obtain ⟨hc, ht⟩ := h
  cases e
  cases e'
  simp_all [sameText_zero]

theorem forall₂_eq_of_imp {α : Type} {R : α → α → Prop} (h : ∀ {x y}, R x y → x = y) {l l' : List α}
    (hl : List.Forall₂ R l l') : l = l' := by
  have := hl.imp fun _ _ => h
  rwa [List.forall₂_eq_eq_eq] at this

theorem Operand.Same.eq {o o' : Operand} (h : o.Same 0 o') : o = o' := by
  cases h with
  | expr h => rw [Expr.same_zero.1 h]
  | number n => rfl

theorem Operation.Same.eq {op op' : Operation} (h : op.Same 0 op') : op = op' := by
  cases h with
  | arithmetic ha hb => rw [Expr.same_zero.1 ha, hb.eq]
  | intrinsic ha => rw [Expr.same_zero.1 ha]
  | step ha hb => rw [Expr.same_zero.1 ha, hb.eq]
  | smoothstep ha hb hc => rw [Expr.same_zero.1 ha, hb.eq, hc.eq]
  | channel ha => rw [Expr.same_zero.1 ha]
  | call h => rw [forall₂_eq_of_imp Operand.Same.eq h]

theorem Line.Same.eq {l l' : Line} (h : l.Same 0 l') : l = l' := by
  cases h with
  | raw h => rw [sameText_zero.1 h]
  | declare hk h => obtain rfl | rfl := hk <;> simp [h.eq]
  | opening h => rw [sameText_zero.1 h]
  | otherwise => rfl
  | closing => rfl
  | result h => rw [Expr.same_zero.1 h]
  | color h => rw [Expr.same_zero.1 h]

theorem Definition.Same.eq {f f' : Definition} (h : f.Same 0 f') : f = f' := by
  have hl := forall₂_eq_of_imp Line.Same.eq h.lines
  have hs := h.signature
  cases f
  cases f'
  simp_all

theorem Output.Same.eq {out out' : Output} (h : out.Same 0 out') : out = out' := by
  have hf := forall₂_eq_of_imp Definition.Same.eq h.functions
  have hm := forall₂_eq_of_imp Line.Same.eq h.main
  have hu := h.uniforms
  cases out
  cases out'
  simp_all

theorem View.Same.eq {v v' : View} (h : v.Same 0 v') : v = v' := by
  have hl := forall₂_eq_of_imp Line.Same.eq h.lines
  have hd := h.depth
  have hb := h.building
  cases v
  cases v'
  simp_all

end Shader
