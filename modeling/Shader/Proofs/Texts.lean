import Shader.Proofs.Steps
import Shader.Proofs.Words

/-!
# The texts a shader is made of

A shader is text that callers have given, set out with words of its own. The braces and line breaks of
the layout occur in none of these words, so where they occur in a line, a caller has put them there.

* `isMark`: the braces and the line break;
* `Line.texts`, `Definition.texts`, `Output.texts`: what callers have given;
* `not_mem_value`, **`not_mem_text`**: a line has no marks but its own and those of its texts;
* `toList_mainBlock`, `toList_text`: blocks as the sequence of their lines;
* `Builder.Returns`, **`returns_of_build`**: every function of a shader ends with its result.
-/

namespace Shader

/-- The signs of the layout. -/
def isMark (c : Char) : Bool := c = '\x7b' || c = '\x7d' || c = '\n'

/-! ## What callers have given -/

/-- The text of an operand; a number has none. -/
def Operand.texts : Operand → List String
  | expr e => [e.code]
  | number _ => []

/-- The texts of the operands, and the name of a function that is called. -/
def Operation.texts : Operation → List String
  | arithmetic _ a b => a.code :: b.texts
  | intrinsic _ a => [a.code]
  | step a edge => a.code :: edge.texts
  | smoothstep a edge₀ edge₁ => a.code :: (edge₀.texts ++ edge₁.texts)
  | channel _ a => [a.code]
  | call f args => f.name :: args.flatMap Operand.texts

/-- The texts in a line. -/
def Line.texts : Line → List String
  | raw text => [text]
  | declare _ op => op.texts
  | opening cond => [cond]
  | otherwise => []
  | closing => []
  | result value => [value.code]
  | color value => [value.code]

/-- The texts in the head of a function: its name and those of its parameters. -/
def Signature.texts (s : Signature) : List String := s.name :: s.params.map (·.name)

/-- The texts in a function. -/
def Definition.texts (d : Definition) : List String :=
  d.signature.texts ++ d.lines.flatMap Line.texts

/-- The texts in a shader. -/
def Output.texts (o : Output) : List String :=
  o.uniforms.map (·.name) ++ o.functions.flatMap Definition.texts ++ o.main.flatMap Line.texts

/-! ## Words without marks -/

/-- A sign does not occur in a text. -/
def Lacks (c : Char) (s : String) : Prop := c ∉ s.toList

instance (c : Char) (s : String) : Decidable (Lacks c s) := inferInstanceAs (Decidable (c ∉ s.toList))

namespace Lacks

variable {c : Char} {s t u : String}

theorem append (hs : Lacks c s) (ht : Lacks c t) : Lacks c (s ++ t) := by
  simpa [Lacks] using ⟨hs, ht⟩

theorem intercalate {texts : List String} (hs : Lacks c s) (h : ∀ t ∈ texts, Lacks c t) :
    Lacks c (String.intercalate s texts) := by
  induction texts with
  | nil => simp [Lacks]
  | cons t texts ih =>
    obtain ⟨ht, htexts⟩ := List.forall_mem_cons.1 h
    cases texts with
    | nil => simpa using ht
    | cons u texts =>
      rw [String.intercalate_cons_cons]
      exact (ht.append hs).append (ih htexts)

end Lacks

section Marks

variable {c : Char} (hc : isMark c = true)
include hc

theorem lacks_of_all {s : String} (h : s.toList.all (!isMark ·) = true) : Lacks c s := fun hmem => by
  simpa [hc] using List.all_eq_true.1 h c hmem

theorem not_isNameChar_of_isMark : isNameChar c = false := by
  simp only [isMark, Bool.or_eq_true, decide_eq_true_eq, or_assoc] at hc
  obtain rfl | rfl | rfl := hc <;> decide

theorem not_mem_digits (n : Nat) : c ∉ Nat.toDigits 10 n := fun hmem => by
  have hname := isNameChar_of_isDigit (isDigit_of_mem_digits hmem)
  rw [not_isNameChar_of_isMark hc] at hname
  cases hname

theorem lacks_toString (n : Nat) : Lacks c (toString n) := by
  simpa [Lacks] using not_mem_digits hc n

theorem lacks_tempName (n : Nat) : Lacks c (tempName n) :=
  (lacks_of_all hc (by decide)).append (lacks_toString hc n)

theorem lacks_tenthsText (n : Nat) : Lacks c (tenthsText n) :=
  ((lacks_toString hc _).append (lacks_of_all hc (by decide))).append (lacks_toString hc _)

theorem lacks_literal (v : Binary64) : Lacks c (literal v) := by
  have hsign (negative : Bool) : Lacks c (signText negative) := by
    cases negative <;> exact lacks_of_all hc (by decide)
  cases v with
  | nan => exact lacks_of_all hc (by decide)
  | infinite negative => exact (hsign negative).append (lacks_of_all hc (by decide))
  | finite negative m =>
    rw [literal]
    split
    · exact lacks_of_all hc (by decide)
    · exact (hsign negative).append (lacks_tenthsText hc _)

theorem lacks_keyword (t : Ty) : Lacks c t.keyword := by
  cases t <;> exact lacks_of_all hc (by decide)

theorem lacks_declared {v : Var} (h : Lacks c v.name) : Lacks c v.declared :=
  ((lacks_keyword hc v.ty).append (lacks_of_all hc (by decide))).append h

theorem lacks_declaration {v : Var} (h : Lacks c v.name) : Lacks c v.declaration :=
  ((lacks_of_all hc (by decide)).append (lacks_declared hc h)).append (lacks_of_all hc (by decide))

theorem lacks_callText {name : String} {args : List String} (hn : Lacks c name)
    (ha : ∀ a ∈ args, Lacks c a) : Lacks c (callText name args) :=
  ((hn.append (lacks_of_all hc (by decide))).append
    (.intercalate (lacks_of_all hc (by decide)) ha)).append (lacks_of_all hc (by decide))

theorem lacks_operand {o : Operand} (h : ∀ t ∈ o.texts, Lacks c t) : Lacks c o.code := by
  cases o with
  | expr e => exact h e.code List.mem_cons_self
  | number n => exact lacks_literal hc n

/-- What an operation is written as has no marks but those of its texts. -/
theorem lacks_value {op : Operation} (h : ∀ t ∈ op.texts, Lacks c t) : Lacks c op.value.code := by
  cases op with
  | arithmetic fn a b =>
    obtain ⟨ha, hb⟩ := List.forall_mem_cons.1 h
    have hsign : Lacks c fn.symbol := by cases fn <;> exact lacks_of_all hc (by decide)
    have hblank : Lacks c " " := lacks_of_all hc (by decide)
    exact (((ha.append hblank).append hsign).append hblank).append (lacks_operand hc hb)
  | intrinsic fn a =>
    have hname : Lacks c fn.name := by cases fn <;> exact lacks_of_all hc (by decide)
    exact lacks_callText hc hname h
  | step a edge =>
    obtain ⟨ha, he⟩ := List.forall_mem_cons.1 h
    refine lacks_callText hc (lacks_of_all hc (by decide)) ?_
    exact List.forall_mem_cons.2 ⟨ha, List.forall_mem_cons.2 ⟨lacks_operand hc he,
      List.forall_mem_singleton.2 ha⟩⟩
  | smoothstep a edge₀ edge₁ =>
    obtain ⟨ha, he⟩ := List.forall_mem_cons.1 h
    obtain ⟨he₀, he₁⟩ := List.forall_mem_append.1 he
    refine lacks_callText hc (lacks_of_all hc (by decide)) ?_
    simpa using ⟨ha, lacks_operand hc he₀, lacks_operand hc he₁⟩
  | channel fn a =>
    have hname : Lacks c fn.name := by cases fn <;> exact lacks_of_all hc (by decide)
    exact ((h a.code List.mem_cons_self).append (lacks_of_all hc (by decide))).append hname
  | call f args =>
    obtain ⟨hf, ha⟩ := List.forall_mem_cons.1 h
    refine lacks_callText hc hf fun t ht => ?_
    obtain ⟨o, ho, rfl⟩ := List.mem_map.1 ht
    exact lacks_operand hc fun t ht => ha t (List.mem_flatMap.2 ⟨o, ho, ht⟩)

end Marks

/-- A line that neither opens nor closes anything. -/
def Line.isPlain : Line → Bool
  | opening _ | otherwise | closing => false
  | _ => true

/-- **A line has no marks but those of its texts**, apart from the braces of a conditional. -/
theorem lacks_text {c : Char} (hc : isMark c = true) {line : Line}
    (hline : line.isPlain = true ∨ c = '\n') (h : ∀ t ∈ line.texts, Lacks c t) :
    Lacks c line.text := by
  have hopen (hl : line.isPlain = false) : c = '\n' := hline.resolve_left (by simp [hl])
  cases line with
  | raw text => exact h text List.mem_cons_self
  | declare n op =>
    have hequals : Lacks c " = " := lacks_of_all hc (by decide)
    exact (((((lacks_keyword hc _).append (lacks_of_all hc (by decide))).append
      (lacks_tempName hc n)).append hequals).append (lacks_value hc h)).append
      (lacks_of_all hc (by decide))
  | opening cond =>
    obtain rfl := hopen rfl
    exact (Lacks.append (by decide) (h cond List.mem_cons_self)).append (by decide)
  | otherwise =>
    obtain rfl := hopen rfl
    decide
  | closing =>
    obtain rfl := hopen rfl
    decide
  | result value =>
    exact ((lacks_of_all hc (by decide)).append (h value.code List.mem_cons_self)).append
      (lacks_of_all hc (by decide))
  | color value =>
    exact ((lacks_of_all hc (by decide)).append (h value.code List.mem_cons_self)).append
      (lacks_of_all hc (by decide))

/-! ## Blocks -/

/-- The text of a block: what stands before its brace, and its lines. -/
def blockText (head : String) (lines : List String) : List Char :=
  head.toList ++ '\x7b' ::
    (lines.flatMap (fun l => '\n' :: ' ' :: ' ' :: l.toList) ++ ['\n', '\x7d'])

theorem intercalate_cons {α : Type} (sep l : List α) (ls : List (List α)) :
    sep.intercalate (l :: ls) = l ++ ls.flatMap (sep ++ ·) := by
  induction ls generalizing l with
  | nil => simp
  | cons l' ls ih => rw [List.intercalate_cons_cons, ih, List.flatMap_cons, List.append_assoc,
      List.append_assoc]

theorem append_intercalate {α : Type} (sep : List α) {ls : List (List α)} (h : ls ≠ []) :
    sep ++ sep.intercalate ls = ls.flatMap (sep ++ ·) := by
  obtain ⟨l, ls, rfl⟩ := List.exists_cons_of_ne_nil h
  rw [intercalate_cons, List.flatMap_cons, List.append_assoc]

theorem toList_mainBlock {lines : List String} (h : lines ≠ []) :
    (mainBlock lines).toList = blockText "void main()" lines := by
  have hlines : "\n  ".toList ++ "\n  ".toList.intercalate (lines.map (·.toList)) =
      lines.flatMap (fun l => '\n' :: ' ' :: ' ' :: l.toList) := by
    rw [append_intercalate _ (by simpa using h), List.flatMap_map]
    rfl
  show ("void main()\x7b\n  " ++ String.intercalate "\n  " lines ++ "\n\x7d").toList = _
  simp only [String.toList_append, String.toList_intercalate, blockText, ← hlines]
  simp

/-- What stands before the brace of a function. -/
def Signature.head (s : Signature) : String :=
  s.result.keyword ++ " " ++ callText s.name (s.params.map (·.declared)) ++ " "

theorem lacks_head {c : Char} (hc : isMark c = true) {s : Signature}
    (h : ∀ t ∈ s.texts, Lacks c t) : Lacks c s.head := by
  obtain ⟨hname, hparams⟩ := List.forall_mem_cons.1 h
  have hblank : Lacks c " " := lacks_of_all hc (by decide)
  have hcall : Lacks c (callText s.name (s.params.map (·.declared))) := by
    refine lacks_callText hc hname fun t ht => ?_
    obtain ⟨v, hv, rfl⟩ := List.mem_map.1 ht
    exact lacks_declared hc (hparams v.name (List.mem_map_of_mem hv))
  exact (((lacks_keyword hc s.result).append hblank).append hcall).append hblank

theorem toList_text {d : Definition} (h : d.lines ≠ []) :
    d.text.toList = blockText d.signature.head (d.lines.map (·.text)) := by
  have hlines : "\n".toList ++ "\n".toList.intercalate (d.lines.map ("  " ++ ·.text) |>.map (·.toList)) =
      (d.lines.map (·.text)).flatMap (fun l => '\n' :: ' ' :: ' ' :: l.toList) := by
    rw [append_intercalate _ (by simpa using h), List.map_map, List.flatMap_map, List.flatMap_map]
    refine congrArg (fun f => d.lines.flatMap f) (funext fun l => ?_)
    simp
  simp only [Definition.text, String.toList_append, String.toList_intercalate, blockText, ← hlines,
    Signature.head]
  simp

/-! ## Functions -/

/-- Every function ends with its result, which is of the declared type. -/
def Returns (functions : List Definition) : Prop :=
  ∀ d ∈ functions, ∃ lines value, d.lines = lines ++ [Line.result value] ∧ value.ty = d.signature.result

theorem Builder.Step.returns {b b' : Builder} (h : b.Step b') (hb : Returns b.functions) :
    Returns b'.functions := by
  cases h with
  | write | declare | enter | drop => exact hb
  | @keep s lines value _ _ _ _ hv =>
    intro d hd
    obtain hd | hd := List.mem_append.1 hd
    · exact hb d hd
    · obtain rfl := List.mem_singleton.1 hd
      exact ⟨lines, value, rfl, hv⟩
  | start => exact fun d hd => absurd hd List.not_mem_nil
  | @settle r => cases r <;> exact hb

/-- **The functions of a finished shader end with their results.** -/
theorem returns_of_build {σ : Type} {wanted : List Var} {main : Fragment → Program σ Expr} {m m' : σ}
    {b b' : Builder} {out : Output}
    (h : (Program.build wanted main .pure).run m b = (.done (.ok out), m', b')) :
    Returns out.functions := by
  obtain ⟨-, uniforms, value, b₁, -, hmain, -, -, rfl, -⟩ := Program.run_build_eq_ok h
  have hreach := (main ⟨uniforms⟩).run_reaches m (b.begun uniforms)
  rw [hmain] at hreach
  have hnone : Returns (b.begun uniforms).functions := fun d hd => absurd hd List.not_mem_nil
  exact hreach.keeps (P := fun b => Returns b.functions) (fun hs hr => hs.returns hr) hnone

theorem Returns.lines_ne_nil {functions : List Definition} (h : Returns functions) {d : Definition}
    (hd : d ∈ functions) : d.lines ≠ [] := by
  obtain ⟨lines, value, hl, -⟩ := h d hd
  simp [hl]

end Shader
