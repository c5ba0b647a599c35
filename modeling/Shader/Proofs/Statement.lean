import Shader.Proofs.Words

/-!
# The lines of a graph, as text

The main block of a graph is made of declarations whose right side is one operation on atoms. Their
text is cut into words and signs.

* `Atom`, `RightSide`, `Statement`: what a line says, and how it reads;
* `scan`, `tokens`: words and signs; `EndsWord`, `Parts`: where a word ends;
* **`tokens_append`**, `tokens_sign`, `tokens_blank`: the tokens of a text, from the left.
-/

namespace Shader

/-! ## What a line says -/

/-- What an operation is applied to. Numbers are kept as they are printed. -/
inductive Atom
  | name (name : String)
  | number (text : String)
  /-- A pair of numbers. -/
  | pair (x y : String)
  /-- The screen coordinate. -/
  | coord
deriving DecidableEq, Repr

/-- How an atom reads. -/
def Atom.text : Atom → String
  | name n => n
  | number t => t
  | pair x y => callText "vec2" [x, y]
  | coord => "gl_FragCoord.xy"

/-- One operator or function, applied to atoms. -/
inductive RightSide
  | arithmetic (op : Arithmetic) (a b : Atom)
  | intrinsic (fn : Intrinsic) (a : Atom)
  | step (a b c : Atom)
  | smoothstep (a b c : Atom)
  | channel (c : Channel) (a : Atom)
deriving DecidableEq, Repr

namespace RightSide

/-- How a right side reads. -/
def text : RightSide → String
  | arithmetic op a b => a.text ++ " " ++ op.symbol ++ " " ++ b.text
  | intrinsic fn a => callText fn.name [a.text]
  | step a b c => callText "step" [a.text, b.text, c.text]
  | smoothstep a b c => callText "smoothstep" [a.text, b.text, c.text]
  | channel c a => a.text ++ "." ++ c.name

/-- What the operation is applied to. -/
def atoms : RightSide → List Atom
  | arithmetic _ a b => [a, b]
  | intrinsic _ a | channel _ a => [a]
  | step a b c | smoothstep a b c => [a, b, c]

end RightSide

/-- The declaration of a name. -/
structure Statement where
  ty : Ty
  name : String
  right : RightSide
deriving DecidableEq, Repr

/-- How a declaration reads. -/
def Statement.text (s : Statement) : String :=
  s.ty.keyword ++ " " ++ s.name ++ " = " ++ s.right.text ++ ";"

/-- How the last line reads, which gives the colour. -/
def colorText (a : Atom) : String := "gl_FragColor = vec4(" ++ a.text ++ ", 0.0, 1.0);"

/-! ## Tokens -/

/-- A piece of a line. -/
inductive Token
  | word (cs : List Char)
  | sign (c : Char)
  | blank
deriving DecidableEq, Repr

namespace Token

/-- The token that a character starts on its own. -/
def start (c : Char) : Token :=
  if c = ' ' then blank else if isNameChar c then word [c] else sign c

/-- Put a character before tokens. It joins the first one, or starts another. -/
def push (c : Char) : List Token → List Token
  | word cs :: ts => if joins c cs then word (c :: cs) :: ts else start c :: word cs :: ts
  | ts => start c :: ts

end Token

/-- The tokens of a text, blanks among them. -/
def scan (cs : List Char) : List Token := cs.foldr Token.push []

/-- The words and signs of a text. -/
def tokens (cs : List Char) : List Token := (scan cs).filter (· ≠ .blank)

/-! ## Where a word ends -/

/-- No word begins where the text goes on like this. -/
def EndsWord (rest : List Char) : Prop := ∀ cs ts, scan rest ≠ .word cs :: ts

/-- A character that belongs to no word in front of the given text. -/
structure Parts (c : Char) (rest : List Char) : Prop where
  not_name : isNameChar c = false
  not_joins : ∀ cs ts, scan rest = .word cs :: ts → joins c cs = false

/-- The characters that belong to no word anywhere. -/
def isStop (c : Char) : Bool := !isNameChar c && c ≠ '.' && c ≠ '-'

theorem parts_of_isStop {c : Char} (hc : isStop c = true) (rest : List Char) : Parts c rest := by
  simp only [isStop, Bool.and_eq_true, Bool.not_eq_true', decide_eq_true_eq] at hc
  obtain ⟨⟨hname, hpoint⟩, hminus⟩ := hc
  exact ⟨hname, fun cs ts _ => by simp [joins, hname, hpoint, hminus]⟩

theorem scan_cons {c : Char} {rest : List Char} (h : Parts c rest) :
    scan (c :: rest) = Token.start c :: scan rest := by
  change Token.push c (scan rest) = _
  unfold Token.push
  split
  case h_1 cs ts hs => rw [hs, h.not_joins cs ts hs, if_neg Bool.false_ne_true]
  case h_2 => rfl

theorem start_ne_word {c : Char} (h : isNameChar c = false) (cs : List Char) :
    Token.start c ≠ .word cs := by
  rw [Token.start, h, if_neg Bool.false_ne_true]
  split <;> exact Token.noConfusion

theorem endsWord_cons {c : Char} {rest : List Char} (h : Parts c rest) : EndsWord (c :: rest) := by
  intro cs ts hs
  rw [scan_cons h] at hs
  exact start_ne_word h.not_name cs (List.cons.inj hs).1

/-- Nothing joins the word behind a blank. -/
theorem parts_blank {c : Char} (h : isNameChar c = false) (rest : List Char) :
    Parts c (' ' :: rest) :=
  ⟨h, fun cs ts hs => absurd hs (endsWord_cons (parts_of_isStop (by decide) rest) cs ts)⟩

theorem scan_append {w rest : List Char} (hw : IsWord w) (hr : EndsWord rest) :
    scan (w ++ rest) = .word w :: scan rest := by
  induction w with
  | nil => exact hw.elim
  | cons c cs ih =>
    cases cs with
    | nil =>
      have hc : isNameChar c = true := hw
      have hblank : c ≠ ' ' := by
        rintro rfl
        exact absurd hc (by decide)
      have hstart : Token.start c = .word [c] := by simp [Token.start, hblank, hc]
      change Token.push c (scan rest) = _
      unfold Token.push
      split
      case h_1 ds ts hs => exact absurd hs (hr ds ts)
      case h_2 => rw [hstart]
    | cons d ds =>
      obtain ⟨hj, hds⟩ := hw
      change Token.push c (scan (d :: ds ++ rest)) = _
      rw [ih hds, Token.push, if_pos hj]

/-- A point in front of a name belongs to no word. -/
theorem parts_point {w rest : List Char} (hw : IsWord w) (hn : isNumeral w = false)
    (hr : EndsWord rest) : Parts '.' (w ++ rest) := by
  refine ⟨by decide, fun cs ts hs => ?_⟩
  rw [scan_append hw hr] at hs
  cases hs
  cases w with
  | nil => exact hw.elim
  | cons c cs =>
    have hdigit : c.isDigit = false := by simp_all [isNumeral]
    simp [joins, isNameChar, hdigit, Char.isAlphanum]

/-- **A word is cut off where it ends.** -/
theorem tokens_append {w rest : List Char} (hw : IsWord w) (hr : EndsWord rest) :
    tokens (w ++ rest) = .word w :: tokens rest := by
  rw [tokens, scan_append hw hr, List.filter_cons_of_pos (by simp)]
  rfl

theorem tokens_blank (rest : List Char) : tokens (' ' :: rest) = tokens rest := by
  rw [tokens, scan_cons (parts_of_isStop (by decide) rest), List.filter_cons_of_neg (by decide)]
  rfl

theorem tokens_sign {c : Char} {rest : List Char} (h : Parts c rest) (hb : c ≠ ' ') :
    tokens (c :: rest) = .sign c :: tokens rest := by
  have hstart : Token.start c = .sign c := by simp [Token.start, hb, h.not_name]
  rw [tokens, scan_cons h, hstart, List.filter_cons_of_pos (by simp)]
  rfl

end Shader
