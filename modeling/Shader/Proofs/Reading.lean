import Shader.Proofs.Statement

/-!
# Reading a line back

A declaration is read from the words and signs of its text; the text says one thing only.

* `readAtom`, `readRightSide`, `Statement.read?`, `readColor?`: from tokens to what they say;
  `readMain?`: the lines of a main block;
* `tokens_atom`, `tokens_rightSide`: the tokens of a text;
* **`read?_text`**, `readColor?_colorText`, **`readMain?_text`**: what is written is read.
-/

namespace Shader

/-! ## Readers -/

/-- A sign that has to stand here. -/
def expect (c : Char) : List Token → Option (List Token)
  | .sign d :: ts => if d = c then some ts else none
  | _ => none

/-- A number that has to stand here, as it is printed. -/
def readNumeral : List Token → Option (String × List Token)
  | .word w :: ts => if isNumeral w then some (.ofList w, ts) else none
  | _ => none

/-- The numbers of a pair, with the signs around them. -/
def readPair (ts : List Token) : Option (Atom × List Token) := do
  let ts ← expect '(' ts
  let (x, ts) ← readNumeral ts
  let ts ← expect ',' ts
  let (y, ts) ← readNumeral ts
  let ts ← expect ')' ts
  return (.pair x y, ts)

/-- A word by itself is a number or a name. -/
def Atom.ofWord (w : List Char) : Atom :=
  if isNumeral w then .number (.ofList w) else .name (.ofList w)

/-- An atom, and what is left of the line. -/
def readAtom : List Token → Option (Atom × List Token)
  | .word w :: ts =>
    if w = "vec2".toList ∧ ts.head? = some (.sign '(') then readPair ts
    else if w = "gl_FragCoord".toList ∧ ts.take 2 = [.sign '.', .word "xy".toList] then
      some (.coord, ts.drop 2)
    else some (.ofWord w, ts)
  | _ => none

/-- The operator of a sign. -/
def Arithmetic.ofSign? (c : Char) : Option Arithmetic :=
  [add, sub, mul, div].find? (·.symbol.toList = [c])

/-- The function of one argument with the given name. -/
def Intrinsic.ofName? (word : List Char) : Option Intrinsic :=
  [sin, cos, normalize].find? (·.name.toList = word)

/-- The component with the given name. -/
def Channel.ofName? (word : List Char) : Option Channel :=
  [x, y, z, w].find? (·.name.toList = word)

/-- The argument of a function behind the opening parenthesis. -/
def readOne (make : Atom → RightSide) (ts : List Token) : Option (RightSide × List Token) := do
  let (a, ts) ← readAtom ts
  let ts ← expect ')' ts
  return (make a, ts)

/-- The three arguments of a function behind the opening parenthesis. -/
def readThree (make : Atom → Atom → Atom → RightSide) (ts : List Token) :
    Option (RightSide × List Token) := do
  let (a, ts) ← readAtom ts
  let ts ← expect ',' ts
  let (b, ts) ← readAtom ts
  let ts ← expect ',' ts
  let (c, ts) ← readAtom ts
  let ts ← expect ')' ts
  return (make a b c, ts)

/-- The call of a function, whose name and opening parenthesis have been read. -/
def readCall (name : List Char) (ts : List Token) : Option (RightSide × List Token) :=
  match Intrinsic.ofName? name with
  | some fn => readOne (.intrinsic fn) ts
  | none =>
    if name = "step".toList then readThree .step ts
    else if name = "smoothstep".toList then readThree .smoothstep ts
    else none

/-- An atom with an operator behind it, or with a component. -/
def readInfix (ts : List Token) : Option (RightSide × List Token) := do
  let (a, ts) ← readAtom ts
  match ts with
  | .sign c :: ts =>
    if c = '.' then
      match ts with
      | .word w :: ts => return (.channel (← Channel.ofName? w) a, ts)
      | _ => none
    else
      let op ← Arithmetic.ofSign? c
      let (b, ts) ← readAtom ts
      return (.arithmetic op a b, ts)
  | _ => none

/-- A right side, and what is left of the line. -/
def readRightSide (ts : List Token) : Option (RightSide × List Token) :=
  match ts with
  | .word f :: .sign c :: us =>
    if c = '(' ∧ f ≠ "vec2".toList then readCall f us else readInfix ts
  | _ => readInfix ts

/-- What the text of a declaration says. -/
def Statement.read? (text : String) : Option Statement :=
  match tokens text.toList with
  | .word t :: .word name :: .sign c :: ts => do
    let ty ← Ty.ofKeyword? (.ofList t)
    let (right, rest) ← readRightSide ts
    if c = '=' ∧ rest = [.sign ';'] then some ⟨ty, .ofList name, right⟩ else none
  | _ => none

/-- The first argument of the colour in the last line. -/
def readColor? (text : String) : Option Atom := do
  let ts := tokens text.toList
  let (a, rest) ← readAtom (ts.drop 4)
  if ts.take 4 = [.word "gl_FragColor".toList, .sign '=', .word "vec4".toList, .sign '('] ∧
      rest = [.sign ',', .word "0.0".toList, .sign ',', .word "1.0".toList, .sign ')', .sign ';'] then
    some a
  else none

/-- What the lines of a main block say: its declarations, and the colour in the last line. -/
def readMain? (lines : List String) : Option (List Statement × Atom) := do
  let last ← lines.getLast?
  let a ← readColor? last
  let ss ← lines.dropLast.mapM Statement.read?
  return (ss, a)

/-! ## The tokens of a text -/

/-- An atom whose names are identifiers and whose numbers are numbers. -/
def Atom.IsReadable : Atom → Prop
  | name n => isIdentifier n = true
  | number t => IsWord t.toList ∧ isNumeral t.toList = true
  | pair x y => (IsWord x.toList ∧ isNumeral x.toList = true) ∧
      IsWord y.toList ∧ isNumeral y.toList = true
  | coord => True

/-- The tokens of an atom. -/
def Atom.tokens : Atom → List Token
  | name n | number n => [.word n.toList]
  | pair x y => [.word "vec2".toList, .sign '(', .word x.toList, .sign ',', .word y.toList, .sign ')']
  | coord => [.word "gl_FragCoord".toList, .sign '.', .word "xy".toList]

/-- The character of an operator. -/
def Arithmetic.char : Arithmetic → Char
  | add => '+'
  | sub => '-'
  | mul => '*'
  | div => '/'

theorem Arithmetic.toList_symbol (op : Arithmetic) : op.symbol.toList = [op.char] := by
  cases op <;> rfl

/-- The tokens of a call. -/
def callTokens (name : String) : List Atom → List Token
  | [] => [.word name.toList, .sign '(', .sign ')']
  | a :: as => .word name.toList :: .sign '(' ::
      (a.tokens ++ as.flatMap fun b => .sign ',' :: b.tokens) ++ [.sign ')']

/-- The tokens of a right side. -/
def RightSide.tokens : RightSide → List Token
  | arithmetic op a b => a.tokens ++ .sign op.char :: b.tokens
  | intrinsic fn a => callTokens fn.name [a]
  | step a b c => callTokens "step" [a, b, c]
  | smoothstep a b c => callTokens "smoothstep" [a, b, c]
  | channel c a => a.tokens ++ [.sign '.', .word c.name.toList]

theorem toList_callText_one (name x : String) :
    (callText name [x]).toList = name.toList ++ '(' :: (x.toList ++ [')']) := by
  simp [callText]

theorem toList_callText_two (name x y : String) :
    (callText name [x, y]).toList =
      name.toList ++ '(' :: (x.toList ++ ',' :: ' ' :: (y.toList ++ [')'])) := by
  simp [callText]

theorem toList_callText_three (name x y z : String) :
    (callText name [x, y, z]).toList = name.toList ++ '(' :: (x.toList ++ ',' :: ' ' ::
      (y.toList ++ ',' :: ' ' :: (z.toList ++ [')']))) := by
  simp [callText]

theorem endsWord_stop {c : Char} (hc : isStop c = true) (rest : List Char) :
    EndsWord (c :: rest) :=
  endsWord_cons (parts_of_isStop hc rest)

theorem tokens_open (rest : List Char) : tokens ('(' :: rest) = .sign '(' :: tokens rest :=
  tokens_sign (parts_of_isStop (by decide) rest) (by decide)

theorem tokens_close (rest : List Char) : tokens (')' :: rest) = .sign ')' :: tokens rest :=
  tokens_sign (parts_of_isStop (by decide) rest) (by decide)

theorem tokens_comma (rest : List Char) :
    tokens (',' :: ' ' :: rest) = .sign ',' :: tokens rest := by
  rw [tokens_sign (parts_of_isStop (by decide) _) (by decide), tokens_blank]

theorem tokens_name {name : String} (hn : isIdentifier name = true) {rest : List Char}
    (hr : EndsWord rest) : tokens (name.toList ++ rest) = .word name.toList :: tokens rest :=
  tokens_append (isWord_of_isIdentifier hn).1 hr

/-- A point and a name behind it. -/
theorem tokens_point {name : String} (hn : isIdentifier name = true) {rest : List Char}
    (hr : EndsWord rest) :
    tokens ('.' :: (name.toList ++ rest)) = .sign '.' :: .word name.toList :: tokens rest := by
  obtain ⟨hw, hnum⟩ := isWord_of_isIdentifier hn
  rw [tokens_sign (parts_point hw hnum hr) (by decide), tokens_append hw hr]

theorem endsWord_point {name : String} (hn : isIdentifier name = true) {rest : List Char}
    (hr : EndsWord rest) : EndsWord ('.' :: (name.toList ++ rest)) := by
  obtain ⟨hw, hnum⟩ := isWord_of_isIdentifier hn
  exact endsWord_cons (parts_point hw hnum hr)

theorem tokens_atom {a : Atom} (ha : a.IsReadable) {rest : List Char} (hr : EndsWord rest) :
    tokens (a.text.toList ++ rest) = a.tokens ++ tokens rest := by
  cases a with
  | name n => exact tokens_name ha hr
  | number t => exact tokens_append ha.1 hr
  | pair x y =>
    obtain ⟨⟨hx, -⟩, hy, -⟩ := ha
    have hname : isIdentifier "vec2" = true := rfl
    simp only [Atom.text, toList_callText_two, List.append_assoc, List.cons_append, List.nil_append]
    rw [tokens_name hname (endsWord_stop (by decide) _), tokens_open,
      tokens_append hx (endsWord_stop (by decide) _), tokens_comma,
      tokens_append hy (endsWord_stop (by decide) _), tokens_close]
    rfl
  | coord =>
    have hcoord : isIdentifier "gl_FragCoord" = true := rfl
    have hxy : isIdentifier "xy" = true := rfl
    have hchars : Atom.coord.text.toList = "gl_FragCoord".toList ++ '.' :: "xy".toList := rfl
    rw [hchars, List.append_assoc, List.cons_append,
      tokens_name hcoord (endsWord_point hxy hr), tokens_point hxy hr]
    rfl

theorem tokens_call_one {name : String} (hn : isIdentifier name = true) {a : Atom}
    (ha : a.IsReadable) (rest : List Char) :
    tokens ((callText name [a.text]).toList ++ rest) = callTokens name [a] ++ tokens rest := by
  simp only [toList_callText_one, List.append_assoc, List.cons_append, List.nil_append]
  rw [tokens_name hn (endsWord_stop (by decide) _), tokens_open,
    tokens_atom ha (endsWord_stop (by decide) _), tokens_close]
  simp [callTokens]

theorem tokens_call_three {name : String} (hn : isIdentifier name = true) {a b c : Atom}
    (ha : a.IsReadable) (hb : b.IsReadable) (hc : c.IsReadable) (rest : List Char) :
    tokens ((callText name [a.text, b.text, c.text]).toList ++ rest) =
      callTokens name [a, b, c] ++ tokens rest := by
  simp only [toList_callText_three, List.append_assoc, List.cons_append, List.nil_append]
  rw [tokens_name hn (endsWord_stop (by decide) _), tokens_open,
    tokens_atom ha (endsWord_stop (by decide) _), tokens_comma,
    tokens_atom hb (endsWord_stop (by decide) _), tokens_comma,
    tokens_atom hc (endsWord_stop (by decide) _), tokens_close]
  simp [callTokens]

theorem tokens_rightSide {r : RightSide} (hr : ∀ a ∈ r.atoms, a.IsReadable) {rest : List Char}
    (hrest : EndsWord rest) : tokens (r.text.toList ++ rest) = r.tokens ++ tokens rest := by
  cases r with
  | arithmetic op a b =>
    have ha : a.IsReadable := hr a (by simp [RightSide.atoms])
    have hb : b.IsReadable := hr b (by simp [RightSide.atoms])
    have hop : isNameChar op.char = false ∧ op.char ≠ ' ' := by cases op <;> decide
    have htext : (RightSide.arithmetic op a b).text.toList ++ rest =
        a.text.toList ++ ' ' :: op.char :: ' ' :: (b.text.toList ++ rest) := by
      simp [RightSide.text, Arithmetic.toList_symbol]
    rw [htext, tokens_atom ha (endsWord_stop (by decide) _), tokens_blank,
      tokens_sign (parts_blank hop.1 _) hop.2, tokens_blank, tokens_atom hb hrest]
    simp [RightSide.tokens]
  | intrinsic fn a =>
    have hfn : isIdentifier fn.name = true := by cases fn <;> rfl
    exact tokens_call_one hfn (hr a (by simp [RightSide.atoms])) rest
  | step a b c =>
    exact tokens_call_three rfl (hr a (by simp [RightSide.atoms])) (hr b (by simp [RightSide.atoms]))
      (hr c (by simp [RightSide.atoms])) rest
  | smoothstep a b c =>
    exact tokens_call_three rfl (hr a (by simp [RightSide.atoms])) (hr b (by simp [RightSide.atoms]))
      (hr c (by simp [RightSide.atoms])) rest
  | channel c a =>
    have hc : isIdentifier c.name = true := by cases c <;> rfl
    have htext : (RightSide.channel c a).text.toList ++ rest =
        a.text.toList ++ '.' :: (c.name.toList ++ rest) := by
      simp [RightSide.text]
    rw [htext, tokens_atom (hr a (by simp [RightSide.atoms])) (endsWord_point hc hrest),
      tokens_point hc hrest]
    simp [RightSide.tokens]

/-! ## What is written is read -/

/-- The tokens that may come behind an atom: not those that would be read as a part of it. -/
def Follows (ts : List Token) : Prop :=
  ts.head? ≠ some (.sign '(') ∧ ts.take 2 ≠ [.sign '.', .word "xy".toList]

theorem follows_sign {c : Char} (hc : c ≠ '(' ∧ c ≠ '.') (ts : List Token) :
    Follows (.sign c :: ts) := by
  simp [Follows, hc.1, hc.2]

theorem follows_comma (ts : List Token) : Follows (.sign ',' :: ts) := follows_sign (by decide) ts

theorem follows_close (ts : List Token) : Follows (.sign ')' :: ts) := follows_sign (by decide) ts

theorem expect_sign (c : Char) (ts : List Token) : expect c (.sign c :: ts) = some ts := if_pos rfl

theorem readAtom_word {w : List Char} {ts : List Token} (hts : Follows ts) :
    readAtom (.word w :: ts) = some (.ofWord w, ts) := by
  rw [readAtom, if_neg fun h => hts.1 h.2, if_neg fun h => hts.2 h.2]

theorem readAtom_tokens {a : Atom} (ha : a.IsReadable) {ts : List Token} (hts : Follows ts) :
    readAtom (a.tokens ++ ts) = some (a, ts) := by
  cases a with
  | name n =>
    have hword : Atom.ofWord n.toList = .name n := by
      simp [Atom.ofWord, (isWord_of_isIdentifier ha).2]
    exact (readAtom_word hts).trans (by rw [hword])
  | number t =>
    have hword : Atom.ofWord t.toList = .number t := by simp [Atom.ofWord, ha.2]
    exact (readAtom_word hts).trans (by rw [hword])
  | pair x y =>
    obtain ⟨⟨-, hx⟩, -, hy⟩ := ha
    simp [Atom.tokens, readAtom, readPair, expect_sign, readNumeral, hx, hy]
  | coord => simp [Atom.tokens, readAtom]

theorem readOne_tokens (make : Atom → RightSide) {a : Atom} (ha : a.IsReadable)
    (ts : List Token) : readOne make (a.tokens ++ .sign ')' :: ts) = some (make a, ts) := by
  simp [readOne, readAtom_tokens ha (follows_close _), expect_sign]

theorem readThree_tokens (make : Atom → Atom → Atom → RightSide) {a b c : Atom}
    (ha : a.IsReadable) (hb : b.IsReadable) (hc : c.IsReadable) (ts : List Token) :
    readThree make (a.tokens ++ .sign ',' :: (b.tokens ++ .sign ',' :: (c.tokens ++
      .sign ')' :: ts))) = some (make a b c, ts) := by
  simp [readThree, readAtom_tokens ha (follows_comma _), readAtom_tokens hb (follows_comma _),
    readAtom_tokens hc (follows_close _), expect_sign]

/-- The call of a function other than `vec2` is read as a call. -/
theorem readRightSide_call {name : String} (hn : name.toList ≠ "vec2".toList) (ts : List Token) :
    readRightSide (.word name.toList :: .sign '(' :: ts) = readCall name.toList ts := by
  rw [readRightSide, if_pos ⟨rfl, hn⟩]

/-- What begins with an atom is read as an operator or a component behind it. -/
theorem readRightSide_infix {a : Atom} {c : Char} (hc : c ≠ '(') (ts : List Token) :
    readRightSide (a.tokens ++ .sign c :: ts) = readInfix (a.tokens ++ .sign c :: ts) := by
  cases a with
  | name n => exact if_neg fun h => hc h.1
  | number t => exact if_neg fun h => hc h.1
  | pair x y => simp [Atom.tokens, readRightSide]
  | coord => simp [Atom.tokens, readRightSide]

theorem readRightSide_tokens {r : RightSide} (hr : ∀ a ∈ r.atoms, a.IsReadable) {ts : List Token}
    (hts : Follows ts) : readRightSide (r.tokens ++ ts) = some (r, ts) := by
  cases r with
  | arithmetic op a b =>
    have ha : a.IsReadable := hr a (by simp [RightSide.atoms])
    have hb : b.IsReadable := hr b (by simp [RightSide.atoms])
    have hop : op.char ≠ '(' ∧ op.char ≠ '.' := by cases op <;> decide
    have hread : Arithmetic.ofSign? op.char = some op := by cases op <;> rfl
    rw [RightSide.tokens, List.append_assoc, List.cons_append, readRightSide_infix hop.1, readInfix,
      readAtom_tokens ha (follows_sign hop _)]
    simp [hop.2, hread, readAtom_tokens hb hts]
  | intrinsic fn a =>
    have ha : a.IsReadable := hr a (by simp [RightSide.atoms])
    have hread : Intrinsic.ofName? fn.name.toList = some fn := by cases fn <;> rfl
    have hname : fn.name.toList ≠ "vec2".toList := by cases fn <;> decide
    have htokens : (RightSide.intrinsic fn a).tokens ++ ts =
        .word fn.name.toList :: .sign '(' :: (a.tokens ++ .sign ')' :: ts) := by
      simp [RightSide.tokens, callTokens]
    rw [htokens, readRightSide_call hname, readCall, hread]
    exact readOne_tokens _ ha ts
  | step a b c =>
    have htokens : (RightSide.step a b c).tokens ++ ts = .word "step".toList :: .sign '(' ::
        (a.tokens ++ .sign ',' :: (b.tokens ++ .sign ',' :: (c.tokens ++ .sign ')' :: ts))) := by
      simp [RightSide.tokens, callTokens]
    rw [htokens, readRightSide_call (by decide)]
    exact readThree_tokens .step (hr a (by simp [RightSide.atoms]))
      (hr b (by simp [RightSide.atoms])) (hr c (by simp [RightSide.atoms])) ts
  | smoothstep a b c =>
    have htokens : (RightSide.smoothstep a b c).tokens ++ ts =
        .word "smoothstep".toList :: .sign '(' ::
          (a.tokens ++ .sign ',' :: (b.tokens ++ .sign ',' :: (c.tokens ++ .sign ')' :: ts))) := by
      simp [RightSide.tokens, callTokens]
    rw [htokens, readRightSide_call (by decide)]
    exact readThree_tokens .smoothstep (hr a (by simp [RightSide.atoms]))
      (hr b (by simp [RightSide.atoms])) (hr c (by simp [RightSide.atoms])) ts
  | channel c a =>
    have ha : a.IsReadable := hr a (by simp [RightSide.atoms])
    have hread : Channel.ofName? c.name.toList = some c := by cases c <;> rfl
    have hpoint : Follows (.sign '.' :: .word c.name.toList :: ts) := by
      cases c <;> simp [Follows, Channel.name]
    rw [RightSide.tokens, List.append_assoc, List.cons_append, List.cons_append, List.nil_append,
      readRightSide_infix (by decide), readInfix, readAtom_tokens ha hpoint]
    simp [hread]

/-- A declaration whose name is an identifier and whose atoms are readable. -/
structure Statement.IsReadable (s : Statement) : Prop where
  name : isIdentifier s.name = true
  atoms : ∀ a ∈ s.right.atoms, a.IsReadable

/-- **The text of a declaration says what was written.** -/
theorem Statement.read?_text {s : Statement} (hs : s.IsReadable) : read? s.text = some s := by
  obtain ⟨ty, name, right⟩ := s
  have hty : isIdentifier ty.keyword = true := by cases ty <;> rfl
  have hchars : (Statement.mk ty name right).text.toList = ty.keyword.toList ++ ' ' ::
      (name.toList ++ ' ' :: '=' :: ' ' :: (right.text.toList ++ [';'])) := by
    simp [Statement.text]
  have hsemicolon : tokens [';'] = [.sign ';'] := by decide
  have htokens : tokens (Statement.mk ty name right).text.toList = .word ty.keyword.toList ::
      .word name.toList :: .sign '=' :: (right.tokens ++ [.sign ';']) := by
    rw [hchars, tokens_name hty (endsWord_stop (by decide) _), tokens_blank,
      tokens_name hs.name (endsWord_stop (by decide) _), tokens_blank,
      tokens_sign (parts_blank (by decide) _) (by decide), tokens_blank,
      tokens_rightSide hs.atoms (endsWord_stop (by decide) _), hsemicolon]
  have hkeyword : Ty.ofKeyword? ty.keyword = some ty := Ty.ofKeyword?_eq_some_iff.2 rfl
  have hright := readRightSide_tokens hs.atoms (follows_sign (by decide) _ : Follows [.sign ';'])
  simp [read?, htokens, hkeyword, hright]

theorem toList_colorText (a : Atom) :
    (colorText a).toList = "gl_FragColor".toList ++ ' ' :: '=' :: ' ' :: ("vec4".toList ++ '(' ::
      (a.text.toList ++ ',' :: ' ' :: ("0.0".toList ++ ',' :: ' ' :: ("1.0".toList ++ [')', ';'])))) := by
  have hfront : "gl_FragColor = vec4(".toList =
      "gl_FragColor".toList ++ ' ' :: '=' :: ' ' :: ("vec4".toList ++ ['(']) := rfl
  have hback : ", 0.0, 1.0);".toList =
      ',' :: ' ' :: ("0.0".toList ++ ',' :: ' ' :: ("1.0".toList ++ [')', ';'])) := rfl
  unfold colorText
  rw [String.toList_append, String.toList_append, hfront, hback]
  simp only [List.append_assoc, List.cons_append, List.nil_append]

/-- The last line says which atom gives the colour. -/
theorem readColor?_colorText {a : Atom} (ha : a.IsReadable) : readColor? (colorText a) = some a := by
  have hcolor : isIdentifier "gl_FragColor" = true := rfl
  have hvec4 : isIdentifier "vec4" = true := rfl
  have hzero : IsWord "0.0".toList := (isWord_tenthsText 0).1
  have hone : IsWord "1.0".toList := (isWord_tenthsText 10).1
  have hsemicolon : tokens [';'] = [.sign ';'] := by decide
  have htokens : tokens (colorText a).toList = .word "gl_FragColor".toList :: .sign '=' ::
      .word "vec4".toList :: .sign '(' :: (a.tokens ++ [.sign ',', .word "0.0".toList,
        .sign ',', .word "1.0".toList, .sign ')', .sign ';']) := by
    rw [toList_colorText, tokens_name hcolor (endsWord_stop (by decide) _), tokens_blank,
      tokens_sign (parts_blank (by decide) _) (by decide), tokens_blank,
      tokens_name hvec4 (endsWord_stop (by decide) _), tokens_open,
      tokens_atom ha (endsWord_stop (by decide) _), tokens_comma,
      tokens_append hzero (endsWord_stop (by decide) _), tokens_comma,
      tokens_append hone (endsWord_stop (by decide) _), tokens_close, hsemicolon]
  simp [readColor?, htokens, readAtom_tokens ha (follows_comma _)]

theorem mapM_read?_text {ss : List Statement} (hs : ∀ s ∈ ss, s.IsReadable) :
    (ss.map Statement.text).mapM Statement.read? = some ss := by
  induction ss with
  | nil => rfl
  | cons s ss ih =>
    have hhead := Statement.read?_text (hs s List.mem_cons_self)
    have htail := ih fun t ht => hs t (List.mem_cons_of_mem s ht)
    simp [List.mapM_cons, hhead, htail]

/-- **The text of a main block says what was written.** -/
theorem readMain?_text {ss : List Statement} {a : Atom} (hs : ∀ s ∈ ss, s.IsReadable)
    (ha : a.IsReadable) :
    readMain? (ss.map Statement.text ++ [colorText a]) = some (ss, a) := by
  simp [readMain?, readColor?_colorText ha, mapM_read?_text hs]

end Shader
